import DiveCANHead.Lib.Program
import DiveCANHead.Lib.Region

/-!
# The flash under the factory backup

The two image slots and the store of the backup (`factory_image_backend_flash.c`), with the flag of
a finished capture in RAM and in the settings. What the flash does with a command is an argument of
the command: the status it returns, what a power cut finds in the range and what is left there.
Reads that succeed are honest.
-/

namespace DiveCANHead.Factory

open DiveCANHead.Lib DiveCANHead.Lib.Prog

/-- The bytes of a flash area, or a buffer of such. -/
abbrev Region := ℕ → UInt8

/-- `Status_t`: zero, or a negative errno. -/
abbrev Status := Int

def enoent : Status := -2
def eio : Status := -5
def ebadf : Status := -9
def ebusy : Status := -16
def enodev : Status := -19
def einval : Status := -22
def enospc : Status := -28

inductive Area where
  | slot0
  | slot1
  | factory
  deriving DecidableEq, Repr

/-- 2^32: lengths and offsets are `uint32_t`. -/
def wordSize : ℕ := 4294967296

/-- The partitions of the board and the size of the copy buffer. `lastPage` is where the last flash
page of `slot1` begins. -/
structure Geometry where
  size : Area → ℕ
  chunkSize : ℕ
  lastPage : ℕ
  chunkSize_pos : 0 < chunkSize
  lastPage_lt : lastPage < size .slot1
  magic_fits : 4 ≤ size .slot1
  addressable : ∀ a, size a + chunkSize ≤ wordSize

/-- A board of small areas. -/
def smallBoard : Geometry where
  size _ := 64
  chunkSize := 32
  lastPage := 48
  chunkSize_pos := by decide
  lastPage_lt := by decide
  magic_fits := by decide
  addressable _ := by decide

/-- The steps of a restore whose failure ends it. -/
inductive RestoreStep where
  | openSlot1
  | backendSize
  | imageSize
  | eraseSlot1
  | copyChunk (off : ℕ)
  | reopenSlot1
  | readMagic
  deriving DecidableEq, Repr

/-- A call of `boot_request_upgrade`: what `slot1` held, and the steps made before. -/
structure UpgradeRequest where
  slot1 : Region
  steps : List (RestoreStep × Status)

/-- `backend` says that `module_state.backend` is set, `initialised` and `captured` are
`backend_state`, and `stored` is the settings entry `factory/captured`. The last four fields only
record: the images whose copy in the store was verified throughout, whether an erase of the store
began while the flag or its entry was set, the steps of the restore and its requests. -/
structure World where
  backend : Bool
  initialised : Bool
  captured : Bool
  stored : Option Bool
  content : Area → Region
  copied : List Region
  erasedBackup : Bool
  steps : List (RestoreStep × Status)
  requests : List UpgradeRequest

/-- A board that never captured, whatever its flash holds. -/
def World.blank (content : Area → Region) : World where
  backend := false
  initialised := false
  captured := false
  stored := none
  content := content
  copied := []
  erasedBackup := false
  steps := []
  requests := []

def World.put (w : World) (a : Area) (off len : ℕ) (buf : Region) : World :=
  { w with content := Function.update w.content a (patch (w.content a) off len buf) }

/-! ## Commands -/

/-- A read: the status of `flash_area_open`, where the command opens the area, and its own. -/
structure Readout where
  opened : Status
  rc : Status

/-- A write or an erase. `left` is what it leaves in the range, if not what was asked for. -/
structure Command where
  opened : Status
  rc : Status
  torn : Region
  left : Option Region

/-- A command that succeeds. -/
def Command.sound (left : Option Region) : Command := ⟨0, 0, fun _ => 0, left⟩

/-- `flash_area_read`; what is in the buffer counts only where the status is zero. -/
def areaRead (geo : Geometry) (a : Area) (rc : Status) (off len : ℕ) :
    Prog World (Status × Region) :=
  if geo.size a < off + len then pure (einval, fun _ => 0)
  else look fun w => (rc, window (w.content a) off)

/-- `flash_area_write` of `buf`. -/
def areaWrite (geo : Geometry) (a : Area) (e : Command) (off : ℕ) (buf : Region) (len : ℕ) :
    Prog World Status :=
  if geo.size a < off + len then pure einval
  else do
    move fun w => w.put a off len e.torn
    move fun w => w.put a off len (e.left.getD buf)
    pure e.rc

/-- `flash_area_erase`. -/
def areaErase (geo : Geometry) (a : Area) (e : Command) (off len : ℕ) : Prog World Status :=
  areaWrite geo a e off (fun _ => 255) len

/-! ## The backend -/

/-- A load of the settings, and whether the entry reached the handler. -/
structure LoadResult where
  rc : Status
  delivered : Bool

/-- A save of the settings, with its retries, and whether the value reached the store. -/
structure SaveResult where
  rc : Status
  taken : Bool

/-- `factory_flag_settings_set`, called with the stored entry. -/
def factoryFlagSettingsSet (w : World) : World :=
  match w.stored with
  | some v => { w with captured := v }
  | none => w

/-- A load that fails counts as "not captured". -/
def flashBackendInit (e : LoadResult) : Prog World Status := do
  let initialised ← look World.initialised
  if initialised then pure 0
  else do
    if e.delivered then move factoryFlagSettingsSet
    move fun w => { w with initialised := true }
    pure 0

def flashBackendErase (geo : Geometry) (e : Command) : Prog World Status :=
  (pure e.opened : Prog World Status).onSuccess do
    move fun w =>
      { w with erasedBackup := w.erasedBackup || w.captured || w.stored.getD false }
    areaErase geo .factory e 0 (geo.size .factory)

def flashBackendWrite (geo : Geometry) (e : Command) (off : ℕ) (buf : Region) (len : ℕ) :
    Prog World Status :=
  (pure e.opened : Prog World Status).onSuccess (areaWrite geo .factory e off buf len)

def flashBackendRead (geo : Geometry) (e : Readout) (off len : ℕ) : Prog World (Status × Region) :=
  if e.opened = 0 then areaRead geo .factory e.rc off len else pure (e.opened, fun _ => 0)

/-- Writes are synchronous. -/
def flashBackendFlush : Prog World Status := pure 0

def flashBackendSize (geo : Geometry) (opened : Status) : Prog World (Status × ℕ) :=
  pure (opened, geo.size .factory)

def flashBackendMarkCaptured (e : SaveResult) (captured : Bool) : Prog World Status := do
  move fun w => { w with stored := if e.taken then some captured else w.stored }
  if e.rc = 0 then do
    move fun w => { w with captured := captured }
    pure 0
  else pure e.rc

/-! ## Copying with read-back -/

def verifyBufSize : ℕ := 256

/-- `verify_backend_readback` and `verify_slot1_readback`, which differ in how they read. -/
def verifyReadback (read : ℕ → ℕ → Prog World (Status × Region)) (expected : Region) (len : ℕ) :
    Prog World Status :=
  forChunks verifyBufSize len fun v step => do
    let got ← read v step
    pure (if got.1 ≠ 0 then got.1
      else if AgreeBelow (window expected v) got.2 step then 0 else eio)

/-- What the flash does with one try of a chunk. -/
structure CopyEnv where
  source : Readout
  write : Command
  verify : ℕ → Readout

def CopyEnv.sound : CopyEnv := ⟨⟨0, 0⟩, .sound none, fun _ => ⟨0, 0⟩⟩

/-- One try of a chunk: read, write, read back. -/
def copyAttempt (read : Prog World (Status × Region)) (write : Region → Prog World Status)
    (verify : Region → Prog World Status) : Prog World Status := do
  let chunk ← read
  if chunk.1 = 0 then (write chunk.2).onSuccess (verify chunk.2) else pure chunk.1

def copyMaxAttempts : ℕ := 5

/-- The tries of a chunk. -/
def copyChunk (attempt : ℕ → Prog World Status) : Prog World Status :=
  retry attempt (copyMaxAttempts - 1) 0

/-! ## What the commands do -/

variable {geo : Geometry} {a src dst : Area} {off len : ℕ} {s w : World}

theorem World.content_put (w : World) (a : Area) (off len : ℕ) (buf : Region) :
    (w.put a off len buf).content a = patch (w.content a) off len buf :=
  Function.update_self ..

theorem World.content_put_ne {b : Area} (h : b ≠ a) (w : World) (off len : ℕ) (buf : Region) :
    (w.put a off len buf).content b = w.content b :=
  Function.update_of_ne h ..

theorem World.put_put (w : World) (a : Area) (off len : ℕ) (buf buf' : Region) :
    (w.put a off len buf).put a off len buf' = w.put a off len buf' := by
  simp only [put, Function.update_self, patch_patch, Function.update_idem]

/-- `m` reads `len` bytes of area `a`, from `off` on. -/
def Reads (geo : Geometry) (m : Prog World (Status × Region)) (a : Area) (off len : ℕ) : Prop :=
  ∀ w, m.Ensures (fun _ => False) (fun got t => t = w ∧
    (got.1 = 0 → off + len ≤ geo.size a ∧ got.2 = window (w.content a) off)) w

/-- `m` puts bytes into `len` cells of area `a`, and does nothing else. -/
def Writes (m : Prog World Status) (a : Area) (off len : ℕ) : Prop :=
  ∀ I : World → Prop, (∀ w buf, I w → I (w.put a off len buf)) →
    ∀ w, I w → m.Ensures I (fun _ => I) w

theorem reads_area {rc : Status} : Reads geo (areaRead geo a rc off len) a off len :=
  fun w => Ensures.ite (fun _ => ensures_pure ⟨rfl, fun h => (by cases h)⟩) fun h =>
    ensures_look ⟨rfl, fun _ => ⟨Nat.not_lt.mp h, rfl⟩⟩

theorem reads_backend {e : Readout} :
    Reads geo (flashBackendRead geo e off len) .factory off len :=
  fun w => Ensures.ite (fun _ => reads_area w) fun h => ensures_pure ⟨rfl, fun h0 => absurd h0 h⟩

theorem writes_area {e : Command} {buf : Region} :
    Writes (areaWrite geo a e off buf len) a off len := by
  intro I hI w hw
  refine Ensures.ite (fun _ => ensures_pure hw) fun _ => ?_
  refine (ensures_move (P := fun _ => I) (hI _ _ hw) (hI _ _ hw)).bind fun _ t ht => ?_
  refine (ensures_move (P := fun _ => I) (hI _ _ ht) (hI _ _ ht)).bind fun _ u hu => ?_
  exact ensures_pure hu

theorem writes_backend {e : Command} {buf : Region} :
    Writes (flashBackendWrite geo e off buf len) .factory off len :=
  fun I hI _ hw => (ensures_pure (Q := fun _ => I) hw).bind fun _ t ht =>
    Ensures.ite (fun _ => writes_area I hI t ht) fun _ => ensures_pure ht

/-- A read-back that succeeds has seen every byte. -/
theorem ensures_verifyReadback {C : World → Prop} {expected : Region}
    {read : ℕ → ℕ → Prog World (Status × Region)}
    (hread : ∀ v step, Reads geo (read v step) a (off + v) step) :
    (verifyReadback read expected len).Ensures C
      (outcome (fun t => t = s ∧ AgreeBelow expected (window (s.content a) off) len)
        fun t => t = s) s := by
  let I : ℕ → World → Prop := fun v t =>
    t = s ∧ AgreeBelow expected (window (s.content a) off) v
  refine ensures_forChunks (I := I) (by decide) (fun v t _ ht => ?_) ⟨rfl, agreeBelow_zero⟩
  obtain ⟨rfl, hv⟩ := ht
  refine ((hread v _ t).mono (fun _ h => h.elim) fun _ _ => id).bind fun got u hgot => ?_
  obtain ⟨rfl, hgot⟩ := hgot
  refine ensures_pure ⟨fun h0 => ⟨rfl, hv.append ?_⟩, fun _ => rfl⟩
  by_cases hrc : got.1 = 0
  · by_cases heq : AgreeBelow (window expected v) got.2 (min verifyBufSize (len - v))
    · rw [(hgot hrc).2, ← window_window] at heq
      exact heq
    · rw [if_neg (not_not_intro hrc), if_neg heq] at h0
      exact absurd h0 (by decide)
  · rw [if_pos hrc] at h0
    exact absurd h0 hrc

section Copy

variable {I : World → Prop} {read : Prog World (Status × Region)}
  {write verify : Region → Prog World Status}

/-- A try that succeeds has the bytes of the source at the destination. -/
theorem ensures_copyAttempt (hne : src ≠ dst) (hread : Reads geo read src off len)
    (hwrite : ∀ chunk, Writes (write chunk) dst off len)
    (hverify : ∀ chunk t, (verify chunk).Ensures I
      (outcome (fun u => u = t ∧ AgreeBelow chunk (window (t.content dst) off) len)
        fun u => u = t) t)
    (hI : ∀ w buf, I w → I (w.put dst off len buf)) (hs : I s) :
    (copyAttempt read write verify).Ensures I
      (outcome (fun t => I t ∧
        AgreeBelow (window (t.content dst) off) (window (t.content src) off) len) I) s := by
  refine ((hread s).mono (fun _ h => h.elim) fun _ _ => id).bind fun chunk t ht => ?_
  obtain ⟨rfl, hchunk⟩ := ht
  refine Ensures.ite (fun hrc => ?_) fun hrc => ensures_pure ((outcome_ne hrc).mpr hs)
  -- the source is not written to, so the chunk stays what the source holds
  let J : World → Prop := fun w => I w ∧ window (w.content src) off = chunk.2
  have hJ : ∀ w buf, J w → J (w.put dst off len buf) := fun w buf hw =>
    ⟨hI w buf hw.1, by rw [World.content_put_ne hne]; exact hw.2⟩
  have hput := hwrite chunk.2 J hJ t ⟨hs, (hchunk hrc).2.symm⟩
  refine Ensures.onSuccess (M := J)
    (hput.mono (fun _ h => h.1) fun rc u hu => ⟨fun _ => hu, fun _ => hu.1⟩) fun u hu => ?_
  refine (hverify chunk.2 u).outcome_mono (fun _ => id) (fun v hv => ?_) fun v hv => hv ▸ hu.1
  obtain ⟨rfl, heq⟩ := hv
  exact ⟨hu.1, hu.2 ▸ heq.symm⟩

end Copy

end DiveCANHead.Factory
