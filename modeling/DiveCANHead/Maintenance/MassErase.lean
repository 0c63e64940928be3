import Mathlib.Data.List.Basic
import Mathlib.Data.List.Induction
import Mathlib.Tactic.Common

/-!
# The mass erase of the external flash (`flash_mass_erase.c`)

The settings go first, then a sweep goes over the whole chip chunk by chunk. A chunk that cannot be
erased is tried again, and then left: the sweep goes on, and the first failure is what is returned.
The watchdog is fed before every erase. What an erase that fails leaves in its range is anything.
-/

namespace DiveCANHead.Maintenance

/-- What the sweep does: it feeds the watchdog, or it has a range erased, with this result. -/
inductive EraseAction where
  | kick
  | erase (off len : ℕ) (rc : Int)
  deriving DecidableEq, Repr

def eraseChunkBytes : ℕ := 262144

/-- `ERASE_RETRY_ATTEMPTS`. -/
def eraseRetryAttempts : ℕ := 3

/-- The device, and what it answers to an erase after all that was done before. -/
structure MassEraseEnv where
  ready : Bool
  acquireRc : Int
  sizeRc : Int
  total : ℕ
  /-- The offset and the size of the partition of the settings. -/
  nvs : Option (ℕ × ℕ)
  eraseRc : List EraseAction → Int

section

variable (env : MassEraseEnv)

/-- `flash_erase`: what was done with it, and its result. -/
def flashErase (off len : ℕ) (log : List EraseAction) : List EraseAction × Int :=
  (log ++ [.erase off len (env.eraseRc log)], env.eraseRc log)

/-- The loop of `erase_chunk_with_retry`, with as many tries as are left. -/
def eraseAgain (off len : ℕ) : ℕ → List EraseAction × Int → List EraseAction × Int
  | 0, r => r
  | left + 1, r =>
    if r.2 = 0 then r else eraseAgain off len left (flashErase env off len (r.1 ++ [.kick]))

def eraseChunkWithRetry (off chunk : ℕ) (log : List EraseAction) : List EraseAction × Int :=
  eraseAgain env off chunk (eraseRetryAttempts - 1) (flashErase env off chunk log)

/-- What was done so far, `first_err` and `fail_count`. -/
structure Sweep where
  log : List EraseAction := []
  firstErr : Int := 0
  failCount : ℕ := 0
  deriving DecidableEq, Repr

/-- An erase has ended. -/
def Sweep.note (s : Sweep) (r : List EraseAction × Int) : Sweep :=
  if r.2 = 0 then { s with log := r.1 }
  else
    { log := r.1
      firstErr := if s.firstErr = 0 then r.2 else s.firstErr
      failCount := s.failCount + 1 }

/-- `erase_nvs_partition`. -/
def eraseNvsPartition (s : Sweep) : Sweep :=
  match env.nvs with
  | none => s
  | some (off, size) => s.note (flashErase env off size (s.log ++ [.kick]))

/-- One pass of `erase_sweep`. -/
def sweepChunk (s : Sweep) (i : ℕ) : Sweep :=
  s.note (eraseChunkWithRetry env (i * eraseChunkBytes)
    (min eraseChunkBytes (env.total - i * eraseChunkBytes)) (s.log ++ [.kick]))

/-- The passes of `erase_sweep`. -/
def chunkCount (total : ℕ) : ℕ := (total + eraseChunkBytes - 1) / eraseChunkBytes

def eraseSweep (s : Sweep) : Sweep := (List.range (chunkCount env.total)).foldl (sweepChunk env) s

/-- `-ENODEV`. -/
def noDevice : Int := -19

/-- `-EIO`. -/
def ioError : Int := -5

/-- `flash_mass_erase_external`: what was done, and the result. -/
def flashMassEraseExternal : List EraseAction × Int :=
  if env.ready = false then ([], noDevice)
  else if env.acquireRc ≠ 0 then ([], env.acquireRc)
  else if env.sizeRc ≠ 0 then ([], env.sizeRc)
  else if env.total = 0 then ([], ioError)
  else
    let s := eraseSweep env (eraseNvsPartition env {})
    (s.log ++ [.kick], s.firstErr)

end

/-! ## What it does to the chip -/

/-- What an action may make of the chip. -/
def EraseAction.Effect (s : ℕ → UInt8) (a : EraseAction) (t : ℕ → UInt8) : Prop :=
  match a with
  | .kick => t = s
  | .erase off len rc =>
    (∀ i, ¬(off ≤ i ∧ i < off + len) → t i = s i) ∧
      (rc = 0 → ∀ i, off ≤ i → i < off + len → t i = 0xFF)

/-- What actions may make of it, one after another. -/
def Effects : (ℕ → UInt8) → List EraseAction → (ℕ → UInt8) → Prop
  | s, [], t => t = s
  | s, a :: log, t => ∃ u, a.Effect s u ∧ Effects u log t

/-- The action leaves this byte alone, or erases it. -/
def EraseAction.Spares (i : ℕ) : EraseAction → Prop
  | .kick => True
  | .erase off len rc => off ≤ i ∧ i < off + len → rc = 0

section

variable {s t : ℕ → UInt8} {log more : List EraseAction} {i : ℕ}

theorem effects_append :
    Effects s (log ++ more) t ↔ ∃ u, Effects s log u ∧ Effects u more t := by
  induction log generalizing s with
  | nil => exact ⟨fun h => ⟨s, rfl, h⟩, fun ⟨u, hu, h⟩ => hu ▸ h⟩
  | cons a log ih =>
    constructor
    · rintro ⟨u, hu, h⟩
      obtain ⟨v, hv, h⟩ := ih.mp h
      exact ⟨v, ⟨u, hu, hv⟩, h⟩
    · rintro ⟨v, ⟨u, hu, hv⟩, h⟩
      exact ⟨u, hu, ih.mpr ⟨v, hv, h⟩⟩

theorem EraseAction.Effect.blank {a : EraseAction} (h : a.Effect s t) (ha : a.Spares i)
    (hs : s i = 0xFF) : t i = 0xFF := by
  cases a with
  | kick =>
    obtain rfl : t = s := h
    exact hs
  | erase off len rc =>
    by_cases hin : off ≤ i ∧ i < off + len
    · exact h.2 (ha hin) i hin.1 hin.2
    · rw [h.1 i hin]
      exact hs

/-- A blank byte stays blank, unless an erase of it fails. -/
theorem Effects.blank (h : Effects s log t) (hlog : ∀ a ∈ log, a.Spares i) (hs : s i = 0xFF) :
    t i = 0xFF := by
  induction log generalizing s with
  | nil =>
    obtain rfl : t = s := h
    exact hs
  | cons a log ih =>
    obtain ⟨u, hu, h⟩ := h
    exact ih h (fun b hb => hlog b (.tail _ hb)) (hu.blank (hlog a List.mem_cons_self) hs)

/-- An erase makes the byte blank, whatever was done before. -/
theorem Effects.erased {off len : ℕ} (h : Effects s (log ++ .erase off len 0 :: more) t)
    (hin : off ≤ i ∧ i < off + len) (hmore : ∀ a ∈ more, a.Spares i) : t i = 0xFF := by
  obtain ⟨u, -, v, hv, h⟩ := effects_append.mp h
  exact h.blank hmore (hv.2 rfl i hin.1 hin.2)

end

/-- Every erase has the watchdog fed right before it; `kicked` says whether it just was. -/
def Fed : Bool → List EraseAction → Prop
  | _, [] => True
  | _, .kick :: log => Fed true log
  | kicked, .erase .. :: log => kicked = true ∧ Fed false log

theorem Fed.weaken {log : List EraseAction} (h : Fed false log) (kicked : Bool) :
    Fed kicked log := by
  cases log with
  | nil => trivial
  | cons a log =>
    cases a with
    | kick => exact h
    | erase off len rc => exact absurd h.1 Bool.false_ne_true

theorem Fed.append {log more : List EraseAction} {kicked : Bool} (h : Fed kicked log)
    (hmore : Fed false more) : Fed kicked (log ++ more) := by
  induction log generalizing kicked with
  | nil => exact hmore.weaken kicked
  | cons a log ih =>
    cases a with
    | kick => exact ih h
    | erase off len rc => exact ⟨h.1, ih h.2⟩

/-! ## What a sweep does -/

/-- The tries of a chunk: the results of those that were followed by another, and the last. -/
structure ChunkRun where
  failed : List Int
  last : Int
  deriving DecidableEq, Repr

def ChunkRun.log (off len : ℕ) (r : ChunkRun) : List EraseAction :=
  r.failed.flatMap (fun rc => [.kick, .erase off len rc]) ++ [.kick, .erase off len r.last]

/-- There are tries until one succeeds, at most three. -/
structure ChunkRun.Tried (r : ChunkRun) : Prop where
  few : r.failed.length < eraseRetryAttempts
  failed : ∀ rc ∈ r.failed, rc ≠ 0
  last : r.last ≠ 0 → r.failed.length + 1 = eraseRetryAttempts

/-- The first result that is a failure. -/
def firstError (results : List Int) : Int := (results.find? fun rc => rc ≠ 0).getD 0

section

variable {env : MassEraseEnv} {off len : ℕ} {r : ChunkRun}

/-- The actions of the sweep over these chunks. -/
def MassEraseEnv.sweepLog (env : MassEraseEnv) (runs : List ChunkRun) : List EraseAction :=
  (runs.mapIdx fun i r =>
    r.log (i * eraseChunkBytes) (min eraseChunkBytes (env.total - i * eraseChunkBytes))).flatten

def MassEraseEnv.nvsLog (env : MassEraseEnv) (rc : Int) : List EraseAction :=
  match env.nvs with
  | none => []
  | some (off, size) => [.kick, .erase off size rc]

theorem flashErase_kicked (log : List EraseAction) :
    flashErase env off len (log ++ [.kick]) =
      (log ++ [.kick, .erase off len (env.eraseRc (log ++ [.kick]))],
        env.eraseRc (log ++ [.kick])) := by
  rw [flashErase, List.append_assoc]
  rfl

theorem eraseAgain_eq (env : MassEraseEnv) (off len : ℕ) (base : List EraseAction) (left : ℕ)
    (rc : Int) :
    ∃ r : ChunkRun, eraseAgain env off len left (base ++ [.kick, .erase off len rc], rc) =
        (base ++ r.log off len, r.last) ∧
      r.failed.length ≤ left ∧ (∀ rc ∈ r.failed, rc ≠ 0) ∧
      (r.last ≠ 0 → r.failed.length = left) := by
  induction left generalizing base rc with
  | zero => exact ⟨⟨[], rc⟩, rfl, Nat.le_refl 0, nofun, fun _ => rfl⟩
  | succ left ih =>
    rw [eraseAgain]
    by_cases hrc : rc = 0
    · rw [if_pos hrc]
      exact ⟨⟨[], rc⟩, rfl, Nat.zero_le _, nofun, fun h => absurd hrc h⟩
    · rw [if_neg hrc]
      obtain ⟨r, hr, hlen, hfailed, hlast⟩ := ih (base ++ [.kick, .erase off len rc])
        (env.eraseRc (base ++ [.kick, .erase off len rc] ++ [.kick]))
      refine ⟨⟨rc :: r.failed, r.last⟩, ?_, Nat.succ_le_succ hlen, ?_, fun h =>
        congrArg (· + 1) (hlast h)⟩
      · show eraseAgain env off len left
          (flashErase env off len (base ++ [.kick, .erase off len rc] ++ [.kick])) = _
        rw [flashErase_kicked, hr, List.append_assoc]
        rfl
      · exact List.forall_mem_cons.mpr ⟨hrc, hfailed⟩

theorem eraseChunkWithRetry_eq (env : MassEraseEnv) (off len : ℕ) (base : List EraseAction) :
    ∃ r : ChunkRun, eraseChunkWithRetry env off len (base ++ [.kick]) =
      (base ++ r.log off len, r.last) ∧ r.Tried := by
  obtain ⟨r, hr, hlen, hfailed, hlast⟩ :=
    eraseAgain_eq env off len base (eraseRetryAttempts - 1) (env.eraseRc (base ++ [.kick]))
  refine ⟨r, ?_, Nat.lt_succ_of_le hlen, hfailed, fun h => congrArg (· + 1) (hlast h)⟩
  rw [← hr, eraseChunkWithRetry, flashErase_kicked]

theorem firstError_concat (results : List Int) (rc : Int) :
    firstError (results ++ [rc]) = if firstError results = 0 then rc else firstError results := by
  have hsingle : ([rc].find? fun rc => rc ≠ 0).getD 0 = rc := by
    by_cases hrc : rc = 0
    · subst hrc
      rfl
    · rw [List.find?_cons_of_pos (by exact decide_eq_true hrc)]
      rfl
  unfold firstError
  rw [List.find?_append]
  cases hfirst : results.find? fun rc => rc ≠ 0 with
  | none =>
    rw [Option.none_or, hsingle, Option.getD_none, if_pos rfl]
  | some e =>
    have he : e ≠ 0 := by simpa using List.find?_some hfirst
    rw [Option.some_or, Option.getD_some, if_neg he]

theorem firstError_eq_zero {results : List Int} (h : firstError results = 0) :
    ∀ rc ∈ results, rc = 0 := by
  unfold firstError at h
  cases hfirst : results.find? fun rc => rc ≠ 0 with
  | none =>
    intro rc hrc
    by_contra hne
    exact List.find?_eq_none.mp hfirst rc hrc (decide_eq_true hne)
  | some e =>
    have he : e ≠ 0 := by simpa using List.find?_some hfirst
    rw [hfirst] at h
    exact absurd h he

theorem sweepLog_concat (env : MassEraseEnv) (runs : List ChunkRun) (r : ChunkRun) :
    env.sweepLog (runs ++ [r]) = env.sweepLog runs ++
      r.log (runs.length * eraseChunkBytes)
        (min eraseChunkBytes (env.total - runs.length * eraseChunkBytes)) := by
  unfold MassEraseEnv.sweepLog
  rw [List.mapIdx_concat, List.flatten_append, List.flatten_singleton]

/-- After so many passes every chunk so far was tried, and the rest of the chip was not. -/
theorem foldl_sweepChunk (env : MassEraseEnv) (s : Sweep) (n : ℕ) :
    ∃ runs : List ChunkRun, runs.length = n ∧ (∀ r ∈ runs, r.Tried) ∧
      ((List.range n).foldl (sweepChunk env) s).log = s.log ++ env.sweepLog runs ∧
      ((List.range n).foldl (sweepChunk env) s).firstErr =
        firstError (s.firstErr :: runs.map ChunkRun.last) := by
  induction n with
  | zero =>
    refine ⟨[], rfl, nofun, (List.append_nil _).symm, ?_⟩
    have hconcat := firstError_concat [] s.firstErr
    exact hconcat.symm
  | succ n ih =>
    obtain ⟨runs, hlen, htried, hlog, herr⟩ := ih
    rw [List.range_succ, List.foldl_append, List.foldl_cons, List.foldl_nil]
    generalize (List.range n).foldl (sweepChunk env) s = u at hlog herr ⊢
    obtain ⟨r, hr, htry⟩ := eraseChunkWithRetry_eq env (n * eraseChunkBytes)
      (min eraseChunkBytes (env.total - n * eraseChunkBytes)) u.log
    have hlog' : (sweepChunk env u n).log = u.log ++ r.log (n * eraseChunkBytes)
        (min eraseChunkBytes (env.total - n * eraseChunkBytes)) := by
      unfold sweepChunk Sweep.note
      rw [hr]
      split <;> rfl
    have herr' : (sweepChunk env u n).firstErr =
        if u.firstErr = 0 then r.last else u.firstErr := by
      unfold sweepChunk Sweep.note
      rw [hr]
      by_cases hlast : r.last = 0
      · rw [if_pos hlast, hlast]
        split
        · next hzero => exact hzero
        · rfl
      · rw [if_neg hlast]
    refine ⟨runs ++ [r], ?_, ?_, ?_, ?_⟩
    · rw [List.length_append, hlen, List.length_singleton]
    · exact List.forall_mem_append.mpr ⟨htried, List.forall_mem_singleton.mpr htry⟩
    · rw [hlog', hlog, sweepLog_concat, hlen, List.append_assoc]
    · rw [herr', herr, List.map_append, List.map_singleton, ← List.cons_append,
        firstError_concat]

/-- The actions for a chunk leave the other bytes alone. -/
theorem ChunkRun.spares {i : ℕ} (h : ¬(off ≤ i ∧ i < off + len)) :
    ∀ a ∈ r.log off len, a.Spares i := by
  have herase : ∀ rc, (EraseAction.erase off len rc).Spares i := fun rc hin => absurd hin h
  intro a ha
  rcases List.mem_append.mp ha with ha | ha
  · obtain ⟨rc, -, ha⟩ := List.mem_flatMap.mp ha
    rcases List.mem_cons.mp ha with rfl | ha
    · trivial
    · exact List.mem_singleton.mp ha ▸ herase rc
  · rcases List.mem_cons.mp ha with rfl | ha
    · trivial
    · exact List.mem_singleton.mp ha ▸ herase r.last

theorem ChunkRun.fed : Fed false (r.log off len) := by
  have hlast : Fed false [.kick, .erase off len r.last] := ⟨rfl, trivial⟩
  unfold ChunkRun.log
  induction r.failed with
  | nil => exact hlast
  | cons rc failed ih => exact ⟨rfl, ih⟩

theorem sweepLog_fed (env : MassEraseEnv) (runs : List ChunkRun) :
    Fed false (env.sweepLog runs) := by
  induction runs using List.reverseRecOn with
  | nil => trivial
  | append_singleton runs r ih =>
    rw [sweepLog_concat]
    exact ih.append ChunkRun.fed

theorem sweepLog_spares {runs : List ChunkRun} {i : ℕ}
    (h : ∀ j < runs.length, ¬(j * eraseChunkBytes ≤ i ∧ i < j * eraseChunkBytes +
      min eraseChunkBytes (env.total - j * eraseChunkBytes))) :
    ∀ a ∈ env.sweepLog runs, a.Spares i := by
  induction runs using List.reverseRecOn with
  | nil => nofun
  | append_singleton runs r ih =>
    rw [List.length_append, List.length_singleton] at h
    rw [sweepLog_concat]
    intro a ha
    rcases List.mem_append.mp ha with ha | ha
    · exact ih (fun j hj => h j (Nat.lt_succ_of_lt hj)) a ha
    · exact ChunkRun.spares (h runs.length (Nat.lt_succ_self _)) a ha

/-- The byte is in this chunk. -/
def MassEraseEnv.InChunk (env : MassEraseEnv) (j i : ℕ) : Prop :=
  j * eraseChunkBytes ≤ i ∧
    i < j * eraseChunkBytes + min eraseChunkBytes (env.total - j * eraseChunkBytes)

theorem inChunk_unique {j k i : ℕ} (hj : env.InChunk j i) (hne : k ≠ j) : ¬env.InChunk k i := by
  unfold MassEraseEnv.InChunk eraseChunkBytes at *
  omega

/-- Every byte of the chip is in a chunk that the sweep comes to. -/
theorem inChunk_div {i : ℕ} (hi : i < env.total) :
    i / eraseChunkBytes < chunkCount env.total ∧ env.InChunk (i / eraseChunkBytes) i := by
  unfold MassEraseEnv.InChunk chunkCount eraseChunkBytes
  omega

/-- A chunk whose last try succeeded is blank after the sweep, whatever became of the others. -/
theorem sweepLog_blank {runs : List ChunkRun} {s t : ℕ → UInt8} {c : ChunkRun} {j i : ℕ}
    (h : Effects s (env.sweepLog runs) t) (hj : runs[j]? = some c) (hlast : c.last = 0)
    (hin : env.InChunk j i) : t i = 0xFF := by
  induction runs using List.reverseRecOn generalizing t with
  | nil => cases hj
  | append_singleton runs r ih =>
    rw [sweepLog_concat] at h
    obtain ⟨u, hu, h⟩ := effects_append.mp h
    rcases Nat.lt_or_ge j runs.length with hlt | hge
    · rw [List.getElem?_append_left hlt] at hj
      exact h.blank (ChunkRun.spares (inChunk_unique hin (Nat.ne_of_gt hlt))) (ih hu hj)
    · obtain ⟨hbound, hc⟩ := List.getElem?_eq_some_iff.mp hj
      rw [List.length_append, List.length_singleton] at hbound
      obtain rfl : j = runs.length := by omega
      rw [List.getElem_append_right (Nat.le_refl _)] at hc
      obtain rfl : r = c := by simpa using hc
      have hsplit : ∀ off len, r.log off len =
          (r.failed.flatMap (fun rc => [.kick, .erase off len rc]) ++ [.kick]) ++
            [.erase off len 0] := by
        intro off len
        rw [ChunkRun.log, hlast, List.append_assoc]
        rfl
      rw [hsplit] at h
      exact h.erased hin nofun

/-- What a mass erase amounts to: the settings first, then every chunk, each tried until it
succeeds, at most three times; the watchdog fed before each erase; and the first failure, if any,
as the result. -/
structure MassErased (env : MassEraseEnv) (nvsRc : Int) (runs : List ChunkRun)
    (done : List EraseAction) (rc : Int) : Prop where
  nvs : env.nvs = none → nvsRc = 0
  all : runs.length = chunkCount env.total
  tried : ∀ r ∈ runs, r.Tried
  log : done = env.nvsLog nvsRc ++ env.sweepLog runs ++ [.kick]
  fed : Fed false done
  result : rc = firstError (nvsRc :: runs.map ChunkRun.last)
  /-- A failure does not keep the sweep from the other chunks. -/
  reached : ∀ {s t j c i}, Effects s done t → runs[j]? = some c → c.last = 0 → env.InChunk j i →
    t i = 0xFF
  blank : rc = 0 → ∀ {s t}, Effects s done t → ∀ i < env.total, t i = 0xFF
  /-- If the power fails before the sweep comes to them, the settings are erased already. -/
  settings : ∀ {off size k p s t}, env.nvs = some (off, size) → nvsRc = 0 →
    k * eraseChunkBytes ≤ off → p <+: env.sweepLog (runs.take k) →
    Effects s (env.nvsLog nvsRc ++ p) t → ∀ i, off ≤ i → i < off + size → t i = 0xFF

theorem eraseNvsPartition_eq (env : MassEraseEnv) :
    ∃ rc : Int, (env.nvs = none → rc = 0) ∧
      (eraseNvsPartition env {}).log = env.nvsLog rc ∧
      (eraseNvsPartition env {}).firstErr = rc := by
  unfold eraseNvsPartition MassEraseEnv.nvsLog
  cases env.nvs with
  | none => exact ⟨0, fun _ => rfl, rfl, rfl⟩
  | some area =>
    obtain ⟨off, size⟩ := area
    refine ⟨env.eraseRc [.kick], nofun, ?_, ?_⟩
    · dsimp only
      unfold Sweep.note
      split <;> rfl
    · dsimp only
      unfold Sweep.note
      split
      · next hrc => exact hrc.symm
      · rfl

theorem nvsLog_fed (env : MassEraseEnv) (rc : Int) : Fed false (env.nvsLog rc) := by
  unfold MassEraseEnv.nvsLog
  cases env.nvs with
  | none => trivial
  | some area => exact ⟨rfl, trivial⟩

end

/-- Whatever each erase answers, a mass erase that can begin goes over the whole chip. -/
theorem massErase_goesOn {env : MassEraseEnv} (hready : env.ready = true)
    (hacquire : env.acquireRc = 0) (hsize : env.sizeRc = 0) (htotal : 0 < env.total) :
    ∃ nvsRc runs, MassErased env nvsRc runs (flashMassEraseExternal env).1
      (flashMassEraseExternal env).2 := by
  obtain ⟨nvsRc, hnone, hnvs, herr⟩ := eraseNvsPartition_eq env
  obtain ⟨runs, hall, htried, hsweep, hfirst⟩ :=
    foldl_sweepChunk env (eraseNvsPartition env {}) (chunkCount env.total)
  have hmain : flashMassEraseExternal env = (env.nvsLog nvsRc ++ env.sweepLog runs ++ [.kick],
      firstError (nvsRc :: runs.map ChunkRun.last)) := by
    rw [flashMassEraseExternal, if_neg (by rw [hready]; decide), if_neg (not_not.mpr hacquire),
      if_neg (not_not.mpr hsize), if_neg (Nat.pos_iff_ne_zero.mp htotal)]
    dsimp only
    rw [eraseSweep, hsweep, hfirst, hnvs, herr]
  rw [hmain]
  have hreached : ∀ {s t j c i}, Effects s (env.nvsLog nvsRc ++ env.sweepLog runs ++ [.kick]) t →
      runs[j]? = some c → c.last = 0 → env.InChunk j i → t i = 0xFF := by
    intro s t j c i h hj hlast hin
    obtain ⟨u, hu, v, hkick, ht⟩ := effects_append.mp h
    obtain ⟨w, -, hw⟩ := effects_append.mp hu
    obtain rfl : v = u := hkick
    obtain rfl : t = v := ht
    exact sweepLog_blank hw hj hlast hin
  refine ⟨nvsRc, runs, hnone, hall, htried, rfl, ?_, rfl, hreached, ?_, ?_⟩
  · exact ((nvsLog_fed env nvsRc).append (sweepLog_fed env runs)).append trivial
  · intro hzero s t h i hi
    obtain ⟨hchunk, hin⟩ := inChunk_div hi
    have hlt : i / eraseChunkBytes < runs.length := hall ▸ hchunk
    have hrun := List.getElem?_eq_getElem hlt
    have hlast : runs[i / eraseChunkBytes].last = 0 :=
      firstError_eq_zero hzero _ (List.mem_cons_of_mem _ (List.mem_map_of_mem
        (List.getElem_mem hlt)))
    exact hreached h hrun hlast hin
  · intro off size k p s t harea hzero hk hp h i hlow hhigh
    have hlog : env.nvsLog nvsRc = [.kick] ++ [.erase off size 0] := by
      rw [MassEraseEnv.nvsLog, harea, hzero]
      rfl
    rw [hlog, List.append_assoc] at h
    refine h.erased ⟨hlow, hhigh⟩ fun a ha => ?_
    refine sweepLog_spares (fun j hj hin => ?_) a (hp.subset ha)
    have hjk : j < k := Nat.lt_of_lt_of_le hj (by
      rw [List.length_take]
      exact Nat.min_le_left _ _)
    have hbelow : i < off := calc
      i < j * eraseChunkBytes + min eraseChunkBytes (env.total - j * eraseChunkBytes) := hin.2
      _ ≤ j * eraseChunkBytes + eraseChunkBytes := Nat.add_le_add_left (Nat.min_le_left _ _) _
      _ = (j + 1) * eraseChunkBytes := (Nat.succ_mul j eraseChunkBytes).symm
      _ ≤ k * eraseChunkBytes := Nat.mul_le_mul_right _ hjk
      _ ≤ off := hk
    exact absurd hlow (Nat.not_le_of_lt hbelow)

/-- A chip of two chunks, on which the first erases fail. -/
def flakyFlash : MassEraseEnv where
  ready := true
  acquireRc := 0
  sizeRc := 0
  total := 300000
  nvs := some (262144, 4096)
  eraseRc log := if log.length < 5 then ioError else 0

theorem massErase_goesOn_flaky :
    ∃ nvsRc runs, MassErased flakyFlash nvsRc runs (flashMassEraseExternal flakyFlash).1
      (flashMassEraseExternal flakyFlash).2 :=
  massErase_goesOn rfl rfl rfl (by decide)

end DiveCANHead.Maintenance
