import DiveCANHead.Lib.Fields
import DiveCANHead.Lib.Runs
import Mathlib.Tactic.Common

/-!
# The option bytes (`option_bytes.c`)

At each boot the firmware checks three fields of the option register and reprograms those that have
drifted, at most once in a power cycle: the programming resets the chip, and the guard that says so
lies in RAM that a reset keeps and a power cycle does not. The HAL is outside the repository;
`ObProgram` is what its programming function writes.
-/

namespace DiveCANHead.Boot

open DiveCANHead.Lib

/-! ## The fields -/

def flashOptrBorLev : BitVec 32 := 0x700

def flashOptrBorLevPos : ℕ := 8

def flashOptrNBoot0 : BitVec 32 := 1 <<< 27

def flashOptrNBoot0Pos : ℕ := 27

def flashOptrNSwboot0 : BitVec 32 := 1 <<< 26

def flashOptrNSwboot0Pos : ℕ := 26

/-- `EXPECTED_nBOOT0`. -/
def expectedNBoot0 : BitVec 32 := 1

/-- `EXPECTED_nSWBOOT0`. -/
def expectedNSwboot0 : BitVec 32 := 0

/-- `EXPECTED_BOR_LEV`. -/
def expectedBorLev : BitVec 32 := 1

def obUserBorLev : BitVec 32 := 0x0001

def obUserNSwboot0 : BitVec 32 := 0x2000

def obUserNBoot0 : BitVec 32 := 0x4000

def obBoot0Set : BitVec 32 := flashOptrNBoot0

def obBoot0FromOb : BitVec 32 := 0

def obAttemptMagic : BitVec 32 := 0x424F5231

def bitMatches (value : BitVec 32) (pos : ℕ) (expected : BitVec 32) : Bool :=
  (value >>> pos) &&& 1#32 == expected

def borLevel (optr : BitVec 32) : BitVec 32 := (optr &&& flashOptrBorLev) >>> flashOptrBorLevPos

def okNBoot0 (optr : BitVec 32) : Bool := bitMatches optr flashOptrNBoot0Pos expectedNBoot0

def okNSwboot0 (optr : BitVec 32) : Bool := bitMatches optr flashOptrNSwboot0Pos expectedNSwboot0

def okBor (optr : BitVec 32) : Bool := borLevel optr == expectedBorLev

/-! ## The HAL -/

/-- The fields that a `USERType` selects: those of the three selectors used here, and others that
no other type than one with their selectors has. -/
structure ObProgram where
  otherFields : BitVec 32 → BitVec 32
  others : ∀ t, t &&& ~~~(obUserBorLev ||| obUserNSwboot0 ||| obUserNBoot0) = 0 → otherFields t = 0

/-- The bits of a `USERType`. -/
def ObProgram.fields (hal : ObProgram) (userType : BitVec 32) : BitVec 32 :=
  (if userType &&& obUserBorLev ≠ 0 then flashOptrBorLev else 0) |||
    (if userType &&& obUserNSwboot0 ≠ 0 then flashOptrNSwboot0 else 0) |||
    (if userType &&& obUserNBoot0 ≠ 0 then flashOptrNBoot0 else 0) ||| hal.otherFields userType

inductive HalCall where
  | unlock
  | obUnlock
  | obProgram (userType userConfig : BitVec 32)
  | obLock
  | lock
  | obLaunch
  deriving DecidableEq, Repr

/-- What the HAL returns at a boot, whether what it programs is there at the next one, and what
MCUBoot says of the image. -/
structure BootEnv where
  unlockOk : Bool
  obUnlockOk : Bool
  programOk : Bool
  takes : Bool
  imgConfirmed : Bool

/-! ## The boot -/

/-- `user_type`. -/
def userType (okNBoot0 okNSwboot0 okBor : Bool) : BitVec 32 :=
  (if okBor = false then obUserBorLev else 0) ||| (if okNBoot0 = false then obUserNBoot0 else 0) |||
    (if okNSwboot0 = false then obUserNSwboot0 else 0)

/-- `user_config`. -/
def userConfig (okNBoot0 okNSwboot0 okBor : Bool) : BitVec 32 :=
  (if okBor = false then expectedBorLev <<< flashOptrBorLevPos else 0) |||
    (if okNBoot0 = false then obBoot0Set else 0) |||
    (if okNSwboot0 = false then obBoot0FromOb else 0)

/-- The calls of `option_bytes_repair`. -/
def optionBytesRepair (env : BootEnv) (okNBoot0 okNSwboot0 okBor : Bool) : List HalCall :=
  let program :=
    .obProgram (userType okNBoot0 okNSwboot0 okBor) (userConfig okNBoot0 okNSwboot0 okBor)
  if env.unlockOk = true then
    if env.obUnlockOk = true then
      if env.programOk = true then [.unlock, .obUnlock, program, .obLaunch]
      else [.unlock, .obUnlock, program, .obLock, .lock]
    else [.unlock, .obUnlock, .lock]
  else [.unlock]

/-- `ob_attempt_magic` and `ob_attempted`. -/
structure ObGuard where
  magic : BitVec 32
  attempted : BitVec 32
  deriving DecidableEq, Repr

/-- An attempt was made in this power cycle, as the noinit RAM has it. -/
def ObGuard.Set (g : ObGuard) : Prop := g.magic = obAttemptMagic ∧ g.attempted ≠ 0
  deriving Decidable

/-- `option_bytes_check_and_apply`: the calls, and the guard. `mcuboot` is
`CONFIG_BOOTLOADER_MCUBOOT`. -/
def optionBytesCheckAndApply (mcuboot : Bool) (env : BootEnv) (optr : BitVec 32) (guard : ObGuard) :
    List HalCall × ObGuard :=
  if (!okNBoot0 optr || !okNSwboot0 optr || !okBor optr) = true then
    if guard.Set then ([], guard)
    else if mcuboot = true ∧ env.imgConfirmed = false then ([], guard)
    else
      (optionBytesRepair env (okNBoot0 optr) (okNSwboot0 optr) (okBor optr), ⟨obAttemptMagic, 1⟩)
  else ([], ⟨obAttemptMagic, 0⟩)

/-! ## The power cycles -/

/-- The option register at the next boot, and the guard. The rest is history: whether the register
was programmed since the last power-up or the last boot that found it right, how often the firmware
reset the chip, and how many power-ups and right boots there were. -/
structure Chip where
  optr : BitVec 32
  guard : ObGuard
  tried : Bool
  launches : ℕ
  chances : ℕ

/-- The fields are all as they should be. -/
def Provisioned (optr : BitVec 32) : Prop :=
  okNBoot0 optr = true ∧ okNSwboot0 optr = true ∧ okBor optr = true
  deriving Decidable

/-- The power comes on, with anything in the noinit RAM; the firmware boots, after a reset of any
kind; or something else writes the option bytes. -/
inductive ChipEvent where
  | powerOn (noinit : ObGuard)
  | boot (env : BootEnv)
  | drift (optr : BitVec 32)

/-- The register after a call. -/
def HalCall.apply (hal : ObProgram) (env : BootEnv) (optr : BitVec 32) : HalCall → BitVec 32
  | .obProgram userType userConfig =>
    if env.takes = true then writeFields optr (hal.fields userType) userConfig else optr
  | _ => optr

/-- The calls of a boot. -/
def Chip.calls (mcuboot : Bool) (s : Chip) (env : BootEnv) : List HalCall :=
  (optionBytesCheckAndApply mcuboot env s.optr s.guard).1

/-- Whether one of the calls programs. -/
def HalCall.isProgram : HalCall → Bool
  | .obProgram .. => true
  | _ => false

def chipStep (hal : ObProgram) (mcuboot : Bool) (s : Chip) : ChipEvent → Option Chip
  | .powerOn noinit => some { s with guard := noinit, tried := false, chances := s.chances + 1 }
  | .boot env =>
    let calls := s.calls mcuboot env
    some {
      optr := calls.foldl (HalCall.apply hal env) s.optr
      guard := (optionBytesCheckAndApply mcuboot env s.optr s.guard).2
      tried := if Provisioned s.optr then false else s.tried || calls.any HalCall.isProgram
      launches := s.launches + calls.count .obLaunch
      chances := if Provisioned s.optr then s.chances + 1 else s.chances }
  | .drift optr => some { s with optr := optr }

/-- The chip as this firmware finds it. -/
def Chip.start (optr : BitVec 32) (guard : ObGuard) : Chip := ⟨optr, guard, false, 0, 0⟩

/-- The fields that the firmware asserts. -/
def assertedFields : List (BitVec 32) := [flashOptrBorLev, flashOptrNBoot0, flashOptrNSwboot0]

/-- The bits of these fields. -/
def assertedMask : BitVec 32 := flashOptrBorLev ||| flashOptrNBoot0 ||| flashOptrNSwboot0

/-- What the fields should be. -/
def expectedOptr : BitVec 32 := expectedBorLev <<< flashOptrBorLevPos ||| obBoot0Set

/-- A boot leaves a right register alone. It programs only once in a power cycle, and only under a
confirmed image; it resets the chip only after that; and it changes nothing but the fields that it
asserts, each to what it should be. -/
structure BootSafe (mcuboot : Bool) (s : Chip) (env : BootEnv) (t : Chip) : Prop where
  quiet : Provisioned s.optr → s.calls mcuboot env = []
  confirmed : (s.calls mcuboot env).any HalCall.isProgram = true → mcuboot = true →
    env.imgConfirmed = true
  once : (s.calls mcuboot env).any HalCall.isProgram = true → s.tried = false
  launch : .obLaunch ∈ s.calls mcuboot env →
    (s.calls mcuboot env).any HalCall.isProgram = true ∧ env.programOk = true
  frame : t.optr &&& ~~~assertedMask = s.optr &&& ~~~assertedMask
  field : ∀ f ∈ assertedFields, t.optr &&& f = s.optr &&& f ∨ t.optr &&& f = expectedOptr &&& f
  heals : (s.calls mcuboot env).any HalCall.isProgram = true → env.takes = true →
    Provisioned t.optr

/-! ## What a boot does -/

section Repair

variable {hal : ObProgram} {env : BootEnv} {optr : BitVec 32}

/-- The fields a repair writes are those that are not right. -/
theorem fields_userType (a b c : Bool) : hal.fields (userType a b c) =
    (if c = false then flashOptrBorLev else 0) ||| (if b = false then flashOptrNSwboot0 else 0) |||
      (if a = false then flashOptrNBoot0 else 0) := by
  have hothers : hal.otherFields (userType a b c) = 0 := by
    apply hal.others
    cases a <;> cases b <;> cases c <;> decide
  rw [ObProgram.fields, hothers]
  cases a <;> cases b <;> cases c <;> decide

theorem foldl_optionBytesRepair (a b c : Bool) :
    (optionBytesRepair env a b c).foldl (HalCall.apply hal env) optr =
      if env.unlockOk = true ∧ env.obUnlockOk = true ∧ env.takes = true then
        writeFields optr (hal.fields (userType a b c)) (userConfig a b c)
      else optr := by
  unfold optionBytesRepair
  split_ifs <;> simp_all [HalCall.apply]

theorem any_optionBytesRepair (a b c : Bool) :
    (optionBytesRepair env a b c).any HalCall.isProgram = (env.unlockOk && env.obUnlockOk) := by
  unfold optionBytesRepair
  split_ifs <;> simp_all [HalCall.isProgram]

theorem launch_optionBytesRepair {a b c : Bool} (h : .obLaunch ∈ optionBytesRepair env a b c) :
    (optionBytesRepair env a b c).any HalCall.isProgram = true ∧ env.programOk = true := by
  rw [any_optionBytesRepair]
  unfold optionBytesRepair at h
  split_ifs at h <;> simp_all

theorem count_optionBytesRepair (env : BootEnv) (a b c : Bool) :
    (optionBytesRepair env a b c).count .obLaunch ≤
      ((optionBytesRepair env a b c).any HalCall.isProgram).toNat := by
  rw [any_optionBytesRepair]
  unfold optionBytesRepair
  split_ifs <;> simp_all

/-- A bit is all that its comparison reads. -/
theorem bitMatches_congr {v v' : BitVec 32} {pos : ℕ} {expected : BitVec 32}
    (hpos : (1#32 <<< pos) >>> pos = 1#32) (h : v &&& 1#32 <<< pos = v' &&& 1#32 <<< pos) :
    bitMatches v pos expected = bitMatches v' pos expected := by
  have hbit : ∀ u : BitVec 32, (u >>> pos) &&& 1#32 = (u &&& 1#32 <<< pos) >>> pos := fun u => by
    rw [BitVec.ushiftRight_and_distrib, hpos]
  rw [bitMatches, bitMatches, hbit, hbit, h]

theorem borLevel_congr {v v' : BitVec 32} (h : v &&& flashOptrBorLev = v' &&& flashOptrBorLev) :
    okBor v = okBor v' := by
  rw [okBor, okBor, borLevel, borLevel, h]

section Written

variable (hal optr) (a b c : Bool)

/-- The register after the repair of the fields that are not right. -/
def repaired : BitVec 32 :=
  writeFields optr (hal.fields (userType a b c)) (userConfig a b c)

/-- A field that is right stays, and one that is not becomes what it should be. -/
theorem written_field {f m config : BitVec 32} (ok : Bool)
    (h : if ok = true then f &&& m = 0 else f &&& m = f ∧ config &&& f = expectedOptr &&& f) :
    writeFields optr m config &&& f = (if ok = true then optr else expectedOptr) &&& f := by
  cases ok with
  | false => exact (writeFields_inside h.1).trans h.2
  | true => exact writeFields_outside h

theorem repaired_borLev : repaired hal optr a b c &&& flashOptrBorLev =
    (if c = true then optr else expectedOptr) &&& flashOptrBorLev := by
  rw [repaired, fields_userType]
  exact written_field optr c (by cases a <;> cases b <;> cases c <;> decide)

theorem repaired_nBoot0 : repaired hal optr a b c &&& flashOptrNBoot0 =
    (if a = true then optr else expectedOptr) &&& flashOptrNBoot0 := by
  rw [repaired, fields_userType]
  exact written_field optr a (by cases a <;> cases b <;> cases c <;> decide)

theorem repaired_nSwboot0 : repaired hal optr a b c &&& flashOptrNSwboot0 =
    (if b = true then optr else expectedOptr) &&& flashOptrNSwboot0 := by
  rw [repaired, fields_userType]
  exact written_field optr b (by cases a <;> cases b <;> cases c <;> decide)

theorem repaired_frame :
    repaired hal optr a b c &&& ~~~assertedMask = optr &&& ~~~assertedMask := by
  rw [repaired, fields_userType]
  exact writeFields_outside (by cases a <;> cases b <;> cases c <;> decide)

theorem repaired_field (f : BitVec 32) (hf : f ∈ assertedFields) :
    repaired hal optr a b c &&& f = optr &&& f ∨
      repaired hal optr a b c &&& f = expectedOptr &&& f := by
  have heither : ∀ (ok : Bool), repaired hal optr a b c &&& f =
      (if ok = true then optr else expectedOptr) &&& f →
      repaired hal optr a b c &&& f = optr &&& f ∨
        repaired hal optr a b c &&& f = expectedOptr &&& f := by
    intro ok h
    cases ok with
    | false => exact .inr h
    | true => exact .inl h
  simp only [assertedFields, List.mem_cons, List.not_mem_nil, or_false] at hf
  rcases hf with rfl | rfl | rfl
  · exact heither c (repaired_borLev ..)
  · exact heither a (repaired_nBoot0 ..)
  · exact heither b (repaired_nSwboot0 ..)

theorem provisioned_repaired :
    Provisioned (repaired hal optr (okNBoot0 optr) (okNSwboot0 optr) (okBor optr)) := by
  refine ⟨?_, ?_, ?_⟩
  · refine (bitMatches_congr rfl (repaired_nBoot0 ..)).trans ?_
    split_ifs with hok
    · exact hok
    · decide
  · refine (bitMatches_congr rfl (repaired_nSwboot0 ..)).trans ?_
    split_ifs with hok
    · exact hok
    · decide
  · refine (borLevel_congr (repaired_borLev ..)).trans ?_
    split_ifs with hok
    · exact hok
    · decide

end Written

end Repair

/-! ## The runs -/

section Steps

variable {hal : ObProgram} {mcuboot : Bool} {s t : Chip} {env : BootEnv}

theorem provisioned_iff {optr : BitVec 32} :
    (!okNBoot0 optr || !okNSwboot0 optr || !okBor optr) = true ↔ ¬Provisioned optr := by
  rw [Provisioned]
  cases okNBoot0 optr <;> cases okNSwboot0 optr <;> cases okBor optr <;> decide

/-- A boot calls nothing of the HAL, or it repairs. -/
inductive BootKind (mcuboot : Bool) (env : BootEnv) (optr : BitVec 32) (guard : ObGuard) :
    List HalCall × ObGuard → Prop where
  | right : Provisioned optr → BootKind mcuboot env optr guard ([], ⟨obAttemptMagic, 0⟩)
  | left : ¬Provisioned optr → BootKind mcuboot env optr guard ([], guard)
  | repair : ¬Provisioned optr → ¬guard.Set → (mcuboot = true → env.imgConfirmed = true) →
    BootKind mcuboot env optr guard
      (optionBytesRepair env (okNBoot0 optr) (okNSwboot0 optr) (okBor optr), ⟨obAttemptMagic, 1⟩)

theorem bootKind (mcuboot : Bool) (env : BootEnv) (optr : BitVec 32) (guard : ObGuard) :
    BootKind mcuboot env optr guard (optionBytesCheckAndApply mcuboot env optr guard) := by
  unfold optionBytesCheckAndApply
  split_ifs with hwrong hset hconfirmed
  · exact .left (provisioned_iff.mp hwrong)
  · exact .left (provisioned_iff.mp hwrong)
  · refine .repair (provisioned_iff.mp hwrong) hset fun hmcuboot => ?_
    cases himg : env.imgConfirmed with
    | false => exact absurd ⟨hmcuboot, himg⟩ hconfirmed
    | true => rfl
  · exact .right (not_not.mp fun hnot => hwrong (provisioned_iff.mpr hnot))

/-- The guard remembers an attempt, and each reset by the firmware has a chance of its own. -/
structure Chip.Kept (s : Chip) : Prop where
  guarded : s.tried = true → s.guard.Set
  bounded : s.launches + (!s.tried).toNat ≤ s.chances + 1

theorem BootSafe.of_quiet (hcalls : s.calls mcuboot env = []) (hsame : t.optr = s.optr) :
    BootSafe mcuboot s env t where
  quiet _ := hcalls
  confirmed h := absurd h (by rw [hcalls]; exact Bool.false_ne_true)
  once h := absurd h (by rw [hcalls]; exact Bool.false_ne_true)
  launch h := absurd h (by rw [hcalls]; exact List.not_mem_nil)
  frame := by rw [hsame]
  field f _ := .inl (by rw [hsame])
  heals h := absurd h (by rw [hcalls]; exact Bool.false_ne_true)

theorem BootSafe.of_repair (hal : ObProgram) (h : s.Kept) (hwrong : ¬Provisioned s.optr)
    (hset : ¬s.guard.Set) (hconfirmed : mcuboot = true → env.imgConfirmed = true)
    (hcalls : s.calls mcuboot env =
      optionBytesRepair env (okNBoot0 s.optr) (okNSwboot0 s.optr) (okBor s.optr))
    (hoptr : t.optr = if env.unlockOk = true ∧ env.obUnlockOk = true ∧ env.takes = true then
      repaired hal s.optr (okNBoot0 s.optr) (okNSwboot0 s.optr) (okBor s.optr) else s.optr) :
    BootSafe mcuboot s env t where
  quiet hright := absurd hright hwrong
  confirmed _ := hconfirmed
  once _ := Bool.eq_false_iff.mpr fun htried => hset (h.guarded htried)
  launch hlaunch := by
    rw [hcalls] at hlaunch ⊢
    exact launch_optionBytesRepair hlaunch
  frame := by
    rw [hoptr]
    split_ifs
    · exact repaired_frame ..
    · rfl
  field f hf := by
    rw [hoptr]
    split_ifs
    · exact repaired_field (f := f) hal s.optr _ _ _ hf
    · exact .inl rfl
  heals hprogram htakes := by
    rw [hcalls, any_optionBytesRepair, Bool.and_eq_true] at hprogram
    rw [hoptr, if_pos ⟨hprogram.1, hprogram.2, htakes⟩]
    exact provisioned_repaired ..

theorem Chip.Kept.boot (h : s.Kept) (ht : chipStep hal mcuboot s (.boot env) = some t) :
    t.Kept ∧ BootSafe mcuboot s env t := by
  obtain rfl := Option.some.inj ht
  have hbounded := h.bounded
  have hkind := bootKind mcuboot env s.optr s.guard
  generalize hout : optionBytesCheckAndApply mcuboot env s.optr s.guard = out at hkind
  have hcalls : s.calls mcuboot env = out.1 := congrArg Prod.fst hout
  cases hkind with
  | right hright =>
    refine ⟨⟨fun htried => ?_, ?_⟩, .of_quiet hcalls (by simp only [hcalls, List.foldl_nil])⟩
    · simp only [if_pos hright] at htried
      exact absurd htried Bool.false_ne_true
    · simp only [hcalls, if_pos hright, List.count_nil, Bool.not_false, Bool.toNat_true]
      omega
  | left hwrong =>
    refine ⟨⟨fun htried => ?_, ?_⟩, .of_quiet hcalls (by simp only [hcalls, List.foldl_nil])⟩
    · simp only [hcalls, if_neg hwrong, List.any_nil, Bool.or_false] at htried
      simp only
      exact h.guarded htried
    · simp only [hcalls, if_neg hwrong, List.any_nil, Bool.or_false, List.count_nil]
      omega
  | repair hwrong hset hconfirmed =>
    have huntried : s.tried = false := Bool.eq_false_iff.mpr fun htried => hset (h.guarded htried)
    have hcount := count_optionBytesRepair env (okNBoot0 s.optr) (okNSwboot0 s.optr)
      (okBor s.optr)
    refine ⟨⟨fun _ => ?_, ?_⟩, .of_repair hal h hwrong hset hconfirmed hcalls ?_⟩
    · exact ⟨rfl, show (1 : BitVec 32) ≠ 0 by decide⟩
    · rw [huntried] at hbounded
      simp only [hcalls, if_neg hwrong, huntried, Bool.false_or]
      generalize (optionBytesRepair env (okNBoot0 s.optr) (okNSwboot0 s.optr) (okBor s.optr)).any
        HalCall.isProgram = p at hcount
      cases p <;> simp only [Bool.toNat_false, Bool.toNat_true, Bool.not_false, Bool.not_true]
        at hbounded hcount ⊢ <;> omega
    · simp only [hcalls]
      exact foldl_optionBytesRepair ..

/-- Each step: a boot is safe, a power-up leaves the register, and the firmware has reset the chip
at most once for each chance it had. -/
def ChipSafe (mcuboot : Bool) (s : Chip) (e : ChipEvent) (t : Chip) : Prop :=
  t.launches ≤ t.chances + 1 ∧
    match e with
    | .powerOn _ => t.optr = s.optr
    | .boot env => BootSafe mcuboot s env t
    | .drift _ => True

theorem Chip.Kept.step {e : ChipEvent} (h : s.Kept) (ht : chipStep hal mcuboot s e = some t) :
    t.Kept ∧ ChipSafe mcuboot s e t := by
  have hbound : ∀ {t : Chip}, t.Kept → t.launches ≤ t.chances + 1 := fun ht =>
    Nat.le_trans (Nat.le_add_right ..) ht.bounded
  cases e with
  | powerOn noinit =>
    obtain rfl := Option.some.inj ht
    have hkept : Chip.Kept
        { s with guard := noinit, tried := false, chances := s.chances + 1 } := by
      refine ⟨fun htried => absurd htried Bool.false_ne_true, ?_⟩
      have hbounded := h.bounded
      simp only [Bool.not_false, Bool.toNat_true]
      omega
    exact ⟨hkept, hbound hkept, rfl⟩
  | boot env =>
    obtain ⟨hkept, hsafe⟩ := h.boot ht
    exact ⟨hkept, hbound hkept, hsafe⟩
  | drift optr =>
    obtain rfl := Option.some.inj ht
    have hkept : Chip.Kept { s with optr := optr } := ⟨h.guarded, h.bounded⟩
    exact ⟨hkept, hbound hkept, trivial⟩

/-- A boot of a right register calls nothing, and leaves it. -/
theorem boot_right (hright : Provisioned s.optr)
    (ht : chipStep hal mcuboot s (.boot env) = some t) :
    s.calls mcuboot env = [] ∧ t.optr = s.optr := by
  obtain rfl := Option.some.inj ht
  have hcalls : s.calls mcuboot env = [] := by
    rw [Chip.calls, optionBytesCheckAndApply,
      if_neg fun hwrong => provisioned_iff.mp hwrong hright]
  exact ⟨hcalls, by simp only [hcalls, List.foldl_nil]⟩

end Steps

/-- In every run of power-ups, boots and drifts, from any register and any noinit RAM, the boots are
safe, and the resets are bounded. -/
theorem optionBytes_safe (hal : ObProgram) (mcuboot : Bool) (optr : BitVec 32) (guard : ObGuard)
    (es : List ChipEvent) :
    Steps (chipStep hal mcuboot) (ChipSafe mcuboot) (.start optr guard) es := by
  have hstart : (Chip.start optr guard).Kept :=
    ⟨fun htried => absurd htried Bool.false_ne_true, Nat.le_refl 1⟩
  have hstep : ∀ {s e t}, Chip.Kept s → True → chipStep hal mcuboot s e = some t →
      t.Kept ∧ ChipSafe mcuboot s e t := fun h _ ht => h.step ht
  exact Steps.of_inv hstep hstart (Steps.of_mem fun _ _ => trivial)

/-- A boot on which nothing goes wrong. -/
structure BootEnv.Healthy (env : BootEnv) : Prop where
  unlocks : env.unlockOk = true ∧ env.obUnlockOk = true
  takes : env.takes = true
  confirmed : env.imgConfirmed = true

/-- The option bytes are left to the firmware. -/
def ChipEvent.Undisturbed : ChipEvent → Prop
  | .drift _ => False
  | _ => True

/-- The register is right and stays as it is, and no boot touches the HAL. -/
def Settled (mcuboot : Bool) (s : Chip) (e : ChipEvent) (t : Chip) : Prop :=
  Provisioned s.optr ∧ t.optr = s.optr ∧ ∀ env, e = .boot env → s.calls mcuboot env = []

/-- One healthy boot without an attempt behind it settles the register for good. -/
theorem optionBytes_settle {hal : ObProgram} {mcuboot : Bool} {s t : Chip} {env : BootEnv}
    {es : List ChipEvent} (hguard : ¬s.guard.Set) (henv : env.Healthy)
    (ht : chipStep hal mcuboot s (.boot env) = some t) (hes : ∀ e ∈ es, e.Undisturbed) :
    Steps (chipStep hal mcuboot) (Settled mcuboot) t es := by
  have hright : Provisioned t.optr := by
    by_cases hright : Provisioned s.optr
    · rw [(boot_right hright ht).2]
      exact hright
    · have hrepair : s.calls mcuboot env =
          optionBytesRepair env (okNBoot0 s.optr) (okNSwboot0 s.optr) (okBor s.optr) := by
        rw [Chip.calls, optionBytesCheckAndApply, if_pos (provisioned_iff.mpr hright),
          if_neg hguard, if_neg (by rw [henv.confirmed]; exact fun h => nomatch h.2)]
      obtain rfl := Option.some.inj ht
      simp only [hrepair, foldl_optionBytesRepair]
      rw [if_pos ⟨henv.unlocks.1, henv.unlocks.2, henv.takes⟩]
      exact provisioned_repaired ..
  have hstep : ∀ {s e t}, Provisioned (Chip.optr s) → ChipEvent.Undisturbed e →
      chipStep hal mcuboot s e = some t → Provisioned t.optr ∧ Settled mcuboot s e t := by
    intro s e t hright he ht
    cases e with
    | powerOn noinit =>
      obtain rfl := Option.some.inj ht
      exact ⟨hright, hright, rfl, nofun⟩
    | boot env =>
      obtain ⟨hcalls, hsame⟩ := boot_right hright ht
      refine ⟨hsame ▸ hright, hright, hsame, fun env' henv' => ?_⟩
      obtain rfl := ChipEvent.boot.inj henv'
      exact hcalls
    | drift optr => exact absurd he id
  exact Steps.of_inv hstep hright (Steps.of_mem hes)

/-- A HAL with one more field, of the watchdog. -/
def stm32l4 : ObProgram where
  otherFields t := if t &&& 0x8 ≠ 0 then 1 <<< 16 else 0
  others t h := by
    have hbit : t &&& 0x8 =
        t &&& ~~~(obUserBorLev ||| obUserNSwboot0 ||| obUserNBoot0) &&& 0x8 := by
      rw [BitVec.and_assoc]
      rfl
    rw [if_neg]
    rw [hbit, h]
    exact not_not.mpr rfl

/-- A part as it ships, with the pin deciding the boot source. -/
def shipped : Chip := .start 0x0FEFF0AA ⟨0, 0⟩

theorem optionBytes_settle_shipped : ∃ t, chipStep stm32l4 true shipped
      (.boot ⟨true, true, true, true, true⟩) = some t ∧ ¬Provisioned shipped.optr ∧
      Steps (chipStep stm32l4 true) (Settled true) t
        [.boot ⟨true, true, true, true, true⟩, .powerOn ⟨0x424F5231, 1⟩,
          .boot ⟨false, false, false, false, false⟩] :=
  ⟨_, rfl, by decide, optionBytes_settle (by decide) ⟨⟨rfl, rfl⟩, rfl, rfl⟩ rfl
    (by simp [ChipEvent.Undisturbed])⟩

end DiveCANHead.Boot
