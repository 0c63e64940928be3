import Mathlib.Data.Fintype.Basic
import Mathlib.Data.Fintype.Pi
import Mathlib.Logic.Function.Basic
import DiveCANHead.Maintenance.Arena

/-!
# The error histogram and its persistence (`error_histogram.c`)

The error callback counts and then marks the histogram dirty; a periodic save copies the counters
one by one, writes them and takes the mark off; a clear zeroes them one by one, writes zeros and
takes the mark off too. The save runs under its gate, which the callback and the clear do not take.
What is marked while a save or a clear is past its counter is unmarked with the rest.
-/

namespace DiveCANHead.Errors

open DiveCANHead.Lib DiveCANHead.Maintenance

/-- `ERROR_HISTOGRAM_COUNT`, which is `OP_ERR_MAX`. -/
def errorHistogramCount : ℕ := 38

/-- `HIST_MAX_COUNT`. -/
def histMaxCount : ℕ := 65535

/-- A counter of the histogram. -/
abbrev Slot := Fin errorHistogramCount

/-- `atomic_inc` of a 32-bit counter. -/
def atomicInc (v : ℤ) : ℤ := if v = 2147483647 then -2147483648 else v + 1

/-- What `snapshot_to_u16` makes of a counter. -/
def saturate (v : ℤ) : ℕ := if histMaxCount < v then histMaxCount else (v % 65536).toNat

/-- Where `save_work_handler` is: outside its gate; copying, with that many counters copied; with
the buffer written; or past a write that failed. -/
inductive SavePhase where
  | idle
  | reading (copied : ℕ) (buf : Slot → ℕ)
  | written (buf : Slot → ℕ)
  | failed

/-- Where `error_histogram_clear` is: not called; zeroing, with that many counters zeroed; with the
zeros written; or past a write that failed. -/
inductive ClearPhase where
  | idle
  | zeroing (zeroed : ℕ)
  | written
  | failed
  deriving DecidableEq

/-- The save work is outside its gate. -/
def SavePhase.IsIdle : SavePhase → Prop
  | .idle => True
  | _ => False

instance SavePhase.decidableIsIdle : ∀ p : SavePhase, Decidable p.IsIdle
  | .idle => isTrue trivial
  | .reading _ _ | .written _ | .failed => isFalse id

theorem SavePhase.isIdle_iff {p : SavePhase} : p.IsIdle ↔ p = .idle := by
  cases p <;> simp [IsIdle]

/-- How many counters a clear has zeroed so far. -/
def ClearPhase.zeroed : ClearPhase → ℕ
  | .idle => 0
  | .zeroing zeroed => zeroed
  | .written | .failed => errorHistogramCount

/-- The module's variables, the callbacks that have counted and not marked yet, what the settings
hold and, for the statements only: whether the last clear was written; the events of each counter
since it was last zeroed; of these, the ones the running save has read, and the ones the last
completed save had read. -/
structure HistogramSystem where
  histogram : Slot → ℤ
  dirty : Bool
  hold : ErrorHistogram
  loaded : Bool
  marking : ℕ
  save : SavePhase
  clear : ClearPhase
  persisted : Slot → ℕ
  cleared : Bool
  since : Slot → ℕ
  taken : Slot → ℕ
  kept : Slot → ℕ

/-- `tick` is the periodic save work; a write carries whether it succeeds. -/
inductive HistogramEvent where
  | count (code : Slot)
  | mark
  | tick
  | saveRead
  | saveWrite (ok : Bool)
  | saveEnd
  | pause
  | resume
  | clearStart
  | clearZero
  | clearWrite (ok : Bool)
  | clearEnd
  | powerLoss
  | load (ok : Bool)

/-- `save_work_handler` decides to save. -/
def HistogramSystem.saveDue (s : HistogramSystem) : Bool :=
  s.hold.savePauseDepth == 0 && s.dirty

/-- One step of the periodic save, or of a pause or resume, which wait for its gate. -/
def saveStep (s : HistogramSystem) : HistogramEvent → Option HistogramSystem
  | .tick =>
    match s.save, s.loaded with
    | .idle, true => some (if s.saveDue then { s with save := .reading 0 fun _ => 0 } else s)
    | _, _ => none
  | .saveRead =>
    match s.save with
    | .reading copied buf =>
      if h : copied < errorHistogramCount then
        some { s with
          save := .reading (copied + 1)
            (Function.update buf ⟨copied, h⟩ (saturate (s.histogram ⟨copied, h⟩)))
          taken := Function.update s.taken ⟨copied, h⟩ (s.since ⟨copied, h⟩) }
      else none
    | _ => none
  | .saveWrite ok =>
    match s.save with
    | .reading copied buf =>
      if copied = errorHistogramCount then
        some (if ok = true then { s with save := .written buf, persisted := buf, kept := s.taken }
          else { s with save := .failed })
      else none
    | _ => none
  | .saveEnd =>
    match s.save with
    | .written _ => some { s with save := .idle, dirty := false }
    | .failed => some { s with save := .idle }
    | _ => none
  | .pause =>
    match s.save with
    | .idle => some { s with hold := errorHistogramPause s.hold }
    | _ => none
  | .resume =>
    match s.save with
    | .idle => some { s with hold := errorHistogramResume s.hold }
    | _ => none
  | _ => none

/-- One step of `error_histogram_clear`. -/
def clearStep (s : HistogramSystem) : HistogramEvent → Option HistogramSystem
  | .clearStart =>
    if s.clear = .idle then some { s with clear := .zeroing 0, cleared := false } else none
  | .clearZero =>
    match s.clear with
    | .zeroing zeroed =>
      if h : zeroed < errorHistogramCount then
        some { s with
          clear := .zeroing (zeroed + 1)
          histogram := Function.update s.histogram ⟨zeroed, h⟩ 0
          since := Function.update s.since ⟨zeroed, h⟩ 0
          taken := Function.update s.taken ⟨zeroed, h⟩ 0
          kept := Function.update s.kept ⟨zeroed, h⟩ 0 }
      else none
    | _ => none
  | .clearWrite ok =>
    if s.clear = .zeroing errorHistogramCount then
      some (if ok = true then { s with clear := .written, persisted := fun _ => 0, cleared := true }
        else { s with clear := .failed })
    else none
  | .clearEnd =>
    match s.clear with
    | .written => some { s with clear := .idle, dirty := false }
    | .failed => some { s with clear := .idle }
    | _ => none
  | _ => none

/-- The module after a reset, with what the settings hold. Events that no completed save had read
are lost with the power. -/
def HistogramSystem.reset (s : HistogramSystem) : HistogramSystem where
  histogram := fun _ => 0
  dirty := false
  hold := ⟨0, []⟩
  loaded := false
  marking := 0
  save := .idle
  clear := .idle
  persisted := s.persisted
  cleared := s.cleared
  since := s.kept
  taken := s.taken
  kept := s.kept

/-- One step of the system: an event of the error callback, a reset or the load at start-up, or one
of the other two. -/
def histogramStep (s : HistogramSystem) : HistogramEvent → Option HistogramSystem
  | .count code =>
    some { s with
      histogram := Function.update s.histogram code (atomicInc (s.histogram code))
      since := Function.update s.since code (s.since code + 1)
      marking := s.marking + 1 }
  | .mark => if 0 < s.marking then some { s with dirty := true, marking := s.marking - 1 } else none
  | .powerLoss => some s.reset
  | .load ok =>
    if s.loaded = false then
      some (if ok = true then { s with loaded := true, histogram := fun i => s.persisted i }
        else { s with loaded := true })
    else none
  | .tick => saveStep s .tick
  | .saveRead => saveStep s .saveRead
  | .saveWrite ok => saveStep s (.saveWrite ok)
  | .saveEnd => saveStep s .saveEnd
  | .pause => saveStep s .pause
  | .resume => saveStep s .resume
  | .clearStart => clearStep s .clearStart
  | .clearZero => clearStep s .clearZero
  | .clearWrite ok => clearStep s (.clearWrite ok)
  | .clearEnd => clearStep s .clearEnd

/-- A device with empty settings, at its first boot. -/
def histogramBoot : HistogramSystem where
  histogram := fun _ => 0
  dirty := false
  hold := ⟨0, []⟩
  loaded := false
  marking := 0
  save := .idle
  clear := .idle
  persisted := fun _ => 0
  cleared := false
  since := fun _ => 0
  taken := fun _ => 0
  kept := fun _ => 0

/-! ## What is asked of the settings -/

/-- No load, callback or clear is under way. -/
def HistogramSystem.Settled (s : HistogramSystem) : Prop :=
  s.loaded = true ∧ s.marking = 0 ∧ s.clear = .idle

/-- Whenever the histogram is not marked dirty, the settings hold it; they miss no event that a
completed save had read; and once a clear is written they hold no event from before it. -/
structure Persisted (s : HistogramSystem) : Prop where
  coherent : s.Settled → s.dirty = false → ∀ i, s.persisted i = saturate (s.histogram i)
  complete : ∀ i, min (s.kept i) histMaxCount ≤ s.persisted i
  cleared : s.cleared = true → ∀ i, s.persisted i ≤ min (s.kept i) histMaxCount

/-- Every counter still reads what a save that is through wrote of it. -/
def SavePhase.Unmoved (histogram : Slot → ℤ) : SavePhase → Prop
  | .written buf => ∀ i, saturate (histogram i) = buf i
  | _ => True

/-- The conditions on a step: no event is counted before the load, nor one that wraps its counter;
the load succeeds; saves and clears do not overlap, and no clear comes before the load; when a save
or a clear takes the mark off, every counter still reads what was written of it, unless a callback
is about to mark; and a clear whose write fails ends with the histogram marked dirty, unless the
settings held zeros. -/
def Clean (s : HistogramSystem) : HistogramEvent → Prop
  | .count code => s.loaded = true ∧ s.histogram code < 2147483647
  | .load ok => ok = true
  | .tick => s.saveDue = true → s.clear = .idle
  | .clearStart => s.loaded = true ∧ s.save.IsIdle
  | .saveEnd => s.marking = 0 → s.save.Unmoved s.histogram
  | .clearEnd => s.marking = 0 →
    (s.clear = .written → ∀ i, saturate (s.histogram i) = 0) ∧
      (s.clear = .failed → s.dirty = true ∨ ∀ i, s.persisted i = 0)
  | _ => True

instance HistogramSystem.decidableSettled (s : HistogramSystem) : Decidable s.Settled := by
  unfold Settled
  infer_instance

instance decidablePersisted (s : HistogramSystem) : Decidable (Persisted s) :=
  decidable_of_iff ((s.Settled → s.dirty = false → ∀ i, s.persisted i = saturate (s.histogram i)) ∧
      (∀ i, min (s.kept i) histMaxCount ≤ s.persisted i) ∧
      (s.cleared = true → ∀ i, s.persisted i ≤ min (s.kept i) histMaxCount))
    ⟨fun h => ⟨h.1, h.2.1, h.2.2⟩, fun h => ⟨h.coherent, h.complete, h.cleared⟩⟩

instance SavePhase.decidableUnmoved (histogram : Slot → ℤ) :
    ∀ p : SavePhase, Decidable (p.Unmoved histogram)
  | .written buf => inferInstanceAs (Decidable (∀ i, saturate (histogram i) = buf i))
  | .idle | .reading _ _ | .failed => isTrue trivial

instance decidableClean (s : HistogramSystem) : ∀ e, Decidable (Clean s e)
  | .count code =>
    inferInstanceAs (Decidable (s.loaded = true ∧ s.histogram code < 2147483647))
  | .load ok => inferInstanceAs (Decidable (ok = true))
  | .tick => inferInstanceAs (Decidable (s.saveDue = true → s.clear = .idle))
  | .clearStart => inferInstanceAs (Decidable (s.loaded = true ∧ s.save.IsIdle))
  | .saveEnd => inferInstanceAs (Decidable (s.marking = 0 → s.save.Unmoved s.histogram))
  | .clearEnd => inferInstanceAs (Decidable (s.marking = 0 →
      (s.clear = .written → ∀ i, saturate (s.histogram i) = 0) ∧
        (s.clear = .failed → s.dirty = true ∨ ∀ i, s.persisted i = 0)))
  | .mark | .saveRead | .saveWrite _ | .pause | .resume | .clearZero | .clearWrite _
  | .powerLoss => isTrue trivial

/-! ## Counters -/

theorem saturate_le (v : ℤ) : saturate v ≤ histMaxCount := by
  unfold saturate histMaxCount
  split
  · rfl
  · omega

theorem saturate_ofNat {n : ℕ} (h : n ≤ histMaxCount) : saturate n = n := by
  have hn : n ≤ 65535 := h
  unfold saturate histMaxCount
  rw [if_neg (by omega)]
  omega

/-- The snapshot of a counter in its positive range. -/
theorem saturate_of_nonneg {v : ℤ} (h : 0 ≤ v) : saturate v = min v.toNat histMaxCount := by
  unfold saturate histMaxCount
  split <;> omega

/-- A counted event shows in the snapshot, up to its bound. -/
theorem saturate_atomicInc {v : ℤ} (h : 0 ≤ v) (hmax : v < 2147483647) :
    0 ≤ atomicInc v ∧ saturate (atomicInc v) = min (saturate v + 1) histMaxCount := by
  have hinc : atomicInc v = v + 1 := if_neg (by omega)
  refine ⟨by omega, ?_⟩
  rw [hinc, saturate_of_nonneg h, saturate_of_nonneg (by omega)]
  unfold histMaxCount
  omega

/-! ## Runs -/

/-- What a run keeps. -/
structure HistogramInv (s : HistogramSystem) : Prop extends Persisted s where
  overlap : s.save ≠ .idle → s.clear = .idle
  off : s.loaded = false → s.save = .idle ∧ s.clear = .idle ∧ s.marking = 0 ∧ s.since = s.kept
  bound : ∀ i, s.persisted i ≤ histMaxCount
  counted : s.loaded = true → ∀ i, 0 ≤ s.histogram i ∧
    min (s.since i) histMaxCount ≤ saturate (s.histogram i)
  exact : s.loaded = true → ∀ i, s.cleared = true ∨ i.val < s.clear.zeroed →
    saturate (s.histogram i) ≤ min (s.since i) histMaxCount
  saving : s.save ≠ .idle → s.dirty = true
  read : ∀ copied buf, s.save = .reading copied buf → ∀ i, i.val < copied →
    buf i ≤ histMaxCount ∧ min (s.taken i) histMaxCount ≤ buf i ∧
      (s.cleared = true → buf i ≤ min (s.taken i) histMaxCount)
  saved : ∀ buf, s.save = .written buf → s.persisted = buf
  clearing : ∀ zeroed, s.clear = .zeroing zeroed → s.cleared = false
  zeroKept : ∀ i, i.val < s.clear.zeroed → s.kept i = 0
  zeroLive : s.dirty = false → s.marking = 0 → ∀ i, i.val < s.clear.zeroed → s.histogram i = 0
  zeroed : s.clear = .written → ∀ i, s.persisted i = 0

theorem histogramInv_boot : HistogramInv histogramBoot where
  coherent h := nomatch h.1
  complete _ := Nat.zero_le _
  cleared h := nomatch h
  overlap h := absurd rfl h
  off _ := ⟨rfl, rfl, rfl, rfl⟩
  bound _ := Nat.zero_le _
  counted h := nomatch h
  exact h := nomatch h
  saving h := absurd rfl h
  read _ _ h := nomatch h
  saved _ h := nomatch h
  clearing _ h := nomatch h
  zeroKept _ h := absurd h (Nat.not_lt_zero _)
  zeroLive _ _ _ h := absurd h (Nat.not_lt_zero _)
  zeroed h := nomatch h

theorem HistogramInv.reset {s : HistogramSystem} (hi : HistogramInv s) : HistogramInv s.reset where
  coherent h := nomatch h.1
  complete := hi.complete
  cleared := hi.cleared
  overlap h := absurd rfl h
  off _ := ⟨rfl, rfl, rfl, rfl⟩
  bound := hi.bound
  counted h := nomatch h
  exact h := nomatch h
  saving h := absurd rfl h
  read _ _ h := nomatch h
  saved _ h := nomatch h
  clearing _ h := nomatch h
  zeroKept _ h := absurd h (Nat.not_lt_zero _)
  zeroLive _ _ _ h := absurd h (Nat.not_lt_zero _)
  zeroed h := nomatch h

/-- Outside a save the histogram is loaded or nothing is under way. -/
theorem HistogramInv.loaded_of_saving {s : HistogramSystem} (hi : HistogramInv s)
    (h : s.save ≠ .idle) : s.loaded = true := by
  by_contra hoff
  exact h (hi.off (by simpa using hoff)).1

theorem HistogramInv.loaded_of_clearing {s : HistogramSystem} (hi : HistogramInv s)
    (h : s.clear ≠ .idle) : s.loaded = true := by
  by_contra hoff
  exact h (hi.off (by simpa using hoff)).2.1

theorem HistogramInv.saveStep {s t : HistogramSystem} {e : HistogramEvent} (hi : HistogramInv s)
    (hc : Clean s e) (hstep : saveStep s e = some t) : HistogramInv t := by
  cases e with
  | tick =>
    simp only [Errors.saveStep] at hstep
    split at hstep
    · rename_i hsave hloaded
      obtain rfl := Option.some.inj hstep
      by_cases hdue : s.saveDue = true
      · rw [if_pos hdue]
        exact { hi with
          overlap := fun _ => hc hdue
          off := fun h => absurd (hloaded.symm.trans h) (by simp)
          saving := fun _ => by
            simp only [HistogramSystem.saveDue, Bool.and_eq_true] at hdue
            exact hdue.2
          read := fun copied buf h i hlt => by
            obtain ⟨rfl, -⟩ := SavePhase.reading.inj h
            exact absurd hlt (Nat.not_lt_zero _)
          saved := fun _ h => nomatch h }
      · rw [if_neg hdue]
        exact hi
    · exact absurd hstep (by simp)
  | saveRead =>
    simp only [Errors.saveStep] at hstep
    split at hstep
    · rename_i copied buf hsave
      split at hstep
      · rename_i hlt
        obtain rfl := Option.some.inj hstep
        have hbusy : s.save ≠ .idle := by simp [hsave]
        have hloaded := hi.loaded_of_saving hbusy
        exact { hi with
          overlap := fun _ => hi.overlap hbusy
          off := fun h => absurd (hloaded.symm.trans h) (by simp)
          saving := fun _ => hi.saving hbusy
          read := fun copied' buf' h i hi' => by
            obtain ⟨rfl, rfl⟩ := SavePhase.reading.inj h
            by_cases hic : i = ⟨copied, hlt⟩
            · subst hic
              simp only [Function.update_self]
              exact ⟨saturate_le _, (hi.counted hloaded _).2,
                fun hcl => hi.exact hloaded _ (.inl hcl)⟩
            · have hne : i.val ≠ copied := fun h => hic (Fin.ext h)
              simp only [Function.update_of_ne hic]
              exact hi.read copied buf hsave i (by omega)
          saved := fun _ h => nomatch h }
      · exact absurd hstep (by simp)
    · exact absurd hstep (by simp)
  | saveWrite ok =>
    simp only [Errors.saveStep] at hstep
    split at hstep
    · rename_i copied buf hsave
      obtain ⟨rfl, ht⟩ := Option.ite_none_right_eq_some.mp hstep
      obtain rfl := Option.some.inj ht
      have hbusy : s.save ≠ .idle := by simp [hsave]
      have hloaded := hi.loaded_of_saving hbusy
      have hdirty := hi.saving hbusy
      have hclear := hi.overlap hbusy
      have hread := fun i : Slot => hi.read _ buf hsave i i.isLt
      cases ok with
      | true =>
        exact { hi with
          coherent := fun _ h => absurd (hdirty.symm.trans h) (by simp)
          complete := fun i => (hread i).2.1
          cleared := fun hcl i => (hread i).2.2 hcl
          overlap := fun _ => hclear
          off := fun h => absurd (hloaded.symm.trans h) (by simp)
          bound := fun i => (hread i).1
          saving := fun _ => hdirty
          read := fun _ _ h => nomatch h
          saved := fun buf' h => SavePhase.written.inj h
          zeroKept := fun i h => by
            simp only [hclear, ClearPhase.zeroed] at h
            exact absurd h (Nat.not_lt_zero _)
          zeroed := fun h => absurd (hclear.symm.trans h) (by simp) }
      | false =>
        exact { hi with
          overlap := fun _ => hclear
          off := fun h => absurd (hloaded.symm.trans h) (by simp)
          saving := fun _ => hdirty
          read := fun _ _ h => nomatch h
          saved := fun _ h => nomatch h }
    · exact absurd hstep (by simp)
  | saveEnd =>
    simp only [Errors.saveStep] at hstep
    split at hstep
    · rename_i buf hsave
      obtain rfl := Option.some.inj hstep
      have hbusy : s.save ≠ .idle := by simp [hsave]
      have hloaded := hi.loaded_of_saving hbusy
      have hclear := hi.overlap hbusy
      exact { hi with
        coherent := fun h _ i => by
          have hsame : s.save.Unmoved s.histogram := hc h.2.1
          rw [hsave] at hsame
          rw [hsame i]
          exact congrFun (hi.saved buf hsave) i
        overlap := fun h => absurd rfl h
        off := fun h => absurd (hloaded.symm.trans h) (by simp)
        saving := fun h => absurd rfl h
        read := fun _ _ h => nomatch h
        saved := fun _ h => nomatch h
        zeroLive := fun _ _ i h => by
          simp only [hclear, ClearPhase.zeroed] at h
          exact absurd h (Nat.not_lt_zero _) }
    · rename_i hsave
      obtain rfl := Option.some.inj hstep
      have hloaded := hi.loaded_of_saving (by simp [hsave])
      exact { hi with
        overlap := fun h => absurd rfl h
        off := fun h => absurd (hloaded.symm.trans h) (by simp)
        saving := fun h => absurd rfl h
        read := fun _ _ h => nomatch h
        saved := fun _ h => nomatch h }
    · exact absurd hstep (by simp)
  | pause | resume =>
    simp only [Errors.saveStep] at hstep
    split at hstep
    · exact Option.some.inj hstep ▸ { hi with }
    · exact absurd hstep (by simp)
  | count _ | mark | clearStart | clearZero | clearWrite _ | clearEnd | powerLoss | load _ =>
    exact absurd hstep (by simp [Errors.saveStep])

theorem HistogramInv.clearStep {s t : HistogramSystem} {e : HistogramEvent} (hi : HistogramInv s)
    (hc : Clean s e) (hstep : clearStep s e = some t) : HistogramInv t := by
  cases e with
  | clearStart =>
    obtain ⟨-, ht⟩ := Option.ite_none_right_eq_some.mp hstep
    obtain rfl := Option.some.inj ht
    obtain ⟨hloaded, hidle⟩ := hc
    have hsave := SavePhase.isIdle_iff.mp hidle
    exact { hi with
      coherent := fun h => nomatch h.2.2
      cleared := fun h => nomatch h
      overlap := fun h => absurd hsave h
      off := fun h => absurd (hloaded.symm.trans h) (by simp)
      exact := fun _ i h => h.elim (fun h => nomatch h) fun h => absurd h (Nat.not_lt_zero _)
      read := fun _ _ h => nomatch hsave.symm.trans h
      clearing := fun _ _ => rfl
      zeroKept := fun i h => absurd h (Nat.not_lt_zero _)
      zeroLive := fun _ _ i h => absurd h (Nat.not_lt_zero _)
      zeroed := fun h => nomatch h }
  | clearZero =>
    simp only [Errors.clearStep] at hstep
    split at hstep
    · rename_i zeroed hclear
      split at hstep
      · rename_i hlt
        obtain rfl := Option.some.inj hstep
        have hloaded := hi.loaded_of_clearing (by simp [hclear])
        have hcl := hi.clearing zeroed hclear
        have hbefore : ∀ {i : Slot}, i ≠ ⟨zeroed, hlt⟩ → i.val < zeroed + 1 →
            i.val < s.clear.zeroed := fun {i} hne hle => by
          have hval : i.val ≠ zeroed := fun h => hne (Fin.ext h)
          rw [hclear]
          exact (by omega : i.val < zeroed)
        have hidle : s.save = .idle := by
          by_contra hbusy
          exact absurd (hi.overlap hbusy) (by simp [hclear])
        exact {
          coherent := fun h => nomatch h.2.2
          complete := fun i => by
            by_cases hic : i = ⟨zeroed, hlt⟩
            · subst hic
              simp only [Function.update_self, Nat.zero_min]
              exact Nat.zero_le _
            · simp only [Function.update_of_ne hic]
              exact hi.complete i
          cleared := fun h => absurd (hcl.symm.trans h) (by simp)
          overlap := fun h => absurd hidle h
          off := fun h => absurd (hloaded.symm.trans h) (by simp)
          bound := hi.bound
          counted := fun _ i => by
            by_cases hic : i = ⟨zeroed, hlt⟩
            · subst hic
              simp only [Function.update_self]
              exact ⟨le_refl 0, by decide⟩
            · simp only [Function.update_of_ne hic]
              exact hi.counted hloaded i
          exact := fun _ i h => by
            by_cases hic : i = ⟨zeroed, hlt⟩
            · subst hic
              simp only [Function.update_self]
              decide
            · simp only [Function.update_of_ne hic]
              refine hi.exact hloaded i (.inr ?_)
              exact h.elim (fun h => absurd (hcl.symm.trans h) (by simp)) (hbefore hic)
          saving := fun h => absurd hidle h
          read := fun _ _ h => nomatch hidle.symm.trans h
          saved := hi.saved
          clearing := fun _ _ => hcl
          zeroKept := fun i h => by
            by_cases hic : i = ⟨zeroed, hlt⟩
            · subst hic
              simp only [Function.update_self]
            · simp only [Function.update_of_ne hic]
              exact hi.zeroKept i (hbefore hic h)
          zeroLive := fun hd hm i h => by
            by_cases hic : i = ⟨zeroed, hlt⟩
            · subst hic
              simp only [Function.update_self]
            · simp only [Function.update_of_ne hic]
              exact hi.zeroLive hd hm i (hbefore hic h)
          zeroed := fun h => nomatch h }
      · exact absurd hstep (by simp)
    · exact absurd hstep (by simp)
  | clearWrite ok =>
    obtain ⟨hclear, ht⟩ := Option.ite_none_right_eq_some.mp hstep
    obtain rfl := Option.some.inj ht
    have hloaded := hi.loaded_of_clearing (by simp [hclear])
    have hall : ∀ i : Slot, i.val < s.clear.zeroed := fun i => by
      rw [hclear]
      exact i.isLt
    have hidle : s.save = .idle := by
      by_contra hbusy
      exact absurd (hi.overlap hbusy) (by simp [hclear])
    cases ok with
    | true =>
      rw [if_pos rfl]
      exact { hi with
        coherent := fun h => nomatch h.2.2
        complete := fun i => by
          simp only [hi.zeroKept i (hall i), Nat.zero_min]
          exact Nat.le_refl 0
        cleared := fun _ _ => Nat.zero_le _
        overlap := fun h => absurd hidle h
        off := fun h => absurd (hloaded.symm.trans h) (by simp)
        bound := fun _ => Nat.zero_le _
        exact := fun _ i _ => hi.exact hloaded i (.inr (hall i))
        read := fun _ _ h => nomatch hidle.symm.trans h
        saved := fun _ h => nomatch hidle.symm.trans h
        clearing := fun _ h => nomatch h
        zeroKept := fun i _ => hi.zeroKept i (hall i)
        zeroLive := fun hd hm i _ => hi.zeroLive hd hm i (hall i)
        zeroed := fun _ _ => rfl }
    | false =>
      exact { hi with
        coherent := fun h => nomatch h.2.2
        overlap := fun h => absurd hidle h
        off := fun h => absurd (hloaded.symm.trans h) (by simp)
        exact := fun _ i _ => hi.exact hloaded i (.inr (hall i))
        clearing := fun _ h => nomatch h
        zeroKept := fun i _ => hi.zeroKept i (hall i)
        zeroLive := fun hd hm i _ => hi.zeroLive hd hm i (hall i)
        zeroed := fun h => nomatch h }
  | clearEnd =>
    simp only [Errors.clearStep] at hstep
    split at hstep
    · rename_i hclear
      obtain rfl := Option.some.inj hstep
      have hloaded := hi.loaded_of_clearing (by simp [hclear])
      have hidle : s.save = .idle := by
        by_contra hbusy
        exact absurd (hi.overlap hbusy) (by simp [hclear])
      exact { hi with
        coherent := fun h _ i => by
          rw [(hc h.2.1).1 hclear i]
          exact hi.zeroed hclear i
        overlap := fun _ => rfl
        off := fun h => absurd (hloaded.symm.trans h) (by simp)
        exact := fun _ i h => hi.exact hloaded i
          (h.imp_right fun h => absurd h (Nat.not_lt_zero _))
        saving := fun h => absurd hidle h
        clearing := fun _ h => nomatch h
        zeroKept := fun _ h => absurd h (Nat.not_lt_zero _)
        zeroLive := fun _ _ _ h => absurd h (Nat.not_lt_zero _)
        zeroed := fun h => nomatch h }
    · rename_i hclear
      obtain rfl := Option.some.inj hstep
      have hloaded := hi.loaded_of_clearing (by simp [hclear])
      exact { hi with
        coherent := fun h hd i => by
          have hlive := hi.zeroLive hd h.2.1 i (by rw [hclear]; exact i.isLt)
          simp only [hlive]
          rcases (hc h.2.1).2 hclear with hdirty | hzero
          · exact absurd (hdirty.symm.trans hd) (by simp)
          · exact hzero i
        overlap := fun _ => rfl
        off := fun h => absurd (hloaded.symm.trans h) (by simp)
        exact := fun _ i h => hi.exact hloaded i
          (h.imp_right fun h => absurd h (Nat.not_lt_zero _))
        clearing := fun _ h => nomatch h
        zeroKept := fun _ h => absurd h (Nat.not_lt_zero _)
        zeroLive := fun _ _ _ h => absurd h (Nat.not_lt_zero _)
        zeroed := fun h => nomatch h }
    · exact absurd hstep (by simp)
  | count _ | mark | tick | saveRead | saveWrite _ | saveEnd | pause | resume | powerLoss
  | load _ =>
    exact absurd hstep (by simp [Errors.clearStep])

theorem HistogramInv.step {s t : HistogramSystem} {e : HistogramEvent} (hi : HistogramInv s)
    (hc : Clean s e) (hstep : histogramStep s e = some t) : HistogramInv t := by
  cases e with
  | count code =>
    obtain rfl := Option.some.inj hstep
    obtain ⟨hloaded, hmax⟩ := hc
    obtain ⟨hpos, hmin⟩ := hi.counted hloaded code
    obtain ⟨hpos', hinc⟩ := saturate_atomicInc hpos hmax
    exact { hi with
      coherent := fun h => absurd h.2.1 (Nat.succ_ne_zero _)
      off := fun h => absurd (hloaded.symm.trans h) (by simp)
      counted := fun _ i => by
        by_cases hic : i = code
        · subst hic
          simp only [Function.update_self]
          refine ⟨hpos', ?_⟩
          rw [hinc]
          omega
        · simp only [Function.update_of_ne hic]
          exact hi.counted hloaded i
      exact := fun _ i h => by
        have hle := hi.exact hloaded i h
        by_cases hic : i = code
        · subst hic
          simp only [Function.update_self]
          rw [hinc]
          omega
        · simp only [Function.update_of_ne hic]
          exact hle
      zeroLive := fun _ h => absurd h (Nat.succ_ne_zero _) }
  | mark =>
    obtain ⟨_, ht⟩ := Option.ite_none_right_eq_some.mp hstep
    obtain rfl := Option.some.inj ht
    exact { hi with
      coherent := fun _ h => nomatch h
      off := fun h => by
        obtain ⟨h1, h2, h3, h4⟩ := hi.off h
        exact ⟨h1, h2, by simp only [h3], h4⟩
      saving := fun _ => rfl
      zeroLive := fun h => nomatch h }
  | powerLoss => exact Option.some.inj hstep ▸ hi.reset
  | load ok =>
    obtain ⟨hoff, ht⟩ := Option.ite_none_right_eq_some.mp hstep
    obtain rfl : ok = true := hc
    obtain rfl := Option.some.inj ht
    obtain ⟨-, hclear, -, hsince⟩ := hi.off hoff
    rw [if_pos rfl]
    exact { hi with
      coherent := fun _ _ i => (saturate_ofNat (hi.bound i)).symm
      off := fun h => nomatch h
      counted := fun _ i => by
        refine ⟨Int.natCast_nonneg _, ?_⟩
        rw [hsince, saturate_ofNat (hi.bound i)]
        exact hi.complete i
      exact := fun _ i h => by
        have hcl : s.cleared = true := by
          refine h.elim id fun h => ?_
          simp only [hclear, ClearPhase.zeroed] at h
          exact absurd h (Nat.not_lt_zero _)
        rw [hsince, saturate_ofNat (hi.bound i)]
        exact hi.cleared hcl i
      zeroLive := fun _ _ i h => by
        simp only [hclear, ClearPhase.zeroed] at h
        exact absurd h (Nat.not_lt_zero _) }
  | tick | saveRead | saveWrite _ | saveEnd | pause | resume => exact hi.saveStep hc hstep
  | clearStart | clearZero | clearWrite _ | clearEnd => exact hi.clearStep hc hstep

/-- A whole save, from the periodic work to the end of its copying. -/
def saveCopies : List HistogramEvent :=
  HistogramEvent.tick :: List.replicate errorHistogramCount HistogramEvent.saveRead

/-- A whole clear up to its write. -/
def clearZeroes : List HistogramEvent :=
  HistogramEvent.clearStart :: List.replicate errorHistogramCount HistogramEvent.clearZero

/-- `OP_ERR_FLASH`. -/
def opErrFlash : Slot := ⟨7, by decide⟩

/-- An error is counted and saved, the histogram cleared, and the power lost with one more error
unsaved. -/
def savedThenCleared : List HistogramEvent :=
  [.load true, .count opErrFlash, .mark] ++ saveCopies ++ [.saveWrite true, .saveEnd] ++
    clearZeroes ++ [.clearWrite true, .clearEnd, .count opErrFlash, .mark, .powerLoss, .load true]

/-- A save that was copied before a clear and is written after it brings the old counts back. -/
theorem late_save_undoes_clear :
    ¬ Steps histogramStep (fun _ _ t => Persisted t) histogramBoot
      ([.load true, .count opErrFlash, .mark] ++ saveCopies ++ clearZeroes ++
        [.clearWrite true, .clearEnd, .saveWrite true]) := by
  decide +kernel

end DiveCANHead.Errors
