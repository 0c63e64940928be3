import Mathlib.Data.Int.Notation
import DiveCANHead.Bus.LineState
import DiveCANHead.Lib.Runs

/-!
# Waiting for a quiet bus (`i2c1_wait_quiet`)

The wait polls the lines and the time of the last noted activity, which the target callbacks move
whenever they run. The guard reads the clock before it reads that time, so activity that is noted
in between can lie after the reading, and its age is then a huge number; and activity that is
older than the guard interval when a poll comes to look goes unseen.
-/

namespace DiveCANHead.Bus

open DiveCANHead.Lib

/-- `I2C1_QUIET_TIMEOUT_MS`. -/
def quietTimeoutMs : UInt32 := 25

/-- Where `i2c1_wait_quiet` is, with the readings of the clock that it holds. -/
inductive QuietPhase where
  | check
  | readNow
  | sample (now : ℕ)
  | guardClock (now : ℕ)
  | guardLast (now guard : ℕ)
  | returned (rc : ℤ)
  deriving DecidableEq, Repr

/-- The wait, the clock, the time of the last activity as it is kept and, for the statements only,
the time of the last activity noted since the measured interval began. -/
structure QuietWait where
  clock : ℕ
  last : UInt32
  started : ℕ
  idleSince : ℕ
  measuringIdle : Bool
  phase : QuietPhase
  noted : Option ℕ
  deriving DecidableEq, Repr

/-- What happens next: time passes, a target callback notes activity, or the wait goes on, where it
samples with these lines. -/
inductive QuietEvent where
  | tick (ms : ℕ)
  | noteActivity
  | run (lines : Option Lines)
  deriving DecidableEq, Repr

/-- `i2c1_activity_guard_elapsed`, after its readings. -/
def guardElapsed (guard : ℕ) (last : UInt32) : Bool := quietGuardMs ≤ uptime32 guard - last

/-- A poll that finds the bus busy. -/
def QuietWait.busy (s : QuietWait) : QuietWait := { s with measuringIdle := false, phase := .check }

/-- A poll that finds the bus idle. -/
def QuietWait.idle (s : QuietWait) (now : ℕ) : QuietWait :=
  if s.measuringIdle = false then
    { s with idleSince := now, measuringIdle := true, phase := .check }
  else if quietGuardMs ≤ uptime32 now - uptime32 s.idleSince then { s with phase := .returned 0 }
  else { s with phase := .check }

/-- The next piece of `i2c1_wait_quiet`; `EBUSY` is 16 and `EIO` is 5. -/
def QuietWait.run (s : QuietWait) (lines : Option Lines) : Option QuietWait :=
  match s.phase with
  | .check =>
    if uptime32 s.clock - uptime32 s.started < quietTimeoutMs then some { s with phase := .readNow }
    else some { s with phase := .returned (-16) }
  | .readNow =>
    some { s with
      phase := .sample s.clock
      noted := if s.measuringIdle = true then s.noted else none }
  | .sample now =>
    match lines with
    | none => some { s with phase := .returned (-5) }
    | some l =>
      if l = ⟨true, true⟩ then some { s with phase := .guardClock now } else some s.busy
  | .guardClock now => some { s with phase := .guardLast now s.clock }
  | .guardLast now guard =>
    if guardElapsed guard s.last = true then some (s.idle now) else some s.busy
  | .returned _ => none

def quietStep (s : QuietWait) : QuietEvent → Option QuietWait
  | .tick ms => some { s with clock := s.clock + ms }
  | .noteActivity => some { s with last := uptime32 s.clock, noted := some s.clock }
  | .run lines => s.run lines

/-- The wait as it starts, with whatever was noted before. -/
def QuietWait.init (clock : ℕ) (last : UInt32) : QuietWait :=
  ⟨clock, last, clock, clock, false, .check, none⟩

/-! ## Runs -/

/-- The wait succeeds only after the whole interval, with no activity noted in it. -/
def QuietSafe (s : QuietWait) (_ : QuietEvent) (t : QuietWait) : Prop :=
  s.phase ≠ .returned 0 → t.phase = .returned 0 →
    s.idleSince + quietGuardMs.toNat ≤ t.clock ∧ t.noted = none

/-- Where a poll would end the wait, activity that was noted since the measured interval began is
at most 2 ms old at the guard's reading of the clock, and not after it; in 32 bits. -/
def QuietClean (s : QuietWait) : QuietEvent → Prop
  | .run _ =>
    match s.phase with
    | .guardLast now guard =>
      s.measuringIdle = true → quietGuardMs ≤ uptime32 now - uptime32 s.idleSince →
        ∀ ms ∈ s.noted, ((guard : ℤ) - ms) % 4294967296 < 3
    | _ => True
  | _ => True

instance decidableQuietSafe (s : QuietWait) (e : QuietEvent) (t : QuietWait) :
    Decidable (QuietSafe s e t) := by
  unfold QuietSafe
  infer_instance

/-- The reading of the clock that a poll holds. -/
def QuietPhase.now : QuietPhase → Option ℕ
  | .sample now => some now
  | .guardClock now => some now
  | .guardLast now _ => some now
  | _ => none

structure QuietWait.Inv (s : QuietWait) : Prop where
  since : s.idleSince ≤ s.clock
  now : ∀ now ∈ s.phase.now, s.idleSince ≤ now ∧ now ≤ s.clock
  last : ∀ ms ∈ s.noted, s.last = uptime32 ms

theorem QuietWait.init_inv (clock : ℕ) (last : UInt32) : (QuietWait.init clock last).Inv where
  since := Nat.le_refl clock
  now _ h := absurd h (Option.not_mem_none _)
  last _ h := absurd h (Option.not_mem_none _)

theorem guardElapsed_iff (guard ms : ℕ) :
    guardElapsed guard (uptime32 ms) = true ↔ ¬ ((guard : ℤ) - ms) % 4294967296 < 3 := by
  have hage := uptime32_sub_toNat ms guard
  have hguard : quietGuardMs.toNat = 3 := rfl
  rw [guardElapsed, decide_eq_true_eq, UInt32.le_iff_toNat_le, hguard]
  omega

theorem QuietWait.Inv.busy {s : QuietWait} (hi : s.Inv) : s.busy.Inv where
  since := hi.since
  now _ h := absurd h (Option.not_mem_none _)
  last := hi.last

theorem QuietWait.Inv.idle {s : QuietWait} (hi : s.Inv) {now : ℕ} (hnow : s.phase.now = some now) :
    (s.idle now).Inv := by
  obtain ⟨hsince, hclock⟩ := hi.now now hnow
  unfold QuietWait.idle
  split
  · exact ⟨hclock, fun _ h => absurd h (Option.not_mem_none _), hi.last⟩
  · split
    · exact ⟨hi.since, fun _ h => absurd h (Option.not_mem_none _), hi.last⟩
    · exact ⟨hi.since, fun _ h => absurd h (Option.not_mem_none _), hi.last⟩

theorem QuietWait.Inv.run {s t : QuietWait} {lines : Option Lines} (hi : s.Inv)
    (hstep : s.run lines = some t) : t.Inv := by
  have hnone : ∀ {P : ℕ → Prop}, ∀ now ∈ (none : Option ℕ), P now := fun _ h =>
    absurd h (Option.not_mem_none _)
  unfold QuietWait.run at hstep
  split at hstep
  · split at hstep <;> obtain rfl := Option.some.inj hstep
    · exact ⟨hi.since, hnone, hi.last⟩
    · exact ⟨hi.since, hnone, hi.last⟩
  · obtain rfl := Option.some.inj hstep
    refine ⟨hi.since, fun now h => ?_, fun ms h => ?_⟩
    · obtain rfl := Option.some.inj h
      exact ⟨hi.since, Nat.le_refl _⟩
    · dsimp only at h
      split at h
      · exact hi.last ms h
      · exact absurd h (Option.not_mem_none _)
  · rename_i now hphase
    have hnow : s.phase.now = some now := by rw [hphase]; rfl
    split at hstep
    · obtain rfl := Option.some.inj hstep
      exact ⟨hi.since, hnone, hi.last⟩
    · split at hstep <;> obtain rfl := Option.some.inj hstep
      · exact ⟨hi.since, fun n h => hi.now n (hnow.trans h), hi.last⟩
      · exact hi.busy
  · rename_i now hphase
    have hnow : s.phase.now = some now := by rw [hphase]; rfl
    obtain rfl := Option.some.inj hstep
    exact ⟨hi.since, fun n h => hi.now n (hnow.trans h), hi.last⟩
  · rename_i now guard hphase
    have hnow : s.phase.now = some now := by rw [hphase]; rfl
    split at hstep <;> obtain rfl := Option.some.inj hstep
    · exact hi.idle hnow
    · exact hi.busy
  · exact absurd hstep (by simp)

theorem quietStep_inv {s t : QuietWait} {e : QuietEvent} (hi : s.Inv)
    (hstep : quietStep s e = some t) : t.Inv := by
  cases e with
  | tick ms =>
    obtain rfl := Option.some.inj hstep
    refine ⟨Nat.le_trans hi.since (Nat.le_add_right _ _), fun now h => ?_, hi.last⟩
    exact ⟨(hi.now now h).1, Nat.le_trans (hi.now now h).2 (Nat.le_add_right _ _)⟩
  | noteActivity =>
    obtain rfl := Option.some.inj hstep
    refine ⟨hi.since, hi.now, fun ms h => ?_⟩
    rw [Option.some.inj h]
  | run lines => exact hi.run hstep

/-- The poll that finds the bus idle ends the wait if it has been idle for long enough. -/
theorem idle_returned_iff {s : QuietWait} {now : ℕ} :
    (s.idle now).phase = .returned 0 ↔
      s.measuringIdle = true ∧ quietGuardMs ≤ uptime32 now - uptime32 s.idleSince := by
  unfold QuietWait.idle
  cases hmeasuring : s.measuringIdle with
  | false => simp
  | true =>
    by_cases hlong : quietGuardMs ≤ uptime32 now - uptime32 s.idleSince
    · simp [hlong]
    · simp [hlong]

/-- Only the last piece of a poll can end the wait well. -/
theorem run_returned {s t : QuietWait} {lines : Option Lines} (hstep : s.run lines = some t)
    (ht : t.phase = .returned 0) : ∃ now guard, s.phase = .guardLast now guard ∧
      guardElapsed guard s.last = true ∧ t = s.idle now := by
  unfold QuietWait.run at hstep
  split at hstep
  · split at hstep <;> obtain rfl := Option.some.inj hstep <;> exact absurd ht (by simp)
  · obtain rfl := Option.some.inj hstep
    exact absurd ht (by simp)
  · split at hstep
    · obtain rfl := Option.some.inj hstep
      exact absurd ht (by simp)
    · split at hstep <;> obtain rfl := Option.some.inj hstep <;>
        exact absurd ht (by simp [QuietWait.busy])
  · obtain rfl := Option.some.inj hstep
    exact absurd ht (by simp)
  · rename_i now guard hphase
    split at hstep <;> obtain rfl := Option.some.inj hstep
    · exact ⟨now, guard, hphase, by assumption, rfl⟩
    · exact absurd ht (by simp [QuietWait.busy])
  · exact absurd hstep (by simp)

/-- At the end of a poll, activity in the interval goes unnoticed exactly if its age does not show
in the guard. -/
theorem quietSafe_guardLast_iff {s t : QuietWait} {lines : Option Lines} {now guard : ℕ}
    (hi : s.Inv) (hphase : s.phase = .guardLast now guard) (hstep : s.run lines = some t) :
    QuietSafe s (.run lines) t ↔ (s.measuringIdle = true →
      quietGuardMs ≤ uptime32 now - uptime32 s.idleSince →
        ∀ ms ∈ s.noted, ((guard : ℤ) - ms) % 4294967296 < 3) := by
  have hopen : s.phase ≠ .returned 0 := by rw [hphase]; simp
  have hnow := hi.now now (by rw [hphase]; rfl)
  have hage : ∀ ms ∈ s.noted,
      (guardElapsed guard s.last = true ↔ ¬ ((guard : ℤ) - ms) % 4294967296 < 3) := fun ms hms => by
    rw [hi.last ms hms]
    exact guardElapsed_iff guard ms
  simp only [QuietWait.run, hphase] at hstep
  by_cases helapsed : guardElapsed guard s.last = true
  · rw [if_pos helapsed] at hstep
    obtain rfl := Option.some.inj hstep
    by_cases hlong : s.measuringIdle = true ∧ quietGuardMs ≤ uptime32 now - uptime32 s.idleSince
    · have ht : s.idle now = { s with phase := .returned 0 } := by
        simp [QuietWait.idle, hlong.1, hlong.2]
      have hspan := add_le_of_uptime32 hnow.1 hlong.2
      constructor
      · intro h _ _ ms hms
        have hnone : (s.idle now).noted = none := (h hopen (idle_returned_iff.mpr hlong)).2
        rw [ht] at hnone
        exact absurd (hnone ▸ hms) (Option.not_mem_none ms)
      · intro h _ _
        rw [ht]
        refine ⟨Nat.le_trans hspan hnow.2, Option.eq_none_iff_forall_not_mem.mpr fun ms hms => ?_⟩
        exact (hage ms hms).mp helapsed (h hlong.1 hlong.2 ms hms)
    · refine iff_of_true (fun _ ht => absurd (idle_returned_iff.mp ht) hlong) fun h h' => ?_
      exact absurd ⟨h, h'⟩ hlong
  · rw [if_neg helapsed] at hstep
    obtain rfl := Option.some.inj hstep
    refine iff_of_true (fun _ ht => absurd ht (by simp [QuietWait.busy])) fun _ _ ms hms => ?_
    exact not_not.mp fun h => helapsed ((hage ms hms).mpr h)

theorem quietSafe_iff {s t : QuietWait} {e : QuietEvent} (hi : s.Inv)
    (hstep : quietStep s e = some t) : QuietSafe s e t ↔ QuietClean s e := by
  cases e with
  | tick ms =>
    obtain rfl := Option.some.inj hstep
    exact iff_of_true (fun h h' => absurd h' h) trivial
  | noteActivity =>
    obtain rfl := Option.some.inj hstep
    exact iff_of_true (fun h h' => absurd h' h) trivial
  | run lines =>
    cases hphase : s.phase with
    | guardLast now guard =>
      simp only [QuietClean, hphase]
      exact quietSafe_guardLast_iff hi hphase hstep
    | check | readNow | sample _ | guardClock _ | returned _ =>
      simp only [QuietClean, hphase]
      refine iff_of_true (fun _ ht => ?_) trivial
      obtain ⟨now, guard, hguard, -⟩ := run_returned hstep ht
      exact absurd (hphase.symm.trans hguard) (by simp)

/-- In every run, the wait succeeds only after a whole quiet interval with no activity noted in it,
exactly if at the end of each wait such activity was at most 2 ms before the guard's reading. -/
theorem quiet_safe_iff (clock : ℕ) (last : UInt32) (es : List QuietEvent) :
    Steps quietStep QuietSafe (.init clock last) es ↔
      Steps quietStep (fun s e _ => QuietClean s e) (.init clock last) es := by
  have hkeep : ∀ {s e t}, QuietWait.Inv s → quietStep s e = some t →
      (QuietSafe s e t ↔ QuietClean s e) ∧ (QuietClean s e → t.Inv) := fun hi hstep =>
    ⟨quietSafe_iff hi hstep, fun _ => quietStep_inv hi hstep⟩
  exact Steps.iff_of_inv hkeep (QuietWait.init_inv clock last)

/-- Activity is noted between the guard's two readings, one millisecond after the first. -/
def noteBetweenReadings : List QuietEvent :=
  let high : Option Lines := some ⟨true, true⟩
  let poll := [QuietEvent.run none, .run none, .run high, .run none]
  poll ++ [.run none, .tick 3] ++ poll ++ [.tick 1, .noteActivity, .run none]

end DiveCANHead.Bus
