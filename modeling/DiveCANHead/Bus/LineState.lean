import DiveCANHead.Lib.Uptime

/-!
# What the lines of the bus show (`i2c_bus_lock.c`)

The classifier samples both lines until one state of them has held for long enough, and gives up
after a while. A sample that differs from the one before starts the time over.
-/

namespace DiveCANHead.Bus

open DiveCANHead.Lib

/-- Both lines of a sample, high or not. -/
structure Lines where
  scl : Bool
  sda : Bool
  deriving DecidableEq, Repr

/-- `i2c1_line_state`. -/
inductive LineState where
  | idle
  | sdaStuck
  | sclStuck
  | active
  deriving DecidableEq, Repr

/-- A turn of a polling loop: how long it takes to the check of the timeout, and from there to the
reading of the clock that goes with the sample; no lines where the pins cannot be read. -/
structure LinePoll where
  untilCheck : ℕ
  untilNow : ℕ
  lines : Option Lines
  deriving DecidableEq, Repr

/-- `I2C1_QUIET_GUARD_MS`. -/
def quietGuardMs : UInt32 := 3

/-- `I2C1_STUCK_CONFIRM_MS`. -/
def stuckConfirmMs : UInt32 := 25

/-- `I2C1_CLASSIFY_TIMEOUT_MS`. -/
def classifyTimeoutMs : UInt32 := 30

/-- What lines are taken for that have held for this long. -/
def verdictOf (l : Lines) (stable : UInt32) : Option LineState :=
  if l.scl = true ∧ l.sda = true ∧ quietGuardMs ≤ stable then some .idle
  else if stuckConfirmMs ≤ stable then some (if l.scl = true then .sdaStuck else .sclStuck)
  else none

/-- The loop of `i2c1_classify_lines` at `clock`; without a poll left it is still going on. -/
def classifyLoop (started : UInt32) (clock : ℕ) (stateSince : UInt32) (previous : Option Lines) :
    List LinePoll → Option LineState
  | [] => none
  | p :: polls =>
    let check := clock + p.untilCheck
    if uptime32 check - started < classifyTimeoutMs then
      let now := check + p.untilNow
      match p.lines with
      | none => some .active
      | some l =>
        let stateSince := if previous = some l then stateSince else uptime32 now
        match verdictOf l (uptime32 now - stateSince) with
        | some state => some state
        | none => classifyLoop started now stateSince (some l) polls
    else some .active

/-- `i2c1_classify_lines`. -/
def classifyLines (clock : ℕ) (polls : List LinePoll) : Option LineState :=
  classifyLoop (uptime32 clock) clock (uptime32 clock) none polls

/-! ## Samples -/

/-- The lines at a reading of the clock. -/
structure LineSample where
  clock : ℕ
  lines : Option Lines
  deriving DecidableEq, Repr

/-- The samples that the polls take. -/
def samplesFrom : ℕ → List LinePoll → List LineSample
  | _, [] => []
  | clock, p :: polls =>
    let now := clock + p.untilCheck + p.untilNow
    ⟨now, p.lines⟩ :: samplesFrom now polls

/-- Somewhere in the samples, all of them over at least `ms` milliseconds show the same lines. -/
def Held (l : Lines) (ms : ℕ) (samples : List LineSample) : Prop :=
  ∃ before window after first last, samples = before ++ window ++ after ∧
    (∀ x ∈ window, x.lines = some l) ∧ window.head? = some first ∧
    window.getLast? = some last ∧ first.clock + ms ≤ last.clock

/-- What a verdict says of the samples. -/
def LineState.Shown (samples : List LineSample) : LineState → Prop
  | .idle => Held ⟨true, true⟩ quietGuardMs.toNat samples
  | .sdaStuck => Held ⟨true, false⟩ stuckConfirmMs.toNat samples
  | .sclStuck => ∃ sda, Held ⟨false, sda⟩ stuckConfirmMs.toNat samples
  | .active => True

theorem Held.append_left {l : Lines} {ms : ℕ} {samples : List LineSample}
    (h : Held l ms samples) (front : List LineSample) : Held l ms (front ++ samples) := by
  obtain ⟨before, window, after, first, last, rfl, hall, hfirst, hlast, hms⟩ := h
  exact ⟨front ++ before, window, after, first, last, by simp only [List.append_assoc], hall,
    hfirst, hlast, hms⟩

theorem LineState.Shown.append_left {samples : List LineSample} {state : LineState}
    (h : state.Shown samples) (front : List LineSample) : state.Shown (front ++ samples) := by
  cases state with
  | idle => exact Held.append_left h front
  | sdaStuck => exact Held.append_left h front
  | sclStuck => exact h.imp fun _ h => h.append_left front
  | active => trivial

/-- Samples that show the same lines, up to the last one, at `now`. -/
structure Streak (l : Lines) (since now : ℕ) (streak : List LineSample) : Prop where
  lines : ∀ x ∈ streak, x.lines = some l
  first : streak.head? = some ⟨since, some l⟩
  last : streak.getLast? = some ⟨now, some l⟩
  le : since ≤ now

theorem Streak.single (l : Lines) (now : ℕ) : Streak l now now [⟨now, some l⟩] where
  lines x hx := by rw [List.mem_singleton.mp hx]
  first := rfl
  last := rfl
  le := Nat.le_refl now

theorem Streak.push {l : Lines} {since before now : ℕ} {streak : List LineSample}
    (h : Streak l since before streak) (hnow : before ≤ now) :
    Streak l since now (streak ++ [⟨now, some l⟩]) where
  lines x hx := by
    rcases List.mem_append.mp hx with hx | hx
    · exact h.lines x hx
    · rw [List.mem_singleton.mp hx]
  first := by rw [List.head?_append, h.first, Option.some_or]
  last := List.getLast?_concat
  le := Nat.le_trans h.le hnow

theorem Streak.held {l : Lines} {since now ms : ℕ} {streak : List LineSample}
    (h : Streak l since now streak) (hms : since + ms ≤ now) (after : List LineSample) :
    Held l ms (streak ++ after) :=
  ⟨[], streak, after, _, _, rfl, h.lines, h.first, h.last, hms⟩

/-- A verdict on a streak holds of its samples. -/
theorem Streak.shown {l : Lines} {since now : ℕ} {streak : List LineSample} {state : LineState}
    (h : Streak l since now streak)
    (hverdict : verdictOf l (uptime32 now - uptime32 since) = some state)
    (after : List LineSample) : state.Shown (streak ++ after) := by
  unfold verdictOf at hverdict
  split at hverdict
  · rename_i hidle
    obtain rfl := Option.some.inj hverdict
    obtain ⟨hscl, hsda, hlong⟩ := hidle
    have hlines : l = ⟨true, true⟩ := by
      cases l
      exact congr (congrArg Lines.mk hscl) hsda
    have hheld := h.held (add_le_of_uptime32 h.le hlong) after
    rw [hlines] at hheld
    exact hheld
  · rename_i hidle
    split at hverdict
    · rename_i hlong
      obtain rfl := Option.some.inj hverdict
      have hheld := h.held (add_le_of_uptime32 h.le hlong) after
      obtain ⟨scl, sda⟩ := l
      cases scl with
      | false => exact ⟨sda, hheld⟩
      | true =>
        cases sda with
        | false => exact hheld
        | true =>
          refine absurd ⟨rfl, rfl, UInt32.le_trans ?_ hlong⟩ hidle
          decide
    · exact absurd hverdict (by simp)

/-- One turn of the loop: the verdict is on the streak that its sample ends, or the loop goes on
from there. -/
theorem Streak.turn {started : UInt32} {l : Lines} {since now : ℕ} {streak : List LineSample}
    {state : LineState} {polls : List LinePoll} (h : Streak l since now streak)
    (hturn : (match verdictOf l (uptime32 now - uptime32 since) with
      | some state => some state
      | none => classifyLoop started now (uptime32 since) (some l) polls) = some state)
    (hrest : classifyLoop started now (uptime32 since) (some l) polls = some state →
      state.Shown (streak ++ samplesFrom now polls)) :
    state.Shown (streak ++ samplesFrom now polls) := by
  split at hturn
  · rename_i verdict hverdict
    exact h.shown (hverdict.trans hturn) _
  · exact hrest hturn

theorem classifyLoop_shown {started : UInt32} {state : LineState} (polls : List LinePoll) :
    ∀ {clock since : ℕ} {l : Lines} {streak : List LineSample}, Streak l since clock streak →
      classifyLoop started clock (uptime32 since) (some l) polls = some state →
        state.Shown (streak ++ samplesFrom clock polls) := by
  induction polls with
  | nil => exact fun _ h => absurd h (by simp [classifyLoop])
  | cons p polls ih =>
    intro clock since l streak hstreak h
    rw [classifyLoop] at h
    dsimp only at h
    split at h
    · split at h
      · exact Option.some.inj h ▸ trivial
      · rename_i l' hlines
        rw [samplesFrom, hlines]
        by_cases hsame : some l = some l'
        · obtain rfl := Option.some.inj hsame
          rw [if_pos rfl] at h
          have hnow : clock ≤ clock + p.untilCheck + p.untilNow := by omega
          have hpush := hstreak.push hnow
          have hshown := hpush.turn h fun hloop => ih hpush hloop
          rw [List.append_assoc, List.singleton_append] at hshown
          exact hshown
        · rw [if_neg hsame] at h
          have hsingle := Streak.single l' (clock + p.untilCheck + p.untilNow)
          exact (hsingle.turn h fun hloop => ih hsingle hloop).append_left streak
    · exact Option.some.inj h ▸ trivial

/-- The classifier reports a line stuck, or the bus idle, only if all samples over at least the
required time showed it. -/
theorem classifyLines_shown (clock : ℕ) (polls : List LinePoll) (state : LineState)
    (h : classifyLines clock polls = some state) : state.Shown (samplesFrom clock polls) := by
  cases polls with
  | nil => exact absurd h (by simp [classifyLines, classifyLoop])
  | cons p polls =>
    rw [classifyLines, classifyLoop] at h
    dsimp only at h
    split at h
    · split at h
      · exact Option.some.inj h ▸ trivial
      · rename_i l hlines
        rw [if_neg (Option.some_ne_none l).symm] at h
        rw [samplesFrom, hlines]
        have hsingle := Streak.single l (clock + p.untilCheck + p.untilNow)
        exact hsingle.turn h fun hloop => classifyLoop_shown polls hsingle hloop
    · exact Option.some.inj h ▸ trivial

end DiveCANHead.Bus
