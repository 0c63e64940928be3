import Mathlib.Data.Fintype.Basic
import Mathlib.Logic.Function.Basic
import Mathlib.Data.Int.Notation
import Mathlib.Order.Basic
import DiveCANHead.Lib.Runs

/-!
# The current check of the solenoids (`solenoid.c`, `solenoid_current.c`)

A fire takes the gauge's last sample as its idle draw and opens a judge window on its channel that
outlives the on-time by three seconds. The service reads the gauge for every open window, keeps the
highest draw, and gives a verdict: over as soon as the draw is too high, else at the deadline. Fires
come from two threads and the service runs in one of them, so its pass and the arming of a fire
come in between each other.
-/

namespace DiveCANHead.Solenoid

open DiveCANHead.Lib

/-- `MAX_CHANNELS` channels. -/
abbrev Channel := Fin 4

/-- `SolCurrentClass_t`. -/
inductive SolCurrentClass where
  | norm
  | under
  | over
  deriving DecidableEq

/-- `CONFIG_SOLENOID_CURRENT_DELTA_MIN_UA` and `_MAX_UA`. -/
structure CurrentLimits where
  deltaMinUa : ℤ
  deltaMaxUa : ℤ

/-- `solenoid_current_classify`. -/
def solenoidCurrentClassify (baselineUa fireUa : ℤ) (limits : CurrentLimits) : SolCurrentClass :=
  let delta := fireUa - baselineUa
  if delta < limits.deltaMinUa then .under
  else if delta > limits.deltaMaxUa then .over
  else .norm

/-- `SOL_JUDGE_MARGIN_MS`. -/
def solJudgeMarginMs : ℕ := 3000

/-- `SOL_US_PER_MS`. -/
def solUsPerMs : ℕ := 1000

/-- A sample of the gauge: when it was taken, and whether every solenoid was off then. -/
structure GaugeSample where
  ua : ℤ
  taken : ℕ
  idle : Bool

/-- The window fields of a channel with a deadline, and of the fire that opened it: its number,
whether its baseline is an idle draw, and the samples the service read that were taken after it and
before the deadline. -/
structure JudgeWindow where
  fireStartMs : ℕ
  judgeDeadlineMs : ℕ
  baselineUa : ℤ
  peakUa : ℤ
  fire : ℕ
  idle : Bool
  seen : List ℤ

/-- A fire past `arm_timer`: what `device_current_read` gave it and when, and whether it is past
`sol_current_begin`. -/
structure PendingFire where
  channel : Channel
  durationUs : ℕ
  baseline : Option GaugeSample
  readAt : ℕ
  armed : Bool

/-- `SolenoidCurrentReading_t`. -/
structure SolenoidCurrentReading where
  channel : Channel
  status : SolCurrentClass
  baselineUa : ℤ
  fireUa : ℤ
  deltaUa : ℤ

/-- A verdict, with what is known of the fire it is on. -/
structure Verdict extends SolenoidCurrentReading where
  fire : ℕ
  idle : Bool
  seen : List ℤ

/-- The fields of `struct solenoid_current_state`, with the uptime, the gauge's last sample, the
pins, the fires on their way and the channels a pass of the service has still to look at. So far
`opened` windows were opened; `errors` and `verdicts` are what was raised and decided. -/
structure CurrentState where
  clock : ℕ := 0
  gauge : Option GaugeSample := none
  energised : Channel → Bool := fun _ => false
  pending : List PendingFire := []
  window : Channel → Option JudgeWindow := fun _ => none
  status : Channel → SolCurrentClass := fun _ => .norm
  last : Option SolenoidCurrentReading := none
  lastFresh : Bool := false
  service : Option (ℕ × List Channel) := none
  opened : ℕ := 0
  errors : List (SolCurrentClass × ℤ) := []
  verdicts : List Verdict := []

/-- What happens. -/
inductive CurrentEvent where
  | tick (ms : ℕ)
  | sample (ua : ℤ)
  | fire (channel : Channel) (durationUs : ℕ)
  | arm (i now : ℕ)
  | energise (i : ℕ) (gpioOk : Bool)
  | off (channel : Channel) (gpioOk : Bool)
  | allOff (gpioOk : Channel → Bool)
  | serviceStart
  | serviceNext
  | poll

/-- The window a fire opens in `sol_current_begin` at `now`. -/
def openWindow (p : PendingFire) (baseline : GaugeSample) (now fire : ℕ) : JudgeWindow where
  fireStartMs := now
  judgeDeadlineMs := now + p.durationUs / solUsPerMs + solJudgeMarginMs
  baselineUa := baseline.ua
  peakUa := baseline.ua
  fire := fire
  idle := baseline.idle
  seen := []

/-- `sol_current_begin`, from the lock on: no window without a baseline. -/
def solCurrentBegin (s : CurrentState) (p : PendingFire) (now : ℕ) : CurrentState :=
  match p.baseline with
  | none => s
  | some baseline =>
    { s with
      window := Function.update s.window p.channel (some (openWindow p baseline now s.opened))
      opened := s.opened + 1 }

/-- `sol_current_fault`: an error on an edge into a fault only. -/
def solCurrentFault (s : CurrentState) (v : Verdict) : CurrentState :=
  { s with
    status := Function.update s.status v.channel v.status
    errors := if s.status v.channel ≠ v.status ∧ v.status ≠ .norm then
      s.errors ++ [(v.status, v.deltaUa)] else s.errors
    last := some v.toSolenoidCurrentReading
    lastFresh := true
    verdicts := s.verdicts ++ [v] }

/-- The sample counts for the window: the pass started at `now`, and the sample's age is taken at
`clock`. -/
def JudgeWindow.Counts (w : JudgeWindow) (now clock : ℕ) (r : GaugeSample) : Prop :=
  (w.fireStartMs : ℤ) ≤ now - (clock - r.taken)

instance (w : JudgeWindow) (now clock : ℕ) (r : GaugeSample) : Decidable (w.Counts now clock r) :=
  inferInstanceAs (Decidable (_ ≤ _))

/-- The sample was taken after the fire and before the deadline. -/
def JudgeWindow.Covers (w : JudgeWindow) (r : GaugeSample) : Prop :=
  w.fireStartMs ≤ r.taken ∧ r.taken < w.judgeDeadlineMs

instance (w : JudgeWindow) (r : GaugeSample) : Decidable (w.Covers r) :=
  inferInstanceAs (Decidable (_ ∧ _))

/-- The service reads the gauge for an open window. -/
def JudgeWindow.read (w : JudgeWindow) (now clock : ℕ) : Option GaugeSample → JudgeWindow
  | none => w
  | some r =>
    { w with
      peakUa := if w.Counts now clock r ∧ r.ua > w.peakUa then r.ua else w.peakUa
      seen := if w.Covers r then w.seen ++ [r.ua] else w.seen }

/-- The verdict on a window just read, if it closes. -/
def JudgeWindow.judge (w : JudgeWindow) (limits : CurrentLimits) (now : ℕ) :
    Option SolCurrentClass :=
  if w.peakUa - w.baselineUa > limits.deltaMaxUa then some .over
  else if now ≥ w.judgeDeadlineMs then some (solenoidCurrentClassify w.baselineUa w.peakUa limits)
  else none

/-- The verdict of that class on a window. -/
def JudgeWindow.verdict (w : JudgeWindow) (channel : Channel) (status : SolCurrentClass) :
    Verdict where
  channel := channel
  status := status
  baselineUa := w.baselineUa
  fireUa := w.peakUa
  deltaUa := w.peakUa - w.baselineUa
  fire := w.fire
  idle := w.idle
  seen := w.seen

/-- One turn of the loop of `solenoid_current_service`. -/
def serviceChannel (limits : CurrentLimits) (s : CurrentState) (now : ℕ) (channel : Channel) :
    CurrentState :=
  match s.window channel with
  | none => s
  | some w =>
    let w := w.read now s.clock s.gauge
    match w.judge limits now with
    | some status =>
      solCurrentFault { s with window := Function.update s.window channel none }
        (w.verdict channel status)
    | none => { s with window := Function.update s.window channel (some w) }

/-- One event. A fire reads the gauge, then arms with an uptime it took in between, then drives its
pin; `solenoid_all_off` and the deadman drive every pin low. -/
def currentStep (limits : CurrentLimits) (s : CurrentState) : CurrentEvent → Option CurrentState
  | .tick ms => some { s with clock := s.clock + ms }
  | .sample ua =>
    some { s with gauge := some ⟨ua, s.clock, decide (∀ channel, s.energised channel = false)⟩ }
  | .fire channel durationUs =>
    some { s with pending := s.pending ++ [⟨channel, durationUs, s.gauge, s.clock, false⟩] }
  | .arm i now =>
    match s.pending[i]? with
    | some p =>
      if p.armed = false ∧ p.readAt ≤ now ∧ now ≤ s.clock then
        some { solCurrentBegin s p now with pending := s.pending.set i { p with armed := true } }
      else none
    | none => none
  | .energise i gpioOk =>
    match s.pending[i]? with
    | some p =>
      if p.armed then
        some { s with
          energised := if gpioOk then Function.update s.energised p.channel true else s.energised
          pending := s.pending.eraseIdx i }
      else none
    | none => none
  | .off channel gpioOk =>
    some { s with
      energised := if gpioOk then Function.update s.energised channel false else s.energised }
  | .allOff gpioOk => some { s with energised := fun i => s.energised i && !gpioOk i }
  | .serviceStart =>
    if s.service = none then some { s with service := some (s.clock, List.finRange 4) } else none
  | .serviceNext =>
    match s.service with
    | some (now, channel :: rest) =>
      some { serviceChannel limits s now channel with
        service := if rest = [] then none else some (now, rest) }
    | _ => none
  | .poll => some { s with lastFresh := false }

/-- `solenoid_current_poll` gives the last reading where it is fresh. -/
def solenoidCurrentPoll (s : CurrentState) : Option SolenoidCurrentReading :=
  if s.lastFresh then s.last else none

/-- `solenoid_current_aggregate`, over the channels there are. -/
def solenoidCurrentAggregate (s : CurrentState) (channels : List Channel) : SolCurrentClass :=
  if channels.any (s.status · = .over) then .over
  else if channels.any (s.status · = .under) then .under
  else .norm

end DiveCANHead.Solenoid
