import DiveCANHead.Control.Injection

/-!
# The setpoint flush (`ppo2_control.c`, `ppo2_control_math.c`)

At the start of every fire cycle the diver's setpoint is compared with the one seen before, and a
change flushes O2 or diluent. A read of the channel that times out gives the default setpoint, and
that is taken for a change.
-/

namespace DiveCANHead.Control

open DiveCANHead.Lib

/-- `SETPOINT_O2_FLUSH_MAX_PRESSURE_MBAR`. -/
def setpointO2FlushMaxPressureMbar : UInt16 := 2000

/-- `SetpointFlushDirection_t`. -/
inductive SetpointFlushDirection where
  | none
  | o2
  | dil
  deriving DecidableEq

def setpointFlushDirection (previousCb currentCb : UInt8) : SetpointFlushDirection :=
  if currentCb > previousCb then .o2 else if currentCb < previousCb then .dil else .none

def ppo2SetpointO2FlushAllowed (ambientPressureMbar : UInt16) : Bool :=
  ambientPressureMbar ≤ setpointO2FlushMaxPressureMbar

/-- `read_cmd_setpoint`. -/
def readCmdSetpoint (chan : UInt8) (readOk : Bool) : UInt8 :=
  if readOk then chan else defaultSetpointCb

/-- `read_atmos_pressure`: zero where the channel cannot be read. -/
def readAtmosPressure (chan : UInt16) (readOk : Bool) : UInt16 := if readOk then chan else 0

/-- The two channels, the calibration, the setpoint the fire thread saw last, and the solenoid the
last step fired; `seen` is what the diver had commanded when the thread last looked. -/
structure FlushState where
  cmdSetpoint : UInt8
  pressureMbar : UInt16
  calibrating : Bool
  started : Bool
  lastCmdSetpoint : UInt8
  flush : SetpointFlushDirection
  seen : UInt8
  deriving DecidableEq

/-- Before the thread starts; the channels hold what they are seeded with. -/
def FlushState.boot (cmdSetpoint : UInt8) (pressureMbar : UInt16) : FlushState where
  cmdSetpoint := cmdSetpoint
  pressureMbar := pressureMbar
  calibrating := false
  started := false
  lastCmdSetpoint := 0
  flush := .none
  seen := cmdSetpoint

/-- `run_setpoint_flush_check`. -/
def runSetpointFlushCheck (s : FlushState) (cmdOk pressureOk : Bool) : FlushState :=
  let current := readCmdSetpoint s.cmdSetpoint cmdOk
  let dir := setpointFlushDirection s.lastCmdSetpoint current
  let s := { s with lastCmdSetpoint := current, seen := s.cmdSetpoint, flush := .none }
  if s.calibrating then s
  else if dir = .o2 ∧
      ppo2SetpointO2FlushAllowed (readAtmosPressure s.pressureMbar pressureOk) = false then s
  else { s with flush := dir }

/-- The diver, a calibration and the handset's pressure frames, and the fire thread. -/
inductive FlushEvent where
  | command (setpoint : UInt8)
  | calibration (running : Bool)
  | pressure (mbar : UInt16)
  | start (cmdOk : Bool)
  | iteration (cmdOk pressureOk : Bool)
  deriving DecidableEq

/-- `solenoid_fire_thread_fn` with what goes on around it. -/
def flushStep (s : FlushState) : FlushEvent → Option FlushState
  | .command setpoint => some { s with cmdSetpoint := setpoint, flush := .none }
  | .calibration running => some { s with calibrating := running, flush := .none }
  | .pressure mbar => some { s with pressureMbar := mbar, flush := .none }
  | .start cmdOk =>
    if s.started then none
    else some { s with
      started := true, flush := .none
      lastCmdSetpoint := readCmdSetpoint s.cmdSetpoint cmdOk, seen := s.cmdSetpoint }
  | .iteration cmdOk pressureOk =>
    if s.started then some (runSetpointFlushCheck s cmdOk pressureOk) else none

/-! ## The law -/

/-- The read of the commanded setpoint in a step. -/
def FlushEvent.cmdOk : FlushEvent → Bool
  | .command _ | .calibration _ | .pressure _ => true
  | .start cmdOk | .iteration cmdOk _ => cmdOk

/-- The read of the pressure in a step. -/
def FlushEvent.pressureOk : FlushEvent → Bool
  | .iteration _ pressureOk => pressureOk
  | .command _ | .calibration _ | .pressure _ | .start _ => false

/-- Only an iteration flushes: O2 where the diver has raised the setpoint since the last one,
diluent where he has lowered it, nothing under a calibration, and no O2 at a pressure that is read
above the limit. -/
structure FlushLawful (s : FlushState) (e : FlushEvent) (t : FlushState) : Prop where
  iteration : t.flush ≠ .none → ∃ cmdOk pressureOk, e = .iteration cmdOk pressureOk
  rise : t.flush = .o2 → s.seen < s.cmdSetpoint
  fall : t.flush = .dil → s.cmdSetpoint < s.seen
  quiet : t.flush ≠ .none → s.calibrating = false
  shallow : t.flush = .o2 → e.pressureOk = true → s.pressureMbar ≤ setpointO2FlushMaxPressureMbar

/-- The thread reads the commanded setpoint, or the default is what is commanded. -/
def CmdRead (s : FlushState) (e : FlushEvent) : Prop :=
  e.cmdOk = true ∨ s.cmdSetpoint = defaultSetpointCb

instance decidableCmdRead (s : FlushState) (e : FlushEvent) : Decidable (CmdRead s e) :=
  inferInstanceAs (Decidable (_ ∨ _))

/-- What was seen last is what was commanded then. -/
def FlushInv (s : FlushState) : Prop := s.started = true → s.lastCmdSetpoint = s.seen

theorem readCmdSetpoint_of_read {s : FlushState} {cmdOk : Bool}
    (h : cmdOk = true ∨ s.cmdSetpoint = defaultSetpointCb) :
    readCmdSetpoint s.cmdSetpoint cmdOk = s.cmdSetpoint := by
  unfold readCmdSetpoint
  split
  · rfl
  · next hfailed => exact (h.resolve_left hfailed).symm

theorem setpointFlushDirection_o2 {previous current : UInt8}
    (h : setpointFlushDirection previous current = .o2) : previous < current := by
  unfold setpointFlushDirection at h
  split at h
  · assumption
  · split at h <;> exact absurd h (by decide)

theorem setpointFlushDirection_dil {previous current : UInt8}
    (h : setpointFlushDirection previous current = .dil) : current < previous := by
  unfold setpointFlushDirection at h
  split at h
  · exact absurd h (by decide)
  · split at h
    · assumption
    · exact absurd h (by decide)

/-- What a check fires, and what has to hold for it. -/
theorem runSetpointFlushCheck_flush {s : FlushState} {cmdOk pressureOk : Bool}
    (h : (runSetpointFlushCheck s cmdOk pressureOk).flush ≠ .none) :
    (runSetpointFlushCheck s cmdOk pressureOk).flush =
        setpointFlushDirection s.lastCmdSetpoint (readCmdSetpoint s.cmdSetpoint cmdOk) ∧
      s.calibrating = false ∧
      ((runSetpointFlushCheck s cmdOk pressureOk).flush = .o2 →
        ppo2SetpointO2FlushAllowed (readAtmosPressure s.pressureMbar pressureOk) = true) := by
  unfold runSetpointFlushCheck at h ⊢
  dsimp only at h ⊢
  split at h
  · exact absurd rfl h
  · next hquiet =>
    rw [if_neg hquiet]
    split at h
    · exact absurd rfl h
    · next hallowed =>
      rw [if_neg hallowed]
      refine ⟨rfl, Bool.eq_false_iff.mpr hquiet, fun ho2 => ?_⟩
      exact Bool.not_eq_false _ ▸ fun hnot => hallowed ⟨ho2, hnot⟩

theorem runSetpointFlushCheck_seen (s : FlushState) (cmdOk pressureOk : Bool) :
    (runSetpointFlushCheck s cmdOk pressureOk).lastCmdSetpoint =
        readCmdSetpoint s.cmdSetpoint cmdOk ∧
      (runSetpointFlushCheck s cmdOk pressureOk).seen = s.cmdSetpoint := by
  unfold runSetpointFlushCheck
  dsimp only
  split
  · exact ⟨rfl, rfl⟩
  · split <;> exact ⟨rfl, rfl⟩

/-- A step that flushes nothing is lawful. -/
theorem flushLawful_of_none {s t : FlushState} {e : FlushEvent} (h : t.flush = .none) :
    FlushLawful s e t where
  iteration hne := absurd h hne
  rise ho2 := absurd (h.symm.trans ho2) (by decide)
  fall hdil := absurd (h.symm.trans hdil) (by decide)
  quiet hne := absurd h hne
  shallow ho2 := absurd (h.symm.trans ho2) (by decide)

theorem FlushInv.check {s : FlushState} (hi : FlushInv s) (hstarted : s.started = true)
    {cmdOk pressureOk : Bool} (hread : CmdRead s (.iteration cmdOk pressureOk)) :
    FlushLawful s (.iteration cmdOk pressureOk) (runSetpointFlushCheck s cmdOk pressureOk) := by
  by_cases hnone : (runSetpointFlushCheck s cmdOk pressureOk).flush = .none
  · exact flushLawful_of_none hnone
  obtain ⟨hdir, hquiet, hallowed⟩ := runSetpointFlushCheck_flush hnone
  have hvalue : readCmdSetpoint s.cmdSetpoint cmdOk = s.cmdSetpoint :=
    readCmdSetpoint_of_read hread
  rw [hvalue, hi hstarted] at hdir
  refine ⟨fun _ => ⟨cmdOk, pressureOk, rfl⟩, fun h => ?_, fun h => ?_, fun _ => hquiet,
    fun h hok => ?_⟩
  · exact setpointFlushDirection_o2 (hdir.symm.trans h)
  · exact setpointFlushDirection_dil (hdir.symm.trans h)
  · have hpressure := hallowed h
    have hok : pressureOk = true := hok
    rw [readAtmosPressure, if_pos hok] at hpressure
    exact of_decide_eq_true hpressure

theorem FlushInv.step {s t : FlushState} {e : FlushEvent} (hi : FlushInv s) (hread : CmdRead s e)
    (hstep : flushStep s e = some t) : FlushInv t ∧ FlushLawful s e t := by
  cases e with
  | command | calibration | pressure =>
    obtain rfl := Option.some.inj hstep
    exact ⟨hi, flushLawful_of_none rfl⟩
  | start cmdOk =>
    unfold flushStep at hstep
    dsimp only at hstep
    split at hstep
    · cases hstep
    · obtain rfl := Option.some.inj hstep
      exact ⟨fun _ => readCmdSetpoint_of_read hread, flushLawful_of_none rfl⟩
  | iteration cmdOk pressureOk =>
    unfold flushStep at hstep
    dsimp only at hstep
    split at hstep
    · next hstarted =>
      obtain rfl := Option.some.inj hstep
      refine ⟨fun _ => ?_, hi.check hstarted hread⟩
      obtain ⟨hlast, hseen⟩ := runSetpointFlushCheck_seen s cmdOk pressureOk
      rw [hlast, hseen]
      exact readCmdSetpoint_of_read hread
    · cases hstep

/-- In a run in which the commanded setpoint is always read, or is the default where it is not,
every flush is lawful. -/
theorem flushLawful_of_cmdRead (cmdSetpoint : UInt8) (pressureMbar : UInt16)
    (es : List FlushEvent)
    (h : Steps flushStep (fun s e _ => CmdRead s e) (.boot cmdSetpoint pressureMbar) es) :
    Steps flushStep FlushLawful (.boot cmdSetpoint pressureMbar) es := by
  have hkeep : ∀ {s e t}, FlushInv s → CmdRead s e → flushStep s e = some t →
      FlushInv t ∧ FlushLawful s e t := fun hi hread hstep => hi.step hread hstep
  exact Steps.of_inv hkeep (fun h => absurd h Bool.false_ne_true) h

/-- The diver raises the setpoint and lowers it again. -/
def raiseAndLower : List FlushEvent :=
  [.start true, .command 130, .iteration true true, .command 70, .iteration false true]

theorem flushLawful_raiseAndLower :
    Steps flushStep FlushLawful (.boot 100 1000) raiseAndLower :=
  flushLawful_of_cmdRead 100 1000 raiseAndLower (by decide +kernel)

/-- A read times out, and nobody has touched the setpoint. -/
def phantomChange : List FlushEvent := [.start true, .iteration false true]

/-- Diluent is flushed, by a setpoint that never changed. -/
theorem phantomChange_flushes :
    ¬Steps flushStep FlushLawful (.boot 100 1000) phantomChange := by
  intro h
  have hfall : Steps flushStep (fun s _ t => t.flush = .dil → s.cmdSetpoint < s.seen)
      (.boot 100 1000) phantomChange := h.mono fun hstep => hstep.fall
  exact absurd hfall (by decide +kernel)

end DiveCANHead.Control
