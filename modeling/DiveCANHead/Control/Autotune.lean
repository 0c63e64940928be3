import Mathlib.Algebra.Order.Ring.Rat
import Mathlib.Tactic.NormNum
import DiveCANHead.Control.Setpoint
import DiveCANHead.Maintenance.Arena

/-!
# The autotune (`ppo2_autotune.c`)

The autotune thread runs one experiment at a time: it settles at the base setpoint, measures a
baseline, observes a duty pulse and works out gains. Every safety check, every call that other
threads can see and every loop iteration is a step of its own, so a request to abort arrives
between any two. What a check or a sample finds comes from outside, and so does what the
identification and the synthesis make of the measured trace; floats are rationals.
-/

namespace DiveCANHead.Control

open DiveCANHead.Lib DiveCANHead.Maintenance

/-! ## Live gains (`ppo2_control.c`) -/

structure PidGains where
  kp : ℚ
  ki : ℚ
  kd : ℚ
  deriving DecidableEq, Repr

/-- `PID_GAIN_MIN`. -/
def pidGainMin : ℚ := 0

/-- `PID_GAIN_MAX`. -/
def pidGainMax : ℚ := 100

/-- `clamp_pid_gain`. -/
def clampPidGain (gain : ℚ) : ℚ :=
  if gain < pidGainMin then pidGainMin else if pidGainMax < gain then pidGainMax else gain

/-- Gains the settings and the controller accept. -/
def PidGains.InRange (g : PidGains) : Prop :=
  clampPidGain g.kp = g.kp ∧ clampPidGain g.ki = g.ki ∧ clampPidGain g.kd = g.kd

/-- The gains of the PID state, always in range. -/
@[ext]
structure LiveGains where
  gains : PidGains
  inRange : gains.InRange

theorem clampPidGain_clampPidGain (gain : ℚ) :
    clampPidGain (clampPidGain gain) = clampPidGain gain := by
  unfold clampPidGain
  split
  · rw [if_neg (lt_irrefl _), if_neg (by norm_num [pidGainMin, pidGainMax])]
  · split
    · rw [if_neg (by norm_num [pidGainMin, pidGainMax]), if_neg (lt_irrefl _)]
    · rfl

/-- `ppo2_control_set_gains_live`. -/
def setGainsLive (g : PidGains) : LiveGains where
  gains := ⟨clampPidGain g.kp, clampPidGain g.ki, clampPidGain g.kd⟩
  inRange := ⟨clampPidGain_clampPidGain _, clampPidGain_clampPidGain _, clampPidGain_clampPidGain _⟩

/-- Live gains are put back as they were. -/
theorem setGainsLive_gains (g : LiveGains) : setGainsLive g.gains = g := by
  obtain ⟨hkp, hki, hkd⟩ := g.inRange
  apply LiveGains.ext
  simp only [setGainsLive, hkp, hki, hkd]

/-- The duty override of the controller. -/
structure DutyOverride where
  enabled : Bool
  duty : ℚ
  deriving DecidableEq, Repr

/-- `ppo2_control_set_autotune_duty`. -/
def setAutotuneDuty (enabled : Bool) (duty : ℚ) : DutyOverride where
  enabled
  duty := if duty < 0 then 0 else if 1 < duty then 1 else duty

/-! ## The shared state -/

/-- `AutotuneState_t`. -/
inductive AutotuneState where
  | idle
  | settling
  | stepping
  | done
  | aborted
  deriving DecidableEq, Repr

/-- `AutotuneAbortReason_t`, without `AUTOTUNE_ABORT_NONE`. -/
inductive AbortReason where
  | operator
  | dive
  | cellFail
  | timeout
  | conditions
  | solenoid
  | baseline
  | identify
  | tuning
  deriving DecidableEq, Repr

/-- The reason for which the handlers abort. -/
def AbortReason.ofRequest : Uds.AutotuneAbort → AbortReason
  | .dive => .dive
  | .operator => .operator

/-- `AutotuneParams_t`. -/
structure AutotuneParams where
  baseSetpointCb : UInt8
  excitationDutyPct : UInt8
  iterationBudget : UInt16
  deriving DecidableEq, Repr

/-- `sanitize_params`. -/
def sanitizeParams (p : AutotuneParams) : AutotuneParams where
  baseSetpointCb :=
    if p.baseSetpointCb < 40 ∨ 160 < p.baseSetpointCb ∨ p.baseSetpointCb = 19 then 70
    else p.baseSetpointCb
  excitationDutyPct :=
    let step := if p.excitationDutyPct = 0 then 20 else p.excitationDutyPct
    if step < 5 then 5 else if 30 < step then 30 else step
  iterationBudget := 1

/-- `AutotuneShared_t`, with the state and the reason of its status. -/
structure AutotuneShared where
  params : AutotuneParams
  abortReq : Bool
  abortReason : Option AbortReason
  running : Bool
  startUptimeMs : UInt32
  state : AutotuneState
  statusReason : Option AbortReason
  deriving DecidableEq, Repr

/-! ## Where the thread is -/

/-- How an experiment comes out. -/
inductive Outcome where
  | abort (reason : AbortReason)
  | success (gains : PidGains)
  deriving DecidableEq, Repr

/-- What `run_autotune` keeps: its parameters, the gains and the setpoint to restore, and whether
it was given the arena. -/
structure TuneRun where
  params : AutotuneParams
  gains : LiveGains
  restoreSp : UInt8
  held : Bool

/-- Where `run_autotune` is: in `measure_plant`, then on its way out. -/
inductive TunePhase where
  | claiming
  | publishingBase
  | settling (waited : ℕ)
  | measuring (window sample : ℕ)
  | exciting
  | observing (n : ℕ) (baselineDuty : ℚ)
  | unexciting (outcome : Outcome)
  | releasing (outcome : Outcome)
  | dutyOff (reason : AbortReason)
  | gainsBack (outcome : Outcome)
  | staging (gains : PidGains)
  | setpointBack (outcome : Outcome)
  | finishing (outcome : Outcome)
  deriving DecidableEq, Repr

inductive AutotuneThread where
  | waiting
  | starting
  | active (run : TuneRun) (phase : TunePhase)

/-- What was there when a run began. -/
structure BeforeRun where
  gains : LiveGains
  setpoint : UInt8
  stagings : List PidGains

/-- All that an autotune touches; `stagings` are the gains it staged, the newest first. -/
structure AutotuneSystem where
  gains : LiveGains
  duty : DutyOverride
  setpoint : UInt8
  arena : Arena
  stagings : List PidGains
  shared : AutotuneShared
  startSem : Bool
  thread : AutotuneThread
  before : BeforeRun

/-- What a step of the thread finds. `sample` is a consensus read: `none` fails, `some true` is
`PPO2_FAIL`. -/
structure TuneEnv where
  readOk : Bool
  published : Bool
  inDive : Bool
  modePid : Bool
  solenoidFault : Bool
  elapsedMs : ℕ
  sample : Option Bool
  baselineDuty : ℚ
  stable : Bool
  outcome : Outcome

/-! ## Checks and loops -/

/-- `AUTOTUNE_MAX_TOTAL_MS`. -/
def autotuneMaxTotalMs : ℕ := 7200000

def autotuneSettleMs : ℕ := 20000

def autotuneSamplePeriodMs : ℕ := 500

def autotuneBaselineSamples : ℕ := 20

def autotuneBaselineMaxWindows : ℕ := 6

def autotuneObserveSamples : ℕ := 80

def autotunePulseSamples : ℕ := 20

/-- `check_safety`, with `none` for `AUTOTUNE_ABORT_NONE`. -/
def checkSafety (shared : AutotuneShared) (env : TuneEnv) : Option AbortReason :=
  let reason :=
    if shared.abortReq then shared.abortReason
    else if env.inDive then some .dive
    else if !env.modePid then some .conditions
    else if env.solenoidFault then some .solenoid
    else none
  if reason = none ∧ autotuneMaxTotalMs < env.elapsedMs then some .timeout else reason

/-- The duty of `run_excitation_step`. -/
def excitedDuty (baselineDuty : ℚ) (dutyStepPct : UInt8) : ℚ :=
  let dutyStep : ℚ := dutyStepPct.toNat / 100
  let dutyStep := if dutyStep < 0.05 then 0.05 else if 0.30 < dutyStep then 0.30 else dutyStep
  if 0.95 < baselineDuty + dutyStep then 0.95 else baselineDuty + dutyStep

/-- After a good sample of `measure_baseline`. -/
def nextBaseline (window sample : ℕ) (stable : Bool) : TunePhase :=
  if sample + 1 < autotuneBaselineSamples then .measuring window (sample + 1)
  else if window + 1 < autotuneBaselineMaxWindows then .measuring (window + 1) 0
  else if stable then .exciting
  else .releasing (.abort .baseline)

/-- After a good sample of `autotune_observe`. -/
def nextObserved (n : ℕ) (baselineDuty : ℚ) (outcome : Outcome) : TunePhase :=
  if n + 1 < autotuneObserveSamples then .observing (n + 1) baselineDuty else .unexciting outcome

/-- Where the way out goes once the arena is back. -/
def Outcome.next : Outcome → TunePhase
  | .abort reason => .dutyOff reason
  | .success gains => .gainsBack (.success gains)

/-- After the gains are back. -/
def Outcome.afterGains : Outcome → TunePhase
  | .abort reason => .setpointBack (.abort reason)
  | .success gains => .staging gains

/-- `status_finish`. -/
def statusFinish (shared : AutotuneShared) : Outcome → AutotuneShared
  | .abort reason =>
    { shared with state := .aborted, statusReason := some reason, running := false }
  | .success _ => { shared with state := .done, statusReason := none, running := false }

/-! ## Steps -/

/-- The next step of `run_autotune`. -/
def phaseStep (s : AutotuneSystem) (env : TuneEnv) (run : TuneRun) : TunePhase → AutotuneSystem
  | .claiming =>
    let claim := maintArenaClaim s.arena (some .autotune)
    { s with
      arena := claim.1
      thread := .active { run with held := claim.2 }
        (if claim.2 then .publishingBase else .releasing (.abort .conditions)) }
  | .publishingBase =>
    { s with
      shared := { s.shared with state := .settling }
      setpoint := publishSetpoint s.setpoint run.params.baseSetpointCb env.published
      thread := .active run (.settling 0) }
  | .settling waited =>
    if waited < autotuneSettleMs then
      match checkSafety s.shared env with
      | some reason => { s with thread := .active run (.releasing (.abort reason)) }
      | none => { s with thread := .active run (.settling (waited + autotuneSamplePeriodMs)) }
    else { s with thread := .active run (.measuring 0 0) }
  | .measuring window sample =>
    match checkSafety s.shared env, env.sample with
    | some reason, _ => { s with thread := .active run (.releasing (.abort reason)) }
    | none, some false =>
      { s with thread := .active run (nextBaseline window sample env.stable) }
    | none, none | none, some true =>
      { s with thread := .active run (.releasing (.abort .cellFail)) }
  | .exciting =>
    { s with
      shared := { s.shared with state := .stepping }
      duty := setAutotuneDuty true (excitedDuty env.baselineDuty run.params.excitationDutyPct)
      thread := .active run (.observing 0 env.baselineDuty) }
  | .observing n baselineDuty =>
    let duty := if n = autotunePulseSamples then setAutotuneDuty true baselineDuty else s.duty
    match checkSafety s.shared env, env.sample with
    | some reason, _ => { s with duty, thread := .active run (.unexciting (.abort reason)) }
    | none, none => { s with duty, thread := .active run (.observing n baselineDuty) }
    | none, some true => { s with duty, thread := .active run (.unexciting (.abort .cellFail)) }
    | none, some false =>
      { s with duty, thread := .active run (nextObserved n baselineDuty env.outcome) }
  | .unexciting outcome =>
    { s with duty := setAutotuneDuty false 0, thread := .active run (.releasing outcome) }
  | .releasing outcome =>
    { s with
      arena := if run.held then maintArenaRelease s.arena (some .autotune) else s.arena
      thread := .active run outcome.next }
  | .dutyOff reason =>
    { s with duty := setAutotuneDuty false 0, thread := .active run (.gainsBack (.abort reason)) }
  | .gainsBack outcome =>
    { s with gains := setGainsLive run.gains.gains, thread := .active run outcome.afterGains }
  | .staging gains =>
    { s with
      stagings := gains :: s.stagings, thread := .active run (.setpointBack (.success gains)) }
  | .setpointBack outcome =>
    { s with
      setpoint := publishSetpoint s.setpoint run.restoreSp env.published
      thread := .active run (.finishing outcome) }
  | .finishing outcome => { s with shared := statusFinish s.shared outcome, thread := .waiting }

/-- The next step of `autotune_thread_fn`. -/
def autotuneThreadStep (s : AutotuneSystem) (env : TuneEnv) : Option AutotuneSystem :=
  match s.thread with
  | .waiting => if s.startSem then some { s with startSem := false, thread := .starting } else none
  | .starting =>
    let params := s.shared.params
    some
      { s with
        before := ⟨s.gains, s.setpoint, s.stagings⟩
        thread := .active
          ⟨params, s.gains, readSetpoint s.setpoint env.readOk params.baseSetpointCb, false⟩
          .claiming }
  | .active run phase => some (phaseStep s env run phase)

/-- `ppo2_autotune_start`; a refused start changes nothing. -/
def autotuneStart (s : AutotuneSystem) (params : AutotuneParams) (modePid inDive : Bool)
    (now : UInt32) : AutotuneSystem :=
  if !modePid || inDive || s.shared.running then s
  else
    { s with
      startSem := true
      shared :=
        { params := sanitizeParams params
          abortReq := false
          abortReason := none
          running := true
          startUptimeMs := now
          state := .settling
          statusReason := none } }

/-- Whether `ppo2_autotune_request_abort` accepts a request. -/
def AutotuneShared.acceptsAbort (shared : AutotuneShared) : Bool :=
  shared.running && !shared.abortReq

/-- `ppo2_autotune_request_abort`. -/
def autotuneRequestAbort (s : AutotuneSystem) (reason : Uds.AutotuneAbort) : AutotuneSystem :=
  if s.shared.acceptsAbort then
    { s with
      shared := { s.shared with abortReq := true, abortReason := some (.ofRequest reason) } }
  else s

/-- The thread takes a step, a handler calls, or another thread publishes a setpoint or calls the
arena. -/
inductive AutotuneEvent where
  | thread (env : TuneEnv)
  | start (params : AutotuneParams) (modePid inDive : Bool) (now : UInt32)
  | requestAbort (reason : Uds.AutotuneAbort)
  | setpoint (value : UInt8)
  | arena (call : ArenaEvent)

/-- A call to the arena by one of its other tenants. -/
def othersCall : ArenaEvent → Bool
  | .claim owner | .release owner | .write owner _ => owner ≠ .autotune
  | .setIndexBuilding _ => true

def autotuneStep (s : AutotuneSystem) : AutotuneEvent → Option AutotuneSystem
  | .thread env => autotuneThreadStep s env
  | .start params modePid inDive now => some (autotuneStart s params modePid inDive now)
  | .requestAbort reason => some (autotuneRequestAbort s reason)
  | .setpoint value => some { s with setpoint := value }
  | .arena call =>
    if othersCall call then (arenaStep s.arena call).map fun arena => { s with arena } else none

end DiveCANHead.Control
