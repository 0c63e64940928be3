import DiveCANHead.Lib.Runs
import DiveCANHead.Control.FireTiming
import DiveCANHead.Control.PidMath

/-!
# The PID thread and the solenoid fire thread (`ppo2_control.c`)

The two threads share the zbus channels. A step is what one thread does between
two points where the other can run: a PID tick reads its channels and computes,
then publishes the duty, then (on the cell-failure edge) drives the solenoids
off; a fire cycle reads the duty, reads the pressure and composes its timing,
fires, ends the pulse and rests. A bounded read that times out leaves its
default, a bounded publish that times out leaves the channel.

`lastTick` and `readUnder` are bookkeeping: the kind of the last completed tick,
and the kind under which the running fire cycle read the duty.
-/

namespace DiveCANHead.Control

open DiveCANHead.Lib

/-! ## Channels and messages -/

def ppo2Fail : UInt8 := 0xFF

def centibarToBar : ℚ := 100

def defaultSetpointCb : UInt8 := 70

/-- What the controller reads of a `ConsensusMsg_t`. -/
structure ConsensusMsg where
  consensusPpo2 : UInt8
  precisionConsensus : ℚ
  deriving DecidableEq, Repr

/-- The zbus channels the two threads use. -/
structure Channels where
  consensus : ConsensusMsg := ⟨ppo2Fail, 0⟩
  setpoint : UInt8 := 70
  dutyCycle : ℚ := 0
  atmosPressure : UInt16 := 0
  deriving DecidableEq, Repr

/-- What is fixed while the controller runs in PID mode. -/
structure Config where
  dualO2Inject : Bool
  depthCompEnabled : Bool
  autotuneDutyEnabled : Bool
  autotuneDuty : ℚ
  deriving DecidableEq, Repr

/-! ## State -/

/-- What a PID tick found: no consensus, PPO2 above setpoint, or neither. -/
inductive TickKind where
  | failed
  | above
  | normal
  deriving DecidableEq, Repr

/-- No fire may follow a duty read under this kind of tick. -/
def TickKind.holdsFire : TickKind → Bool
  | .failed | .above => true
  | .normal => false

/-- Where the PID thread is: asleep, about to publish the duty of a tick, or
about to drive the solenoids off. -/
inductive PidPc where
  | idle
  | publish (duty : ℚ) (kind : TickKind)
  | off
  deriving DecidableEq, Repr

/-- The publication that is due must quiet the fire thread. -/
def PidPc.holdsFire : PidPc → Bool
  | .publish _ kind => kind.holdsFire
  | _ => false

inductive FirePc where
  | idle
  | gotDuty (duty : ℚ)
  | composed (timing : FireTiming)
  | pulse
  | rest
  deriving DecidableEq, Repr

structure ThreadsState where
  chans : Channels
  pid : PIDState
  latestDutyCycle : ℚ := 0
  consensusFailedLatch : Bool := false
  pidPc : PidPc := .idle
  firePc : FirePc := .idle
  injectUseSecondary : Bool := false
  inject : Bool := false
  inject2 : Bool := false
  lastTick : TickKind := .normal
  readUnder : TickKind := .normal
  deriving DecidableEq, Repr

namespace ThreadsState

/-- Both inject solenoids are de-energised. -/
def injectOff (s : ThreadsState) : Bool := !s.inject && !s.inject2

end ThreadsState

/-- The controller as it starts: nothing published, nothing fired. -/
def ThreadsState.start (kp ki kd : ℚ) : ThreadsState :=
  { chans := {}, pid := pidStateInit kp ki kd }

/-! ## Solenoids -/

def injectSolenoidOff (s : ThreadsState) : ThreadsState :=
  { s with inject := false, inject2 := false }

/-- One channel after `solenoid_fire`: a duration of 0 turns it off, a driver
error leaves it. -/
def solenoidFire (durationUs : ℕ) (driverOk on : Bool) : Bool :=
  if durationUs = 0 then false else driverOk || on

/-- On dual-inject variants the toggle flips on every attempt. -/
def injectSolenoidFire (cfg : Config) (durationUs : ℕ) (driverOk : Bool) (s : ThreadsState) :
    ThreadsState :=
  if cfg.dualO2Inject then
    if s.injectUseSecondary then
      { s with inject2 := solenoidFire durationUs driverOk s.inject2, injectUseSecondary := false }
    else
      { s with inject := solenoidFire durationUs driverOk s.inject, injectUseSecondary := true }
  else { s with inject := solenoidFire durationUs driverOk s.inject }

/-! ## The PID tick -/

/-- A read that times out is treated as a cell failure. -/
def readConsensus (chan : ConsensusMsg) (readOk : Bool) : ConsensusMsg :=
  if readOk then chan else ⟨ppo2Fail, 0⟩

def readSetpointOrDefault (chan : UInt8) (readOk : Bool) : UInt8 :=
  if readOk then chan else defaultSetpointCb

def setpointBar (setpoint : UInt8) : ℚ := (setpoint.toNat : ℚ) / centibarToBar

/-- The consensus this tick acts on is a cell failure. -/
def tickFails (s : ThreadsState) (consensusOk : Bool) : Bool :=
  (readConsensus s.chans.consensus consensusOk).consensusPpo2 == ppo2Fail

/-- The measured PPO2 is above the commanded setpoint. -/
def measuredAbove (s : ThreadsState) : Bool :=
  decide (setpointBar s.chans.setpoint < s.chans.consensus.precisionConsensus)

/-- A tick from its reads up to its publication. -/
def pidTick (cfg : Config) (s : ThreadsState) (consensusOk setpointOk : Bool) : ThreadsState :=
  let consensus := readConsensus s.chans.consensus consensusOk
  let dSetpoint := setpointBar (readSetpointOrDefault s.chans.setpoint setpointOk)
  let measurement := consensus.precisionConsensus
  if tickFails s consensusOk then
    if s.consensusFailedLatch then
      -- edge-triggered: nothing is published and nothing is driven off again
      { s with lastTick := .failed }
    else
      { s with
        consensusFailedLatch := true
        latestDutyCycle := 0
        pid := pidStateResetDynamic s.pid
        pidPc := .publish 0 .failed }
  else
    let kind := if measuredAbove s then .above else .normal
    if cfg.autotuneDutyEnabled then
      { s with
        consensusFailedLatch := false
        latestDutyCycle := cfg.autotuneDuty
        pidPc := .publish cfg.autotuneDuty kind }
    else
      let (duty, pid) := pidUpdate dSetpoint measurement s.pid
      -- the fire gate suppresses the published command only
      let pub := if measurement > dSetpoint then 0 else duty
      { s with
        consensusFailedLatch := false
        latestDutyCycle := duty
        pid := pid
        pidPc := .publish pub kind }

/-- The bounded publish of `chan_duty_cycle`, and what ends the tick. -/
def publishDuty (s : ThreadsState) (duty : ℚ) (kind : TickKind) (pubOk : Bool) : ThreadsState :=
  let chans := if pubOk then { s.chans with dutyCycle := duty } else s.chans
  if kind = .failed then { s with chans := chans, pidPc := .off }
  else { s with chans := chans, pidPc := .idle, lastTick := kind }

/-! ## The fire cycle -/

/-- `run_pid_fire_cycle` from its timing on, up to its first sleep. -/
def fireGo (cfg : Config) (s : ThreadsState) (timing : FireTiming)
    (calibrationIsRunning driverOk : Bool) : ThreadsState :=
  if calibrationIsRunning then { injectSolenoidOff s with firePc := .rest }
  else if timing.shouldFire then
    { injectSolenoidFire cfg timing.onDurationUs driverOk s with firePc := .pulse }
  else { s with firePc := .rest }

/-! ## Steps -/

inductive Event where
  | setConsensus (msg : ConsensusMsg)
  | setSetpoint (setpoint : UInt8)
  | setPressure (mbar : UInt16)
  /-- The deadman or another owner of the bank drives every solenoid off. -/
  | allOff
  | tick (consensusOk setpointOk : Bool)
  | publish (pubOk : Bool)
  | tickOff
  | readDuty (readOk : Bool)
  | compose (readOk : Bool)
  | go (calibrationIsRunning driverOk : Bool)
  | pulseEnd
  | cycleEnd
  deriving DecidableEq, Repr

def step (cfg : Config) (s : ThreadsState) : Event → Option ThreadsState
  | .setConsensus msg => some { s with chans := { s.chans with consensus := msg } }
  | .setSetpoint sp => some { s with chans := { s.chans with setpoint := sp } }
  | .setPressure p => some { s with chans := { s.chans with atmosPressure := p } }
  | .allOff => some (injectSolenoidOff s)
  | .tick consensusOk setpointOk =>
    match s.pidPc with
    | .idle => some (pidTick cfg s consensusOk setpointOk)
    | _ => none
  | .publish pubOk =>
    match s.pidPc with
    | .publish duty kind => some (publishDuty s duty kind pubOk)
    | _ => none
  | .tickOff =>
    match s.pidPc with
    | .off => some { injectSolenoidOff s with pidPc := .idle, lastTick := .failed }
    | _ => none
  | .readDuty readOk =>
    match s.firePc with
    | .idle => some { s with
        firePc := .gotDuty (if readOk then s.chans.dutyCycle else 0), readUnder := s.lastTick }
    | _ => none
  | .compose readOk =>
    match s.firePc with
    | .gotDuty duty => some { s with
        firePc := .composed (pidComputeFireTiming duty (if readOk then s.chans.atmosPressure else 0)
          cfg.depthCompEnabled solenoidCycleMs solenoidMinFireMs solenoidMaxFireMs) }
    | _ => none
  | .go calibrationIsRunning driverOk =>
    match s.firePc with
    | .composed timing => some (fireGo cfg s timing calibrationIsRunning driverOk)
    | _ => none
  | .pulseEnd =>
    match s.firePc with
    | .pulse => some { injectSolenoidOff s with firePc := .rest }
    | _ => none
  | .cycleEnd =>
    match s.firePc with
    | .rest => some { s with firePc := .idle }
    | _ => none

/-! ## What the controller promises -/

/-- This step is the last of a tick that found a cell failure. -/
def endsFailedTick (s : ThreadsState) : Event → Bool
  | .tick consensusOk _ => tickFails s consensusOk && s.consensusFailedLatch
  | .tickOff => true
  | _ => false

/-- This step fires the inject solenoid. -/
def fires (s : ThreadsState) : Event → Bool
  | .go false _ =>
    match s.firePc with
    | .composed timing => timing.shouldFire
    | _ => false
  | _ => false

/-- A cell-failure tick leaves the solenoids off, and a cycle that read the duty
under a cell failure or above setpoint does not fire. -/
def StepSafe (s : ThreadsState) (e : Event) (t : ThreadsState) : Prop :=
  (endsFailedTick s e = true → t.injectOff = true) ∧
    (fires s e = true → s.readUnder.holdsFire = false)

instance (s e t) : Decidable (StepSafe s e t) := inferInstanceAs (Decidable (_ ∧ _))

/-- The least duty that fires. -/
def minimumDutyCycle : ℚ := (solenoidMinFireMs : ℚ) / solenoidCycleMs

/-- The step does not take a path on which the promise is lost: a failing tick
that finds the latch set finds the solenoids off, a tick above setpoint sees a
setpoint that is below the measurement, and the publish that must quiet the fire
thread arrives or is not needed. -/
def StepClean (s : ThreadsState) : Event → Prop
  | .tick consensusOk setpointOk =>
    (tickFails s consensusOk = true → s.consensusFailedLatch = true → s.injectOff = true) ∧
      (tickFails s consensusOk = false → measuredAbove s = true → setpointOk = true ∨
        setpointBar defaultSetpointCb < s.chans.consensus.precisionConsensus)
  | .publish pubOk =>
    s.pidPc.holdsFire = true → pubOk = true ∨ s.chans.dutyCycle < minimumDutyCycle
  | _ => True

instance : ∀ s e, Decidable (StepClean s e)
  | _, .tick .. => inferInstanceAs (Decidable (_ ∧ _))
  | _, .publish _ => inferInstanceAs (Decidable (_ → _))
  | _, .setConsensus _ | _, .setSetpoint _ | _, .setPressure _ | _, .allOff | _, .tickOff
  | _, .readDuty _ | _, .compose _ | _, .go .. | _, .pulseEnd | _, .cycleEnd => isTrue trivial

/-! ## The invariant -/

/-- The duty channel is quiet while the last tick, or the tick in progress,
holds fire. -/
structure PidInv (s : ThreadsState) : Prop where
  held : s.lastTick.holdsFire = true → s.chans.dutyCycle < minimumDutyCycle
  pending : ∀ duty kind, s.pidPc = .publish duty kind → kind.holdsFire = true →
    duty < minimumDutyCycle
  turningOff : s.pidPc = .off → s.chans.dutyCycle < minimumDutyCycle
  latched : s.consensusFailedLatch = true → s.pidPc = .idle → s.lastTick = .failed
  unlatched : ∀ duty kind, s.pidPc = .publish duty kind → kind ≠ .failed →
    s.consensusFailedLatch = false

/-- A fire cycle that read its duty while fire was held does not fire. -/
structure FireInv (s : ThreadsState) : Prop where
  gotDuty : ∀ duty, s.firePc = .gotDuty duty → s.readUnder.holdsFire = true →
    duty < minimumDutyCycle
  composed : ∀ timing, s.firePc = .composed timing → s.readUnder.holdsFire = true →
    timing.shouldFire = false

def Inv (s : ThreadsState) : Prop := PidInv s ∧ FireInv s

theorem minimumDutyCycle_pos : 0 < minimumDutyCycle := FireCycle.standard.minDuty_pos

theorem inv_start (kp ki kd : ℚ) : Inv (.start kp ki kd) := by
  refine ⟨⟨?_, ?_, ?_, ?_, ?_⟩, ?_, ?_⟩ <;> simp [ThreadsState.start, TickKind.holdsFire]

/-- A duty below the minimum composes to a quiet cycle. -/
theorem shouldFire_of_lt {duty : ℚ} (h : duty < minimumDutyCycle) (p : UInt16) (comp : Bool) :
    (pidComputeFireTiming duty p comp solenoidCycleMs solenoidMinFireMs
      solenoidMaxFireMs).shouldFire = false := by
  have := FireCycle.standard.shouldFire_iff duty p comp
  exact Bool.eq_false_iff.mpr fun hf => not_le.mpr h (this.mp hf)

section Tick

variable {cfg : Config} {s : ThreadsState} {consensusOk setpointOk : Bool}

/-- A failing tick on the latch's edge starts the zero publication. -/
theorem pidTick_edge (hf : tickFails s consensusOk = true)
    (hl : s.consensusFailedLatch = false) :
    pidTick cfg s consensusOk setpointOk = { s with
      consensusFailedLatch := true
      latestDutyCycle := 0
      pid := pidStateResetDynamic s.pid
      pidPc := .publish 0 .failed } := by
  simp [pidTick, hf, hl]

/-- A failing tick that finds the latch set does nothing. -/
theorem pidTick_latched (hf : tickFails s consensusOk = true)
    (hl : s.consensusFailedLatch = true) :
    pidTick cfg s consensusOk setpointOk = { s with lastTick := .failed } := by
  simp [pidTick, hf, hl]

variable (setpointOk) in
/-- A good tick clears the latch and publishes a duty, which is zero where the
measurement is above the setpoint it read. -/
theorem pidTick_good (ha : cfg.autotuneDutyEnabled = false)
    (hf : tickFails s consensusOk = false) :
    ∃ latest pid pub, pidTick cfg s consensusOk setpointOk = { s with
        consensusFailedLatch := false
        latestDutyCycle := latest
        pid := pid
        pidPc := .publish pub (if measuredAbove s then .above else .normal) } ∧
      (setpointBar (readSetpointOrDefault s.chans.setpoint setpointOk) <
        s.chans.consensus.precisionConsensus → pub = 0) := by
  obtain rfl : consensusOk = true := by
    by_contra h
    simp [tickFails, readConsensus, h] at hf
  simp only [pidTick, hf, ha, readConsensus, if_true, Bool.false_eq_true, if_false]
  exact ⟨_, _, _, rfl, fun h => if_pos h⟩

theorem inv_tick (ha : cfg.autotuneDutyEnabled = false) (hi : PidInv s) (hidle : s.pidPc = .idle)
    (hc : StepClean s (.tick consensusOk setpointOk)) :
    PidInv (pidTick cfg s consensusOk setpointOk) := by
  cases hf : tickFails s consensusOk with
  | true =>
    cases hl : s.consensusFailedLatch with
    | true =>
      have hheld : s.chans.dutyCycle < minimumDutyCycle :=
        hi.held (by rw [hi.latched hl hidle]; rfl)
      rw [pidTick_latched hf hl]
      exact ⟨fun _ => hheld, hi.pending, hi.turningOff, fun _ _ => rfl, hi.unlatched⟩
    | false =>
      rw [pidTick_edge hf hl]
      refine ⟨hi.held, ?_, nofun, nofun, ?_⟩
      · rintro duty kind ⟨⟩ -
        exact minimumDutyCycle_pos
      · rintro duty kind ⟨⟩ hne
        exact absurd rfl hne
  | false =>
    obtain ⟨latest, pid, pub, heq, hpub⟩ := pidTick_good setpointOk ha hf
    rw [heq]
    refine ⟨hi.held, ?_, nofun, nofun, fun _ _ _ _ => rfl⟩
    rintro duty kind ⟨⟩ hk
    cases hab : measuredAbove s with
    | false => simp [hab, TickKind.holdsFire] at hk
    | true =>
      -- the setpoint this tick acts on is below the measurement
      have hlt : setpointBar (readSetpointOrDefault s.chans.setpoint setpointOk) <
          s.chans.consensus.precisionConsensus := by
        cases hsp : setpointOk with
        | true => exact of_decide_eq_true hab
        | false => exact (hc.2 hf hab).resolve_left (by simp [hsp])
      rw [hpub hlt]
      exact minimumDutyCycle_pos

theorem inv_publish {duty : ℚ} {kind : TickKind} {pubOk : Bool} (hi : PidInv s)
    (hpc : s.pidPc = .publish duty kind) (hc : StepClean s (.publish pubOk)) :
    PidInv (publishDuty s duty kind pubOk) := by
  simp only [StepClean, hpc, PidPc.holdsFire] at hc
  have hduty : kind.holdsFire = true →
      (if pubOk then { s.chans with dutyCycle := duty } else s.chans).dutyCycle <
        minimumDutyCycle := by
    intro hk
    cases pubOk with
    | true => exact hi.pending duty kind hpc hk
    | false => exact (hc hk).resolve_left (by simp)
  by_cases hkind : kind = .failed
  · subst hkind
    simp only [publishDuty, if_true]
    exact ⟨fun _ => hduty rfl, nofun, fun _ => hduty rfl, nofun, nofun⟩
  · simp only [publishDuty, if_neg hkind]
    refine ⟨hduty, nofun, nofun, fun h => ?_, nofun⟩
    rw [hi.unlatched duty kind hpc hkind] at h
    cases h

end Tick

theorem PidInv.of_eq {s t : ThreadsState} (hi : PidInv s)
    (hd : t.chans.dutyCycle = s.chans.dutyCycle) (hp : t.pidPc = s.pidPc)
    (hl : t.consensusFailedLatch = s.consensusFailedLatch) (ht : t.lastTick = s.lastTick) :
    PidInv t := by
  obtain ⟨h1, h2, h3, h4, h5⟩ := hi
  exact ⟨by rwa [hd, ht], by rwa [hp], by rwa [hp, hd], by rwa [hl, hp, ht], by rwa [hp, hl]⟩

theorem FireInv.of_eq {s t : ThreadsState} (hi : FireInv s) (hp : t.firePc = s.firePc)
    (hr : t.readUnder = s.readUnder) : FireInv t := by
  obtain ⟨h1, h2⟩ := hi
  exact ⟨by rwa [hp, hr], by rwa [hp, hr]⟩

/-- The PID thread leaves the fire thread alone. -/
theorem pidTick_fire (cfg : Config) (s : ThreadsState) (consensusOk setpointOk : Bool) :
    (pidTick cfg s consensusOk setpointOk).firePc = s.firePc ∧
      (pidTick cfg s consensusOk setpointOk).readUnder = s.readUnder := by
  simp only [pidTick]
  split_ifs <;> exact ⟨rfl, rfl⟩

theorem publishDuty_fire (s : ThreadsState) (duty : ℚ) (kind : TickKind) (pubOk : Bool) :
    (publishDuty s duty kind pubOk).firePc = s.firePc ∧
      (publishDuty s duty kind pubOk).readUnder = s.readUnder := by
  simp only [publishDuty]
  split_ifs <;> exact ⟨rfl, rfl⟩

/-- The fire thread leaves the PID thread and the channels alone. -/
theorem fireGo_pid {cfg : Config} {s : ThreadsState} {timing : FireTiming} {cal driverOk : Bool}
    (hi : PidInv s) : PidInv (fireGo cfg s timing cal driverOk) := by
  refine hi.of_eq ?_ ?_ ?_ ?_ <;>
  · simp only [fireGo, injectSolenoidFire, injectSolenoidOff]
    split_ifs <;> rfl

theorem fireGo_firePc (cfg : Config) (s : ThreadsState) (timing : FireTiming)
    (cal driverOk : Bool) : FireInv (fireGo cfg s timing cal driverOk) := by
  simp only [fireGo]
  split_ifs <;> exact ⟨nofun, nofun⟩

/-- One clean step keeps the invariant and the promise. -/
theorem inv_step {cfg : Config} (ha : cfg.autotuneDutyEnabled = false) {s t : ThreadsState}
    {e : Event} (hi : Inv s) (hc : StepClean s e) (h : step cfg s e = some t) :
    Inv t ∧ StepSafe s e t := by
  obtain ⟨hp, hf⟩ := hi
  cases e with
  | setConsensus | setSetpoint | setPressure | allOff =>
    simp only [step, Option.some.injEq] at h
    subst h
    exact ⟨⟨hp.of_eq rfl rfl rfl rfl, hf.of_eq rfl rfl⟩, nofun, nofun⟩
  | tick consensusOk setpointOk =>
    simp only [step] at h
    split at h
    case h_2 => cases h
    next hidle =>
    obtain rfl := Option.some.inj h
    obtain ⟨hpc, hru⟩ := pidTick_fire cfg s consensusOk setpointOk
    refine ⟨⟨inv_tick ha hp hidle hc, hf.of_eq hpc hru⟩, fun hend => ?_, nofun⟩
    obtain ⟨htf, hl⟩ := Bool.and_eq_true_iff.mp hend
    rw [pidTick_latched htf hl]
    exact hc.1 htf hl
  | publish pubOk =>
    simp only [step] at h
    split at h
    case h_2 => cases h
    next duty kind hpub =>
    obtain rfl := Option.some.inj h
    obtain ⟨hpc, hru⟩ := publishDuty_fire s duty kind pubOk
    exact ⟨⟨inv_publish hp hpub hc, hf.of_eq hpc hru⟩, nofun, nofun⟩
  | tickOff =>
    simp only [step] at h
    split at h
    case h_2 => cases h
    next hoff =>
    obtain rfl := Option.some.inj h
    exact ⟨⟨⟨fun _ => hp.turningOff hoff, nofun, nofun, fun _ _ => rfl, nofun⟩,
      hf.of_eq rfl rfl⟩, fun _ => rfl, nofun⟩
  | readDuty readOk =>
    simp only [step] at h
    split at h
    case h_2 => cases h
    obtain rfl := Option.some.inj h
    refine ⟨⟨hp.of_eq rfl rfl rfl rfl, ?_, nofun⟩, nofun, nofun⟩
    rintro duty ⟨⟩ hk
    cases readOk with
    | true => exact hp.held hk
    | false => exact minimumDutyCycle_pos
  | compose readOk =>
    simp only [step] at h
    split at h
    case h_2 => cases h
    next duty hgot =>
    obtain rfl := Option.some.inj h
    refine ⟨⟨hp.of_eq rfl rfl rfl rfl, nofun, ?_⟩, nofun, nofun⟩
    rintro timing ⟨⟩ hk
    exact shouldFire_of_lt (hf.gotDuty duty hgot hk) _ _
  | go calibrationIsRunning driverOk =>
    simp only [step] at h
    split at h
    case h_2 => cases h
    next timing hcomp =>
    obtain rfl := Option.some.inj h
    refine ⟨⟨fireGo_pid hp, fireGo_firePc cfg s timing _ _⟩, nofun, fun hfire => ?_⟩
    cases calibrationIsRunning with
    | true => cases hfire
    | false =>
      simp only [fires, hcomp] at hfire
      by_contra hk
      rw [hf.composed timing hcomp (by simpa using hk)] at hfire
      cases hfire
  | pulseEnd | cycleEnd =>
    simp only [step] at h
    split at h
    case h_2 => cases h
    obtain rfl := Option.some.inj h
    exact ⟨⟨hp.of_eq rfl rfl rfl rfl, nofun, nofun⟩, nofun, nofun⟩

/-! ## Runs -/

/-- A head with one inject solenoid and no depth compensation. -/
def plainConfig : Config := ⟨false, false, false, 0⟩

/-- Consensus 0.50 bar under the 0.70 bar setpoint: a duty of 0.2 is published. -/
def demand : List Event := [.setConsensus ⟨50, 50 / 100⟩, .tick true true, .publish true]

def fireOnce : List Event := [.readDuty true, .compose true, .go false true]

/-- The cells fail, and the one zero publication of the edge times out. -/
def droppedZero : List Event :=
  demand ++ [.tick false true, .publish false, .tickOff] ++ fireOnce

/-- A cycle that read its duty before the cells failed is still on at the end of
the second failing tick. -/
def secondFailingTick : List Event :=
  demand ++ [.readDuty true, .tick false true, .publish true, .tickOff, .compose true,
    .go false true, .tick false true]

/-- PPO2 0.65 bar above a 0.50 bar setpoint whose read times out to 0.70 bar. -/
def defaultedSetpoint : List Event :=
  [.setConsensus ⟨65, 65 / 100⟩, .setSetpoint 50, .tick true false, .publish true] ++ fireOnce

/-- The cells recover after a clean failure and the fire thread resumes. -/
def failAndRecover : List Event :=
  demand ++ fireOnce ++ [.pulseEnd, .cycleEnd, .tick false true, .publish true, .tickOff] ++
    fireOnce ++ [.cycleEnd] ++ demand ++ fireOnce

end DiveCANHead.Control
