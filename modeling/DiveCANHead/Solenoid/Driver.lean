import Mathlib.Logic.Function.Basic
import Mathlib.Algebra.Order.Ring.Nat
import Mathlib.Tactic.Common

/-!
# The solenoid driver (`drivers/solenoid/solenoid.c`)

Every channel is a GPIO pin; one counter, driven by its overflow, is the deadman
of all of them. A driver call that fails has no effect. The calls are total
functions of the results the counter and the GPIO driver give, and an overflow
comes at its programmed time.

Time is counted in units of `1 / freq` microseconds: a microsecond is `freq`
units and a counter tick is `usPerSec` units.
-/

namespace DiveCANHead.Solenoid

def usPerSec : ℕ := 1000000

/-- `struct solenoid_config`, with the counter's frequency in Hz. -/
structure Config where
  numChannels : ℕ
  maxOnTimeUs : ℕ
  freq : ℕ
  deriving DecidableEq, Repr

/-- A counter with its top value; it read 0 at `zeroAt`. -/
structure Counter where
  running : Bool
  top : ℕ
  zeroAt : ℕ
  deriving DecidableEq, Repr

inductive Status where
  | ok
  | einval
  | counterError
  | gpioError
  deriving DecidableEq, Repr

/-- What the counter driver returns to `arm_timer`. -/
structure CounterResults where
  stopOk : Bool
  setTopOk : Bool
  startOk : Bool
  deriving DecidableEq, Repr

/-- The pins and the counter, with the time and, as bookkeeping, the time of
each channel's latest successful fire. -/
structure Driver (cfg : Config) where
  pins : Fin cfg.numChannels → Bool
  counter : Counter
  now : ℕ
  lastFire : Fin cfg.numChannels → ℕ

/-- All pins low and the counter stopped. -/
def Driver.init (cfg : Config) : Driver cfg :=
  ⟨fun _ => false, ⟨false, 0, 0⟩, 0, fun _ => 0⟩

/-! ## The counter -/

/-- Truncating, and saturated at `UINT32_MAX`. -/
def counterUsToTicks (cfg : Config) (us : ℕ) : ℕ := min (us * cfg.freq / usPerSec) (2 ^ 32 - 1)

def counterStop (ok : Bool) (c : Counter) : Counter :=
  if ok then { c with running := false } else c

/-- Reprograms the overflow and resets the count. -/
def counterSetTopValue (ok : Bool) (ticks now : ℕ) (c : Counter) : Counter :=
  if ok then { c with top := ticks, zeroAt := now } else c

def counterStart (ok : Bool) (c : Counter) : Counter :=
  if ok then { c with running := true } else c

variable {cfg : Config}

/-- When the counter overflows next. -/
def Driver.alarm (s : Driver cfg) : Option ℕ :=
  if s.counter.running then some (s.counter.zeroAt + s.counter.top * usPerSec) else none

/-! ## The driver's calls -/

def clampUs (cfg : Config) (durationUs : ℕ) : ℕ :=
  if durationUs > cfg.maxOnTimeUs then cfg.maxOnTimeUs else durationUs

def armTimer (s : Driver cfg) (durationUs : ℕ) (r : CounterResults) : Bool × Driver cfg :=
  let ticks := counterUsToTicks cfg (clampUs cfg durationUs)
  -- the stop's result is ignored
  let stopped := counterStop r.stopOk s.counter
  let programmed := counterSetTopValue r.setTopOk ticks s.now stopped
  if r.setTopOk then (r.startOk, { s with counter := counterStart r.startOk programmed })
  else (false, { s with counter := programmed })

def solenoidOff (s : Driver cfg) (channel : ℕ) (gpioOk : Bool) : Driver cfg :=
  if h : channel < cfg.numChannels then
    if gpioOk then { s with pins := Function.update s.pins ⟨channel, h⟩ false } else s
  else s

def solenoidFire (s : Driver cfg) (channel durationUs : ℕ) (r : CounterResults) (gpioOk : Bool) :
    Status × Driver cfg :=
  if h : channel < cfg.numChannels then
    if durationUs = 0 then (.ok, solenoidOff s channel gpioOk)
    else
      let (armed, s) := armTimer s durationUs r
      if armed then
        if gpioOk then
          (.ok, { s with
            pins := Function.update s.pins ⟨channel, h⟩ true
            lastFire := Function.update s.lastFire ⟨channel, h⟩ s.now })
        else (.gpioError, s)
      else (.counterError, s)
  else (.einval, s)

/-- The GPIO writes of the loops that drive every channel off. -/
def pinsOff (pins gpioOk : Fin cfg.numChannels → Bool) : Fin cfg.numChannels → Bool :=
  fun i => pins i && !gpioOk i

def solenoidAllOff (s : Driver cfg) (stopOk : Bool) (gpioOk : Fin cfg.numChannels → Bool) :
    Driver cfg :=
  { s with counter := counterStop stopOk s.counter, pins := pinsOff s.pins gpioOk }

/-- The overflow interrupt. A counter that does not stop starts its next period. -/
def deadmanTopCb (s : Driver cfg) (stopOk : Bool) (gpioOk : Fin cfg.numChannels → Bool) :
    Driver cfg :=
  { s with
    counter := counterStop stopOk { s.counter with zeroAt := s.now }
    pins := pinsOff s.pins gpioOk }

/-! ## Steps -/

inductive Event (cfg : Config) where
  | fire (channel durationUs : ℕ) (r : CounterResults) (gpioOk : Bool)
  | off (channel : ℕ) (gpioOk : Bool)
  | allOff (stopOk : Bool) (gpioOk : Fin cfg.numChannels → Bool)
  | expire (stopOk : Bool) (gpioOk : Fin cfg.numChannels → Bool)
  | wait (dt : ℕ)

/-- An overflow is taken at its programmed time, and time does not pass it. -/
def step (s : Driver cfg) : Event cfg → Option (Driver cfg)
  | .fire channel durationUs r gpioOk => some (solenoidFire s channel durationUs r gpioOk).2
  | .off channel gpioOk => some (solenoidOff s channel gpioOk)
  | .allOff stopOk gpioOk => some (solenoidAllOff s stopOk gpioOk)
  | .expire stopOk gpioOk =>
    if s.alarm = some s.now then some (deadmanTopCb s stopOk gpioOk) else none
  | .wait dt =>
    if s.alarm.all (s.now + dt ≤ ·) then some { s with now := s.now + dt } else none

/-! ## The alarm after each call -/

theorem counterUsToTicks_le (cfg : Config) (us : ℕ) :
    counterUsToTicks cfg us * usPerSec ≤ us * cfg.freq := by
  have hmin := Nat.min_le_left (us * cfg.freq / usPerSec) (2 ^ 32 - 1)
  exact (Nat.mul_le_mul_right _ hmin).trans (Nat.div_mul_le_self _ _)

/-- The deadman is never programmed past the maximum on-time. -/
theorem armed_ticks_le (cfg : Config) (durationUs : ℕ) :
    counterUsToTicks cfg (clampUs cfg durationUs) * usPerSec ≤ cfg.maxOnTimeUs * cfg.freq := by
  have hclamp : clampUs cfg durationUs ≤ cfg.maxOnTimeUs := by
    unfold clampUs
    split_ifs with h
    · exact le_rfl
    · exact not_lt.mp h
  exact Nat.le_trans (counterUsToTicks_le cfg _) (Nat.mul_le_mul_right _ hclamp)

@[simp] theorem armTimer_pins (s : Driver cfg) (durationUs : ℕ) (r : CounterResults) :
    (armTimer s durationUs r).2.pins = s.pins := by
  unfold armTimer
  split_ifs <;> rfl

@[simp] theorem armTimer_now (s : Driver cfg) (durationUs : ℕ) (r : CounterResults) :
    (armTimer s durationUs r).2.now = s.now := by
  unfold armTimer
  split_ifs <;> rfl

@[simp] theorem armTimer_lastFire (s : Driver cfg) (durationUs : ℕ) (r : CounterResults) :
    (armTimer s durationUs r).2.lastFire = s.lastFire := by
  unfold armTimer
  split_ifs <;> rfl

/-- When a fire of this duration has the deadman go off. -/
def armedUntil (s : Driver cfg) (durationUs : ℕ) : ℕ :=
  s.now + counterUsToTicks cfg (clampUs cfg durationUs) * usPerSec

/-- What `arm_timer` can do to the alarm: set it, leave it as it was, or leave
the counter stopped. -/
theorem armTimer_cases (s : Driver cfg) (durationUs : ℕ) (r : CounterResults) :
    (r.setTopOk = true ∧ (r.startOk = true ∨ (r.stopOk = false ∧ s.counter.running = true)) ∧
      (armTimer s durationUs r).1 = r.startOk ∧
      (armTimer s durationUs r).2.alarm = some (armedUntil s durationUs)) ∨
    (r.setTopOk = false ∧ r.stopOk = false ∧ (armTimer s durationUs r).1 = false ∧
      (armTimer s durationUs r).2.alarm = s.alarm) ∨
    ((r.setTopOk = false ∧ r.stopOk = true ∨ r.setTopOk = true ∧ r.startOk = false ∧
        (r.stopOk = true ∨ s.counter.running = false)) ∧
      (armTimer s durationUs r).1 = false ∧ (armTimer s durationUs r).2.alarm = none) := by
  obtain ⟨stopOk, setTopOk, startOk⟩ := r
  cases hrun : s.counter.running <;> cases stopOk <;> cases setTopOk <;> cases startOk <;>
    simp [armTimer, counterStop, counterSetTopValue, counterStart, Driver.alarm, armedUntil, hrun]

end DiveCANHead.Solenoid
