import Mathlib.Algebra.Order.Field.Rat
import Mathlib.Tactic.NormNum

/-!
# The PID step (`ppo2_control_math.c`)

Single-precision floats are rationals. `saturation_count` is a `uint16_t` and
wraps.
-/

namespace DiveCANHead.Control

def integralResetOvershootBar : ℚ := 20 / 100

def ppo2CompareEpsilonBar : ℚ := 1 / 100000

/-- `PIDState_t`. -/
structure PIDState where
  derivativeState : ℚ
  integralState : ℚ
  integralMax : ℚ
  integralMin : ℚ
  integralGain : ℚ
  proportionalGain : ℚ
  derivativeGain : ℚ
  saturationCount : UInt16
  deriving DecidableEq, Repr

def pidStateInit (kp ki kd : ℚ) : PIDState where
  derivativeState := 0
  integralState := 0
  integralMax := 1
  integralMin := 0
  integralGain := ki
  proportionalGain := kp
  derivativeGain := kd
  saturationCount := 0

def pidStateResetDynamic (state : PIDState) : PIDState :=
  { state with derivativeState := 0, integralState := 0, saturationCount := 0 }

/-- The integral term after this error, and whether it was hard reset. -/
def integrate (error : ℚ) (state : PIDState) : ℚ × Bool :=
  if error ≤ -(integralResetOvershootBar - ppo2CompareEpsilonBar) then (0, true)
  else (state.integralState + state.integralGain * error, false)

/-- The integral clamped to its bounds, and the saturation count it leaves. -/
def clampIntegral (integral : ℚ) (state : PIDState) : ℚ × UInt16 :=
  if integral > state.integralMax then (state.integralMax, state.saturationCount + 1)
  else if integral < state.integralMin then (state.integralMin, state.saturationCount + 1)
  else (integral, 0)

def pidUpdate (dSetpoint measurement : ℚ) (state : PIDState) : ℚ × PIDState :=
  let error := dSetpoint - measurement
  let pTerm := state.proportionalGain * error
  let (integral, hardReset) := integrate error state
  let (iTerm, count) := clampIntegral integral state
  let dTerm := state.derivativeGain * (state.derivativeState - measurement)
  let result := pTerm + dTerm + iTerm
  let drivesHighSaturation := decide (result > 1) && decide (error > 0)
  let drivesLowSaturation := decide (result < 0) && decide (error < 0)
  if !hardReset && (drivesHighSaturation || drivesLowSaturation) then
    -- conditional integration: discard only this update
    (pTerm + dTerm + state.integralState,
      { state with derivativeState := measurement, saturationCount := count + 1 })
  else
    (result, { state with
      derivativeState := measurement, integralState := iTerm, saturationCount := count })

/-- A step leaves the gains and the integral's bounds alone. -/
theorem pidUpdate_gains (sp m : ℚ) (state : PIDState) :
    let after := (pidUpdate sp m state).2
    after.proportionalGain = state.proportionalGain ∧ after.integralGain = state.integralGain ∧
      after.derivativeGain = state.derivativeGain ∧ after.integralMin = state.integralMin ∧
      after.integralMax = state.integralMax := by
  simp only [pidUpdate]
  split_ifs <;> exact ⟨rfl, rfl, rfl, rfl, rfl⟩

/-- A step keeps the integral inside its bounds. -/
theorem pidUpdate_integral_mem (sp m : ℚ) {state : PIDState}
    (hb : state.integralMin ≤ state.integralMax)
    (h : state.integralState ∈ Set.Icc state.integralMin state.integralMax) :
    (pidUpdate sp m state).2.integralState ∈ Set.Icc state.integralMin state.integralMax := by
  have hclamp : ∀ x, (clampIntegral x state).1 ∈ Set.Icc state.integralMin state.integralMax := by
    intro x
    simp only [clampIntegral]
    split_ifs with hhi hlo
    · exact ⟨hb, le_rfl⟩
    · exact ⟨le_rfl, hb⟩
    · exact ⟨not_lt.mp hlo, not_lt.mp hhi⟩
  simp only [pidUpdate]
  split_ifs
  · exact h
  · exact hclamp _

end DiveCANHead.Control
