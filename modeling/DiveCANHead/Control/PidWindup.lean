import DiveCANHead.Control.PidMath
import DiveCANHead.Lib.Runs

/-!
# Anti-windup over whole runs (`ppo2_control_math.c`)

The integral stays in [0, 1] in every run of the controller. The saturation count is another
matter: a call that clamps the integral and is then discarded counts twice, and one that is
discarded without a clamp starts the count anew.
-/

namespace DiveCANHead.Control

open DiveCANHead.Lib

/-- One call of `pid_update`. -/
structure PidCall where
  dSetpoint : ℚ
  measurement : ℚ
  deriving DecidableEq

namespace PidCall

def error (c : PidCall) : ℚ := c.dSetpoint - c.measurement

/-- The output before an update is discarded. -/
def tentative (c : PidCall) (state : PIDState) : ℚ :=
  state.proportionalGain * c.error +
    state.derivativeGain * (state.derivativeState - c.measurement) +
      (clampIntegral (integrate c.error state).1 state).1

/-- The integral is set to zero. -/
def HardReset (c : PidCall) : Prop :=
  c.error ≤ -(integralResetOvershootBar - ppo2CompareEpsilonBar)

/-- The integral leaves its bounds. -/
def Clamped (c : PidCall) (state : PIDState) : Prop :=
  (integrate c.error state).1 > state.integralMax ∨ (integrate c.error state).1 < state.integralMin

/-- The update of the integral is undone. -/
def Discarded (c : PidCall) (state : PIDState) : Prop :=
  ¬c.HardReset ∧
    (c.tentative state > 1 ∧ c.error > 0 ∨ c.tentative state < 0 ∧ c.error < 0)

instance decidableClamped (c : PidCall) (state : PIDState) : Decidable (c.Clamped state) :=
  inferInstanceAs (Decidable (_ ∨ _))

instance decidableHardReset (c : PidCall) : Decidable c.HardReset :=
  inferInstanceAs (Decidable (_ ≤ _))

instance decidableDiscarded (c : PidCall) (state : PIDState) : Decidable (c.Discarded state) :=
  inferInstanceAs (Decidable (_ ∧ _))

end PidCall

/-- The controller's state, and for the statements only how many of its last calls in a row were
clamped or discarded. -/
structure PidRun where
  state : PIDState
  streak : ℕ
  deriving DecidableEq

def pidRunStep (r : PidRun) (c : PidCall) : Option PidRun :=
  some {
    state := (pidUpdate c.dSetpoint c.measurement r.state).2
    streak := if c.Clamped r.state ∨ c.Discarded r.state then r.streak + 1 else 0 }

/-- What a call may do to the integral, and the count it leaves. -/
structure AntiWindup (r : PidRun) (c : PidCall) (t : PidRun) : Prop where
  inBounds : 0 ≤ t.state.integralState ∧ t.state.integralState ≤ 1
  high : c.tentative r.state > 1 → c.error > 0 → t.state.integralState ≤ r.state.integralState
  low : c.tentative r.state < 0 → c.error < 0 → ¬c.HardReset →
    r.state.integralState ≤ t.state.integralState
  reset : c.HardReset → t.state.integralState = 0
  count : t.state.saturationCount.toNat = t.streak

/-- No call is both clamped and discarded, one that is only discarded finds the count at zero, and
one that is only clamped does not find it at its maximum. -/
structure CountsOnce (r : PidRun) (c : PidCall) : Prop where
  clamped : c.Clamped r.state →
    ¬c.Discarded r.state ∧ r.state.saturationCount.toNat < 65535
  discarded : c.Discarded r.state → r.state.saturationCount = 0

instance decidableCountsOnce (r : PidRun) (c : PidCall) : Decidable (CountsOnce r c) :=
  decidable_of_iff ((_ → _) ∧ (_ → _)) ⟨fun h => ⟨h.1, h.2⟩, fun h => ⟨h.clamped, h.discarded⟩⟩

/-! ## One call -/

variable {c : PidCall} {state : PIDState}

theorem integrate_reset (c : PidCall) (state : PIDState) :
    (integrate c.error state).2 = decide c.HardReset := by
  unfold integrate PidCall.HardReset
  split
  · next h => exact (decide_eq_true h).symm
  · next h => exact (decide_eq_false h).symm

theorem discards (c : PidCall) (state : PIDState) :
    (!(integrate c.error state).2 && (decide (c.tentative state > 1) && decide (c.error > 0) ||
      decide (c.tentative state < 0) && decide (c.error < 0))) = decide (c.Discarded state) := by
  rw [integrate_reset, Bool.eq_iff_iff]
  simp [PidCall.Discarded]

/-- A call that is discarded leaves the integral. -/
theorem pidUpdate_of_discarded (h : c.Discarded state) :
    (pidUpdate c.dSetpoint c.measurement state).2 =
      { state with
        derivativeState := c.measurement
        saturationCount := (clampIntegral (integrate c.error state).1 state).2 + 1 } :=
  congrArg Prod.snd (if_pos ((discards c state).trans (decide_eq_true h)))

theorem pidUpdate_of_not_discarded (h : ¬c.Discarded state) :
    (pidUpdate c.dSetpoint c.measurement state).2 =
      { state with
        derivativeState := c.measurement
        integralState := (clampIntegral (integrate c.error state).1 state).1
        saturationCount := (clampIntegral (integrate c.error state).1 state).2 } :=
  congrArg Prod.snd (if_neg
    (Bool.eq_false_iff.mp ((discards c state).trans (decide_eq_false h))))

/-- The count that clamping leaves. -/
theorem clampIntegral_count (c : PidCall) (state : PIDState) :
    (clampIntegral (integrate c.error state).1 state).2 =
      if c.Clamped state then state.saturationCount + 1 else 0 := by
  unfold clampIntegral
  by_cases hhigh : (integrate c.error state).1 > state.integralMax
  · have hclamped : c.Clamped state := .inl hhigh
    rw [if_pos hhigh, if_pos hclamped]
  · by_cases hlow : (integrate c.error state).1 < state.integralMin
    · have hclamped : c.Clamped state := .inr hlow
      rw [if_neg hhigh, if_pos hlow, if_pos hclamped]
    · have hinside : ¬c.Clamped state := not_or.mpr ⟨hhigh, hlow⟩
      rw [if_neg hhigh, if_neg hlow, if_neg hinside]

theorem PidCall.HardReset.not_pos (h : c.HardReset) : ¬c.error > 0 := by
  have hreset : (-(integralResetOvershootBar - ppo2CompareEpsilonBar) : ℚ) < 0 := by
    norm_num [integralResetOvershootBar, ppo2CompareEpsilonBar]
  exact not_lt.mpr (h.trans hreset.le)

theorem PidCall.HardReset.integral (h : c.HardReset) (hmin : state.integralMin = 0)
    (hmax : state.integralMax = 1) : (clampIntegral (integrate c.error state).1 state).1 = 0 := by
  have hzero : (integrate c.error state).1 = 0 := by
    have hover : c.error ≤ -(integralResetOvershootBar - ppo2CompareEpsilonBar) := h
    unfold integrate
    rw [if_pos hover]
  unfold clampIntegral
  rw [hzero, hmin, hmax, if_neg (by norm_num), if_neg (by norm_num)]

/-! ## A run -/

/-- The bounds of the integral, and the count. -/
structure WindupInv (r : PidRun) : Prop where
  integralMin : r.state.integralMin = 0
  integralMax : r.state.integralMax = 1
  integral : 0 ≤ r.state.integralState ∧ r.state.integralState ≤ 1
  count : r.state.saturationCount.toNat = r.streak

/-- The integral behaves in every call. -/
theorem WindupInv.integral_step {r : PidRun} (hi : WindupInv r) (c : PidCall) :
    let t := (pidUpdate c.dSetpoint c.measurement r.state).2
    (0 ≤ t.integralState ∧ t.integralState ≤ 1) ∧
      (c.tentative r.state > 1 → c.error > 0 → t.integralState ≤ r.state.integralState) ∧
      (c.tentative r.state < 0 → c.error < 0 → ¬c.HardReset →
        r.state.integralState ≤ t.integralState) ∧ (c.HardReset → t.integralState = 0) := by
  have hbounds : r.state.integralMin ≤ r.state.integralMax := by
    rw [hi.integralMin, hi.integralMax]
    exact zero_le_one
  have hmem := pidUpdate_integral_mem c.dSetpoint c.measurement hbounds
    (by rw [hi.integralMin, hi.integralMax]; exact hi.integral)
  rw [hi.integralMin, hi.integralMax] at hmem
  refine ⟨hmem, fun hhigh herror => ?_, fun hlow herror hreset => ?_, fun hreset => ?_⟩
  · have hdiscarded : c.Discarded r.state :=
      ⟨fun hreset => hreset.not_pos herror, .inl ⟨hhigh, herror⟩⟩
    rw [pidUpdate_of_discarded hdiscarded]
  · rw [pidUpdate_of_discarded ⟨hreset, .inr ⟨hlow, herror⟩⟩]
  · rw [pidUpdate_of_not_discarded fun h => h.1 hreset]
    exact hreset.integral hi.integralMin hi.integralMax

/-- The count is the streak exactly where the call counts once. -/
theorem WindupInv.count_iff {r : PidRun} (hi : WindupInv r) (c : PidCall) :
    ((pidUpdate c.dSetpoint c.measurement r.state).2.saturationCount.toNat =
        if c.Clamped r.state ∨ c.Discarded r.state then r.streak + 1 else 0) ↔
      CountsOnce r c := by
  have hcount := hi.count
  have hlt := r.state.saturationCount.toNat_lt
  by_cases hdiscarded : c.Discarded r.state
  · rw [pidUpdate_of_discarded hdiscarded, if_pos (.inr hdiscarded)]
    dsimp only
    rw [clampIntegral_count]
    by_cases hclamped : c.Clamped r.state
    · rw [if_pos hclamped, UInt16.toNat_add, UInt16.toNat_add]
      refine iff_of_false ?_ fun h => (h.clamped hclamped).1 hdiscarded
      have hone : (1 : UInt16).toNat = 1 := rfl
      omega
    · rw [if_neg hclamped]
      have hone : ((0 : UInt16) + 1).toNat = 1 := rfl
      rw [hone]
      refine ⟨fun h => ⟨fun hc => absurd hc hclamped, fun _ => ?_⟩, fun h => ?_⟩
      · exact UInt16.toNat_inj.mp (by rw [hcount]; exact (Nat.succ.inj h).symm)
      · have hzero := congrArg UInt16.toNat (h.discarded hdiscarded)
        rw [hcount] at hzero
        rw [hzero]
        rfl
  · rw [pidUpdate_of_not_discarded hdiscarded]
    dsimp only
    rw [clampIntegral_count]
    by_cases hclamped : c.Clamped r.state
    · rw [if_pos hclamped, if_pos (.inl hclamped), UInt16.toNat_add]
      have hone : (1 : UInt16).toNat = 1 := rfl
      refine ⟨fun h => ⟨fun _ => ⟨hdiscarded, by omega⟩, fun hd => absurd hd hdiscarded⟩,
        fun h => ?_⟩
      have := (h.clamped hclamped).2
      omega
    · rw [if_neg hclamped, if_neg (not_or.mpr ⟨hclamped, hdiscarded⟩)]
      exact iff_of_true rfl ⟨fun hc => absurd hc hclamped, fun hd => absurd hd hdiscarded⟩

/-- From a reset state the integral is never wound up, and the count is that of the calls in a row
that were clamped or discarded exactly if each of them counts once. -/
theorem antiWindup_iff (s : PIDState) (hmin : s.integralMin = 0) (hmax : s.integralMax = 1)
    (calls : List PidCall) :
    Steps pidRunStep AntiWindup ⟨pidStateResetDynamic s, 0⟩ calls ↔
      Steps pidRunStep (fun r c _ => CountsOnce r c) ⟨pidStateResetDynamic s, 0⟩ calls := by
  have hkeep : ∀ {r c t}, WindupInv r → pidRunStep r c = some t →
      (AntiWindup r c t ↔ CountsOnce r c) ∧ (CountsOnce r c → WindupInv t) := by
    intro r c t hi hstep
    obtain rfl := Option.some.inj hstep
    obtain ⟨hbounds, hhigh, hlow, hreset⟩ := hi.integral_step c
    have hiff := hi.count_iff c
    obtain ⟨-, -, -, hmin', hmax'⟩ := pidUpdate_gains c.dSetpoint c.measurement r.state
    refine ⟨⟨fun h => hiff.mp h.count, fun h => ⟨hbounds, hhigh, hlow, hreset, hiff.mpr h⟩⟩,
      fun h => ?_⟩
    exact ⟨hmin'.trans hi.integralMin, hmax'.trans hi.integralMax, hbounds, hiff.mpr h⟩
  exact Steps.iff_of_inv hkeep ⟨hmin, hmax, ⟨le_refl 0, zero_le_one⟩, rfl⟩

/-- Two calls on the way to the setpoint. -/
def nearSetpoint : List PidCall := [⟨7 / 10, 5 / 10⟩, ⟨7 / 10, 6 / 10⟩]

theorem antiWindup_nearSetpoint :
    Steps pidRunStep AntiWindup ⟨pidStateResetDynamic (pidStateInit 1 (1 / 10) 0), 0⟩
      nearSetpoint :=
  (antiWindup_iff (pidStateInit 1 (1 / 10) 0) rfl rfl nearSetpoint).mpr (by decide +kernel)

/-- A setpoint far above the measurement. -/
def farBelow : PidCall := ⟨13 / 10, 3 / 10⟩

/-- Two calls in a row are discarded, and the count is one. -/
theorem farBelow_countedOnce :
    ¬Steps pidRunStep AntiWindup ⟨pidStateInit 2 0 0, 0⟩ [farBelow, farBelow] := by
  intro h
  have hcount : Steps pidRunStep (fun _ _ t => t.state.saturationCount.toNat = t.streak)
      ⟨pidStateInit 2 0 0, 0⟩ [farBelow, farBelow] := h.mono fun hstep => hstep.count
  exact absurd hcount (by decide +kernel)

end DiveCANHead.Control
