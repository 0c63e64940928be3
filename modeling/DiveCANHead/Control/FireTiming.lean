import DiveCANHead.Lib.Rounding
import Mathlib.Tactic.FieldSimp

/-!
# Solenoid fire timing (`ppo2_control_math.c`)

`pidComputeFireTiming` composes one fire cycle from a duty, the ambient
pressure and the cycle's bounds. Floats are rationals, `lroundf` is `roundAway`
and the conversion to `uint32_t` is `toWord 32`.

A `FireCycle` is a cycle whose bounds are those the controller promises. For
such a cycle `timingOk_iff` says exactly when the timing keeps its bounds: the
compensation divides by the pressure and clamps only from below, so above the
surface (`pressure < 1000`) the on slice can pass the maximum and the off slice
can become negative before its conversion.
-/

namespace DiveCANHead.Control

open DiveCANHead.Lib

/-! ## The code -/

def usPerMs : ℕ := 1000

/-- Millibar reference of the depth compensation (1 bar at the surface). -/
def mbarPerBar : ℚ := 1000

def fullDuty : ℚ := 1

/-- `FireTiming_t`: what the fire thread does in one cycle. -/
structure FireTiming where
  shouldFire : Bool
  depthCompSkipped : Bool
  onDurationUs : ℕ
  offDurationUs : ℕ
  deriving DecidableEq, Repr

def pidDepthCompCoeff (pressureMbar : UInt16) : ℚ :=
  if 0 < pressureMbar then (pressureMbar.toNat : ℚ) / mbarPerBar else fullDuty

/-- The compensated duty, and whether compensation was skipped. -/
def applyDepthCompensation (duty : ℚ) (pressureMbar : UInt16) (minDuty : ℚ) : ℚ × Bool :=
  if pressureMbar = 0 then (duty, true)
  else
    let result := duty / pidDepthCompCoeff pressureMbar
    -- the source clamps to the hardware minimum only
    (if result < minDuty then minDuty else result, false)

/-- The `long` that `lroundf` returns for a slice of the cycle. -/
def sliceLong (cycleMs : ℕ) (dutyFraction : ℚ) : ℤ :=
  roundAway ((cycleMs : ℚ) * (usPerMs : ℚ) * dutyFraction)

def dutyToMicroseconds (cycleMs : ℕ) (dutyFraction : ℚ) : ℕ :=
  toWord 32 (sliceLong cycleMs dutyFraction)

/-- The duty clamped to `[0, max]`, in the source's order. -/
def clampDuty (duty : ℚ) (totalCycleMs maxFireMs : ℕ) : ℚ :=
  let maximumDutyCycle := (maxFireMs : ℚ) / totalCycleMs
  let dutyCycle := if duty > maximumDutyCycle then maximumDutyCycle else duty
  if dutyCycle < 0 then 0 else dutyCycle

/-- The duty a firing cycle uses, and whether compensation was skipped. -/
def fireDuty (duty : ℚ) (pressureMbar : UInt16) (depthCompEnabled : Bool)
    (totalCycleMs minFireMs maxFireMs : ℕ) : ℚ × Bool :=
  let dutyCycle := clampDuty duty totalCycleMs maxFireMs
  if depthCompEnabled then
    applyDepthCompensation dutyCycle pressureMbar ((minFireMs : ℚ) / totalCycleMs)
  else (dutyCycle, false)

def pidComputeFireTiming (duty : ℚ) (pressureMbar : UInt16) (depthCompEnabled : Bool)
    (totalCycleMs minFireMs maxFireMs : ℕ) : FireTiming :=
  let minimumDutyCycle := (minFireMs : ℚ) / totalCycleMs
  if minimumDutyCycle ≤ clampDuty duty totalCycleMs maxFireMs then
    let d := fireDuty duty pressureMbar depthCompEnabled totalCycleMs minFireMs maxFireMs
    { shouldFire := true
      depthCompSkipped := d.2
      onDurationUs := dutyToMicroseconds totalCycleMs d.1
      offDurationUs := dutyToMicroseconds totalCycleMs (fullDuty - d.1) }
  else
    { shouldFire := false
      depthCompSkipped := false
      onDurationUs := 0
      offDurationUs := toWord 32 (totalCycleMs * usPerMs) }

/-! ## Fire cycles -/

/-- A cycle the controller may ask for. -/
structure FireCycle where
  totalMs : ℕ
  minMs : ℕ
  maxMs : ℕ
  min_pos : 0 < minMs
  min_le_max : minMs ≤ maxMs
  max_lt_total : maxMs < totalMs
  total_lt : totalMs * 1000 < 2 ^ 31

namespace FireCycle

variable (c : FireCycle)

/-- The timing of one cycle. -/
def timing (duty : ℚ) (p : UInt16) (comp : Bool) : FireTiming :=
  pidComputeFireTiming duty p comp c.totalMs c.minMs c.maxMs

/-- The exact on slice of a firing cycle, in microseconds. -/
def onSlice (duty : ℚ) (p : UInt16) (comp : Bool) : ℚ :=
  (c.totalMs : ℚ) * usPerMs * (fireDuty duty p comp c.totalMs c.minMs c.maxMs).1

/-- The off slice as `lroundf` returns it, before the conversion to `uint32_t`. -/
def offLong (duty : ℚ) (p : UInt16) (comp : Bool) : ℤ :=
  sliceLong c.totalMs (fullDuty - (fireDuty duty p comp c.totalMs c.minMs c.maxMs).1)

/-- The timing keeps its bounds at this input: a firing cycle is between the
two bounds and its slices make up the cycle, with an off slice that is not a
wrapped negative; a quiet cycle is all off; and no smaller duty is on longer. -/
structure TimingOk (duty : ℚ) (p : UInt16) (comp : Bool) : Prop where
  bounds : (c.timing duty p comp).shouldFire = true →
    c.minMs * 1000 ≤ (c.timing duty p comp).onDurationUs ∧
      (c.timing duty p comp).onDurationUs ≤ c.maxMs * 1000
  whole : (c.timing duty p comp).shouldFire = true →
    |((c.timing duty p comp).onDurationUs : ℤ) + (c.timing duty p comp).offDurationUs
      - c.totalMs * 1000| ≤ 1
  notWrapped : (c.timing duty p comp).shouldFire = true → 0 ≤ c.offLong duty p comp
  quiet : (c.timing duty p comp).shouldFire = false →
    (c.timing duty p comp).onDurationUs = 0 ∧
      (c.timing duty p comp).offDurationUs = c.totalMs * 1000
  mono : ∀ d ≤ duty, (c.timing d p comp).onDurationUs ≤ (c.timing duty p comp).onDurationUs

/-- The input does not reach the missing upper clamp: no compensation is
applied, the cycle is quiet, or the compensated on-time rounds to at most the
maximum. -/
def InRange (duty : ℚ) (p : UInt16) (comp : Bool) : Prop :=
  comp = false ∨ p = 0 ∨ duty < (c.minMs : ℚ) / c.totalMs ∨
    min duty ((c.maxMs : ℚ) / c.totalMs) * (c.totalMs * 1000) * (1000 / p.toNat) <
      c.maxMs * 1000 + 1 / 2

/-! ## Clamping and compensation -/

theorem total_pos : 0 < c.totalMs := lt_of_le_of_lt (Nat.zero_le _) c.max_lt_total

theorem total_posQ : (0 : ℚ) < c.totalMs := by exact_mod_cast c.total_pos

theorem minDuty_pos : (0 : ℚ) < (c.minMs : ℚ) / c.totalMs :=
  div_pos (by exact_mod_cast c.min_pos) c.total_posQ

theorem minDuty_le_maxDuty : (c.minMs : ℚ) / c.totalMs ≤ (c.maxMs : ℚ) / c.totalMs :=
  div_le_div_of_nonneg_right (by exact_mod_cast c.min_le_max) c.total_posQ.le

theorem clampDuty_eq (duty : ℚ) :
    clampDuty duty c.totalMs c.maxMs = max 0 (min duty ((c.maxMs : ℚ) / c.totalMs)) := by
  simp only [clampDuty, gt_iff_lt]
  rcases lt_or_ge ((c.maxMs : ℚ) / c.totalMs) duty with h | h
  · rw [if_pos h, min_eq_right h.le]
    split_ifs with h0
    · exact (max_eq_left h0.le).symm
    · exact (max_eq_right (not_lt.mp h0)).symm
  · rw [if_neg (not_lt.mpr h), min_eq_left h]
    split_ifs with h0
    · exact (max_eq_left h0.le).symm
    · exact (max_eq_right (not_lt.mp h0)).symm

/-- A cycle fires exactly when the duty reaches the minimum. -/
theorem shouldFire_iff (duty : ℚ) (p : UInt16) (comp : Bool) :
    (c.timing duty p comp).shouldFire = true ↔ (c.minMs : ℚ) / c.totalMs ≤ duty := by
  have hm := c.minDuty_pos
  have hM := c.minDuty_le_maxDuty
  have key : (c.minMs : ℚ) / c.totalMs ≤ clampDuty duty c.totalMs c.maxMs ↔
      (c.minMs : ℚ) / c.totalMs ≤ duty := by
    rw [clampDuty_eq, le_max_iff, le_min_iff]
    exact ⟨fun h => (h.resolve_left (not_le.mpr hm)).1, fun h => .inr ⟨h, hM⟩⟩
  rw [← key]
  simp only [timing, pidComputeFireTiming]
  split_ifs with h <;> simp [h]

/-- The duty of a firing cycle before compensation. -/
theorem clampDuty_of_fire {duty : ℚ} (h : (c.minMs : ℚ) / c.totalMs ≤ duty) :
    clampDuty duty c.totalMs c.maxMs = min duty ((c.maxMs : ℚ) / c.totalMs) := by
  rw [clampDuty_eq]
  exact max_eq_right (c.minDuty_pos.le.trans (le_min h c.minDuty_le_maxDuty))

theorem clampDuty_mono {d duty : ℚ} (h : d ≤ duty) :
    clampDuty d c.totalMs c.maxMs ≤ clampDuty duty c.totalMs c.maxMs := by
  rw [clampDuty_eq, clampDuty_eq]
  exact max_le_max_left _ (min_le_min_right _ h)

theorem pidDepthCompCoeff_pos (p : UInt16) : 0 < pidDepthCompCoeff p := by
  unfold pidDepthCompCoeff
  split_ifs with h
  · exact div_pos (by exact_mod_cast UInt16.lt_iff_toNat_lt.mp h) (by norm_num [mbarPerBar])
  · norm_num [fullDuty]

theorem applyDepthCompensation_mono {d duty : ℚ} (h : d ≤ duty) (p : UInt16) (m : ℚ) :
    (applyDepthCompensation d p m).1 ≤ (applyDepthCompensation duty p m).1 := by
  have hdiv : d / pidDepthCompCoeff p ≤ duty / pidDepthCompCoeff p :=
    div_le_div_of_nonneg_right h (pidDepthCompCoeff_pos p).le
  simp only [applyDepthCompensation]
  split_ifs with h0 h1 h2 h2
  · exact h
  · exact le_rfl
  · exact not_lt.mp h2
  · exact absurd (hdiv.trans_lt h2) h1
  · exact hdiv

theorem onSlice_mono {d duty : ℚ} (h : d ≤ duty) (p : UInt16) (comp : Bool) :
    c.onSlice d p comp ≤ c.onSlice duty p comp := by
  have hf : (fireDuty d p comp c.totalMs c.minMs c.maxMs).1 ≤
      (fireDuty duty p comp c.totalMs c.minMs c.maxMs).1 := by
    simp only [fireDuty]
    split_ifs
    · exact applyDepthCompensation_mono (c.clampDuty_mono h) p _
    · exact c.clampDuty_mono h
  exact mul_le_mul_of_nonneg_left hf (mul_nonneg c.total_posQ.le (by norm_num [usPerMs]))

/-! ## The slices of a firing cycle -/

/-- Without compensation the on slice is the clamped duty's. -/
theorem onSlice_uncompensated {duty : ℚ} {p : UInt16} {comp : Bool}
    (hf : (c.minMs : ℚ) / c.totalMs ≤ duty) (h : comp = false ∨ p = 0) :
    c.onSlice duty p comp = c.totalMs * 1000 * min duty ((c.maxMs : ℚ) / c.totalMs) := by
  have hd : (fireDuty duty p comp c.totalMs c.minMs c.maxMs).1 =
      min duty ((c.maxMs : ℚ) / c.totalMs) := by
    rw [← c.clampDuty_of_fire hf]
    simp only [fireDuty, applyDepthCompensation]
    rcases h with rfl | rfl
    · rfl
    · cases comp <;> rfl
  simp [onSlice, hd, usPerMs]

/-- With compensation the on slice is the scaled one, but at least the minimum. -/
theorem onSlice_compensated {duty : ℚ} {p : UInt16}
    (hf : (c.minMs : ℚ) / c.totalMs ≤ duty) (hp : p ≠ 0) :
    c.onSlice duty p true = max ((c.minMs : ℚ) * 1000)
      (min duty ((c.maxMs : ℚ) / c.totalMs) * (c.totalMs * 1000) * (1000 / p.toNat)) := by
  have hT := c.total_posQ
  have hp0 : 0 < p := UInt16.pos_iff_ne_zero.mpr hp
  have hpQ : (0 : ℚ) < p.toNat := by exact_mod_cast UInt16.lt_iff_toNat_lt.mp hp0
  set r := min duty ((c.maxMs : ℚ) / c.totalMs) / (p.toNat / 1000) with hr
  have hd : (fireDuty duty p true c.totalMs c.minMs c.maxMs).1 =
      max ((c.minMs : ℚ) / c.totalMs) r := by
    simp only [fireDuty, applyDepthCompensation, c.clampDuty_of_fire hf, if_neg hp, if_true,
      pidDepthCompCoeff, if_pos hp0, mbarPerBar, ← hr]
    split_ifs with h
    · exact (max_eq_left h.le).symm
    · exact (max_eq_right (not_lt.mp h)).symm
  have hTu : (0 : ℚ) ≤ (c.totalMs : ℚ) * usPerMs := mul_nonneg hT.le (by norm_num [usPerMs])
  rw [onSlice, hd, mul_max_of_nonneg _ _ hTu]
  congr 1
  · simp only [usPerMs]
    field_simp
    push_cast
    ring
  · rw [hr]
    simp only [usPerMs]
    field_simp
    push_cast
    ring

theorem min_le_onSlice {duty : ℚ} (hf : (c.minMs : ℚ) / c.totalMs ≤ duty) (p : UInt16)
    (comp : Bool) : (c.minMs : ℚ) * 1000 ≤ c.onSlice duty p comp := by
  by_cases h : comp = false ∨ p = 0
  · have hmin := le_min hf c.minDuty_le_maxDuty
    rw [div_le_iff₀ c.total_posQ] at hmin
    rw [c.onSlice_uncompensated hf h]
    linarith
  · obtain ⟨hcomp, hp⟩ := not_or.mp h
    obtain rfl : comp = true := by simpa using hcomp
    rw [c.onSlice_compensated hf hp]
    exact le_max_left _ _

/-- A firing cycle is in range exactly when its on slice rounds to at most the
maximum. -/
theorem onSlice_lt_iff {duty : ℚ} (hf : (c.minMs : ℚ) / c.totalMs ≤ duty) (p : UInt16)
    (comp : Bool) :
    c.onSlice duty p comp < c.maxMs * 1000 + 1 / 2 ↔ c.InRange duty p comp := by
  by_cases h : comp = false ∨ p = 0
  · have hmax := min_le_right duty ((c.maxMs : ℚ) / c.totalMs)
    rw [le_div_iff₀ c.total_posQ] at hmax
    rw [c.onSlice_uncompensated hf h]
    refine ⟨fun _ => ?_, fun _ => by linarith⟩
    rcases h with h | h
    · exact .inl h
    · exact .inr (.inl h)
  · obtain ⟨hcomp, hp⟩ := not_or.mp h
    obtain rfl : comp = true := by simpa using hcomp
    have hM : (c.minMs : ℚ) * 1000 < c.maxMs * 1000 + 1 / 2 := by
      have : (c.minMs : ℚ) ≤ c.maxMs := by exact_mod_cast c.min_le_max
      linarith
    rw [c.onSlice_compensated hf hp, max_lt_iff, InRange]
    simp only [hp, not_lt.mpr hf, Bool.true_eq_false, false_or]
    exact ⟨And.right, fun hx => ⟨hM, hx⟩⟩

/-! ## The timing of a cycle -/

theorem onDurationUs_of_fire {duty : ℚ} (hf : (c.minMs : ℚ) / c.totalMs ≤ duty) (p : UInt16)
    (comp : Bool) :
    (c.timing duty p comp).onDurationUs = toWord 32 (roundAway (c.onSlice duty p comp)) := by
  have hc : (c.minMs : ℚ) / c.totalMs ≤ clampDuty duty c.totalMs c.maxMs := by
    rw [c.clampDuty_of_fire hf]
    exact le_min hf c.minDuty_le_maxDuty
  simp [timing, pidComputeFireTiming, if_pos hc, dutyToMicroseconds, sliceLong, onSlice]

theorem offDurationUs_of_fire {duty : ℚ} (hf : (c.minMs : ℚ) / c.totalMs ≤ duty) (p : UInt16)
    (comp : Bool) : (c.timing duty p comp).offDurationUs = toWord 32 (c.offLong duty p comp) := by
  have hc : (c.minMs : ℚ) / c.totalMs ≤ clampDuty duty c.totalMs c.maxMs := by
    rw [c.clampDuty_of_fire hf]
    exact le_min hf c.minDuty_le_maxDuty
  simp [timing, pidComputeFireTiming, if_pos hc, dutyToMicroseconds, offLong]

theorem durations_of_quiet {duty : ℚ} (hf : duty < (c.minMs : ℚ) / c.totalMs) (p : UInt16)
    (comp : Bool) : (c.timing duty p comp).onDurationUs = 0 ∧
      (c.timing duty p comp).offDurationUs = c.totalMs * 1000 := by
  have hc : ¬ (c.minMs : ℚ) / c.totalMs ≤ clampDuty duty c.totalMs c.maxMs := by
    rw [clampDuty_eq, le_max_iff, le_min_iff]
    rintro (h | h)
    · exact absurd h (not_le.mpr c.minDuty_pos)
    · exact absurd h.1 (not_le.mpr hf)
  have hT := c.total_lt
  simp only [timing, pidComputeFireTiming, if_neg hc, usPerMs, true_and]
  rw [toWord_of_lt (by positivity) (by push_cast; omega)]
  norm_cast

/-- The off slice is rounded from what the on slice leaves of the cycle. -/
theorem offLong_eq (duty : ℚ) (p : UInt16) (comp : Bool) :
    c.offLong duty p comp = roundAway (((c.totalMs * 1000 : ℤ) : ℚ) - c.onSlice duty p comp) := by
  simp only [offLong, sliceLong, onSlice, fullDuty, usPerMs]
  congr 1
  push_cast
  ring

section InRange

variable {c} {duty : ℚ} {p : UInt16} {comp : Bool}
  (hf : (c.minMs : ℚ) / c.totalMs ≤ duty) (hr : c.InRange duty p comp)

include hf hr

theorem roundAway_onSlice_le : roundAway (c.onSlice duty p comp) ≤ c.maxMs * 1000 := by
  have := (c.onSlice_lt_iff hf p comp).mpr hr
  exact (roundAway_le_iff (by positivity)).mpr (by push_cast; exact this)

theorem onDurationUs_in_range :
    ((c.timing duty p comp).onDurationUs : ℤ) = roundAway (c.onSlice duty p comp) := by
  have hlo : 0 ≤ roundAway (c.onSlice duty p comp) :=
    roundAway_nonneg (le_trans (by positivity) (c.min_le_onSlice hf p comp))
  have hhi := roundAway_onSlice_le hf hr
  have := c.max_lt_total
  have := c.total_lt
  rw [c.onDurationUs_of_fire hf, toWord_of_lt hlo (by omega)]
  exact Int.toNat_of_nonneg hlo

theorem offLong_nonneg : 0 ≤ c.offLong duty p comp := by
  have hx := (c.onSlice_lt_iff hf p comp).mpr hr
  have hMT : (c.maxMs : ℚ) + 1 ≤ c.totalMs := by exact_mod_cast c.max_lt_total
  rw [offLong_eq]
  exact roundAway_nonneg (by push_cast; linarith)

theorem offDurationUs_in_range :
    ((c.timing duty p comp).offDurationUs : ℤ) = c.offLong duty p comp := by
  have hlo := offLong_nonneg hf hr
  have hx := c.min_le_onSlice hf p comp
  have hhi : c.offLong duty p comp ≤ c.totalMs * 1000 := by
    rw [offLong_eq]
    refine roundAway_le ?_
    have : (0 : ℚ) ≤ (c.minMs : ℚ) * 1000 := by positivity
    linarith
  have := c.total_lt
  rw [c.offDurationUs_of_fire hf, toWord_of_lt hlo (by omega)]
  exact Int.toNat_of_nonneg hlo

end InRange

/-- A smaller duty is in range where a larger one is. -/
theorem InRange.anti {d duty : ℚ} {p : UInt16} {comp : Bool} (h : d ≤ duty)
    (hf : (c.minMs : ℚ) / c.totalMs ≤ d) (hr : c.InRange duty p comp) :
    c.InRange d p comp := by
  rw [← c.onSlice_lt_iff hf]
  exact (c.onSlice_mono h p comp).trans_lt ((c.onSlice_lt_iff (hf.trans h) p comp).mpr hr)

/-- At sea level and deeper the compensation only shortens the on slice. -/
theorem inRange_of_surface (duty : ℚ) {p : UInt16} (comp : Bool) (h : 1000 ≤ p.toNat) :
    c.InRange duty p comp := by
  by_cases hf : (c.minMs : ℚ) / c.totalMs ≤ duty
  · have hp : (1000 : ℚ) ≤ p.toNat := by exact_mod_cast h
    have hk : (1000 : ℚ) / p.toNat ≤ 1 := (div_le_one (by linarith)).mpr hp
    have hmax := min_le_right duty ((c.maxMs : ℚ) / c.totalMs)
    have hmin := c.minDuty_pos.le.trans (le_min hf c.minDuty_le_maxDuty)
    rw [le_div_iff₀ c.total_posQ] at hmax
    refine .inr (.inr (.inr ?_))
    have hx : (0 : ℚ) ≤ min duty ((c.maxMs : ℚ) / c.totalMs) * (c.totalMs * 1000) := by positivity
    have := mul_le_of_le_one_right hx hk
    linarith
  · exact .inr (.inr (.inl (not_le.mp hf)))

theorem timingOk_of_inRange {duty : ℚ} {p : UInt16} {comp : Bool}
    (hr : c.InRange duty p comp) : c.TimingOk duty p comp := by
  have hquiet : (c.timing duty p comp).shouldFire = false →
      duty < (c.minMs : ℚ) / c.totalMs := fun h => by
    rw [← not_le, ← c.shouldFire_iff duty p comp, h]
    simp
  refine ⟨fun h => ?_, fun h => ?_, fun h => ?_, fun h => c.durations_of_quiet (hquiet h) p comp,
    fun d hd => ?_⟩
  · rw [shouldFire_iff] at h
    have hon := onDurationUs_in_range h hr
    have hhi := roundAway_onSlice_le h hr
    have hlo : (c.minMs * 1000 : ℤ) ≤ roundAway (c.onSlice duty p comp) :=
      le_roundAway (by push_cast; exact c.min_le_onSlice h p comp)
    omega
  · rw [shouldFire_iff] at h
    rw [onDurationUs_in_range h hr, offDurationUs_in_range h hr, offLong_eq]
    exact abs_roundAway_split_le _ _
  · rw [shouldFire_iff] at h
    exact offLong_nonneg h hr
  · rcases lt_or_ge d ((c.minMs : ℚ) / c.totalMs) with hq | hf
    · rw [(c.durations_of_quiet hq p comp).1]
      exact Nat.zero_le _
    · have h1 := onDurationUs_in_range hf (hr.anti c hd hf)
      have h2 := onDurationUs_in_range (hf.trans hd) hr
      have := roundAway_mono (c.onSlice_mono hd p comp)
      omega

theorem inRange_of_timingOk {duty : ℚ} {p : UInt16} {comp : Bool}
    (h : c.TimingOk duty p comp) : c.InRange duty p comp := by
  by_contra hr
  have hf : (c.minMs : ℚ) / c.totalMs ≤ duty := by
    by_contra hq
    exact hr (.inr (.inr (.inl (not_le.mp hq))))
  have hx := mt (c.onSlice_lt_iff hf p comp).mp hr
  have hround : (c.maxMs * 1000 : ℤ) < roundAway (c.onSlice duty p comp) := by
    rw [← not_le, roundAway_le_iff (by positivity)]
    push_cast
    exact hx
  have hfire := (c.shouldFire_iff duty p comp).mpr hf
  have hT := c.total_lt
  rcases lt_or_ge (roundAway (c.onSlice duty p comp)) (2 ^ 32) with hw | hw
  · -- no wrap: the on time itself is past the maximum
    have hon := c.onDurationUs_of_fire hf p comp
    rw [toWord_of_lt (by omega) hw] at hon
    have := (h.bounds hfire).2
    omega
  · -- the on slice passes the whole cycle, so the off slice is negative
    have herr := abs_le.mp (abs_roundAway_sub_le (c.onSlice duty p comp))
    have hwQ : (2 ^ 32 : ℚ) ≤ roundAway (c.onSlice duty p comp) := by exact_mod_cast hw
    have hTQ : (c.totalMs : ℚ) * 1000 < 2 ^ 31 := by exact_mod_cast hT
    have hneg : c.offLong duty p comp < 0 := by
      rw [offLong_eq]
      refine roundAway_neg_of_le ?_
      push_cast
      linarith
    exact absurd (h.notWrapped hfire) (not_le.mpr hneg)

/-- The timing keeps its bounds exactly where the compensation does not carry
the on slice past the maximum. -/
theorem timingOk_iff (duty : ℚ) (p : UInt16) (comp : Bool) :
    c.TimingOk duty p comp ↔ c.InRange duty p comp :=
  ⟨c.inRange_of_timingOk, c.timingOk_of_inRange⟩

end FireCycle

/-! ## The controller's own cycle (`ppo2_control.c`) -/

def solenoidCycleMs : ℕ := 5000

def solenoidMinFireMs : ℕ := 100

def solenoidMaxFireMs : ℕ := 4900

namespace FireCycle

/-- The cycle `run_pid_fire_cycle` asks for. -/
def standard : FireCycle :=
  ⟨solenoidCycleMs, solenoidMinFireMs, solenoidMaxFireMs,
    by decide, by decide, by decide, by decide⟩

/-- At 600 mbar a full duty is on for 8.17 s of a 5 s cycle, and the off slice
is a negative number of microseconds wrapped to more than an hour. -/
theorem timing_at_altitude :
    standard.timing 1 600 true = ⟨true, false, 8166667, 4291800629⟩ ∧
      ¬ standard.TimingOk 1 600 true := by
  have htiming : standard.timing 1 600 true = ⟨true, false, 8166667, 4291800629⟩ := by
    decide +kernel
  refine ⟨htiming, fun h => ?_⟩
  have hbound := (h.bounds (by rw [htiming])).2
  rw [htiming] at hbound
  exact absurd hbound (by decide)

end FireCycle

end DiveCANHead.Control
