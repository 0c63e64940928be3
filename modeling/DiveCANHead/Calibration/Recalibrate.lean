import DiveCANHead.Calibration.Rollback
import DiveCANHead.Cells.DiveO2
import DiveCANHead.Cells.O2S
import Mathlib.Algebra.Order.Floor.Semifield

/-!
# Recalibrating a digital cell (`calibration.c`, `oxygen_cell_math.c`)

A calibration gets the raw sample of a digital cell back from the PPO2 the cell published. It does
so with the default coefficient, whatever coefficient the driver used. Floats are rationals; what is
cut off is the fraction of the DiveO2 sample.
-/

namespace DiveCANHead.Calibration

open DiveCANHead.Lib DiveCANHead.Cells

/-- `MIN_ANALOG_SAMPLE`. -/
def minAnalogSample : ℚ := 1

/-- `MIN_DIVISOR`. -/
def minDivisor : ℚ := 0.000001

/-- The division of `diveo2_cal_coefficient`. -/
def diveo2Quotient (rawPpo2Millihpa : ℤ) (targetPpo2 : UInt8) : Option ℚ :=
  if targetPpo2 = 0 then none
  else
    let ppo2Bar := targetPpo2.toNat / centibarPerBar
    let sampleAbs := |(rawPpo2Millihpa : ℚ)|
    if sampleAbs < minAnalogSample then none else some (sampleAbs / ppo2Bar)

/-- The division of `o2s_cal_coefficient`. -/
def o2sQuotient (cellSample : ℚ) (targetPpo2 : UInt8) : Option ℚ :=
  if |cellSample| < minDivisor then none
  else
    let ppo2Bar := targetPpo2.toNat / centibarPerBar
    some (ppo2Bar / cellSample)

/-- The conversion to `int32_t`: past its ends, which C leaves open, it saturates as the processor
does. -/
def toInt32 (x : ℚ) : ℤ := max (-2147483648) (min 2147483647 (truncate x))

/-! ## A cell with a steady sample -/

/-- What a digital cell measures. -/
inductive DigitalSample where
  | diveO2 (rawPpo2Millihpa : ℤ)
  | o2s (cellSample : ℚ)
  deriving DecidableEq, Repr

namespace DigitalSample

def cellType : DigitalSample → CellType
  | .diveO2 _ => .diveO2
  | .o2s _ => .o2s

/-- The PPO2 in bar the driver publishes with a coefficient. -/
def precisionPpo2 : DigitalSample → ℚ → ℚ
  | .diveO2 rawPpo2Millihpa, calCoeff => rawPpo2Millihpa / calCoeff
  | .o2s cellSample, calCoeff => cellSample * calCoeff

/-- The PPO2 the driver publishes for the wire. -/
def ppo2 (d : DigitalSample) (calCoeff : ℚ) : UInt8 :=
  ppo2CentibarToWire (d.precisionPpo2 calCoeff * centibarPerBar)

/-- `cal_compute_coeff_cell_*`, for a cell whose driver uses a coefficient. -/
def calComputeCoeff (d : DigitalSample) (targetPpo2 : UInt8) (calCoeff : ℚ) : ℚ :=
  match d with
  | .diveO2 _ =>
    let approxSample := toInt32 (d.precisionPpo2 calCoeff * diveo2CalDefault)
    diveo2CalCoefficient (diveo2Quotient approxSample targetPpo2)
  | .o2s _ =>
    let approxSample := d.precisionPpo2 calCoeff / o2sCalDefault
    o2sCalCoefficient (o2sQuotient approxSample targetPpo2)

/-- One calibration of a cell, and the load of its driver after it. -/
def calibrate (d : DigitalSample) (targetPpo2 : UInt8) (o : SaveOutcome) (cell : ℕ)
    (p : CalStore × CellDriver) : (CalStore × CellDriver) × CalResult :=
  let (s, result) := calValidateAndSave o cell (d.calComputeCoeff targetPpo2 p.2.calCoeff) p.1
  ((s, d.cellType.loadCal (calibrationStoreLoad s cell) p.2), result)

end DigitalSample

/-- What the DiveO2 driver broadcasts is what `DigitalSample` says. -/
theorem diveo2Msg_steady (cell : DiveO2Cell) (now : ℤ) :
    (diveo2Msg cell cell.precisionPpo2 now).precisionPpo2 =
        (DigitalSample.diveO2 cell.rawPpo2Millihpa).precisionPpo2 cell.calCoeff ∧
      (diveo2Msg cell cell.precisionPpo2 now).ppo2 =
        (DigitalSample.diveO2 cell.rawPpo2Millihpa).ppo2 cell.calCoeff :=
  ⟨rfl, rfl⟩

theorem o2sMsg_steady {cell : O2SCell} {cellSample : ℚ} (h : cell.cellSample = .finite cellSample)
    (now : ℤ) :
    (o2sMsg cell cell.precisionPpo2 now).precisionPpo2 =
        .finite ((DigitalSample.o2s cellSample).precisionPpo2 cell.calCoeff) ∧
      (o2sMsg cell cell.precisionPpo2 now).ppo2 =
        (DigitalSample.o2s cellSample).ppo2 cell.calCoeff := by
  simp only [o2sMsg, O2SCell.precisionPpo2, h]
  exact ⟨rfl, rfl⟩

/-- A calibration that answers OK gives the driver the coefficient it stores, the cell then
publishes the target, and doing it again changes nothing. -/
structure RecalibrationCorrect (d : DigitalSample) (targetPpo2 : UInt8) (o : SaveOutcome)
    (cell : ℕ) (p : CalStore × CellDriver) : Prop where
  accepted : (d.calibrate targetPpo2 o cell p).2 = .ok →
    (d.calibrate targetPpo2 o cell p).1.2.status = .ok ∧
      (d.calibrate targetPpo2 o cell p).1.1.nvs cell =
        some (d.calibrate targetPpo2 o cell p).1.2.calCoeff
  published : (d.calibrate targetPpo2 o cell p).2 = .ok →
    |((d.ppo2 (d.calibrate targetPpo2 o cell p).1.2.calCoeff).toNat : ℤ) - targetPpo2.toNat| ≤ 1
  again : (d.calibrate targetPpo2 o cell p).2 = .ok →
    (d.calibrate targetPpo2 o cell (d.calibrate targetPpo2 o cell p).1).2 = .ok →
      (d.calibrate targetPpo2 o cell (d.calibrate targetPpo2 o cell p).1).1.1.nvs cell =
          (d.calibrate targetPpo2 o cell p).1.1.nvs cell ∧
        (d.calibrate targetPpo2 o cell (d.calibrate targetPpo2 o cell p).1).1.2.calCoeff =
          (d.calibrate targetPpo2 o cell p).1.2.calCoeff

/-! ## By the coefficients -/

section Calibrate

variable {d : DigitalSample} {targetPpo2 : UInt8} {o : SaveOutcome} {cell cells : ℕ}
  {p : CalStore × CellDriver}

theorem DigitalSample.loadCal_eq (d : DigitalSample) (coeff : ℚ) (driver : CellDriver) :
    d.cellType.loadCal (some coeff) driver =
      if d.cellType.calLower < coeff ∧ coeff < d.cellType.calUpper then ⟨coeff, .ok⟩
      else d.cellType.initDriver := by
  cases d <;> rfl

/-- A calibration answers OK unless the coefficient is an error, and then NVS has it and the driver
loads it. -/
theorem DigitalSample.calibrate_cases (d : DigitalSample) (targetPpo2 : UInt8)
    (p : CalStore × CellDriver) (ho : o.Complete cells) (hcell : cell < cells)
    (hcells : cells ≤ cellMaxCount) :
    d.calComputeCoeff targetPpo2 p.2.calCoeff < 0 ∧ (d.calibrate targetPpo2 o cell p).2 ≠ .ok ∨
      ¬ d.calComputeCoeff targetPpo2 p.2.calCoeff < 0 ∧
        (d.calibrate targetPpo2 o cell p).2 = .ok ∧
        (d.calibrate targetPpo2 o cell p).1.1.nvs cell =
          some (d.calComputeCoeff targetPpo2 p.2.calCoeff) ∧
        (d.calibrate targetPpo2 o cell p).1.2 =
          d.cellType.loadCal (some (d.calComputeCoeff targetPpo2 p.2.calCoeff)) p.2 := by
  unfold calibrate
  generalize d.calComputeCoeff targetPpo2 p.2.calCoeff = coeff
  rcases calValidateAndSave_cases o cell coeff p.1 with ⟨hneg, -, hnot⟩ | ⟨hneg, heq⟩
  · exact .inl ⟨hneg, hnot⟩
  · obtain ⟨hsaved, hload⟩ := calValidateAndSave_complete ho hcell hcells hneg p.1
    have hat : (calibrationStoreSave o cell coeff p.1).1.At cell coeff :=
      CalStore.At.saved ho hcell p.1
    rw [hsaved]
    exact .inr ⟨hneg, rfl, hat.1, by dsimp only; rw [hload]⟩

/-- The property of one cell, by the coefficients alone. -/
theorem recalibrationCorrect_iff_coeff (ho : o.Complete cells) (hcell : cell < cells)
    (hcells : cells ≤ cellMaxCount) {coeff : ℚ}
    (hcoeff : d.calComputeCoeff targetPpo2 p.2.calCoeff = coeff) :
    RecalibrationCorrect d targetPpo2 o cell p ↔ coeff < 0 ∨
      (d.cellType.calLower < coeff ∧ coeff < d.cellType.calUpper) ∧
        |((d.ppo2 coeff).toNat : ℤ) - targetPpo2.toNat| ≤ 1 ∧
        (d.calComputeCoeff targetPpo2 coeff < 0 ∨ d.calComputeCoeff targetPpo2 coeff = coeff) := by
  rcases d.calibrate_cases targetPpo2 p ho hcell hcells with
    ⟨hneg, hnot⟩ | ⟨hneg, hok, hnvs, hdriver⟩
  · rw [hcoeff] at hneg
    exact iff_of_true ⟨fun h => absurd h hnot, fun h => absurd h hnot, fun h => absurd h hnot⟩
      (.inl hneg)
  · rw [hcoeff] at hneg hnvs hdriver
    rw [d.loadCal_eq] at hdriver
    -- the driver takes the coefficient, or falls back on its default and fails
    by_cases hin : d.cellType.calLower < coeff ∧ coeff < d.cellType.calUpper
    · rw [if_pos hin] at hdriver
      have hagain :=
        d.calibrate_cases targetPpo2 (d.calibrate targetPpo2 o cell p).1 ho hcell hcells
      rw [hdriver] at hagain
      constructor
      · intro h
        have hpublished := h.published hok
        rw [hdriver] at hpublished
        refine .inr ⟨hin, hpublished, ?_⟩
        rcases hagain with ⟨hneg', -⟩ | ⟨-, hok', hnvs', -⟩
        · exact .inl hneg'
        · exact .inr (Option.some.inj (hnvs'.symm.trans ((h.again hok hok').1.trans hnvs)))
      · rintro (hneg' | ⟨-, hpublished, hsame⟩)
        · exact absurd hneg' hneg
        · refine ⟨fun _ => ?_, fun _ => by rw [hdriver]; exact hpublished, fun _ hok' => ?_⟩
          · rw [hdriver]
            exact ⟨rfl, hnvs⟩
          · rcases hagain with ⟨-, hnot⟩ | ⟨hneg', -, hnvs', hdriver'⟩
            · exact absurd hok' hnot
            · rw [hsame.resolve_left hneg'] at hnvs' hdriver'
              rw [hnvs', hdriver', hnvs, hdriver, d.loadCal_eq, if_pos hin]
              exact ⟨rfl, rfl⟩
    · rw [if_neg hin] at hdriver
      refine iff_of_false (fun h => ?_) ?_
      · have hstatus := (h.accepted hok).1
        rw [hdriver] at hstatus
        exact absurd hstatus (by cases d <;> exact CellStatus.noConfusion)
      · rintro (hneg' | ⟨hin', -⟩)
        · exact hneg hneg'
        · exact hin hin'

end Calibrate

/-! ## The wire -/

/-- A reading comes out within a centibar of the target if it lies within one and a half; the two
lowest and the two highest targets leave one side open. -/
theorem ppo2CentibarToWire_near (x : ℚ) (targetPpo2 : UInt8) :
    |((ppo2CentibarToWire x).toNat : ℤ) - targetPpo2.toNat| ≤ 1 ↔
      (targetPpo2.toNat ≤ 1 ∨ 2 * (targetPpo2.toNat : ℚ) - 3 ≤ 2 * x) ∧
        (253 ≤ targetPpo2.toNat ∨ 2 * x < 2 * targetPpo2.toNat + 3) := by
  have ht := targetPpo2.toNat_lt
  generalize targetPpo2.toNat = t at ht
  have hwire : ((ppo2CentibarToWire x).toNat : ℤ) = min 254 (max 0 (roundAway x)) := by
    have hclamp : (if (if roundAway x < 0 then 0 else roundAway x) > (maxValidPpo2 : ℤ)
        then (maxValidPpo2 : ℤ) else if roundAway x < 0 then 0 else roundAway x) =
        min 254 (max 0 (roundAway x)) := by
      simp only [maxValidPpo2]
      split_ifs <;> omega
    simp only [ppo2CentibarToWire, hclamp, UInt8.toNat_ofNat']
    omega
  have hlow : 2 ≤ t → ((t : ℤ) - 1 ≤ roundAway x ↔ 2 * (t : ℚ) - 3 ≤ 2 * x) := by
    intro h2
    have h := roundAway_le_iff (x := x) (n := (t : ℤ) - 2) (by omega)
    rw [← not_lt, ← Int.le_sub_one_iff, show (t : ℤ) - 1 - 1 = t - 2 by ring, h, not_lt]
    push_cast
    constructor <;> intro h <;> linarith
  have hup : roundAway x ≤ (t : ℤ) + 1 ↔ 2 * x < 2 * t + 3 := by
    rw [roundAway_le_iff (by omega)]
    push_cast
    constructor <;> intro h <;> linarith
  rw [hwire, abs_le, ← hup]
  by_cases h2 : 2 ≤ t
  · rw [← hlow h2]
    omega
  · omega

/-! ## DiveO2 -/

/-- The size of the raw sample a calibration gets back. -/
def reconstructed (rawPpo2Millihpa : ℤ) (calCoeff : ℚ) : ℕ :=
  ⌊|(rawPpo2Millihpa : ℚ)| * diveo2CalDefault / calCoeff⌋₊

/-- The sample cannot be calibrated to the target. -/
def Refused (sample : ℕ) (targetPpo2 : UInt8) : Prop :=
  targetPpo2 = 0 ∨ sample < 8000 * targetPpo2.toNat ∨ 11000 * targetPpo2.toNat < sample

/-- The coefficient of an accepted sample. -/
def diveo2Scale (sample : ℕ) (targetPpo2 : UInt8) : ℚ := 100 * sample / targetPpo2.toNat

section Scale

variable {targetPpo2 : UInt8} {sample : ℕ}

theorem lt_diveo2Scale (ht : 0 < targetPpo2.toNat) (k : ℕ) :
    ((100 * k : ℕ) : ℚ) < diveo2Scale sample targetPpo2 ↔ k * targetPpo2.toNat < sample := by
  rw [diveo2Scale, lt_div_iff₀ (Nat.cast_pos.mpr ht), ← @Nat.cast_lt ℚ]
  push_cast
  constructor <;> intro h <;> linarith

theorem diveo2Scale_lt (ht : 0 < targetPpo2.toNat) (k : ℕ) :
    diveo2Scale sample targetPpo2 < ((100 * k : ℕ) : ℚ) ↔ sample < k * targetPpo2.toNat := by
  rw [diveo2Scale, div_lt_iff₀ (Nat.cast_pos.mpr ht), ← @Nat.cast_lt ℚ]
  push_cast
  constructor <;> intro h <;> linarith

theorem diveo2Scale_nonneg (sample : ℕ) (targetPpo2 : UInt8) :
    ¬ diveo2Scale sample targetPpo2 < 0 :=
  not_lt.mpr (div_nonneg (mul_nonneg (by norm_num) (Nat.cast_nonneg _)) (Nat.cast_nonneg _))

theorem calLower_diveO2 : CellType.diveO2.calLower = ((100 * 8000 : ℕ) : ℚ) := by
  rw [CellType.calLower]
  norm_num

theorem calUpper_diveO2 : CellType.diveO2.calUpper = ((100 * 11000 : ℕ) : ℚ) := by
  rw [CellType.calUpper]
  norm_num

/-- The range of the loader, for the coefficient of a sample. -/
theorem diveo2Scale_inside (ht : 0 < targetPpo2.toNat) :
    (CellType.diveO2.calLower < diveo2Scale sample targetPpo2 ↔
        8000 * targetPpo2.toNat < sample) ∧
      (diveo2Scale sample targetPpo2 < CellType.diveO2.calUpper ↔
        sample < 11000 * targetPpo2.toNat) := by
  rw [calLower_diveO2, calUpper_diveO2]
  exact ⟨lt_diveo2Scale ht 8000, diveo2Scale_lt ht 11000⟩

/-- The range of the calibration, for the coefficient of a sample. -/
theorem diveo2Scale_outside (ht : 0 < targetPpo2.toNat) :
    (diveo2Scale sample targetPpo2 < CellType.diveO2.calLower ↔
        sample < 8000 * targetPpo2.toNat) ∧
      (CellType.diveO2.calUpper < diveo2Scale sample targetPpo2 ↔
        11000 * targetPpo2.toNat < sample) := by
  rw [calLower_diveO2, calUpper_diveO2]
  exact ⟨diveo2Scale_lt ht 8000, lt_diveo2Scale ht 11000⟩

end Scale

theorem toNat_pos {targetPpo2 : UInt8} (h : targetPpo2 ≠ 0) : 0 < targetPpo2.toNat :=
  Nat.pos_of_ne_zero fun h0 => h (UInt8.toNat_inj.mp h0)

theorem diveo2CalCoefficient_cases (z : ℤ) (targetPpo2 : UInt8) :
    Refused z.natAbs targetPpo2 ∧ diveo2CalCoefficient (diveo2Quotient z targetPpo2) < 0 ∨
      ¬ Refused z.natAbs targetPpo2 ∧
        diveo2CalCoefficient (diveo2Quotient z targetPpo2) =
          diveo2Scale z.natAbs targetPpo2 := by
  unfold diveo2Quotient Refused
  by_cases ht : targetPpo2 = 0
  · rw [if_pos ht]
    exact .inl ⟨.inl ht, calCoeffErrMath_neg⟩
  · have hpos := toNat_pos ht
    have habs : |(z : ℚ)| = (z.natAbs : ℚ) := by rw [Nat.cast_natAbs, Int.cast_abs]
    rw [if_neg ht, habs]
    dsimp only
    generalize z.natAbs = sample
    by_cases hsmall : (sample : ℚ) < minAnalogSample
    · have : sample < 1 := by
        rw [minAnalogSample] at hsmall
        exact_mod_cast hsmall
      rw [if_pos hsmall]
      exact .inl ⟨.inr (.inl (by omega)), calCoeffErrMath_neg⟩
    · have hscale : (sample : ℚ) / (targetPpo2.toNat / centibarPerBar) =
          diveo2Scale sample targetPpo2 := by
        rw [diveo2Scale, centibarPerBar]
        field_simp
      obtain ⟨hlow, hup⟩ := @diveo2Scale_outside targetPpo2 sample hpos
      rw [if_neg hsmall, hscale, diveo2CalCoefficient, calCoefficient, ← hlow, ← hup]
      by_cases href : diveo2Scale sample targetPpo2 < CellType.diveO2.calLower ∨
          CellType.diveO2.calUpper < diveo2Scale sample targetPpo2
      · rw [if_pos href]
        exact .inl ⟨.inr href, calCoeffErrRange_neg⟩
      · rw [if_neg href]
        exact .inr ⟨fun h => h.elim ht href, rfl⟩

theorem diveo2CalDefault_pos : 0 < diveo2CalDefault := by norm_num [diveo2CalDefault]

theorem natAbs_toInt32 (x : ℚ) : (toInt32 x).natAbs = ⌊|x|⌋₊ ∨
    2147483647 ≤ (toInt32 x).natAbs ∧ 2147483647 ≤ ⌊|x|⌋₊ := by
  rw [← natAbs_truncate, toInt32]
  omega

/-- What a calibration computes for a DiveO2 cell. -/
theorem calComputeCoeff_diveO2 (raw : ℤ) (targetPpo2 : UInt8) {calCoeff : ℚ} (hc : 0 < calCoeff) :
    Refused (reconstructed raw calCoeff) targetPpo2 ∧
        (DigitalSample.diveO2 raw).calComputeCoeff targetPpo2 calCoeff < 0 ∨
      ¬ Refused (reconstructed raw calCoeff) targetPpo2 ∧
        (DigitalSample.diveO2 raw).calComputeCoeff targetPpo2 calCoeff =
          diveo2Scale (reconstructed raw calCoeff) targetPpo2 := by
  have ht := targetPpo2.toNat_lt
  have hsize : |(raw : ℚ) / calCoeff * diveo2CalDefault| =
      |(raw : ℚ)| * diveo2CalDefault / calCoeff := by
    rw [abs_mul, abs_div, abs_of_pos hc, abs_of_pos diveo2CalDefault_pos]
    ring
  have hint := natAbs_toInt32 ((raw : ℚ) / calCoeff * diveo2CalDefault)
  rw [hsize] at hint
  have hcases := diveo2CalCoefficient_cases
    (toInt32 ((raw : ℚ) / calCoeff * diveo2CalDefault)) targetPpo2
  rw [reconstructed]
  rcases hint with heq | ⟨hbig, hbig'⟩
  · rw [heq] at hcases
    exact hcases
  · have href : ∀ n : ℕ, 2147483647 ≤ n → Refused n targetPpo2 :=
      fun n hn => .inr (.inr (by omega))
    rcases hcases with ⟨-, hneg⟩ | ⟨hnot, -⟩
    · exact .inl ⟨href _ hbig', hneg⟩
    · exact absurd (href _ hbig) hnot

/-- A DiveO2 cell is recalibrated to the target: the sample that is got back lies strictly in the
range, the coefficient it gives makes it be got back again, or be refused, and the raw sample is
within one and a half centibar of the target on its scale. -/
structure DiveO2Recalibrates (raw : ℤ) (targetPpo2 : UInt8) (sample : ℕ) : Prop where
  low : 8000 * targetPpo2.toNat < sample
  high : sample < 11000 * targetPpo2.toNat
  again : 10000 * raw.natAbs * targetPpo2.toNat / sample = sample ∨
    11000 * targetPpo2.toNat < 10000 * raw.natAbs * targetPpo2.toNat / sample
  notBelow : targetPpo2.toNat ≤ 1 ∨
    (2 * (targetPpo2.toNat : ℤ) - 3) * sample ≤ 2 * raw * targetPpo2.toNat
  notAbove : 253 ≤ targetPpo2.toNat ∨
    2 * raw * targetPpo2.toNat < (2 * (targetPpo2.toNat : ℤ) + 3) * sample

section DiveO2

variable {raw : ℤ} {targetPpo2 : UInt8} {sample : ℕ}

theorem reconstructed_diveo2Scale (hs : 0 < sample) (ht : 0 < targetPpo2.toNat) :
    reconstructed raw (diveo2Scale sample targetPpo2) =
      10000 * raw.natAbs * targetPpo2.toNat / sample := by
  have hsq : (0 : ℚ) < sample := Nat.cast_pos.mpr hs
  have htq : (0 : ℚ) < targetPpo2.toNat := Nat.cast_pos.mpr ht
  have habs : |(raw : ℚ)| = (raw.natAbs : ℚ) := by rw [Nat.cast_natAbs, Int.cast_abs]
  have hdiv : |(raw : ℚ)| * diveo2CalDefault / diveo2Scale sample targetPpo2 =
      ((10000 * raw.natAbs * targetPpo2.toNat : ℕ) : ℚ) / (sample : ℕ) := by
    rw [habs, diveo2Scale, diveo2CalDefault]
    push_cast
    field_simp
    ring
  rw [reconstructed, hdiv, Nat.floor_div_eq_div]

/-- A sample that was got back is not far above the raw one. -/
theorem reconstructed_le {calCoeff : ℚ} (hc : 800000 < calCoeff) :
    800000 * reconstructed raw calCoeff ≤ 1000000 * raw.natAbs := by
  have habs : |(raw : ℚ)| = (raw.natAbs : ℚ) := by rw [Nat.cast_natAbs, Int.cast_abs]
  have hfloor : (reconstructed raw calCoeff : ℚ) ≤ |(raw : ℚ)| * diveo2CalDefault / calCoeff :=
    Nat.floor_le (div_nonneg (mul_nonneg (abs_nonneg _) diveo2CalDefault_pos.le) (by linarith))
  rw [le_div_iff₀ (by linarith), habs, diveo2CalDefault] at hfloor
  have hmul : (reconstructed raw calCoeff : ℚ) * 800000 ≤ reconstructed raw calCoeff * calCoeff :=
    mul_le_mul_of_nonneg_left hc.le (Nat.cast_nonneg _)
  have hcast : ((800000 * reconstructed raw calCoeff : ℕ) : ℚ) ≤
      ((1000000 * raw.natAbs : ℕ) : ℚ) := by
    push_cast
    linarith
  exact Nat.cast_le.mp hcast

theorem ppo2_near_iff (hs : 0 < sample) (ht : 0 < targetPpo2.toNat) :
    |(((DigitalSample.diveO2 raw).ppo2 (diveo2Scale sample targetPpo2)).toNat : ℤ) -
        targetPpo2.toNat| ≤ 1 ↔
      (targetPpo2.toNat ≤ 1 ∨
        (2 * (targetPpo2.toNat : ℤ) - 3) * sample ≤ 2 * raw * targetPpo2.toNat) ∧
      (253 ≤ targetPpo2.toNat ∨
        2 * raw * targetPpo2.toNat < (2 * (targetPpo2.toNat : ℤ) + 3) * sample) := by
  have hsq : (0 : ℚ) < sample := Nat.cast_pos.mpr hs
  have htq : (0 : ℚ) < targetPpo2.toNat := Nat.cast_pos.mpr ht
  have hx : (DigitalSample.diveO2 raw).precisionPpo2 (diveo2Scale sample targetPpo2) *
      centibarPerBar = raw * targetPpo2.toNat / sample := by
    rw [DigitalSample.precisionPpo2, diveo2Scale, centibarPerBar]
    field_simp
  rw [DigitalSample.ppo2, hx, ppo2CentibarToWire_near, ← mul_div_assoc, le_div_iff₀ hsq,
    div_lt_iff₀ hsq, ← mul_assoc]
  refine and_congr (or_congr_right ?_) (or_congr_right ?_)
  · rw [← Int.cast_le (R := ℚ)]
    push_cast
    rfl
  · rw [← Int.cast_lt (R := ℚ)]
    push_cast
    rfl

/-- A second calibration computes the same coefficient or none, by the samples. -/
theorem second_iff {calCoeff : ℚ} (hc : 800000 < calCoeff)
    (hnot : ¬ Refused (reconstructed raw calCoeff) targetPpo2)
    (hs : reconstructed raw calCoeff = sample) :
    ((DigitalSample.diveO2 raw).calComputeCoeff targetPpo2 (diveo2Scale sample targetPpo2) < 0 ∨
      (DigitalSample.diveO2 raw).calComputeCoeff targetPpo2 (diveo2Scale sample targetPpo2) =
        diveo2Scale sample targetPpo2) ↔
      10000 * raw.natAbs * targetPpo2.toNat / sample = sample ∨
        11000 * targetPpo2.toNat < 10000 * raw.natAbs * targetPpo2.toNat / sample := by
  have hle : 800000 * reconstructed raw calCoeff ≤ 1000000 * raw.natAbs := reconstructed_le hc
  rw [hs] at hle hnot
  obtain ⟨ht0, hrange⟩ := not_or.mp hnot
  have ht := toNat_pos ht0
  have hpos : 0 < sample := by omega
  have htq : (0 : ℚ) < targetPpo2.toNat := Nat.cast_pos.mpr ht
  have hscale : 0 < diveo2Scale sample targetPpo2 :=
    div_pos (mul_pos (by norm_num) (Nat.cast_pos.mpr hpos)) htq
  have hagain := calComputeCoeff_diveO2 raw targetPpo2 hscale
  rw [reconstructed_diveo2Scale hpos ht] at hagain
  generalize hsecond : 10000 * raw.natAbs * targetPpo2.toNat / sample = second at hagain ⊢
  have hlow : 8000 * targetPpo2.toNat ≤ second := by
    rw [← hsecond, Nat.le_div_iff_mul_le hpos]
    have := Nat.mul_le_mul_right targetPpo2.toNat (show 8000 * sample ≤ 10000 * raw.natAbs by omega)
    linarith
  have hinj : diveo2Scale second targetPpo2 = diveo2Scale sample targetPpo2 ↔ second = sample := by
    rw [diveo2Scale, diveo2Scale, div_left_inj' htq.ne', mul_right_inj' (by norm_num), Nat.cast_inj]
  rcases hagain with ⟨href, hneg⟩ | ⟨hok, heq⟩
  · refine iff_of_true (.inl hneg) (.inr ?_)
    rcases href with h0 | hlt | hlt
    · exact absurd h0 ht0
    · omega
    · exact hlt
  · obtain ⟨-, hrange'⟩ := not_or.mp hok
    rw [heq, hinj]
    constructor
    · rintro (h | h)
      · exact absurd h (diveo2Scale_nonneg _ _)
      · exact .inl h
    · rintro (h | h)
      · exact .inr h
      · exact absurd (Or.inr h) hrange'

end DiveO2

/-! ## O2S -/

/-- The O2S sample that is got back cannot be calibrated to the target. -/
def RefusedO2S (sample : ℚ) (targetPpo2 : UInt8) : Prop :=
  |sample| < minDivisor ∨ targetPpo2.toNat / centibarPerBar / sample < CellType.o2s.calLower ∨
    CellType.o2s.calUpper < targetPpo2.toNat / centibarPerBar / sample

/-- An O2S cell is recalibrated to the target: the calibration computes the coefficient that is in
use, and what the cell then publishes, the target divided by it, is within one and a half centibar
of the target. -/
structure O2SRecalibrates (cellSample : ℚ) (targetPpo2 : UInt8) (calCoeff : ℚ) : Prop where
  again : 100 * cellSample * calCoeff ^ 2 = targetPpo2.toNat
  notBelow : targetPpo2.toNat ≤ 1 ∨
    (2 * (targetPpo2.toNat : ℚ) - 3) * calCoeff ≤ 2 * targetPpo2.toNat
  notAbove : 253 ≤ targetPpo2.toNat ∨
    2 * (targetPpo2.toNat : ℚ) < (2 * targetPpo2.toNat + 3) * calCoeff

section O2S

variable {cellSample : ℚ} {targetPpo2 : UInt8}

/-- What a calibration computes for an O2S cell. -/
theorem calComputeCoeff_o2s (cellSample : ℚ) (targetPpo2 : UInt8) (calCoeff : ℚ) :
    RefusedO2S (cellSample * calCoeff) targetPpo2 ∧
        (DigitalSample.o2s cellSample).calComputeCoeff targetPpo2 calCoeff < 0 ∨
      ¬ RefusedO2S (cellSample * calCoeff) targetPpo2 ∧
        (DigitalSample.o2s cellSample).calComputeCoeff targetPpo2 calCoeff =
          targetPpo2.toNat / centibarPerBar / (cellSample * calCoeff) := by
  have hcoeff : (DigitalSample.o2s cellSample).calComputeCoeff targetPpo2 calCoeff =
      o2sCalCoefficient (o2sQuotient (cellSample * calCoeff) targetPpo2) := by
    rw [DigitalSample.calComputeCoeff, DigitalSample.precisionPpo2, o2sCalDefault, div_one]
  rw [hcoeff]
  generalize cellSample * calCoeff = sample
  unfold RefusedO2S o2sQuotient
  by_cases hsmall : |sample| < minDivisor
  · rw [if_pos hsmall]
    exact .inl ⟨.inl hsmall, calCoeffErrMath_neg⟩
  · rw [if_neg hsmall, o2sCalCoefficient, calCoefficient]
    by_cases hrange : (targetPpo2.toNat : ℚ) / centibarPerBar / sample < CellType.o2s.calLower ∨
        CellType.o2s.calUpper < (targetPpo2.toNat : ℚ) / centibarPerBar / sample
    · rw [if_pos hrange]
      exact .inl ⟨.inr hrange, calCoeffErrRange_neg⟩
    · rw [if_neg hrange]
      exact .inr ⟨fun h => h.elim hsmall hrange, rfl⟩

/-- The second calibration of an O2S cell computes the coefficient that was used before the
first. -/
theorem o2s_second {calCoeff : ℚ}
    (hc : CellType.o2s.calLower < calCoeff ∧ calCoeff < CellType.o2s.calUpper)
    (hok : ¬ RefusedO2S (cellSample * calCoeff) targetPpo2) :
    (DigitalSample.o2s cellSample).calComputeCoeff targetPpo2
      (targetPpo2.toNat / centibarPerBar / (cellSample * calCoeff)) = calCoeff := by
  simp only [RefusedO2S, not_or, not_lt, minDivisor, CellType.calLower, centibarPerBar] at hok
  obtain ⟨hsmall, hlow, -⟩ := hok
  have hpos : 0 < calCoeff := by
    have := hc.1
    rw [CellType.calLower] at this
    linarith
  have hsample : cellSample ≠ 0 := by
    rintro rfl
    rw [zero_mul, abs_zero] at hsmall
    norm_num at hsmall
  have ht : 0 < targetPpo2.toNat := by
    refine Nat.pos_of_ne_zero fun h => ?_
    rw [h] at hlow
    norm_num at hlow
  have htq : (1 : ℚ) ≤ targetPpo2.toNat := by exact_mod_cast ht
  have hback : cellSample * (targetPpo2.toNat / centibarPerBar / (cellSample * calCoeff)) =
      targetPpo2.toNat / centibarPerBar / calCoeff := by
    field_simp
  have hquot : (targetPpo2.toNat : ℚ) / centibarPerBar /
      (targetPpo2.toNat / centibarPerBar / calCoeff) = calCoeff := by
    rw [centibarPerBar]
    field_simp
  have hcases := calComputeCoeff_o2s cellSample targetPpo2
    (targetPpo2.toNat / centibarPerBar / (cellSample * calCoeff))
  rw [RefusedO2S, hback, hquot] at hcases
  rcases hcases with ⟨href, -⟩ | ⟨-, heq⟩
  · rcases href with htiny | hlt | hlt
    · have hup := hc.2
      rw [CellType.calUpper] at hup
      have hdiv : (0.008 : ℚ) ≤ targetPpo2.toNat / centibarPerBar / calCoeff := by
        rw [centibarPerBar, le_div_iff₀ hpos]
        linarith
      rw [abs_of_pos (by linarith), minDivisor] at htiny
      linarith
    · exact absurd hlt (not_lt.mpr hc.1.le)
    · exact absurd hlt (not_lt.mpr hc.2.le)
  · exact heq

end O2S

/-! ## Exactly when a cell is recalibrated -/

/-- The calibration of a cell is refused, or it finds the cell as it should be. -/
def DigitalSample.Recalibrates (d : DigitalSample) (targetPpo2 : UInt8) (calCoeff : ℚ) : Prop :=
  match d with
  | .diveO2 raw => Refused (reconstructed raw calCoeff) targetPpo2 ∨
      DiveO2Recalibrates raw targetPpo2 (reconstructed raw calCoeff)
  | .o2s cellSample => RefusedO2S (cellSample * calCoeff) targetPpo2 ∨
      O2SRecalibrates cellSample targetPpo2 calCoeff

section Exactly

variable {o : SaveOutcome} {cell cells : ℕ} {p : CalStore × CellDriver} {targetPpo2 : UInt8}

theorem diveO2_recalibrated_iff (ho : o.Complete cells) (hcell : cell < cells)
    (hcells : cells ≤ cellMaxCount) {raw : ℤ} (hc : CellType.diveO2.calLower < p.2.calCoeff) :
    RecalibrationCorrect (.diveO2 raw) targetPpo2 o cell p ↔
      (DigitalSample.diveO2 raw).Recalibrates targetPpo2 p.2.calCoeff := by
  rw [CellType.calLower] at hc
  rw [DigitalSample.Recalibrates]
  have hpos : 0 < p.2.calCoeff := by linarith
  rcases calComputeCoeff_diveO2 raw targetPpo2 hpos with ⟨href, hneg⟩ | ⟨hnot, heq⟩
  · rw [recalibrationCorrect_iff_coeff ho hcell hcells rfl]
    exact iff_of_true (.inl hneg) (.inl href)
  · rw [recalibrationCorrect_iff_coeff ho hcell hcells heq]
    generalize hs : reconstructed raw p.2.calCoeff = sample at hnot
    rw [second_iff hc (hs ▸ hnot) hs]
    obtain ⟨ht0, hrange⟩ := not_or.mp hnot
    have ht := toNat_pos ht0
    have hpos : 0 < sample := by omega
    obtain ⟨hlow, hup⟩ := @diveo2Scale_inside targetPpo2 sample ht
    rw [ppo2_near_iff hpos ht]
    constructor
    · rintro (hneg | ⟨hin, hnear, hagain⟩)
      · exact absurd hneg (diveo2Scale_nonneg _ _)
      · exact .inr ⟨hlow.mp hin.1, hup.mp hin.2, hagain, hnear.1, hnear.2⟩
    · rintro (href | h)
      · exact absurd href hnot
      · exact .inr ⟨⟨hlow.mpr h.low, hup.mpr h.high⟩, ⟨h.notBelow, h.notAbove⟩, h.again⟩

theorem o2s_recalibrated_iff (ho : o.Complete cells) (hcell : cell < cells)
    (hcells : cells ≤ cellMaxCount) {cellSample : ℚ}
    (hc : CellType.o2s.calLower < p.2.calCoeff ∧ p.2.calCoeff < CellType.o2s.calUpper) :
    RecalibrationCorrect (.o2s cellSample) targetPpo2 o cell p ↔
      (DigitalSample.o2s cellSample).Recalibrates targetPpo2 p.2.calCoeff := by
  rw [DigitalSample.Recalibrates]
  rcases calComputeCoeff_o2s cellSample targetPpo2 p.2.calCoeff with ⟨href, hneg⟩ | ⟨hnot, heq⟩
  · rw [recalibrationCorrect_iff_coeff ho hcell hcells rfl]
    exact iff_of_true (.inl hneg) (.inl href)
  · rw [recalibrationCorrect_iff_coeff ho hcell hcells heq, o2s_second hc hnot]
    have hpos : 0 < p.2.calCoeff := by
      have := hc.1
      rw [CellType.calLower] at this
      linarith
    have hsample : cellSample * p.2.calCoeff ≠ 0 := by
      intro h0
      refine hnot (.inl ?_)
      rw [h0, abs_zero]
      norm_num [minDivisor]
    have hsame : p.2.calCoeff = targetPpo2.toNat / centibarPerBar / (cellSample * p.2.calCoeff) ↔
        100 * cellSample * p.2.calCoeff ^ 2 = targetPpo2.toNat := by
      rw [eq_div_iff hsample, centibarPerBar]
      constructor <;> intro h <;> linarith
    have hnear : 100 * cellSample * p.2.calCoeff ^ 2 = targetPpo2.toNat →
        (|(((DigitalSample.o2s cellSample).ppo2 p.2.calCoeff).toNat : ℤ) - targetPpo2.toNat| ≤ 1 ↔
          (targetPpo2.toNat ≤ 1 ∨
            (2 * (targetPpo2.toNat : ℚ) - 3) * p.2.calCoeff ≤ 2 * targetPpo2.toNat) ∧
          (253 ≤ targetPpo2.toNat ∨
            2 * (targetPpo2.toNat : ℚ) < (2 * targetPpo2.toNat + 3) * p.2.calCoeff)) := by
      intro h
      have hx : (DigitalSample.o2s cellSample).precisionPpo2 p.2.calCoeff * centibarPerBar =
          targetPpo2.toNat / p.2.calCoeff := by
        rw [DigitalSample.precisionPpo2, centibarPerBar, eq_div_iff hpos.ne']
        linarith
      rw [DigitalSample.ppo2, hx, ppo2CentibarToWire_near, ← mul_div_assoc, le_div_iff₀ hpos,
        div_lt_iff₀ hpos]
    constructor
    · rintro (hneg | ⟨hin, hpublished, hagain⟩)
      · exact absurd (.inr (.inl (hneg.trans (by norm_num [CellType.calLower])))) hnot
      · have hcoeff := hagain.resolve_left (not_lt.mpr hpos.le)
        rw [← hcoeff] at hpublished
        have hfix := hsame.mp hcoeff
        exact .inr ⟨hfix, ((hnear hfix).mp hpublished).1, ((hnear hfix).mp hpublished).2⟩
    · rintro (href | h)
      · exact absurd href hnot
      · have hcoeff := hsame.mpr h.again
        rw [← hcoeff]
        exact .inr ⟨hc, (hnear h.again).mpr ⟨h.notBelow, h.notAbove⟩, .inr rfl⟩

/-- Calibrating a digital cell with a flash that works is correct, if and only if the calibration is
refused or finds the cell as it should be. -/
theorem recalibrationCorrect_iff (d : DigitalSample) (targetPpo2 : UInt8) (ho : o.Complete cells)
    (hcell : cell < cells) (hcells : cells ≤ cellMaxCount)
    (hc : d.cellType.calLower < p.2.calCoeff ∧ p.2.calCoeff < d.cellType.calUpper) :
    RecalibrationCorrect d targetPpo2 o cell p ↔ d.Recalibrates targetPpo2 p.2.calCoeff := by
  cases d with
  | diveO2 raw => exact diveO2_recalibrated_iff ho hcell hcells hc.1
  | o2s cellSample => exact o2s_recalibrated_iff ho hcell hcells hc

end Exactly

/-- A store with a coefficient for every cell, and a driver that uses it. -/
def calibratedCell (coeff : ℚ) : CalStore × CellDriver :=
  ({ nvs := fun _ => some coeff, cache := fun _ => coeff, loaded := true, writes := [] },
    ⟨coeff, .ok⟩)

/-- A save that works. -/
def SaveOutcome.good : SaveOutcome := ⟨true, true, .good⟩

theorem SaveOutcome.good_complete (cells : ℕ) : SaveOutcome.good.Complete cells :=
  ⟨rfl, rfl, rfl, fun _ _ => rfl⟩

/-- A DiveO2 cell with the default coefficient, at its target already. -/
theorem defaultCell_recalibrates :
    RecalibrationCorrect (.diveO2 1000000) 100 .good 0 (calibratedCell 1000000) := by
  have hsample : reconstructed 1000000 1000000 = 1000000 := by decide +kernel
  refine (recalibrationCorrect_iff (.diveO2 1000000) 100 (SaveOutcome.good_complete 1)
    Nat.zero_lt_one (by decide) (by decide +kernel)).mpr (.inr ?_)
  rw [show (calibratedCell 1000000).2.calCoeff = 1000000 from rfl, hsample]
  constructor <;> decide +kernel

/-- A cell that shows its target with a coefficient of 1050000 shows five centibar more once it is
calibrated to it. -/
theorem shiftedCell_miscalibrated :
    ¬ RecalibrationCorrect (.diveO2 1050000) 100 .good 0 (calibratedCell 1050000) ∧
      (DigitalSample.diveO2 1050000).ppo2 1050000 = 100 ∧
      ((DigitalSample.diveO2 1050000).calibrate 100 .good 0 (calibratedCell 1050000)).2 = .ok ∧
      ((DigitalSample.diveO2 1050000).calibrate 100 .good 0
        (calibratedCell 1050000)).1.2.calCoeff = 1000000 ∧
      (DigitalSample.diveO2 1050000).ppo2 1000000 = 105 := by
  have hok : ((DigitalSample.diveO2 1050000).calibrate 100 .good 0
      (calibratedCell 1050000)).2 = .ok := by decide +kernel
  have hcoeff : ((DigitalSample.diveO2 1050000).calibrate 100 .good 0
      (calibratedCell 1050000)).1.2.calCoeff = 1000000 := by decide +kernel
  refine ⟨fun h => ?_, by decide +kernel, hok, hcoeff, by decide +kernel⟩
  have hpublished := h.published hok
  rw [hcoeff] at hpublished
  exact absurd hpublished (by decide +kernel)

end DiveCANHead.Calibration
