import DiveCANHead.Cells.Consensus

/-!
# Calibration coefficients (`calibration_store.c`, `oxygen_cell_math.c`, the cell drivers)

A coefficient is kept in three places: under its key in NVS, in the cache behind the settings
handler, and in the cell's driver. The results of the flash calls come from outside, and so do the
quotients the coefficients are computed from; floats are rationals.
-/

namespace DiveCANHead.Calibration

open DiveCANHead.Cells

inductive CellType where
  | analog
  | diveO2
  | o2s
  deriving DecidableEq, Repr

/-! ## Computed coefficients -/

def CellType.calLower : CellType → ℚ
  | .analog => 0.01428
  | .diveO2 => 800000
  | .o2s => 0.8

def CellType.calUpper : CellType → ℚ
  | .analog => 0.02625
  | .diveO2 => 1100000
  | .o2s => 1.2

/-- Whether a coefficient lies in the calibration envelope of its cell type. -/
def CellType.Valid (t : CellType) (coeff : ℚ) : Prop := t.calLower ≤ coeff ∧ coeff ≤ t.calUpper

def calCoeffErrMath : ℚ := -1

def calCoeffErrRange : ℚ := -2

def calCoeffErrRangeThreshold : ℚ := -1.5

theorem calCoeffErrMath_neg : calCoeffErrMath < 0 := neg_one_lt_zero

theorem calCoeffErrRange_neg : calCoeffErrRange < 0 := neg_neg_of_pos two_pos

/-- How the `*_cal_coefficient` functions end: `none` is a divisor too close to zero. -/
def calCoefficient (t : CellType) : Option ℚ → ℚ
  | none => calCoeffErrMath
  | some coeff => if coeff < t.calLower ∨ t.calUpper < coeff then calCoeffErrRange else coeff

/-- `analog_cal_coefficient`. -/
def analogCalCoefficient : Option ℚ → ℚ := calCoefficient .analog

/-- `diveo2_cal_coefficient`. -/
def diveo2CalCoefficient : Option ℚ → ℚ := calCoefficient .diveO2

/-- `o2s_cal_coefficient`. -/
def o2sCalCoefficient : Option ℚ → ℚ := calCoefficient .o2s

/-- The function the build compiles in for a cell. -/
def CellType.coefficient : CellType → Option ℚ → ℚ
  | .analog => analogCalCoefficient
  | .diveO2 => diveo2CalCoefficient
  | .o2s => o2sCalCoefficient

theorem CellType.coefficient_eq (t : CellType) : t.coefficient = calCoefficient t := by
  cases t <;> rfl

/-- A coefficient that is no error sentinel lies in the envelope. -/
theorem CellType.coefficient_valid {t : CellType} {q : Option ℚ} (h : ¬ t.coefficient q < 0) :
    t.Valid (t.coefficient q) := by
  rw [t.coefficient_eq] at h ⊢
  cases q with
  | none => exact absurd calCoeffErrMath_neg h
  | some coeff =>
    simp only [calCoefficient] at h ⊢
    split at h
    · exact absurd calCoeffErrRange_neg h
    · rename_i hin
      rw [if_neg hin]
      obtain ⟨hlow, hup⟩ := not_or.mp hin
      exact ⟨le_of_not_gt hlow, le_of_not_gt hup⟩

/-! ## The store -/

/-- A call of `ext_flash_settings_save_one` for a coefficient. -/
structure CalWrite where
  cell : ℕ
  coeff : ℚ
  deriving DecidableEq, Repr

/-- NVS under `cal/cell<n>`, the cache, the load-once flag, and the writes so far, the newest
first. -/
structure CalStore where
  nvs : ℕ → Option ℚ
  cache : ℕ → ℚ
  loaded : Bool
  writes : List CalWrite

/-- What a load of the subtree does: its result, and the keys whose value reached the handler. -/
structure LoadOutcome where
  ok : Bool
  reached : ℕ → Bool

/-- What a save does: its result, whether NVS took the value, and the load after it. -/
structure SaveOutcome where
  ok : Bool
  stored : Bool
  load : LoadOutcome

/-- `ext_flash_settings_load_subtree`: the handler is called for the keys there are. -/
def loadSubtree (o : LoadOutcome) (s : CalStore) : CalStore :=
  { s with cache := fun i => if o.reached i then (s.nvs i).getD (s.cache i) else s.cache i }

/-- `calibration_store_save`, and whether it returned 0. -/
def calibrationStoreSave (o : SaveOutcome) (cell : ℕ) (coeff : ℚ) (s : CalStore) :
    CalStore × Bool :=
  let s := { s with writes := ⟨cell, coeff⟩ :: s.writes }
  let s := if o.stored then { s with nvs := Function.update s.nvs cell (some coeff) } else s
  if o.ok then (loadSubtree o.load s, o.load.ok) else (s, false)

/-- `CELL_MAX_COUNT`. -/
def cellMaxCount : ℕ := 3

/-- `calibration_store_load`, which asks the handler and so the cache. -/
def calibrationStoreLoad (s : CalStore) (cell : ℕ) : Option ℚ :=
  if cell < cellMaxCount then some (s.cache cell) else none

/-- `settings_subsys_init` and the load of `calibration_load_coefficients`. -/
structure FirstLoad where
  initOk : Bool
  load : LoadOutcome

/-- `calibration_load_coefficients`. -/
def calibrationLoadCoefficients (o : FirstLoad) (s : CalStore) : CalStore :=
  if s.loaded then s
  else if o.initOk then
    let s := loadSubtree o.load s
    if o.load.ok then { s with loaded := true } else s
  else s

/-! ## The drivers -/

/-- What a cell's driver keeps of its calibration. -/
structure CellDriver where
  calCoeff : ℚ
  status : CellStatus
  deriving DecidableEq, Repr

/-- `analog_load_cal`: an invalid coefficient leaves the old one. -/
def analogLoadCal (stored : Option ℚ) (d : CellDriver) : CellDriver :=
  match stored with
  | some coeff =>
    if CellType.analog.calLower ≤ coeff ∧ coeff ≤ CellType.analog.calUpper then ⟨coeff, .ok⟩
    else { d with status := .needCal }
  | none => { d with status := .needCal }

/-- How a digital driver loads its coefficient: strictly inside the envelope, or the default. -/
def digitalLoadCal (t : CellType) (default : ℚ) (stored : Option ℚ) : CellDriver :=
  match stored with
  | some coeff => if t.calLower < coeff ∧ coeff < t.calUpper then ⟨coeff, .ok⟩ else ⟨default, .fail⟩
  | none => ⟨default, .fail⟩

/-- `DIVEO2_CAL_DEFAULT`. -/
def diveo2CalDefault : ℚ := 1000000

/-- `O2S_CAL_DEFAULT`. -/
def o2sCalDefault : ℚ := 1

/-- `diveo2_load_cal`. -/
def diveo2LoadCal (stored : Option ℚ) : CellDriver :=
  digitalLoadCal .diveO2 diveo2CalDefault stored

/-- `o2s_load_cal`. -/
def o2sLoadCal (stored : Option ℚ) : CellDriver := digitalLoadCal .o2s o2sCalDefault stored

def CellType.loadCal : CellType → Option ℚ → CellDriver → CellDriver
  | .analog, stored, d => analogLoadCal stored d
  | .diveO2, stored, _ => diveo2LoadCal stored
  | .o2s, stored, _ => o2sLoadCal stored

/-- A driver as it is linked in. -/
def CellType.initDriver : CellType → CellDriver
  | .analog => ⟨0, .needCal⟩
  | .diveO2 => ⟨diveo2CalDefault, .fail⟩
  | .o2s => ⟨o2sCalDefault, .fail⟩

/-- Loading a coefficient again changes nothing. -/
theorem CellType.loadCal_loadCal (t : CellType) (stored : Option ℚ) (d : CellDriver) :
    t.loadCal stored (t.loadCal stored d) = t.loadCal stored d := by
  cases t with
  | diveO2 | o2s => rfl
  | analog =>
    cases stored with
    | none => rfl
    | some coeff =>
      simp only [CellType.loadCal, analogLoadCal]
      split <;> rfl

/-! ## Saves that succeed -/

/-- A load that reaches every cell of the build. -/
structure LoadOutcome.Complete (o : LoadOutcome) (cells : ℕ) : Prop where
  ok : o.ok = true
  reached : ∀ i, i < cells → o.reached i = true

structure SaveOutcome.Complete (o : SaveOutcome) (cells : ℕ) : Prop where
  ok : o.ok = true
  stored : o.stored = true
  load : o.load.Complete cells

@[simp]
theorem loadSubtree_nvs (o : LoadOutcome) (s : CalStore) : (loadSubtree o s).nvs = s.nvs := rfl

@[simp]
theorem loadSubtree_writes (o : LoadOutcome) (s : CalStore) :
    (loadSubtree o s).writes = s.writes := rfl

theorem loadSubtree_cache {o : LoadOutcome} {s : CalStore} {i : ℕ} {coeff : ℚ}
    (ho : o.reached i = true) (h : s.nvs i = some coeff) : (loadSubtree o s).cache i = coeff := by
  simp [loadSubtree, ho, h]

/-- A load leaves a cache that agrees with NVS. -/
theorem loadSubtree_agrees {s : CalStore} {i : ℕ} {coeff : ℚ} (o : LoadOutcome)
    (hn : s.nvs i = some coeff) (hc : s.cache i = coeff) : (loadSubtree o s).cache i = coeff := by
  simp [loadSubtree, hn, hc]

@[simp]
theorem calibrationStoreSave_writes (o : SaveOutcome) (cell : ℕ) (coeff : ℚ) (s : CalStore) :
    (calibrationStoreSave o cell coeff s).1.writes = ⟨cell, coeff⟩ :: s.writes := by
  simp only [calibrationStoreSave]
  split <;> split <;> rfl

theorem calibrationStoreSave_complete {o : SaveOutcome} {cells : ℕ} (ho : o.Complete cells)
    (cell : ℕ) (coeff : ℚ) (s : CalStore) :
    (calibrationStoreSave o cell coeff s).1 =
      loadSubtree o.load
        { s with
          writes := ⟨cell, coeff⟩ :: s.writes
          nvs := Function.update s.nvs cell (some coeff) } := by
  simp only [calibrationStoreSave, ho.ok, ho.stored, if_true]

@[simp]
theorem calibrationLoadCoefficients_nvs (o : FirstLoad) (s : CalStore) :
    (calibrationLoadCoefficients o s).nvs = s.nvs := by
  simp only [calibrationLoadCoefficients]
  repeat' split
  all_goals rfl

@[simp]
theorem calibrationLoadCoefficients_writes (o : FirstLoad) (s : CalStore) :
    (calibrationLoadCoefficients o s).writes = s.writes := by
  simp only [calibrationLoadCoefficients]
  repeat' split
  all_goals rfl

theorem calibrationLoadCoefficients_agrees {s : CalStore} {i : ℕ} {coeff : ℚ} (o : FirstLoad)
    (hn : s.nvs i = some coeff) (hc : s.cache i = coeff) :
    (calibrationLoadCoefficients o s).cache i = coeff := by
  simp only [calibrationLoadCoefficients]
  repeat' split
  · exact hc
  · exact loadSubtree_agrees o.load hn hc
  · exact loadSubtree_agrees o.load hn hc
  · exact hc

end DiveCANHead.Calibration
