import DiveCANHead.Calibration.Guard
import DiveCANHead.Calibration.Store

/-!
# The calibration state machine (`calibration.c`)

One request is run from `CAL_BACKING_UP` to `CAL_DONE` or `CAL_FAILED`; the response then makes
every driver load its coefficient again. What the cells read and what the flash calls do is an
environment, so that every sequence of failures is a run. The millivolts of the response are left
out.
-/

namespace DiveCANHead.Calibration

open DiveCANHead.Cells

/-- `CalResult_t`, as far as a calibration produces it. -/
inductive CalResult where
  | ok
  | rejected
  | outOfRange
  | failed
  deriving DecidableEq, Repr

/-- The build: its cells, and whether it has both flush solenoids. -/
structure CalBuild where
  cellCount : ℕ
  cellType : ℕ → CellType
  flushSolenoids : Bool
  fits : cellCount ≤ cellMaxCount

/-- What reading a cell and dividing gives. -/
inductive CellSample where
  | timeout
  | value (quotient : Option ℚ)
  deriving DecidableEq, Repr

/-- The message of the reference cell, as far as a calibration reads it. -/
structure RefReading where
  status : CellStatus
  ambientPressureUbar : ℤ
  deriving DecidableEq, Repr

/-- What a calibration meets: the cells, the saves of the new and of the old coefficients, whether
the response is published, and the loads it leads to. -/
structure CalEnv where
  samples : ℕ → CellSample
  reference : Option RefReading
  saves : ℕ → SaveOutcome
  restores : ℕ → SaveOutcome
  published : Bool
  loads : ℕ → FirstLoad

/-! ## One cell -/

/-- `cal_classify_coeff_error`. -/
def calClassifyCoeffError (coeff : ℚ) : CalResult :=
  if coeff ≤ calCoeffErrRangeThreshold then .outOfRange else .failed

/-- How far a coefficient that was read back may be off. -/
def readbackTolerance : ℚ := 0.00001

/-- `cal_validate_and_save`. -/
def calValidateAndSave (o : SaveOutcome) (cell : ℕ) (coeff : ℚ) (s : CalStore) :
    CalStore × CalResult :=
  if coeff < 0 then (s, calClassifyCoeffError coeff)
  else
    match calibrationStoreSave o cell coeff s with
    | (s, false) => (s, .failed)
    | (s, true) =>
      match calibrationStoreLoad s cell with
      | none => (s, .failed)
      | some readback => (s, if readbackTolerance < |readback - coeff| then .failed else .ok)

/-- `calibrate_cell`. -/
def calibrateCell (b : CalBuild) (env : CalEnv) (cell : ℕ) (s : CalStore) : CalStore × CalResult :=
  match env.samples cell with
  | .timeout => (s, .failed)
  | .value q => calValidateAndSave (env.saves cell) cell ((b.cellType cell).coefficient q) s

/-- The loop of a method over the cells: the last result that is not OK counts. -/
def calibrateCells (b : CalBuild) (env : CalEnv) (cells : List ℕ) (s : CalStore) :
    CalStore × CalResult :=
  cells.foldl (fun p cell =>
    let (s, result) := calibrateCell b env cell p.1
    (s, if result = .ok then p.2 else result)) (s, .ok)

/-! ## Methods -/

def CalBuild.cells (b : CalBuild) : List ℕ := List.range b.cellCount

/-- The reading of the first DiveO2 cell. -/
def referenceReading (b : CalBuild) (env : CalEnv) : Option RefReading :=
  if b.cells.any fun i => b.cellType i = .diveO2 then env.reference else none

/-- `cal_digital_reference`. -/
def calDigitalReference (b : CalBuild) (env : CalEnv) (s : CalStore) : CalStore × CalResult :=
  match referenceReading b env with
  | none => (s, .rejected)
  | some ref =>
    let pressureMbar := ref.ambientPressureUbar.tdiv 1000
    if ref.status ≠ .ok then (s, .rejected)
    else if pressureMbar ≤ 0 ∨ 65535 < pressureMbar then (s, .rejected)
    else calibrateCells b env (b.cells.filter fun i => b.cellType i = .analog) s

/-- `cal_compute_target_ppo2`, with `none` for -1. -/
def calComputeTargetPpo2 (fo2 : UInt8) (pressureMbar : UInt16) : Option ℕ :=
  let ppo2 := fo2.toNat * pressureMbar.toNat / 1000
  if maxValidPpo2 < ppo2 then none else some ppo2

/-- The absolute methods, which calibrate every cell. -/
def calAbsolute (b : CalBuild) (env : CalEnv) (req : CalRequest) (s : CalStore) :
    CalStore × CalResult :=
  match calComputeTargetPpo2 req.fo2 req.pressureMbar with
  | none => (s, .rejected)
  | some _ => calibrateCells b env b.cells s

/-- `cal_analog_absolute`. -/
def calAnalogAbsolute (b : CalBuild) (env : CalEnv) (req : CalRequest) (s : CalStore) :
    CalStore × CalResult := calAbsolute b env req s

/-- `cal_total_absolute`. -/
def calTotalAbsolute (b : CalBuild) (env : CalEnv) (req : CalRequest) (s : CalStore) :
    CalStore × CalResult := calAbsolute b env req s

/-- `cal_solenoid_flush`, without the flush. -/
def calSolenoidFlush (b : CalBuild) (env : CalEnv) (req : CalRequest) (s : CalStore) :
    CalStore × CalResult := calTotalAbsolute b env req s

/-- `cal_check`, without the flushes. -/
def calCheck (s : CalStore) : CalStore × CalResult := (s, .ok)

/-! ## States -/

def calFo2Max : UInt8 := 100

/-- `cal_executing_entry`. -/
def calExecuting (b : CalBuild) (env : CalEnv) (req : CalRequest) (s : CalStore) :
    CalStore × CalResult :=
  if req.method = 0 then calDigitalReference b env s
  else if req.method = 1 then calAnalogAbsolute b env req s
  else if req.method = 2 then calTotalAbsolute b env req s
  else if req.method = 3 then calSolenoidFlush b env req s
  else if req.method = 4 ∧ b.flushSolenoids = true then calCheck s
  else (s, .rejected)

/-- `cal_backing_up_entry`: a coefficient that cannot be loaded stays 0. -/
def calBackingUp (s : CalStore) (cell : ℕ) : ℚ := (calibrationStoreLoad s cell).getD 0

/-- `cal_validating_request_entry` and, if it passes, `cal_executing_entry`. -/
def calValidatingRequest (b : CalBuild) (env : CalEnv) (req : CalRequest) (s : CalStore) :
    CalStore × CalResult :=
  if calFo2Max < req.fo2 then (s, .rejected) else calExecuting b env req s

/-- `cal_restoring_on_fail_entry`, for some of the cells. -/
def calRestoring (env : CalEnv) (previousCals : ℕ → ℚ) (cells : List ℕ) (s : CalStore) :
    CalStore :=
  cells.foldl (fun s cell =>
    (calibrationStoreSave (env.restores cell) cell (previousCals cell) s).1) s

/-- The store and the drivers of the cells. -/
structure CalHead where
  store : CalStore
  drivers : ℕ → CellDriver

/-- A driver loads its coefficient. -/
def driverLoadCal (b : CalBuild) (o : FirstLoad) (cell : ℕ) (h : CalHead) : CalHead :=
  let store := calibrationLoadCoefficients o h.store
  { store
    drivers := Function.update h.drivers cell
      ((b.cellType cell).loadCal (calibrationStoreLoad store cell) (h.drivers cell)) }

/-- Some of the drivers load their coefficients: at boot, and when a response is published. -/
def driversLoadCal (b : CalBuild) (loads : ℕ → FirstLoad) (cells : List ℕ) (h : CalHead) :
    CalHead :=
  cells.foldl (fun h cell => driverLoadCal b (loads cell) cell h) h

/-- `run_calibration_sm`, with the response and the drivers that listen to it. -/
def runCalibrationSm (b : CalBuild) (env : CalEnv) (req : CalRequest) (h : CalHead) :
    CalHead × CalResult :=
  let previousCals := calBackingUp h.store
  let (store, result) := calValidatingRequest b env req h.store
  let store := if result = .ok then store else calRestoring env previousCals b.cells store
  let h := { h with store }
  (if env.published then driversLoadCal b env.loads b.cells h else h, result)

/-- The head after a boot: an empty cache, and the drivers load. -/
def bootHead (b : CalBuild) (loads : ℕ → FirstLoad) (nvs : ℕ → Option ℚ) : CalHead :=
  driversLoadCal b loads b.cells
    { store := { nvs, cache := fun _ => 0, loaded := false, writes := [] }
      drivers := fun i => (b.cellType i).initDriver }

end DiveCANHead.Calibration
