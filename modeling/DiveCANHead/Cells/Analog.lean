import DiveCANHead.Calibration.Store
import DiveCANHead.Cells.Digital
import DiveCANHead.Lib.Runs

/-!
# The analog cell (`oxygen_cell_analog.c`)

The thread loads a coefficient, then samples and publishes for ever; a finished calibration reloads
the coefficient from the calibration thread, between any two steps of this one. One status stands
both for a missing calibration and for a fault of a reading, and a fault is forgotten at the next
fresh reading. Floats are rationals.
-/

namespace DiveCANHead.Cells

open DiveCANHead.Lib DiveCANHead.Calibration

/-! ## The cell -/

def countsToMillis : ℚ := 0.256 * 100000 / 32767

/-- `analog_counts_to_mv`. -/
def analogCountsToMv (adcCounts : ℤ) : UInt16 :=
  UInt16.ofNat (roundAway ((adcCounts.natAbs : ℚ) * countsToMillis)).toNat

/-- `analog_calculate_ppo2`, in centibar. -/
def analogCalculatePpo2 (adcCounts : ℤ) (calCoeff : ℚ) : ℚ :=
  adcCounts.natAbs * countsToMillis * calCoeff

/-- `struct analog_cell_state`, without the converter's part. -/
structure AnalogCell where
  calCoeff : ℚ
  status : CellStatus
  lastCounts : ℤ
  lastReadingTicks : ℤ
  deriving DecidableEq, Repr

/-- `OxygenCellMsg_t` with what an analog cell fills in. -/
structure AnalogMsg extends OxygenCellMsg where
  rawSample : ℤ
  deriving DecidableEq, Repr

/-- `analog_load_cal`, as far as it writes the cell. -/
def analogReload (stored : Option ℚ) (cell : AnalogCell) : AnalogCell :=
  let driver := analogLoadCal stored ⟨cell.calCoeff, cell.status⟩
  { cell with calCoeff := driver.calCoeff, status := driver.status }

/-- Whether a load is accepted: there is a coefficient, and it is in range. -/
def loadAccepted (stored : Option ℚ) : Bool := (analogLoadCal stored ⟨0, .needCal⟩).status == .ok

/-- `ANALOG_RESPONSE_TIMEOUT_MS` in ticks. -/
def analogTimeoutTicks (rate : ℕ) : ℤ := kMsToTicksCeil64 rate 1000

/-- The message `analog_publish` ends in. -/
def analogMsg (cell : AnalogCell) (calPpo2 : ℚ) (timestampTicks : ℤ) : AnalogMsg where
  ppo2 := ppo2CentibarToWire calPpo2
  precisionPpo2 := calPpo2 / 100
  millivolts := analogCountsToMv cell.lastCounts
  status := cell.status
  timestampTicks := timestampTicks
  rawSample := cell.lastCounts

/-- The datapoint the thread lodges before its first reading. -/
def analogInitMsg (cell : AnalogCell) (timestampTicks : ℤ) : AnalogMsg where
  ppo2 := 0
  precisionPpo2 := 0
  millivolts := 0
  status := cell.status
  timestampTicks := timestampTicks
  rawSample := 0

/-! ## The thread -/

/-- Where the thread is: waiting for the settings; past its own load; about to write a failure over
a status that was not a missing calibration; about to lodge its first datapoint and to set up the
converter; in the loop; with a reading; about to write a good status over one that was not a missing
calibration; about to convert, to check the range and to publish; or gone. -/
inductive AnalogPhase where
  | waiting
  | loaded
  | failing
  | introducing
  | setup
  | idle
  | sampled
  | recovering
  | due
  | converted (calPpo2 : ℚ)
  | ready (calPpo2 : ℚ)
  | stopped
  deriving DecidableEq, Repr

/-- The cell, its thread and its channel; for the statements only, whether the last load was
rejected or failed. -/
structure AnalogSystem where
  cell : AnalogCell
  phase : AnalogPhase
  channel : Option AnalogMsg
  rejected : Bool
  deriving DecidableEq, Repr

/-- The calibration thread, and the steps of this one. -/
inductive AnalogEvent where
  | calDone (stored : Option ℚ)
  | load (stored : Option ℚ)
  | giveUp
  | testStart
  | failStart
  | introduce (now : ℤ)
  | initAdc (ok : Bool)
  | read (counts : Option ℤ) (now : ℤ)
  | judge (now : ℤ)
  | recover
  | convert
  | checkRange
  | publish (now : ℤ)
  deriving DecidableEq, Repr

def AnalogSystem.reload (s : AnalogSystem) (stored : Option ℚ) : AnalogSystem :=
  { s with cell := analogReload stored s.cell, rejected := !loadAccepted stored }

def AnalogSystem.withStatus (s : AnalogSystem) (status : CellStatus) (phase : AnalogPhase) :
    AnalogSystem :=
  { s with cell := { s.cell with status := status }, phase := phase }

/-- The first lines of `analog_publish`: a stale reading fails the cell, a fresh one is to recover
it unless its calibration is missing. -/
def AnalogSystem.judged (rate : ℕ) (s : AnalogSystem) (now : ℤ) : AnalogSystem :=
  if now - s.cell.lastReadingTicks > analogTimeoutTicks rate then s.withStatus .fail .due
  else if s.cell.status ≠ .needCal then { s with phase := .recovering }
  else { s with phase := .due }

def analogStep (rate : ℕ) (s : AnalogSystem) : AnalogEvent → Option AnalogSystem
  | .calDone stored => some (s.reload stored)
  | .load stored =>
    if s.phase = .waiting then some { s.reload stored with phase := .loaded } else none
  | .giveUp => if s.phase = .waiting then some { s with phase := .loaded } else none
  | .testStart =>
    if s.phase = .loaded then
      some { s with phase := if s.cell.status ≠ .needCal then .failing else .introducing }
    else none
  | .failStart => if s.phase = .failing then some (s.withStatus .fail .introducing) else none
  | .introduce now =>
    if s.phase = .introducing then
      some { s with channel := some (analogInitMsg s.cell now), phase := .setup }
    else none
  | .initAdc ok =>
    if s.phase = .setup then
      some (if ok then { s with phase := .idle } else s.withStatus .fail .stopped)
    else none
  | .read counts now =>
    if s.phase = .idle then
      match counts with
      | some counts =>
        some { s with
          cell := { s.cell with lastCounts := counts, lastReadingTicks := now }
          phase := .sampled }
      | none => some s
    else none
  | .judge now => if s.phase = .sampled then some (s.judged rate now) else none
  | .recover => if s.phase = .recovering then some (s.withStatus .ok .due) else none
  | .convert =>
    if s.phase = .due then
      some { s with phase := .converted (analogCalculatePpo2 s.cell.lastCounts s.cell.calCoeff) }
    else none
  | .checkRange =>
    match s.phase with
    | .converted calPpo2 =>
      some (s.withStatus (if calPpo2 > ppo2OverrangeLimit then .fail else s.cell.status)
        (.ready calPpo2))
    | _ => none
  | .publish now =>
    match s.phase with
    | .ready calPpo2 =>
      some { s with channel := some (analogMsg s.cell calPpo2 now), phase := .idle }
    | _ => none

/-- The cell as it is linked in. -/
def analogBoot : AnalogSystem where
  cell := ⟨0, .needCal, 0, 0⟩
  phase := .waiting
  channel := none
  rejected := false

/-! ## A cell whose load was rejected -/

/-- What is asked of a step: nothing is published as good while the last load was a rejected or a
failed one. -/
def NeverGood (s : AnalogSystem) (e : AnalogEvent) (t : AnalogSystem) : Prop :=
  (∃ now, e = .introduce now ∨ e = .publish now) → s.rejected = true →
    ∀ msg, t.channel = some msg → msg.status ≠ .ok

/-- The conditions on a step: a fresh reading finds a rejected cell still in want of calibration, no
fault having been written over that since the load; and no load is rejected between the test of the
status and the write of a good one. -/
def AnalogEvent.clean (rate : ℕ) (s : AnalogSystem) : AnalogEvent → Bool
  | .judge now =>
    !s.rejected || analogTimeoutTicks rate < now - s.cell.lastReadingTicks ||
      s.cell.status == .needCal
  | .recover => !s.rejected
  | _ => true

theorem analogReload_status (stored : Option ℚ) (cell : AnalogCell) :
    (analogReload stored cell).status = if loadAccepted stored then .ok else .needCal := by
  cases stored with
  | none => rfl
  | some coeff =>
    by_cases hin : CellType.analog.calLower ≤ coeff ∧ coeff ≤ CellType.analog.calUpper
    · simp [analogReload, loadAccepted, analogLoadCal, hin]
    · simp [analogReload, loadAccepted, analogLoadCal, hin]

/-- What every step keeps: a rejected cell is not good. -/
def AnalogInv (s : AnalogSystem) : Prop := s.rejected = true → s.cell.status ≠ .ok

theorem analogInv_reload (s : AnalogSystem) (stored : Option ℚ) : AnalogInv (s.reload stored) := by
  intro hrej hok
  have hacc : loadAccepted stored = false := by simpa [AnalogSystem.reload] using hrej
  simp only [AnalogSystem.reload, analogReload_status, hacc] at hok
  exact absurd hok (by simp)

theorem analogInv_fail (s : AnalogSystem) (phase : AnalogPhase) :
    AnalogInv (s.withStatus .fail phase) := fun _ => by simp [AnalogSystem.withStatus]

theorem AnalogInv.step {rate : ℕ} {s t : AnalogSystem} {e : AnalogEvent} (hi : AnalogInv s)
    (hc : e.clean rate s = true) (hstep : analogStep rate s e = some t) : AnalogInv t := by
  cases e with
  | calDone stored => exact Option.some.inj hstep ▸ analogInv_reload s stored
  | load stored =>
    obtain ⟨-, ht⟩ := Option.ite_none_right_eq_some.mp hstep
    exact Option.some.inj ht ▸ analogInv_reload s stored
  | giveUp | testStart | introduce now | convert =>
    obtain ⟨-, ht⟩ := Option.ite_none_right_eq_some.mp hstep
    exact Option.some.inj ht ▸ hi
  | failStart =>
    obtain ⟨-, ht⟩ := Option.ite_none_right_eq_some.mp hstep
    exact Option.some.inj ht ▸ analogInv_fail s _
  | initAdc ok =>
    obtain ⟨-, ht⟩ := Option.ite_none_right_eq_some.mp hstep
    cases ok with
    | true => exact Option.some.inj ht ▸ hi
    | false => exact Option.some.inj ht ▸ analogInv_fail s _
  | read counts now =>
    obtain ⟨-, ht⟩ := Option.ite_none_right_eq_some.mp hstep
    cases counts with
    | none => exact Option.some.inj ht ▸ hi
    | some counts => exact Option.some.inj ht ▸ hi
  | judge now =>
    obtain ⟨-, ht⟩ := Option.ite_none_right_eq_some.mp hstep
    rw [← Option.some.inj ht, AnalogSystem.judged]
    split
    · exact analogInv_fail s _
    · split
      · exact hi
      · exact hi
  | recover =>
    obtain ⟨-, ht⟩ := Option.ite_none_right_eq_some.mp hstep
    have hgood : s.rejected = false := by simpa [AnalogEvent.clean] using hc
    rw [← Option.some.inj ht]
    exact fun hrej => absurd (hgood.symm.trans hrej) (by simp)
  | checkRange =>
    simp only [analogStep] at hstep
    split at hstep
    · rename_i calPpo2 _
      rw [← Option.some.inj hstep]
      intro hrej
      simp only [AnalogSystem.withStatus]
      split
      · simp
      · exact hi hrej
    · exact absurd hstep (by simp)
  | publish now =>
    simp only [analogStep] at hstep
    split at hstep
    · exact Option.some.inj hstep ▸ hi
    · exact absurd hstep (by simp)

theorem AnalogInv.neverGood {rate : ℕ} {s t : AnalogSystem} {e : AnalogEvent} (hi : AnalogInv s)
    (hstep : analogStep rate s e = some t) : NeverGood s e t := by
  rintro ⟨now, rfl | rfl⟩ hrej msg hmsg
  · obtain ⟨-, ht⟩ := Option.ite_none_right_eq_some.mp hstep
    rw [← Option.some.inj ht] at hmsg
    exact Option.some.inj hmsg ▸ hi hrej
  · simp only [analogStep] at hstep
    split at hstep
    · rw [← Option.some.inj hstep] at hmsg
      exact Option.some.inj hmsg ▸ hi hrej
    · exact absurd hstep (by simp)

/-- From the boot into the loop, with a coefficient in range. -/
def analogStart : List AnalogEvent :=
  [.load (some 0.02), .testStart, .failStart, .introduce 0, .initAdc true]

/-- One reading of a cell in want of calibration. -/
def uncalibratedReading (counts now : ℤ) : List AnalogEvent :=
  [.read (some counts) now, .judge now, .convert, .checkRange, .publish now]

/-- One fresh reading of any other cell. -/
def recoveringReading (counts now : ℤ) : List AnalogEvent :=
  [.read (some counts) now, .judge now, .recover, .convert, .checkRange, .publish now]

end DiveCANHead.Cells
