import DiveCANHead.Calibration.Store
import DiveCANHead.Cells.Digital
import DiveCANHead.Lib.Bytes

/-!
# The DiveO2 cell (`oxygen_cell_diveo2.c`)

The receive interrupt gathers bytes into lines and leaves the last one in a mailbox; the thread
takes it, parses it, and publishes what the cell last said after a check of its age, of the supply
and of its range. The calibration thread writes the status too, between any two steps of the thread.
Floats are rationals, a `long` has 32 bits, and the errors that are only reported are left out.
-/

namespace DiveCANHead.Cells

open DiveCANHead.Lib DiveCANHead.Calibration

/-! ## Parsing -/

/-- `DIVEO2_RX_BUFFER_LEN`. -/
def diveo2RxBufferLen : ℕ := 86

def errLowIntensity : ℕ := 0x2
def errHighSignal : ℕ := 0x4
def errLowSignal : ℕ := 0x8
def errHighRef : ℕ := 0x10
def errTemp : ℕ := 0x20

def warnNearSat : ℕ := 0x1
def warnHumidityHigh : ℕ := 0x40
def warnPressure : ℕ := 0x80
def warnHumidityFail : ℕ := 0x100

/-- `diveo2_parse_error_code`: only the lowest 16 bits are tested. -/
def diveo2ParseErrorCode (errStr : Text) : CellStatus :=
  let errCode := ((strtol errStr).1 % 65536).toNat
  if errCode &&& (errLowIntensity ||| errHighSignal ||| errLowSignal ||| errHighRef ||| errTemp) ≠ 0
  then .fail
  else if errCode &&& (warnHumidityFail ||| warnPressure ||| warnHumidityHigh ||| warnNearSat) ≠ 0
  then .degraded
  else if errCode > 0 then .fail
  else .ok

/-- `diveo2_parse_i32`: the whole token, or nothing. -/
def diveo2ParseI32 (tok : Text) : Option ℤ :=
  if tok ≠ [] ∧ (strtol tok).2 ≠ tok ∧ (strtol tok).2 = [] then some (strtol tok).1 else none

/-- `diveo2_header_is`. -/
def diveo2HeaderIs (hdr suffix : Text) : Bool :=
  match hdr with
  | hash :: family :: body =>
    hash == '#'.toUInt8 && (family == 'D'.toUInt8 || family == 'M'.toUInt8) && body == suffix
  | _ => false

def rawSuffix : Text := ascii ['R', 'A', 'W']

def oxySuffix : Text := ascii ['O', 'X', 'Y']

/-- `" "`, the separator of a message. -/
def blank : UInt8 := 0x20

/-- A parser's own copy of a message, cut into tokens. -/
def messageTokens (message : Text) : List Text :=
  tokens blank (message.take (diveo2RxBufferLen - 1))

/-- `diveo2_is_measurement`. -/
def diveo2IsMeasurement (msg : Text) : Bool :=
  match messageTokens msg with
  | hdr :: _ => diveo2HeaderIs hdr rawSuffix || diveo2HeaderIs hdr oxySuffix
  | [] => false

/-- `CellProtocol_t`. -/
inductive CellProtocol where
  | unknown
  | diveO2
  | pyro
  deriving DecidableEq, Repr

/-- `diveo2_detect_protocol`. -/
def diveo2DetectProtocol (message : Text) : CellProtocol :=
  if message.take 2 = ascii ['#', 'D'] then .diveO2
  else if message.take 2 = ascii ['#', 'M'] then .pyro
  else .unknown

/-- `DIVEO2_SIMPLE_FIELD_COUNT`. -/
def diveo2SimpleFieldCount : ℕ := 3

/-- `DIVEO2_DETAILED_FIELD_COUNT`. -/
def diveo2DetailedFieldCount : ℕ := 8

/-- What `diveo2_parse_simple_response` puts out. -/
structure DiveO2SimpleReading where
  rawPpo2Millihpa : ℤ
  temperatureMc : ℤ
  status : CellStatus
  deriving DecidableEq, Repr

/-- `DiveO2DetailedReading_t`. -/
structure DiveO2DetailedReading where
  rawPpo2Millihpa : ℤ
  temperatureMc : ℤ
  errCode : ℤ
  phaseMdeg : ℤ
  signalIntensityUv : ℤ
  ambientLightUv : ℤ
  ambientPressureUbar : ℤ
  housingHumidityMpercentRh : ℤ
  status : CellStatus
  deriving DecidableEq, Repr

/-- The token of the error code, after the header. -/
def errField (fields : List Text) : Text := fields.getD 2 []

/-- `diveo2_parse_simple_response`. -/
def diveo2ParseSimpleResponse (message : Text) : Option DiveO2SimpleReading :=
  match messageTokens message with
  | cmdName :: fields =>
    if diveo2HeaderIs cmdName oxySuffix then
      match readFields diveo2ParseI32 diveo2SimpleFieldCount fields with
      | some [p, t, _] => some ⟨p, t, diveo2ParseErrorCode (errField fields)⟩
      | _ => none
    else none
  | [] => none

/-- `diveo2_parse_detailed_response`. -/
def diveo2ParseDetailedResponse (message : Text) : Option DiveO2DetailedReading :=
  match messageTokens message with
  | cmdName :: fields =>
    if diveo2HeaderIs cmdName rawSuffix then
      match readFields diveo2ParseI32 diveo2DetailedFieldCount fields with
      | some [ppo2, temperature, err, phase, intensity, ambient, pressure, humidity] =>
        some ⟨ppo2, temperature, err, phase, intensity, ambient, pressure, humidity,
          diveo2ParseErrorCode (errField fields)⟩
      | _ => none
    else none
  | [] => none

/-! ## The cell's state -/

/-- `struct diveo2_cell_state`, without what the detection of the protocol and the transmitter
use. The line the interrupt gathers is `rx_line` up to `rx_line_len`. -/
structure DiveO2Cell where
  protocol : CellProtocol
  calCoeff : ℚ
  status : CellStatus
  rawPpo2Millihpa : ℤ
  temperatureMc : ℤ
  errCode : ℕ
  phaseMdeg : ℤ
  signalIntensityUv : ℤ
  ambientLightUv : ℤ
  ambientPressureUbar : ℤ
  housingHumidityMpercentRh : ℤ
  lastPpo2Ticks : ℤ
  lastMessage : List UInt8
  rxLine : List UInt8
  rxLen : ℕ
  rxSem : Bool
  deriving DecidableEq, Repr

/-- `OxygenCellMsg_t` with what only a DiveO2 cell fills in. -/
structure DiveO2Msg extends OxygenCellMsg where
  rawSample : ℤ
  temperatureMc : ℤ
  errCode : ℕ
  phaseMdeg : ℤ
  signalIntensityUv : ℤ
  ambientLightUv : ℤ
  ambientPressureUbar : ℤ
  housingHumidityMpercentRh : ℤ
  deriving DecidableEq, Repr

/-- One byte of `diveo2_feed_rx`. -/
def diveo2FeedByte (cell : DiveO2Cell) (byte : UInt8) : DiveO2Cell :=
  if isLineEnd byte then
    if cell.rxLine = [] then cell
    else
      { cell with
        lastMessage := overlay cell.lastMessage 0 (cell.rxLine ++ [0])
        rxLen := cell.rxLine.length
        rxLine := []
        rxSem := true }
  else if cell.rxLine.length < diveo2RxBufferLen - 1 then
    { cell with rxLine := cell.rxLine ++ [byte] }
  else { cell with rxLine := [] }

/-- `diveo2_rearm_rx`. -/
def diveo2RearmRx (cell : DiveO2Cell) : DiveO2Cell := { cell with rxLine := [] }

/-- `diveo2_rx_sync`. -/
def diveo2RxSync (cell : DiveO2Cell) : DiveO2Cell := { cell with rxLine := [], rxSem := false }

/-- `diveo2_load_cal`, as far as it writes the cell. -/
def diveo2Reload (stored : Option ℚ) (cell : DiveO2Cell) : DiveO2Cell :=
  { cell with
    calCoeff := (diveo2LoadCal stored).calCoeff
    status := (diveo2LoadCal stored).status }

/-- `diveo2_apply_detailed`. -/
def diveo2ApplyDetailed (now : ℤ) (r : DiveO2DetailedReading) (cell : DiveO2Cell) : DiveO2Cell :=
  { cell with
    rawPpo2Millihpa := r.rawPpo2Millihpa
    temperatureMc := r.temperatureMc
    errCode := toWord 32 r.errCode
    phaseMdeg := r.phaseMdeg
    signalIntensityUv := r.signalIntensityUv
    ambientLightUv := r.ambientLightUv
    ambientPressureUbar := r.ambientPressureUbar
    housingHumidityMpercentRh := r.housingHumidityMpercentRh
    status := r.status
    lastPpo2Ticks := now }

/-- `diveo2_apply_simple`. -/
def diveo2ApplySimple (now : ℤ) (r : DiveO2SimpleReading) (cell : DiveO2Cell) : DiveO2Cell :=
  { cell with
    rawPpo2Millihpa := r.rawPpo2Millihpa
    temperatureMc := r.temperatureMc
    errCode := 0
    phaseMdeg := 0
    signalIntensityUv := 0
    ambientLightUv := 0
    ambientPressureUbar := 0
    housingHumidityMpercentRh := 0
    status := r.status
    lastPpo2Ticks := now }

/-- The text `diveo2_process_rx` parses. -/
def diveo2Message (lastMessage : List UInt8) : Text :=
  prepareMessageBuffer cr (diveo2RxBufferLen - ·) lastMessage diveo2RxBufferLen

/-- `diveo2_process_rx`. -/
def diveo2ProcessRx (now : ℤ) (cell : DiveO2Cell) : DiveO2Cell :=
  let msgArray := diveo2Message cell.lastMessage
  match diveo2ParseDetailedResponse msgArray with
  | some reading =>
    { diveo2ApplyDetailed now reading cell with protocol := diveo2DetectProtocol msgArray }
  | none =>
    match diveo2ParseSimpleResponse msgArray with
    | some reading =>
      { diveo2ApplySimple now reading cell with protocol := diveo2DetectProtocol msgArray }
    | none => if diveo2IsMeasurement msgArray then { cell with status := .fail } else cell

/-! ## The broadcast -/

/-- `DIGITAL_RESPONSE_TIMEOUT_MS` in ticks. -/
def diveo2TimeoutTicks (rate : ℕ) : ℤ := kMsToTicksCeil64 rate 1000

def DiveO2Cell.precisionPpo2 (cell : DiveO2Cell) : ℚ := cell.rawPpo2Millihpa / cell.calCoeff

def overrangeChecked (precisionPpo2 : ℚ) (status : CellStatus) : CellStatus :=
  if precisionPpo2 * centibarPerBar > ppo2OverrangeLimit then .fail else status

/-- The message `diveo2_broadcast` publishes. -/
def diveo2Msg (cell : DiveO2Cell) (precisionPpo2 : ℚ) (timestampTicks : ℤ) : DiveO2Msg where
  ppo2 := ppo2CentibarToWire (precisionPpo2 * centibarPerBar)
  precisionPpo2 := precisionPpo2
  millivolts := 0
  status := cell.status
  timestampTicks := timestampTicks
  rawSample := cell.rawPpo2Millihpa
  temperatureMc := cell.temperatureMc
  errCode := cell.errCode
  phaseMdeg := cell.phaseMdeg
  signalIntensityUv := cell.signalIntensityUv
  ambientLightUv := cell.ambientLightUv
  ambientPressureUbar := cell.ambientPressureUbar
  housingHumidityMpercentRh := cell.housingHumidityMpercentRh

/-! ## What was received -/

/-- The PPO2 and the error code of a well-formed measurement, exactly as they were sent. -/
structure FrameReading where
  ppo2 : ℤ
  errCode : ℤ
  deriving DecidableEq, Repr

/-- A line with the header of a measurement: malformed where a field is missing or no integer. -/
def readingOf (count : ℕ) (fields : List Text) : Option FrameReading :=
  match readFields integerOf count fields with
  | some (ppo2 :: _ :: errCode :: _) => some ⟨ppo2, errCode⟩
  | _ => none

/-- What a line says: nothing about the gas, or a measurement that may be malformed. -/
def measurementOf (line : Text) : Option (Option FrameReading) :=
  match tokens blank line with
  | hdr :: fields =>
    if diveo2HeaderIs hdr rawSuffix then some (readingOf diveo2DetailedFieldCount fields)
    else if diveo2HeaderIs hdr oxySuffix then some (readingOf diveo2SimpleFieldCount fields)
    else none
  | [] => none

/-- A measurement frame as the thread received it, and when. -/
structure Measurement where
  ticks : ℤ
  reading : Option FrameReading
  deriving DecidableEq, Repr

/-- Well-formed, with an error code that is zero as a number. -/
def Measurement.Good (m : Measurement) : Prop := m.reading.map FrameReading.errCode = some 0

instance (m : Measurement) : Decidable m.Good := inferInstanceAs (Decidable (_ = _))

/-! ## The system -/

/-- The cell, how far the thread is in a broadcast, and the cell's channel; then, for the statements
only, the line in the mailbox as it was received, and the last measurement frame the thread took. -/
structure DiveO2System where
  cell : DiveO2Cell
  stage : BroadcastStage ℚ
  channel : DiveO2Msg
  delivered : Text
  received : Option Measurement
  deriving DecidableEq, Repr

/-- The interrupts; the steps of the thread, with what its clock and the supply's sensor read; and
the calibration thread, with the coefficient that is stored. -/
inductive DiveO2Event where
  | rxRdy (bytes : List UInt8)
  | rxDisabled
  | rxSync
  | frame (now : ℤ)
  | timeout
  | calDone (stored : Option ℚ)
  | checkAge (now : ℤ)
  | checkSupply (vbus : ℚ)
  | convert
  | publish (now : ℤ)
  deriving DecidableEq, Repr

/-- One byte received. -/
def DiveO2System.feed (s : DiveO2System) (byte : UInt8) : DiveO2System :=
  { s with
    cell := diveo2FeedByte s.cell byte
    delivered :=
      if isLineEnd byte = true ∧ s.cell.rxLine ≠ [] then s.cell.rxLine else s.delivered }

/-- A line without the NULs before it. -/
def lineText (line : Text) : Text := line.dropWhile (· == 0)

/-- The thread takes the line in the mailbox. -/
def DiveO2System.takeFrame (s : DiveO2System) (now : ℤ) : DiveO2System :=
  { s with
    cell := diveo2ProcessRx now { s.cell with rxSem := false }
    received := ((measurementOf (lineText s.delivered)).map (Measurement.mk now)).or s.received }

@[simp] theorem DiveO2System.takeFrame_stage (s : DiveO2System) (now : ℤ) :
    (s.takeFrame now).stage = s.stage := by rw [takeFrame]

@[simp] theorem DiveO2System.takeFrame_delivered (s : DiveO2System) (now : ℤ) :
    (s.takeFrame now).delivered = s.delivered := by rw [takeFrame]

theorem DiveO2System.takeFrame_received (s : DiveO2System) (now : ℤ) :
    (s.takeFrame now).received =
      ((measurementOf (lineText s.delivered)).map (Measurement.mk now)).or s.received := by
  rw [takeFrame]

def diveo2Step (rate : ℕ) (s : DiveO2System) : DiveO2Event → Option DiveO2System
  | .rxRdy bytes => some (bytes.foldl DiveO2System.feed s)
  | .rxDisabled => some { s with cell := diveo2RearmRx s.cell }
  | .rxSync => if s.stage = .start then some { s with cell := diveo2RxSync s.cell } else none
  | .frame now =>
    if s.stage = .start ∧ s.cell.rxSem = true then some (s.takeFrame now) else none
  | .timeout => if s.stage = .start ∧ s.cell.rxSem = false then some s else none
  | .calDone stored => some { s with cell := diveo2Reload stored s.cell }
  | .checkAge now =>
    match s.stage with
    | .start =>
      some { s with
        cell := { s.cell with
          status := ageChecked (diveo2TimeoutTicks rate) now s.cell.lastPpo2Ticks s.cell.status }
        stage := .aged now }
    | _ => none
  | .checkSupply vbus =>
    match s.stage with
    | .aged now =>
      some { s with
        cell := { s.cell with status := supplyChecked vbus s.cell.status }
        stage := .powered now vbus }
    | _ => none
  | .convert =>
    match s.stage with
    | .powered now vbus =>
      some { s with
        cell := { s.cell with status := overrangeChecked s.cell.precisionPpo2 s.cell.status }
        stage := .converted now vbus s.cell.precisionPpo2 }
    | _ => none
  | .publish now =>
    match s.stage with
    | .converted _ _ precisionPpo2 =>
      some { s with channel := diveo2Msg s.cell precisionPpo2 now, stage := .start }
    | _ => none

/-- `diveo2_setup`: a failed cell, whatever coefficient is stored. -/
def diveo2Setup (stored : Option ℚ) : DiveO2Cell where
  protocol := .unknown
  calCoeff := (diveo2LoadCal stored).calCoeff
  status := .fail
  rawPpo2Millihpa := 0
  temperatureMc := 0
  errCode := 0
  phaseMdeg := 0
  signalIntensityUv := 0
  ambientLightUv := 0
  ambientPressureUbar := 0
  housingHumidityMpercentRh := 0
  lastPpo2Ticks := 0
  lastMessage := List.replicate diveo2RxBufferLen 0
  rxLine := []
  rxLen := 0
  rxSem := false

/-- The system after the setup, which published a failure. -/
def diveo2Boot (stored : Option ℚ) (now : ℤ) : DiveO2System where
  cell := diveo2Setup stored
  stage := .start
  channel := diveo2Msg (diveo2Setup stored) 0 now
  delivered := []
  received := none

end DiveCANHead.Cells
