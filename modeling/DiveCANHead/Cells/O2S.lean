import DiveCANHead.Calibration.Store
import DiveCANHead.Cells.Digital
import DiveCANHead.Lib.Bytes
import DiveCANHead.Lib.Number

/-!
# The O2S cell (`oxygen_cell_o2s.c`)

Each cycle of the thread enables the receiver, asks for a reading and waits until the receiver has
stopped. The receive interrupt copies every short enough chunk over the start of one buffer, which
no cycle clears; what the buffer then holds is parsed and published. The calibration thread may run
between any two steps of the thread. Finite floats are rationals, and the errors that are only
reported are left out.
-/

namespace DiveCANHead.Cells

open DiveCANHead.Lib DiveCANHead.Calibration

/-! ## Parsing -/

/-- `O2S_RX_BUFFER_LEN`. -/
def o2sRxBufferLen : ℕ := 10

/-- `GET_OXY_RESPONSE`. -/
def getOxyResponse : Text := ascii ['M', 'n']

/-- `GET_OXY_COMMAND`. -/
def getOxyCommand : Text := ascii ['M', 'm']

/-- `STRTOF_SEP`. -/
def strtofSep : UInt8 := 0x3A

/-- The value token of a measurement, where there is one. -/
def o2sValueToken (message : Text) : Option Text :=
  match tokens strtofSep (message.take (o2sRxBufferLen - 1)) with
  | cmdName :: rest =>
    if cmdName = getOxyResponse ∨ cmdName = getOxyCommand then rest.head? else none
  | [] => none

/-- Whether `strtof` reads a whole token. -/
def wholeNumber (token : Text) : Bool :=
  (strtof token).2 != token && (strtof token).2 == []

/-- `o2s_parse_response`. -/
def o2sParseResponse (message : Text) : Option Number :=
  (o2sValueToken message).bind fun ppo2Str =>
    if wholeNumber ppo2Str then some (strtof ppo2Str).1 else none

/-- `o2s_is_malformed_measurement`. -/
def o2sIsMalformedMeasurement (msg : Text) : Bool :=
  match o2sValueToken msg with
  | some val => !wholeNumber val
  | none => false

/-! ## The cell's state -/

/-- `struct o2s_cell_state`, without the transmitter's part. -/
structure O2SCell where
  calCoeff : ℚ
  status : CellStatus
  cellSample : Number
  lastPpo2Ticks : ℤ
  lastMessage : List UInt8
  rxSem : Bool
  rxLen : ℕ
  deriving DecidableEq, Repr

/-- `OxygenCellMsg_t` as this driver fills it in. -/
structure O2SMsg where
  ppo2 : UInt8
  precisionPpo2 : Number
  millivolts : UInt16
  status : CellStatus
  timestampTicks : ℤ
  deriving DecidableEq, Repr

/-- `o2s_capture_rx`. -/
def o2sCaptureRx (chunk : List UInt8) (cell : O2SCell) : O2SCell :=
  if chunk.length < o2sRxBufferLen then
    { cell with
      lastMessage := overlay cell.lastMessage 0 (chunk ++ [0])
      rxLen := chunk.length }
  else cell

/-- The text `o2s_process_rx` parses. -/
def o2sMessage (lastMessage : List UInt8) : Text :=
  prepareMessageBuffer lf (fun _ => o2sRxBufferLen - 1) lastMessage o2sRxBufferLen

/-- `o2s_load_cal`, as far as it writes the cell. -/
def o2sReload (stored : Option ℚ) (cell : O2SCell) : O2SCell :=
  { cell with
    calCoeff := (o2sLoadCal stored).calCoeff
    status := (o2sLoadCal stored).status }

/-! ## The broadcast -/

/-- `DIGITAL_RESPONSE_TIMEOUT_MS` in ticks. -/
def o2sTimeoutTicks (rate : ℕ) : ℤ := kMsToTicksCeil64 rate 2000

def O2SCell.precisionPpo2 (cell : O2SCell) : Number := cell.cellSample.scale cell.calCoeff

def o2sOverrangeChecked (precisionPpo2 : Number) (status : CellStatus) : CellStatus :=
  if (precisionPpo2.scale centibarPerBar).above ppo2OverrangeLimit then .fail else status

/-- `ppo2_centibar_to_wire` on any float; what C leaves open for a NaN is 0 here. -/
def numberToWire : Number → UInt8
  | .finite q => ppo2CentibarToWire q
  | .infinite negative => if negative then 0 else UInt8.ofNat maxValidPpo2
  | .nan => 0

/-- The message `o2s_broadcast` publishes. -/
def o2sMsg (cell : O2SCell) (precisionPpo2 : Number) (timestampTicks : ℤ) : O2SMsg where
  ppo2 := numberToWire (precisionPpo2.scale centibarPerBar)
  precisionPpo2 := precisionPpo2
  millivolts := 0
  status := cell.status
  timestampTicks := timestampTicks

/-! ## The system -/

/-- Where the thread is: asleep, with the receiver stopped, waiting for the reply, or broadcasting a
reading it accepted or one it found malformed. -/
inductive O2SThread where
  | resting
  | stopped
  | listening
  | broadcasting (accepted : Bool) (stage : BroadcastStage Number)
  deriving DecidableEq, Repr

/-- A chunk the buffer took, with the bytes received before it in the same cycle. -/
structure KeptChunk where
  before : List UInt8
  chunk : List UInt8
  deriving DecidableEq, Repr

/-- The cell, its thread and its channel; then, for the statements only, what was received since the
receiver was enabled, and the last chunk of it that was kept. -/
structure O2SSystem where
  cell : O2SCell
  thread : O2SThread
  channel : O2SMsg
  received : List UInt8
  kept : Option KeptChunk
  deriving DecidableEq, Repr

/-- The interrupts, the steps of the thread, and the calibration thread. -/
inductive O2SEvent where
  | rxRdy (chunk : List UInt8)
  | rxDisabled
  | otherUart
  | stopRx
  | enableRx
  | process (now : ℤ)
  | timeout
  | checkAge (now : ℤ)
  | checkSupply (vbus : ℚ)
  | convert
  | publish (now : ℤ)
  | calDone (stored : Option ℚ)
  deriving DecidableEq, Repr

def O2SSystem.capture (s : O2SSystem) (chunk : List UInt8) : O2SSystem :=
  { s with
    cell := o2sCaptureRx chunk s.cell
    received := s.received ++ chunk
    kept := if chunk.length < o2sRxBufferLen then some ⟨s.received, chunk⟩ else s.kept }

/-- `o2s_process_rx`, up to the broadcast it ends in, if it does. -/
def O2SSystem.processRx (s : O2SSystem) (now : ℤ) : O2SSystem :=
  let cell := { s.cell with rxSem := false }
  let msgArray := o2sMessage s.cell.lastMessage
  match o2sParseResponse msgArray with
  | some ppo2 =>
    { s with
      cell := { cell with cellSample := ppo2, status := .ok, lastPpo2Ticks := now }
      thread := .broadcasting true .start }
  | none =>
    if o2sIsMalformedMeasurement msgArray then
      { s with cell := { cell with status := .fail }, thread := .broadcasting false .start }
    else { s with cell := cell, thread := .resting }

def o2sStep (rate : ℕ) (s : O2SSystem) : O2SEvent → Option O2SSystem
  | .rxRdy chunk => some (s.capture chunk)
  | .rxDisabled => some { s with cell := { s.cell with rxSem := true } }
  | .otherUart => some s
  | .stopRx =>
    if s.thread = .resting then
      some { s with cell := { s.cell with rxSem := false }, thread := .stopped }
    else none
  | .enableRx =>
    if s.thread = .stopped then
      some { s with
        cell := { s.cell with rxLen := 0 }, thread := .listening, received := [], kept := none }
    else none
  | .process now =>
    if s.thread = .listening ∧ s.cell.rxSem = true then some (s.processRx now) else none
  | .timeout =>
    if s.thread = .listening ∧ s.cell.rxSem = false then some { s with thread := .resting }
    else none
  | .checkAge now =>
    match s.thread with
    | .broadcasting accepted .start =>
      some { s with
        cell := { s.cell with
          status := ageChecked (o2sTimeoutTicks rate) now s.cell.lastPpo2Ticks s.cell.status }
        thread := .broadcasting accepted (.aged now) }
    | _ => none
  | .checkSupply vbus =>
    match s.thread with
    | .broadcasting accepted (.aged now) =>
      some { s with
        cell := { s.cell with status := supplyChecked vbus s.cell.status }
        thread := .broadcasting accepted (.powered now vbus) }
    | _ => none
  | .convert =>
    match s.thread with
    | .broadcasting accepted (.powered now vbus) =>
      some { s with
        cell := { s.cell with status := o2sOverrangeChecked s.cell.precisionPpo2 s.cell.status }
        thread := .broadcasting accepted (.converted now vbus s.cell.precisionPpo2) }
    | _ => none
  | .publish now =>
    match s.thread with
    | .broadcasting _ (.converted _ _ precisionPpo2) =>
      some { s with channel := o2sMsg s.cell precisionPpo2 now, thread := .resting }
    | _ => none
  | .calDone stored => some { s with cell := o2sReload stored s.cell }

/-- `o2s_setup`: a failed cell, whatever coefficient is stored. -/
def o2sSetup (stored : Option ℚ) : O2SCell where
  calCoeff := (o2sLoadCal stored).calCoeff
  status := .fail
  cellSample := .finite 0
  lastPpo2Ticks := 0
  lastMessage := List.replicate o2sRxBufferLen 0
  rxSem := false
  rxLen := 0

/-- The system after the setup, which published a failure. -/
def o2sBoot (stored : Option ℚ) (now : ℤ) : O2SSystem where
  cell := o2sSetup stored
  thread := .resting
  channel := o2sMsg (o2sSetup stored) (.finite 0) now
  received := []
  kept := none

end DiveCANHead.Cells
