import DiveCANHead.Cells.Consensus
import DiveCANHead.FlashLog.Record
import DiveCANHead.Lib.Numerals
import DiveCANHead.Lib.Packed

/-!
# Payloads of log records (`flash_log_entries.h`)

Each record type but the containers has a packed structure for its payload; a text record has the
characters of the text behind it.
-/

namespace DiveCANHead.FlashLog

open DiveCANHead.Lib DiveCANHead.Cells

def flTypeCanRx : UInt8 := 0x04

def flTypeCanTx : UInt8 := 0x05

def flTypeConsensus : UInt8 := 0x10

def flTypePidSnapshot : UInt8 := 0x11

def flTypeSolenoidFire : UInt8 := 0x12

def flTypeSolenoidCurrent : UInt8 := 0x13

def flTypeAtmosPressure : UInt8 := 0x14

def flTypePowerSnapshot : UInt8 := 0x15

def flTypeCellRawDiveO2 : UInt8 := 0x20

def flTypeCellRawO2S : UInt8 := 0x21

def flTypeCellRawAnalog : UInt8 := 0x22

def flTypeErrorEvent : UInt8 := 0x30

def flTypeLogText : UInt8 := 0x40

/-! ## The structures; a float is its bits -/

/-- `fl_payload_boot_marker_t`. -/
structure FlPayloadBootMarker where
  bootId : UInt32
  fwVersion : Vector UInt8 16
  resetCause : UInt32
  prevCrashMagic : UInt32
  prevCrashReason : UInt32
  prevCrashPc : UInt32
  prevCrashLr : UInt32

/-- `fl_payload_dive_marker_t`. -/
structure FlPayloadDiveMarker where
  diveNumber : UInt16
  unixTimestamp : UInt32

/-- `fl_payload_can_frame_t`. -/
structure FlPayloadCanFrame where
  id : UInt32
  dlc : UInt8
  data : Vector UInt8 8
  reserved : UInt8

/-- `fl_payload_consensus_t`. -/
structure FlPayloadConsensus where
  consensusPpo2 : UInt8
  ppo2Array : PerCell UInt8
  milliArray : PerCell UInt16
  statusPacked : UInt16
  confidence : UInt8
  setpoint : UInt8

/-- `fl_payload_pid_t`. -/
structure FlPayloadPid where
  integral : UInt32
  saturationCount : UInt16
  duty : UInt32
  setpoint : UInt8

/-- `fl_payload_solenoid_fire_t`. -/
structure FlPayloadSolenoidFire where
  kind : UInt8
  requestedOnUs : UInt32
  offUs : UInt32

/-- `fl_payload_solenoid_current_t`. -/
structure FlPayloadSolenoidCurrent where
  role : UInt8
  classification : UInt8
  baselineUa : Int32
  fireUa : Int32
  deltaUa : Int32

/-- `fl_payload_atmos_pressure_t`. -/
structure FlPayloadAtmosPressure where
  pressureMbar : UInt16

/-- `fl_payload_power_snapshot_t`. -/
structure FlPayloadPowerSnapshot where
  vbusVoltage : UInt32
  vccVoltage : UInt32
  batteryVoltage : UInt32
  canVoltage : UInt32
  batteryThreshold : UInt32
  currentUa : Int32
  currentAgeMs : UInt32
  poseidonAgeSeconds : UInt16
  poseidonPercent : UInt8
  flags : UInt8

/-- `fl_payload_cell_diveo2_t`. -/
structure FlPayloadCellDiveO2 where
  cellIndex : UInt8
  ppo2 : UInt8
  temperatureMc : Int32
  errCode : UInt32
  phaseMdeg : Int32
  signalIntensityUv : Int32
  ambientLightUv : Int32
  ambientPressureUbar : Int32
  housingHumidityMpercentRh : Int32

/-- `fl_payload_cell_o2s_t`. -/
structure FlPayloadCellO2S where
  cellIndex : UInt8
  ppo2 : UInt8
  status : UInt8

/-- `fl_payload_cell_analog_t`. -/
structure FlPayloadCellAnalog where
  cellIndex : UInt8
  ppo2 : UInt8
  rawAdc : Int32
  millivolts : UInt16

/-- `fl_payload_error_t`. -/
structure FlPayloadError where
  code : UInt32
  detail : UInt32

/-- `fl_payload_log_text_t` and the message bytes that follow. -/
structure FlPayloadLogText where
  level : UInt8
  moduleId : UInt16
  message : List UInt8

/-- `fl_payload_drop_marker_t`. -/
structure FlPayloadDropMarker where
  count : UInt32
  lastDroppedType : UInt8

/-! ## The status word of the consensus -/

/-- The code of a `CellStatus_t`. -/
def statusCode : CellStatus → UInt16
  | .ok => 0
  | .degraded => 1
  | .fail => 2
  | .needCal => 3

/-- The include bit of a cell. -/
def includeCode (included : Bool) : UInt16 := if included then 1 else 0

def flConsensusStatusMask : UInt16 := 0x03

def flConsensusCell0IncShift : UInt16 := 2

def flConsensusCell1StatusShift : UInt16 := 3

def flConsensusCell1IncShift : UInt16 := 5

def flConsensusCell2StatusShift : UInt16 := 6

def flConsensusCell2IncShift : UInt16 := 8

attribute [local instance] DiveCANHead.Lib.neZero_three in
/-- The status word of `flash_log_enqueue_consensus`. -/
def statusPackedOf (c : ConsensusMsg) : UInt16 :=
  (statusCode (c.statusArray 0) &&& flConsensusStatusMask) |||
    (includeCode (c.includeArray 0) <<< flConsensusCell0IncShift) |||
    ((statusCode (c.statusArray 1) &&& flConsensusStatusMask) <<< flConsensusCell1StatusShift) |||
    (includeCode (c.includeArray 1) <<< flConsensusCell1IncShift) |||
    ((statusCode (c.statusArray 2) &&& flConsensusStatusMask) <<< flConsensusCell2StatusShift) |||
    (includeCode (c.includeArray 2) <<< flConsensusCell2IncShift)

/-- The payload of `flash_log_enqueue_consensus`. -/
def flashLogEnqueueConsensus (c : ConsensusMsg) (setpoint : UInt8) : FlPayloadConsensus where
  consensusPpo2 := c.consensusPpo2
  ppo2Array := c.ppo2Array
  milliArray := c.milliArray
  statusPacked := statusPackedOf c
  confidence := UInt8.ofNat c.confidence
  setpoint := setpoint

/-- The status of a cell: two bits in every three. -/
def statusBits (packed : UInt16) (i : Fin 3) : ℕ := packed.toNat / 2 ^ (3 * (i : ℕ)) % 4

/-- The include bit of a cell, behind its status. -/
def includeBit (packed : UInt16) (i : Fin 3) : ℕ := packed.toNat / 2 ^ (3 * (i : ℕ) + 2) % 2

theorem statusCode_lt (s : CellStatus) : (statusCode s).toNat < 4 := by
  cases s <;> decide

theorem includeCode_lt : ∀ b : Bool, (includeCode b).toNat < 2 := by decide

/-- The parts of the status word do not overlap. -/
theorem toNat_statusPackedOf (c : ConsensusMsg) : (statusPackedOf c).toNat =
    (statusCode (c.statusArray 0)).toNat + 4 * (includeCode (c.includeArray 0)).toNat +
      8 * (statusCode (c.statusArray 1)).toNat + 32 * (includeCode (c.includeArray 1)).toNat +
      64 * (statusCode (c.statusArray 2)).toNat + 256 * (includeCode (c.includeArray 2)).toNat := by
  have hmask : ∀ s : CellStatus, statusCode s &&& flConsensusStatusMask = statusCode s := by
    intro s
    cases s <;> rfl
  have h3 : ∀ s : CellStatus,
      (statusCode s <<< flConsensusCell1StatusShift).toNat = 2 ^ 3 * (statusCode s).toNat := by
    intro s
    cases s <;> rfl
  have h6 : ∀ s : CellStatus,
      (statusCode s <<< flConsensusCell2StatusShift).toNat = 2 ^ 6 * (statusCode s).toNat := by
    intro s
    cases s <;> rfl
  have hinclude : ∀ b : Bool, (includeCode b).toNat < 2 ∧
      (includeCode b <<< flConsensusCell0IncShift).toNat = 2 ^ 2 * (includeCode b).toNat ∧
      (includeCode b <<< flConsensusCell1IncShift).toNat = 2 ^ 5 * (includeCode b).toNat ∧
      (includeCode b <<< flConsensusCell2IncShift).toNat = 2 ^ 8 * (includeCode b).toNat := by
    decide
  have hjoin : ∀ (i low high : ℕ), low < 2 ^ i → low ||| 2 ^ i * high = 2 ^ i * high + low :=
    fun i low high h => (Nat.or_comm _ _).trans (Nat.two_pow_add_eq_or_of_lt h high).symm
  have hs0 := statusCode_lt (c.statusArray 0)
  have hs1 := statusCode_lt (c.statusArray 1)
  have hs2 := statusCode_lt (c.statusArray 2)
  obtain ⟨hi0, h2, -, -⟩ := hinclude (c.includeArray 0)
  obtain ⟨hi1, -, h5, -⟩ := hinclude (c.includeArray 1)
  obtain ⟨-, -, -, h8⟩ := hinclude (c.includeArray 2)
  simp only [statusPackedOf, UInt16.toNat_or, hmask, h3, h6, h2, h5, h8]
  rw [hjoin 2 _ _ (by omega), hjoin 3 _ _ (by omega), hjoin 5 _ _ (by omega),
    hjoin 6 _ _ (by omega), hjoin 8 _ _ (by omega)]
  omega

/-- The word has the status and the include bit of every cell. -/
theorem statusPackedOf_cells (c : ConsensusMsg) (i : Fin 3) :
    statusBits (statusPackedOf c) i = (statusCode (c.statusArray i)).toNat ∧
      includeBit (statusPackedOf c) i = (includeCode (c.includeArray i)).toNat := by
  have hs0 := statusCode_lt (c.statusArray 0)
  have hs1 := statusCode_lt (c.statusArray 1)
  have hs2 := statusCode_lt (c.statusArray 2)
  have hi0 := includeCode_lt (c.includeArray 0)
  have hi1 := includeCode_lt (c.includeArray 1)
  have hi2 := includeCode_lt (c.includeArray 2)
  rw [statusBits, includeBit, toNat_statusPackedOf]
  match i with
  | 0 =>
    constructor
    · show _ / 1 % 4 = _
      omega
    · show _ / 4 % 2 = _
      omega
  | 1 =>
    constructor
    · show _ / 8 % 4 = _
      omega
    · show _ / 32 % 2 = _
      omega
  | 2 =>
    constructor
    · show _ / 64 % 4 = _
      omega
    · show _ / 256 % 2 = _
      omega

/-! ## A payload of any type -/

/-- The payload of a record; a dive marker is a start or an end, a CAN frame was received or
sent. -/
inductive FlPayload where
  | bootMarker (p : FlPayloadBootMarker)
  | diveMarker (isStart : Bool) (p : FlPayloadDiveMarker)
  | canFrame (isRx : Bool) (p : FlPayloadCanFrame)
  | consensus (p : FlPayloadConsensus)
  | pid (p : FlPayloadPid)
  | solenoidFire (p : FlPayloadSolenoidFire)
  | solenoidCurrent (p : FlPayloadSolenoidCurrent)
  | atmosPressure (p : FlPayloadAtmosPressure)
  | powerSnapshot (p : FlPayloadPowerSnapshot)
  | cellDiveO2 (p : FlPayloadCellDiveO2)
  | cellO2S (p : FlPayloadCellO2S)
  | cellAnalog (p : FlPayloadCellAnalog)
  | error (p : FlPayloadError)
  | logText (p : FlPayloadLogText)
  | dropMarker (p : FlPayloadDropMarker)

namespace FlPayload

def type : FlPayload → UInt8
  | .bootMarker _ => flTypeBootMarker
  | .diveMarker isStart _ => if isStart then flTypeDiveStart else flTypeDiveEnd
  | .canFrame isRx _ => if isRx then flTypeCanRx else flTypeCanTx
  | .consensus _ => flTypeConsensus
  | .pid _ => flTypePidSnapshot
  | .solenoidFire _ => flTypeSolenoidFire
  | .solenoidCurrent _ => flTypeSolenoidCurrent
  | .atmosPressure _ => flTypeAtmosPressure
  | .powerSnapshot _ => flTypePowerSnapshot
  | .cellDiveO2 _ => flTypeCellRawDiveO2
  | .cellO2S _ => flTypeCellRawO2S
  | .cellAnalog _ => flTypeCellRawAnalog
  | .error _ => flTypeErrorEvent
  | .logText _ => flTypeLogText
  | .dropMarker _ => flTypeDropMarker

attribute [local instance] DiveCANHead.Lib.neZero_three in
/-- The fields of the structure, in the order of their declaration. -/
def fields : FlPayload → List Scalar
  | .bootMarker p =>
    [.u32 p.bootId, .chars 16 p.fwVersion, .u32 p.resetCause, .u32 p.prevCrashMagic,
      .u32 p.prevCrashReason, .u32 p.prevCrashPc, .u32 p.prevCrashLr]
  | .diveMarker _ p => [.u16 p.diveNumber, .u32 p.unixTimestamp]
  | .canFrame _ p => [.u32 p.id, .u8 p.dlc, .chars 8 p.data, .u8 p.reserved]
  | .consensus p =>
    [.u8 p.consensusPpo2, .u8 (p.ppo2Array 0), .u8 (p.ppo2Array 1), .u8 (p.ppo2Array 2),
      .u16 (p.milliArray 0), .u16 (p.milliArray 1), .u16 (p.milliArray 2), .u16 p.statusPacked,
      .u8 p.confidence, .u8 p.setpoint]
  | .pid p => [.f32 p.integral, .u16 p.saturationCount, .f32 p.duty, .u8 p.setpoint]
  | .solenoidFire p => [.u8 p.kind, .u32 p.requestedOnUs, .u32 p.offUs]
  | .solenoidCurrent p =>
    [.u8 p.role, .u8 p.classification, .i32 p.baselineUa, .i32 p.fireUa, .i32 p.deltaUa]
  | .atmosPressure p => [.u16 p.pressureMbar]
  | .powerSnapshot p =>
    [.f32 p.vbusVoltage, .f32 p.vccVoltage, .f32 p.batteryVoltage, .f32 p.canVoltage,
      .f32 p.batteryThreshold, .i32 p.currentUa, .u32 p.currentAgeMs, .u16 p.poseidonAgeSeconds,
      .u8 p.poseidonPercent, .u8 p.flags]
  | .cellDiveO2 p =>
    [.u8 p.cellIndex, .u8 p.ppo2, .i32 p.temperatureMc, .u32 p.errCode, .i32 p.phaseMdeg,
      .i32 p.signalIntensityUv, .i32 p.ambientLightUv, .i32 p.ambientPressureUbar,
      .i32 p.housingHumidityMpercentRh]
  | .cellO2S p => [.u8 p.cellIndex, .u8 p.ppo2, .u8 p.status]
  | .cellAnalog p => [.u8 p.cellIndex, .u8 p.ppo2, .i32 p.rawAdc, .u16 p.millivolts]
  | .error p => [.u32 p.code, .u32 p.detail]
  | .logText p => [.u8 p.level, .u16 p.moduleId]
  | .dropMarker p => [.u32 p.count, .u8 p.lastDroppedType]

/-- What follows the structure. -/
def tail : FlPayload → List UInt8
  | .logText p => p.message
  | _ => []

def bytes (p : FlPayload) : List UInt8 := packed p.fields ++ p.tail

theorem length_bytes (p : FlPayload) : p.bytes.length = packedSize p.fields + p.tail.length := by
  rw [bytes, List.length_append, length_packed]

end FlPayload

end DiveCANHead.FlashLog
