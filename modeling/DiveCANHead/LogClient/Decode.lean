import DiveCANHead.FlashLog.Payload

/-!
# Decoding payloads (`LogParser.js`)

Each decoder checks the length and reads the fields at their offsets. The values in other units that
some decoders add are left out.
-/

namespace DiveCANHead.LogClient

open DiveCANHead.Lib DiveCANHead.FlashLog

/-! ## Decoded payloads; a float is its bits -/

@[ext]
structure PrevCrash where
  magic : ℤ
  reason : ℤ
  pc : ℤ
  lr : ℤ
  deriving DecidableEq, Repr

@[ext]
structure BootMarkerData where
  bootId : ℤ
  fwVersion : List Char
  resetCause : ℤ
  prevCrash : Option PrevCrash
  deriving DecidableEq, Repr

@[ext]
structure DiveMarkerData where
  diveNumber : ℤ
  unixTimestamp : ℤ
  deriving DecidableEq, Repr

@[ext]
structure CanFrameData where
  id : ℤ
  dlc : ℤ
  data : List UInt8
  deriving DecidableEq, Repr

@[ext]
structure LogTextData where
  level : ℤ
  moduleId : ℤ
  text : List Char
  deriving DecidableEq, Repr

@[ext]
structure ConsensusData where
  consensusPpo2 : ℤ
  ppo2 : List ℤ
  millivolts : List ℤ
  statusPacked : ℤ
  confidence : ℤ
  setpoint : ℤ
  deriving DecidableEq, Repr

@[ext]
structure PidData where
  integral : ℕ
  saturationCount : ℤ
  duty : ℕ
  setpoint : ℤ
  deriving DecidableEq, Repr

@[ext]
structure SolenoidFireData where
  kind : ℤ
  requestedOnUs : ℤ
  offUs : ℤ
  deriving DecidableEq, Repr

@[ext]
structure SolenoidCurrentData where
  role : ℤ
  classification : ℤ
  baselineUa : ℤ
  fireUa : ℤ
  deltaUa : ℤ
  deriving DecidableEq, Repr

@[ext]
structure AtmosPressureData where
  pressureMbar : ℤ
  deriving DecidableEq, Repr

/-- The bits of the flags, the lowest first. -/
structure PowerFlags where
  battery : Bool
  vbus : Bool
  vcc : Bool
  can : Bool
  current : Bool
  poseidonPercent : Bool
  poseidonFresh : Bool
  lowBattery : Bool
  deriving DecidableEq, Repr

@[ext]
structure PowerSnapshotData where
  vbusVoltage : ℕ
  vccVoltage : ℕ
  batteryVoltage : ℕ
  canVoltage : ℕ
  batteryThreshold : ℕ
  currentUa : ℤ
  currentAgeMs : ℤ
  poseidonAgeSeconds : ℤ
  poseidonPercent : Option ℤ
  flags : ℤ
  valid : PowerFlags
  deriving DecidableEq, Repr

/-- In `LogParser.js` the fields after `ppo2` are `temperatureDc`, `errCode`, `phase`, `intensity`,
`ambientLight`, `pressureUhpa` and `humidityMrh`. -/
@[ext]
structure CellDiveO2Data where
  cellIndex : ℤ
  ppo2 : ℤ
  temperatureMc : ℤ
  errCode : ℤ
  phaseMdeg : ℤ
  signalIntensityUv : ℤ
  ambientLightUv : ℤ
  ambientPressureUbar : ℤ
  housingHumidityMpercentRh : ℤ
  deriving DecidableEq, Repr

@[ext]
structure CellO2SData where
  cellIndex : ℤ
  ppo2 : ℤ
  status : ℤ
  deriving DecidableEq, Repr

@[ext]
structure CellAnalogData where
  cellIndex : ℤ
  ppo2 : ℤ
  rawAdc : ℤ
  millivolts : ℤ
  deriving DecidableEq, Repr

@[ext]
structure ErrorEventData where
  code : ℤ
  detail : ℤ
  deriving DecidableEq, Repr

@[ext]
structure DropMarkerData where
  count : ℤ
  lastDroppedType : ℤ
  deriving DecidableEq, Repr

inductive LogData where
  | bootMarker (d : BootMarkerData)
  | diveMarker (d : DiveMarkerData)
  | canFrame (d : CanFrameData)
  | logText (d : LogTextData)
  | consensus (d : ConsensusData)
  | pid (d : PidData)
  | solenoidFire (d : SolenoidFireData)
  | solenoidCurrent (d : SolenoidCurrentData)
  | atmosPressure (d : AtmosPressureData)
  | powerSnapshot (d : PowerSnapshotData)
  | cellDiveO2 (d : CellDiveO2Data)
  | cellO2S (d : CellO2SData)
  | cellAnalog (d : CellAnalogData)
  | error (d : ErrorEventData)
  | dropMarker (d : DropMarkerData)
  deriving DecidableEq, Repr

/-! ## Readers -/

/-- A byte of the payload; past its end JavaScript's operators on bits take 0. -/
def byteAt (p : List UInt8) (o : ℕ) : UInt8 := p.getD o 0

/-- The four bytes at an offset, joined by shifts. -/
def wordAt (p : List UInt8) (o : ℕ) : UInt32 :=
  joinBytes (byteAt p o) (byteAt p (o + 1)) (byteAt p (o + 2)) (byteAt p (o + 3))

def readI32LE (p : List UInt8) (o : ℕ) : ℤ := (wordAt p o).toInt32.toInt

def readU32LE (p : List UInt8) (o : ℕ) : ℤ := (wordAt p o).toNat

def readU16LE (p : List UInt8) (o : ℕ) : ℤ :=
  ((byteAt p o).toNat ||| (byteAt p (o + 1)).toNat <<< 8 : ℕ)

/-- `readF32LE`, which reinterprets the bytes. -/
def readF32LE (p : List UInt8) (o : ℕ) : ℕ := (wordAt p o).toNat

def readU8 (p : List UInt8) (o : ℕ) : ℤ := (byteAt p o).toNat

/-- `slice`. -/
def slice (p : List UInt8) (start stop : ℕ) : List UInt8 := (p.drop start).take (stop - start)

/-- Where the windows-1252 encoding departs from the code points, from 0x80 on. -/
def windows1252High : List ℕ :=
  [0x20AC, 0x81, 0x201A, 0x192, 0x201E, 0x2026, 0x2020, 0x2021, 0x2C6, 0x2030, 0x160, 0x2039, 0x152,
    0x8D, 0x17D, 0x8F, 0x90, 0x2018, 0x2019, 0x201C, 0x201D, 0x2022, 0x2013, 0x2014, 0x2DC, 0x2122,
    0x161, 0x203A, 0x153, 0x9D, 0x17E, 0x178]

/-- `new TextDecoder('ascii').decode`, which decodes windows-1252. -/
def decodeAscii (bytes : List UInt8) : List Char :=
  bytes.map fun b => Char.ofNat
    (if 0x80 ≤ b.toNat ∧ b.toNat ≤ 0x9F then windows1252High.getD (b.toNat - 0x80) 0 else b.toNat)

/-! ## Decoders -/

def flCrashMagic : ℤ := 0xDEADC0DE

def decodeBootMarker (p : List UInt8) : Option BootMarkerData :=
  if p.length < 24 then none
  else
    let verBytes := slice p 4 20
    let fwVersion := decodeAscii
      (if verBytes.contains 0 then verBytes.take (verBytes.idxOf 0) else verBytes)
    let prevCrash :=
      if 40 ≤ p.length then
        let magic := readU32LE p 24
        if magic = flCrashMagic then
          some ⟨magic, readU32LE p 28, readU32LE p 32, readU32LE p 36⟩
        else none
      else none
    some ⟨readU32LE p 0, fwVersion, readU32LE p 20, prevCrash⟩

def decodeDiveMarker (p : List UInt8) : Option DiveMarkerData :=
  if p.length < 6 then none else some ⟨readU16LE p 0, readU32LE p 2⟩

def decodeCanFrame (p : List UInt8) : Option CanFrameData :=
  if p.length < 13 then none else some ⟨readU32LE p 0, readU8 p 4, slice p 5 13⟩

def decodeLogText (p : List UInt8) : Option LogTextData :=
  if p.length < 3 then none else some ⟨readU8 p 0, readU16LE p 1, decodeAscii (p.drop 3)⟩

def consensusStatusShifts : List ℕ := [0, 3, 6]

def consensusIncludeShifts : List ℕ := [2, 5, 8]

def consensusStatusMask : ℕ := 0x03

/-- `unpackConsensusStatus`. -/
def unpackConsensusStatus (packed : ℕ) : List (ℕ × Bool) :=
  List.zipWith
    (fun shift includeShift =>
      ((packed >>> shift) &&& consensusStatusMask, (packed >>> includeShift) &&& 1 == 1))
    consensusStatusShifts consensusIncludeShifts

def decodeConsensus (p : List UInt8) : Option ConsensusData :=
  if p.length < 14 then none
  else some
    { consensusPpo2 := readU8 p 0
      ppo2 := [readU8 p 1, readU8 p 2, readU8 p 3]
      millivolts := [readU16LE p 4, readU16LE p 6, readU16LE p 8]
      statusPacked := readU16LE p 10
      confidence := readU8 p 12
      setpoint := readU8 p 13 }

def decodePidSnapshot (p : List UInt8) : Option PidData :=
  if p.length < 11 then none
  else some ⟨readF32LE p 0, readU16LE p 4, readF32LE p 6, readU8 p 10⟩

def decodeSolenoidFire (p : List UInt8) : Option SolenoidFireData :=
  if p.length < 9 then none else some ⟨readU8 p 0, readU32LE p 1, readU32LE p 5⟩

def decodeSolenoidCurrent (p : List UInt8) : Option SolenoidCurrentData :=
  if p.length < 14 then none
  else some ⟨readU8 p 0, readU8 p 1, readI32LE p 2, readI32LE p 6, readI32LE p 10⟩

def decodeAtmosPressure (p : List UInt8) : Option AtmosPressureData :=
  if p.length < 2 then none else some ⟨readU16LE p 0⟩

/-- The `FL_POWER_*` bits of the flags. -/
def powerFlags (flags : UInt8) : PowerFlags where
  battery := flags &&& 0x01 != 0
  vbus := flags &&& 0x02 != 0
  vcc := flags &&& 0x04 != 0
  can := flags &&& 0x08 != 0
  current := flags &&& 0x10 != 0
  poseidonPercent := flags &&& 0x20 != 0
  poseidonFresh := flags &&& 0x40 != 0
  lowBattery := flags &&& 0x80 != 0

def decodePowerSnapshot (p : List UInt8) : Option PowerSnapshotData :=
  if p.length < 32 then none
  else
    let valid := powerFlags (byteAt p 31)
    some
      { vbusVoltage := readF32LE p 0
        vccVoltage := readF32LE p 4
        batteryVoltage := readF32LE p 8
        canVoltage := readF32LE p 12
        batteryThreshold := readF32LE p 16
        currentUa := readI32LE p 20
        currentAgeMs := readU32LE p 24
        poseidonAgeSeconds := readU16LE p 28
        poseidonPercent := if valid.poseidonPercent then some (readU8 p 30) else none
        flags := readU8 p 31
        valid }

/-- `decodeCellDiveO2`; the pressure is read without a sign. -/
def decodeCellDiveO2 (p : List UInt8) : Option CellDiveO2Data :=
  if p.length < 30 then none
  else some
    { cellIndex := readU8 p 0
      ppo2 := readU8 p 1
      temperatureMc := readI32LE p 2
      errCode := readU32LE p 6
      phaseMdeg := readI32LE p 10
      signalIntensityUv := readI32LE p 14
      ambientLightUv := readI32LE p 18
      ambientPressureUbar := readU32LE p 22
      housingHumidityMpercentRh := readI32LE p 26 }

def decodeCellO2S (p : List UInt8) : Option CellO2SData :=
  if p.length < 3 then none else some ⟨readU8 p 0, readU8 p 1, readU8 p 2⟩

def decodeCellAnalog (p : List UInt8) : Option CellAnalogData :=
  if p.length < 8 then none else some ⟨readU8 p 0, readU8 p 1, readI32LE p 2, readU16LE p 6⟩

def decodeErrorEvent (p : List UInt8) : Option ErrorEventData :=
  if p.length < 8 then none else some ⟨readU32LE p 0, readU32LE p 4⟩

def decodeDropMarker (p : List UInt8) : Option DropMarkerData :=
  if p.length < 5 then none else some ⟨readU32LE p 0, readU8 p 4⟩

/-- `decodeRecord`. -/
def decodeRecord (type : UInt8) (payload : List UInt8) : Option LogData :=
  if type = flTypeBootMarker then (decodeBootMarker payload).map .bootMarker
  else if type = flTypeDiveStart ∨ type = flTypeDiveEnd then
    (decodeDiveMarker payload).map .diveMarker
  else if type = flTypeCanRx ∨ type = flTypeCanTx then (decodeCanFrame payload).map .canFrame
  else if type = flTypeLogText then (decodeLogText payload).map .logText
  else if type = flTypeConsensus then (decodeConsensus payload).map .consensus
  else if type = flTypePidSnapshot then (decodePidSnapshot payload).map .pid
  else if type = flTypeSolenoidFire then (decodeSolenoidFire payload).map .solenoidFire
  else if type = flTypeSolenoidCurrent then (decodeSolenoidCurrent payload).map .solenoidCurrent
  else if type = flTypeAtmosPressure then (decodeAtmosPressure payload).map .atmosPressure
  else if type = flTypePowerSnapshot then (decodePowerSnapshot payload).map .powerSnapshot
  else if type = flTypeCellRawDiveO2 then (decodeCellDiveO2 payload).map .cellDiveO2
  else if type = flTypeCellRawO2S then (decodeCellO2S payload).map .cellO2S
  else if type = flTypeCellRawAnalog then (decodeCellAnalog payload).map .cellAnalog
  else if type = flTypeErrorEvent then (decodeErrorEvent payload).map .error
  else if type = flTypeDropMarker then (decodeDropMarker payload).map .dropMarker
  else none

/-! ## Fields read back -/

section Readers

variable {fields : List Scalar} {o : ℕ} (rest : List UInt8)

theorem byteAt_of_slice {p bs : List UInt8} {o n k : ℕ} (h : (p.drop o).take n = bs) (hk : k < n) :
    byteAt p (o + k) = bs.getD k 0 := by
  rw [← h, byteAt, List.getD_eq_getElem?_getD, List.getD_eq_getElem?_getD, List.getElem?_take,
    if_pos hk, List.getElem?_drop]

theorem toNat_wordAt {p : List UInt8} {o n : ℕ} (hn : n < 2 ^ 32)
    (h : (p.drop o).take 4 = leBytes 4 n) : (wordAt p o).toNat = n := by
  have hbytes : [byteAt p o, byteAt p (o + 1), byteAt p (o + 2), byteAt p (o + 3)] =
      leBytes 4 n := by
    rw [byteAt_of_slice h (k := 1) (by decide), byteAt_of_slice h (k := 2) (by decide),
      byteAt_of_slice h (k := 3) (by decide), ← Nat.add_zero o,
      byteAt_of_slice h (k := 0) (by decide)]
    rfl
  rw [wordAt, toNat_joinBytes, hbytes, leNat_leBytes hn]

theorem readU32LE_packed {v : UInt32} (h : scalarAt fields o = some (.u32 v)) :
    readU32LE (packed fields ++ rest) o = v.toNat :=
  congrArg Int.ofNat (toNat_wordAt v.toNat_lt (slice_packed h rest))

theorem readF32LE_packed {bits : UInt32} (h : scalarAt fields o = some (.f32 bits)) :
    readF32LE (packed fields ++ rest) o = bits.toNat :=
  toNat_wordAt bits.toNat_lt (slice_packed h rest)

theorem readI32LE_packed {v : Int32} (h : scalarAt fields o = some (.i32 v)) :
    readI32LE (packed fields ++ rest) o = v.toInt := by
  have hword : wordAt (packed fields ++ rest) o = v.toUInt32 :=
    UInt32.toNat_inj.mp (toNat_wordAt v.toUInt32.toNat_lt (slice_packed h rest))
  rw [readI32LE, hword]
  rfl

/-- A field with a sign, read without. -/
theorem readU32LE_packed_i32 {v : Int32} (h : scalarAt fields o = some (.i32 v)) :
    readU32LE (packed fields ++ rest) o = v.toUInt32.toNat :=
  congrArg Int.ofNat (toNat_wordAt v.toUInt32.toNat_lt (slice_packed h rest))

theorem readU16LE_packed {v : UInt16} (h : scalarAt fields o = some (.u16 v)) :
    readU16LE (packed fields ++ rest) o = v.toNat := by
  have hslice : ((packed fields ++ rest).drop o).take 2 = leBytes 2 v.toNat := slice_packed h rest
  have hbytes : [byteAt (packed fields ++ rest) o, byteAt (packed fields ++ rest) (o + 1)] =
      leBytes 2 v.toNat := by
    rw [byteAt_of_slice hslice (k := 1) (by decide), ← Nat.add_zero o,
      byteAt_of_slice hslice (k := 0) (by decide)]
    rfl
  rw [readU16LE, toNat_joinTwo, hbytes, leNat_leBytes v.toNat_lt]

theorem byteAt_packed {v : UInt8} (h : scalarAt fields o = some (.u8 v)) :
    byteAt (packed fields ++ rest) o = v := by
  have hslice : ((packed fields ++ rest).drop o).take 1 = [v] := slice_packed h rest
  rw [← Nat.add_zero o, byteAt_of_slice hslice (k := 0) Nat.one_pos]
  rfl

theorem readU8_packed {v : UInt8} (h : scalarAt fields o = some (.u8 v)) :
    readU8 (packed fields ++ rest) o = v.toNat := by
  rw [readU8, byteAt_packed rest h]

theorem slice_chars {n : ℕ} {v : Vector UInt8 n} (h : scalarAt fields o = some (.chars n v))
    {stop : ℕ} (hstop : stop - o = n) : slice (packed fields ++ rest) o stop = v.toList := by
  rw [slice, hstop]
  exact slice_packed h rest

end Readers

/-! ## What was encoded -/

/-- A text by its bytes. -/
def asText (bytes : List UInt8) : List Char := bytes.map fun b => Char.ofNat b.toNat

/-- The text of a `char` array: up to the first NUL, if there is one. -/
def upToNul (bytes : List UInt8) : List UInt8 := bytes.takeWhile (· ≠ 0)

attribute [local instance] DiveCANHead.Lib.neZero_three in
/-- The values of the fields. The crash fields count where the magic says so, and the Poseidon
percentage where its flag does. -/
def dataOf : FlPayload → LogData
  | .bootMarker p =>
    .bootMarker
      { bootId := p.bootId.toNat
        fwVersion := asText (upToNul p.fwVersion.toList)
        resetCause := p.resetCause.toNat
        prevCrash :=
          if p.prevCrashMagic = 0xDEADC0DE then
            some ⟨p.prevCrashMagic.toNat, p.prevCrashReason.toNat, p.prevCrashPc.toNat,
              p.prevCrashLr.toNat⟩
          else none }
  | .diveMarker _ p => .diveMarker ⟨p.diveNumber.toNat, p.unixTimestamp.toNat⟩
  | .canFrame _ p => .canFrame ⟨p.id.toNat, p.dlc.toNat, p.data.toList⟩
  | .consensus p =>
    .consensus
      { consensusPpo2 := p.consensusPpo2.toNat
        ppo2 := [(p.ppo2Array 0).toNat, (p.ppo2Array 1).toNat, (p.ppo2Array 2).toNat]
        millivolts := [(p.milliArray 0).toNat, (p.milliArray 1).toNat, (p.milliArray 2).toNat]
        statusPacked := p.statusPacked.toNat
        confidence := p.confidence.toNat
        setpoint := p.setpoint.toNat }
  | .pid p => .pid ⟨p.integral.toNat, p.saturationCount.toNat, p.duty.toNat, p.setpoint.toNat⟩
  | .solenoidFire p => .solenoidFire ⟨p.kind.toNat, p.requestedOnUs.toNat, p.offUs.toNat⟩
  | .solenoidCurrent p =>
    .solenoidCurrent ⟨p.role.toNat, p.classification.toNat, p.baselineUa.toInt, p.fireUa.toInt,
      p.deltaUa.toInt⟩
  | .atmosPressure p => .atmosPressure ⟨p.pressureMbar.toNat⟩
  | .powerSnapshot p =>
    .powerSnapshot
      { vbusVoltage := p.vbusVoltage.toNat
        vccVoltage := p.vccVoltage.toNat
        batteryVoltage := p.batteryVoltage.toNat
        canVoltage := p.canVoltage.toNat
        batteryThreshold := p.batteryThreshold.toNat
        currentUa := p.currentUa.toInt
        currentAgeMs := p.currentAgeMs.toNat
        poseidonAgeSeconds := p.poseidonAgeSeconds.toNat
        poseidonPercent :=
          if (powerFlags p.flags).poseidonPercent then some p.poseidonPercent.toNat else none
        flags := p.flags.toNat
        valid := powerFlags p.flags }
  | .cellDiveO2 p =>
    .cellDiveO2
      { cellIndex := p.cellIndex.toNat
        ppo2 := p.ppo2.toNat
        temperatureMc := p.temperatureMc.toInt
        errCode := p.errCode.toNat
        phaseMdeg := p.phaseMdeg.toInt
        signalIntensityUv := p.signalIntensityUv.toInt
        ambientLightUv := p.ambientLightUv.toInt
        ambientPressureUbar := p.ambientPressureUbar.toInt
        housingHumidityMpercentRh := p.housingHumidityMpercentRh.toInt }
  | .cellO2S p => .cellO2S ⟨p.cellIndex.toNat, p.ppo2.toNat, p.status.toNat⟩
  | .cellAnalog p =>
    .cellAnalog ⟨p.cellIndex.toNat, p.ppo2.toNat, p.rawAdc.toInt, p.millivolts.toNat⟩
  | .error p => .error ⟨p.code.toNat, p.detail.toNat⟩
  | .logText p => .logText ⟨p.level.toNat, p.moduleId.toNat, asText p.message⟩
  | .dropMarker p => .dropMarker ⟨p.count.toNat, p.lastDroppedType.toNat⟩

/-! ## What is decoded -/

section Decoders

theorem decodeDiveMarker_bytes (isStart : Bool) (p : FlPayloadDiveMarker) :
    decodeDiveMarker (FlPayload.diveMarker isStart p).bytes =
      some ⟨p.diveNumber.toNat, p.unixTimestamp.toNat⟩ := by
  have hlen : (FlPayload.diveMarker isStart p).bytes.length = 6 := FlPayload.length_bytes _
  rw [decodeDiveMarker, if_neg (by omega)]
  exact congrArg some (DiveMarkerData.ext (readU16LE_packed _ rfl) (readU32LE_packed _ rfl))

theorem decodeCanFrame_bytes (isRx : Bool) (p : FlPayloadCanFrame) :
    decodeCanFrame (FlPayload.canFrame isRx p).bytes =
      some ⟨p.id.toNat, p.dlc.toNat, p.data.toList⟩ := by
  have hlen : (FlPayload.canFrame isRx p).bytes.length = 14 := FlPayload.length_bytes _
  rw [decodeCanFrame, if_neg (by omega)]
  exact congrArg some
    (CanFrameData.ext (readU32LE_packed _ rfl) (readU8_packed _ rfl) (slice_chars _ rfl rfl))

theorem decodePidSnapshot_bytes (p : FlPayloadPid) :
    decodePidSnapshot (FlPayload.pid p).bytes =
      some ⟨p.integral.toNat, p.saturationCount.toNat, p.duty.toNat, p.setpoint.toNat⟩ := by
  have hlen : (FlPayload.pid p).bytes.length = 11 := FlPayload.length_bytes _
  rw [decodePidSnapshot, if_neg (by omega)]
  exact congrArg some (PidData.ext (readF32LE_packed _ rfl) (readU16LE_packed _ rfl)
    (readF32LE_packed _ rfl) (readU8_packed _ rfl))

theorem decodeSolenoidFire_bytes (p : FlPayloadSolenoidFire) :
    decodeSolenoidFire (FlPayload.solenoidFire p).bytes =
      some ⟨p.kind.toNat, p.requestedOnUs.toNat, p.offUs.toNat⟩ := by
  have hlen : (FlPayload.solenoidFire p).bytes.length = 9 := FlPayload.length_bytes _
  rw [decodeSolenoidFire, if_neg (by omega)]
  exact congrArg some (SolenoidFireData.ext (readU8_packed _ rfl) (readU32LE_packed _ rfl)
    (readU32LE_packed _ rfl))

theorem decodeSolenoidCurrent_bytes (p : FlPayloadSolenoidCurrent) :
    decodeSolenoidCurrent (FlPayload.solenoidCurrent p).bytes =
      some ⟨p.role.toNat, p.classification.toNat, p.baselineUa.toInt, p.fireUa.toInt,
        p.deltaUa.toInt⟩ := by
  have hlen : (FlPayload.solenoidCurrent p).bytes.length = 14 := FlPayload.length_bytes _
  rw [decodeSolenoidCurrent, if_neg (by omega)]
  exact congrArg some (SolenoidCurrentData.ext (readU8_packed _ rfl) (readU8_packed _ rfl)
    (readI32LE_packed _ rfl) (readI32LE_packed _ rfl) (readI32LE_packed _ rfl))

theorem decodeAtmosPressure_bytes (p : FlPayloadAtmosPressure) :
    decodeAtmosPressure (FlPayload.atmosPressure p).bytes = some ⟨p.pressureMbar.toNat⟩ := by
  have hlen : (FlPayload.atmosPressure p).bytes.length = 2 := FlPayload.length_bytes _
  rw [decodeAtmosPressure, if_neg (by omega)]
  exact congrArg some (AtmosPressureData.ext (readU16LE_packed _ rfl))

theorem decodePowerSnapshot_bytes (p : FlPayloadPowerSnapshot) :
    (decodePowerSnapshot (FlPayload.powerSnapshot p).bytes).map .powerSnapshot =
      some (dataOf (.powerSnapshot p)) := by
  have hlen : (FlPayload.powerSnapshot p).bytes.length = 32 := FlPayload.length_bytes _
  have hflags : byteAt (FlPayload.powerSnapshot p).bytes 31 = p.flags := byteAt_packed _ rfl
  have hpercent : readU8 (FlPayload.powerSnapshot p).bytes 30 = p.poseidonPercent.toNat :=
    readU8_packed _ rfl
  rw [decodePowerSnapshot, if_neg (by omega), hflags, hpercent]
  exact congrArg (fun d => some (LogData.powerSnapshot d)) (PowerSnapshotData.ext
    (readF32LE_packed _ rfl) (readF32LE_packed _ rfl) (readF32LE_packed _ rfl)
    (readF32LE_packed _ rfl) (readF32LE_packed _ rfl) (readI32LE_packed _ rfl)
    (readU32LE_packed _ rfl) (readU16LE_packed _ rfl) rfl (readU8_packed _ rfl) rfl)

theorem decodeConsensus_bytes (p : FlPayloadConsensus) :
    (decodeConsensus (FlPayload.consensus p).bytes).map .consensus =
      some (dataOf (.consensus p)) := by
  have hlen : (FlPayload.consensus p).bytes.length = 14 := FlPayload.length_bytes _
  have hppo2 : ∀ i : Fin 3, readU8 (FlPayload.consensus p).bytes (1 + i) = (p.ppo2Array i).toNat :=
    Fin.forall_fin_succ.mpr ⟨readU8_packed _ rfl,
      Fin.forall_fin_two.mpr ⟨readU8_packed _ rfl, readU8_packed _ rfl⟩⟩
  have hmilli : ∀ i : Fin 3,
      readU16LE (FlPayload.consensus p).bytes (4 + 2 * i) = (p.milliArray i).toNat :=
    Fin.forall_fin_succ.mpr ⟨readU16LE_packed _ rfl,
      Fin.forall_fin_two.mpr ⟨readU16LE_packed _ rfl, readU16LE_packed _ rfl⟩⟩
  rw [decodeConsensus, if_neg (by omega)]
  refine congrArg (fun d => some (LogData.consensus d)) (ConsensusData.ext (readU8_packed _ rfl)
    ?_ ?_ (readU16LE_packed _ rfl) (readU8_packed _ rfl) (readU8_packed _ rfl))
  · rw [← hppo2 0, ← hppo2 1, ← hppo2 2]
    rfl
  · rw [← hmilli 0, ← hmilli 1, ← hmilli 2]
    rfl

/-- The decoder gives the fields of a DiveO2 cell, with the pressure as an unsigned number. -/
theorem decodeCellDiveO2_bytes (p : FlPayloadCellDiveO2) :
    decodeCellDiveO2 (FlPayload.cellDiveO2 p).bytes = some
      { cellIndex := p.cellIndex.toNat
        ppo2 := p.ppo2.toNat
        temperatureMc := p.temperatureMc.toInt
        errCode := p.errCode.toNat
        phaseMdeg := p.phaseMdeg.toInt
        signalIntensityUv := p.signalIntensityUv.toInt
        ambientLightUv := p.ambientLightUv.toInt
        ambientPressureUbar := p.ambientPressureUbar.toUInt32.toNat
        housingHumidityMpercentRh := p.housingHumidityMpercentRh.toInt } := by
  have hlen : (FlPayload.cellDiveO2 p).bytes.length = 30 := FlPayload.length_bytes _
  rw [decodeCellDiveO2, if_neg (by omega)]
  exact congrArg some (CellDiveO2Data.ext (readU8_packed _ rfl) (readU8_packed _ rfl)
    (readI32LE_packed _ rfl) (readU32LE_packed _ rfl) (readI32LE_packed _ rfl)
    (readI32LE_packed _ rfl) (readI32LE_packed _ rfl) (readU32LE_packed_i32 _ rfl)
    (readI32LE_packed _ rfl))

theorem decodeCellO2S_bytes (p : FlPayloadCellO2S) :
    decodeCellO2S (FlPayload.cellO2S p).bytes =
      some ⟨p.cellIndex.toNat, p.ppo2.toNat, p.status.toNat⟩ := by
  have hlen : (FlPayload.cellO2S p).bytes.length = 3 := FlPayload.length_bytes _
  rw [decodeCellO2S, if_neg (by omega)]
  exact congrArg some (CellO2SData.ext (readU8_packed _ rfl) (readU8_packed _ rfl)
    (readU8_packed _ rfl))

theorem decodeCellAnalog_bytes (p : FlPayloadCellAnalog) :
    decodeCellAnalog (FlPayload.cellAnalog p).bytes =
      some ⟨p.cellIndex.toNat, p.ppo2.toNat, p.rawAdc.toInt, p.millivolts.toNat⟩ := by
  have hlen : (FlPayload.cellAnalog p).bytes.length = 8 := FlPayload.length_bytes _
  rw [decodeCellAnalog, if_neg (by omega)]
  exact congrArg some (CellAnalogData.ext (readU8_packed _ rfl) (readU8_packed _ rfl)
    (readI32LE_packed _ rfl) (readU16LE_packed _ rfl))

theorem decodeErrorEvent_bytes (p : FlPayloadError) :
    decodeErrorEvent (FlPayload.error p).bytes = some ⟨p.code.toNat, p.detail.toNat⟩ := by
  have hlen : (FlPayload.error p).bytes.length = 8 := FlPayload.length_bytes _
  rw [decodeErrorEvent, if_neg (by omega)]
  exact congrArg some (ErrorEventData.ext (readU32LE_packed _ rfl) (readU32LE_packed _ rfl))

theorem decodeDropMarker_bytes (p : FlPayloadDropMarker) :
    decodeDropMarker (FlPayload.dropMarker p).bytes =
      some ⟨p.count.toNat, p.lastDroppedType.toNat⟩ := by
  have hlen : (FlPayload.dropMarker p).bytes.length = 5 := FlPayload.length_bytes _
  rw [decodeDropMarker, if_neg (by omega)]
  exact congrArg some (DropMarkerData.ext (readU32LE_packed _ rfl) (readU8_packed _ rfl))

/-- A text is decoded by its bytes if they are ASCII. -/
theorem decodeAscii_of_ascii {bytes : List UInt8} (h : ∀ b ∈ bytes, b.toNat < 128) :
    decodeAscii bytes = asText bytes := by
  refine List.map_congr_left fun b hb => ?_
  rw [if_neg fun hhigh => absurd (h b hb) (by omega)]

theorem decodeLogText_bytes (p : FlPayloadLogText) :
    decodeLogText (FlPayload.logText p).bytes =
      some ⟨p.level.toNat, p.moduleId.toNat, decodeAscii p.message⟩ := by
  have hlen : (FlPayload.logText p).bytes.length = 3 + p.message.length := FlPayload.length_bytes _
  have hdrop : (FlPayload.logText p).bytes.drop 3 = p.message := rfl
  rw [decodeLogText, if_neg (by omega), hdrop]
  exact congrArg some (LogTextData.ext (readU8_packed _ rfl) (readU16LE_packed _ rfl) rfl)

/-- `indexOf(0)` finds where the text ends. -/
theorem take_idxOf_zero (bytes : List UInt8) :
    (if bytes.contains 0 then bytes.take (bytes.idxOf 0) else bytes) = upToNul bytes := by
  unfold upToNul
  induction bytes with
  | nil => rfl
  | cons b bytes ih =>
    by_cases hb : b = 0
    · subst hb
      simp
    · have hbeq : (b == 0) = false := beq_eq_false_iff_ne.mpr hb
      have hcontains : (b :: bytes).contains 0 = bytes.contains 0 := by
        rw [List.contains_cons, Bool.or_eq_right_iff_imp]
        exact fun h => absurd (eq_of_beq h).symm hb
      rw [hcontains, List.takeWhile_cons_of_pos (by simpa using hb), ← ih, List.idxOf_cons, hbeq]
      split <;> rfl

theorem crashMagic_iff (magic : UInt32) :
    (magic.toNat : ℤ) = flCrashMagic ↔ magic = 0xDEADC0DE := by
  rw [flCrashMagic, ← UInt32.toNat_inj]
  exact Int.ofNat_inj

theorem decodeBootMarker_bytes (p : FlPayloadBootMarker) :
    decodeBootMarker (FlPayload.bootMarker p).bytes = some
      { bootId := p.bootId.toNat
        fwVersion := decodeAscii (upToNul p.fwVersion.toList)
        resetCause := p.resetCause.toNat
        prevCrash :=
          if p.prevCrashMagic = 0xDEADC0DE then
            some ⟨p.prevCrashMagic.toNat, p.prevCrashReason.toNat, p.prevCrashPc.toNat,
              p.prevCrashLr.toNat⟩
          else none } := by
  have hlen : (FlPayload.bootMarker p).bytes.length = 40 := FlPayload.length_bytes _
  have hver : slice (FlPayload.bootMarker p).bytes 4 20 = p.fwVersion.toList :=
    slice_chars _ rfl rfl
  have hmagic : readU32LE (FlPayload.bootMarker p).bytes 24 = p.prevCrashMagic.toNat :=
    readU32LE_packed _ rfl
  have hiff : (p.prevCrashMagic.toNat : ℤ) = flCrashMagic ↔ p.prevCrashMagic = 0xDEADC0DE :=
    crashMagic_iff p.prevCrashMagic
  rw [decodeBootMarker, if_neg (by omega), if_pos (by omega)]
  dsimp only
  have hreason : readU32LE (FlPayload.bootMarker p).bytes 28 = p.prevCrashReason.toNat :=
    readU32LE_packed _ rfl
  have hpc : readU32LE (FlPayload.bootMarker p).bytes 32 = p.prevCrashPc.toNat :=
    readU32LE_packed _ rfl
  have hlr : readU32LE (FlPayload.bootMarker p).bytes 36 = p.prevCrashLr.toNat :=
    readU32LE_packed _ rfl
  rw [hver, take_idxOf_zero, hmagic, hreason, hpc, hlr]
  simp only [hiff]
  exact congrArg some (BootMarkerData.ext (readU32LE_packed _ rfl) rfl (readU32LE_packed _ rfl) rfl)

end Decoders

end DiveCANHead.LogClient
