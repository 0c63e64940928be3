import DiveCANHead.LogClient.Channels

/-!
# Decoding payloads in the script (`telemetry_log.py`)

The script unpacks a whole payload by a format. It has no decoder for pressures and supplies. The
values in other units are left out here too.
-/

namespace DiveCANHead.LogClient

open DiveCANHead.Lib DiveCANHead.FlashLog

/-! ## Formats -/

/-- `_S_DIVE`. -/
def sDive : List ScalarType := [.u16, .u32]

/-- `_S_CONSENSUS`. -/
def sConsensus : List ScalarType := [.u8, .u8, .u8, .u8, .u16, .u16, .u16, .u16, .u8, .u8]

/-- `_S_PID`. -/
def sPid : List ScalarType := [.f32, .u16, .f32, .u8]

/-- `_S_SOL_FIRE`. -/
def sSolFire : List ScalarType := [.u8, .u32, .u32]

/-- `_S_SOL_CURRENT`. -/
def sSolCurrent : List ScalarType := [.u8, .u8, .i32, .i32, .i32]

/-- `_S_DIVEO2`. -/
def sDiveO2 : List ScalarType := [.u8, .u8, .i32, .u32, .i32, .i32, .i32, .i32, .i32]

/-- `_S_O2S`. -/
def sO2S : List ScalarType := [.u8, .u8, .u8]

/-- `_S_ANALOG`. -/
def sAnalog : List ScalarType := [.u8, .u8, .i32, .u16]

/-- `_S_ERROR`. -/
def sError : List ScalarType := [.u32, .u32]

/-- `_S_DROP`. -/
def sDrop : List ScalarType := [.u32, .u8]

/-- `_S_BOOT`. -/
def sBoot : List ScalarType := [.u32, .chars 16, .u32, .u32, .u32, .u32, .u32]

/-- `Struct.size`. -/
def structSize (format : List ScalarType) : ℕ := (format.map ScalarType.size).sum

/-- `struct.unpack_from` for one unsigned number. -/
def unpackUnsigned (n : ℕ) (p : List UInt8) (o : ℕ) : ℤ := leNat ((p.drop o).take n)

/-- `decode("ascii", "replace")`. -/
def decodeReplacing (bytes : List UInt8) : List Char :=
  bytes.map fun b => if b.toNat < 128 then Char.ofNat b.toNat else Char.ofNat 0xFFFD

namespace TelemetryLog

/-! ## Decoders -/

def crashMagic : ℤ := 0xDEADC0DE

def decodeBootMarker (p : List UInt8) : Option BootMarkerData :=
  if p.length < 24 then none
  else if structSize sBoot ≤ p.length then
    match unpack sBoot p with
    | [.int bootId, .chars ver, .int cause, .int magic, .int reason, .int pc, .int lr] =>
      some
        { bootId
          fwVersion := decodeReplacing (ver.takeWhile (· ≠ 0))
          resetCause := cause
          prevCrash := if magic = crashMagic then some ⟨magic, reason, pc, lr⟩ else none }
    | _ => none
  else
    match unpack [.u32, .chars 16, .u32] p with
    | [.int bootId, .chars ver, .int cause] =>
      some
        { bootId
          fwVersion := decodeReplacing (ver.takeWhile (· ≠ 0))
          resetCause := cause
          prevCrash := none }
    | _ => none

def decodeDiveMarker (p : List UInt8) : Option DiveMarkerData :=
  if p.length < structSize sDive then none
  else
    match unpack sDive p with
    | [.int number, .int unixTs] => some ⟨number, unixTs⟩
    | _ => none

def decodeConsensus (p : List UInt8) : Option ConsensusData :=
  if p.length < structSize sConsensus then none
  else
    match unpack sConsensus p with
    | [.int cons, .int a0, .int a1, .int a2, .int m0, .int m1, .int m2, .int statusPacked,
        .int conf,
        .int sp] => some ⟨cons, [a0, a1, a2], [m0, m1, m2], statusPacked, conf, sp⟩
    | _ => none

/-- `consensus_cells`. -/
def consensusCells (packed : ℕ) : List (ℕ × Bool) :=
  List.zipWith (fun s i => ((packed >>> s) &&& 0x03, (packed >>> i) &&& 0x01 != 0))
    [0, 3, 6] [2, 5, 8]

def decodePid (p : List UInt8) : Option PidData :=
  if p.length < structSize sPid then none
  else
    match unpack sPid p with
    | [.float integral, .int sat, .float duty, .int sp] => some ⟨integral, sat, duty, sp⟩
    | _ => none

def decodeSolenoidFire (p : List UInt8) : Option SolenoidFireData :=
  if p.length < structSize sSolFire then none
  else
    match unpack sSolFire p with
    | [.int kind, .int onUs, .int offUs] => some ⟨kind, onUs, offUs⟩
    | _ => none

def decodeSolenoidCurrent (p : List UInt8) : Option SolenoidCurrentData :=
  if p.length < structSize sSolCurrent then none
  else
    match unpack sSolCurrent p with
    | [.int role, .int cls, .int base, .int fire, .int delta] => some ⟨role, cls, base, fire, delta⟩
    | _ => none

def decodeCellDiveO2 (p : List UInt8) : Option CellDiveO2Data :=
  if p.length < structSize sDiveO2 then none
  else
    match unpack sDiveO2 p with
    | [.int idx, .int ppo2, .int tempMc, .int err, .int phaseMdeg, .int signalIntensityUv,
        .int ambientLightUv, .int ambientPressureUbar, .int housingHumidityMpercentRh] =>
      some ⟨idx, ppo2, tempMc, err, phaseMdeg, signalIntensityUv, ambientLightUv,
        ambientPressureUbar, housingHumidityMpercentRh⟩
    | _ => none

def decodeCellO2S (p : List UInt8) : Option CellO2SData :=
  if p.length < structSize sO2S then none
  else
    match unpack sO2S p with
    | [.int idx, .int ppo2, .int status] => some ⟨idx, ppo2, status⟩
    | _ => none

def decodeCellAnalog (p : List UInt8) : Option CellAnalogData :=
  if p.length < structSize sAnalog then none
  else
    match unpack sAnalog p with
    | [.int idx, .int ppo2, .int adc, .int mv] => some ⟨idx, ppo2, adc, mv⟩
    | _ => none

def decodeError (p : List UInt8) : Option ErrorEventData :=
  if p.length < structSize sError then none
  else
    match unpack sError p with
    | [.int code, .int detail] => some ⟨code, detail⟩
    | _ => none

def decodeDrop (p : List UInt8) : Option DropMarkerData :=
  if p.length < structSize sDrop then none
  else
    match unpack sDrop p with
    | [.int count, .int last] => some ⟨count, last⟩
    | _ => none

def decodeCanFrame (p : List UInt8) : Option CanFrameData :=
  if p.length < 13 then none
  else some ⟨unpackUnsigned 4 p 0, (byteAt p 4).toNat, slice p 5 13⟩

def decodeLogText (p : List UInt8) : Option LogTextData :=
  if p.length < 3 then none
  else some ⟨(byteAt p 0).toNat, unpackUnsigned 2 p 1, decodeReplacing (p.drop 3)⟩

/-- `DECODERS`. -/
def decoders : List (UInt8 × (List UInt8 → Option LogData)) :=
  [(flTypeBootMarker, fun p => (decodeBootMarker p).map .bootMarker),
    (flTypeDiveStart, fun p => (decodeDiveMarker p).map .diveMarker),
    (flTypeDiveEnd, fun p => (decodeDiveMarker p).map .diveMarker),
    (flTypeCanRx, fun p => (decodeCanFrame p).map .canFrame),
    (flTypeCanTx, fun p => (decodeCanFrame p).map .canFrame),
    (flTypeConsensus, fun p => (decodeConsensus p).map .consensus),
    (flTypePidSnapshot, fun p => (decodePid p).map .pid),
    (flTypeSolenoidFire, fun p => (decodeSolenoidFire p).map .solenoidFire),
    (flTypeSolenoidCurrent, fun p => (decodeSolenoidCurrent p).map .solenoidCurrent),
    (flTypeCellRawDiveO2, fun p => (decodeCellDiveO2 p).map .cellDiveO2),
    (flTypeCellRawO2S, fun p => (decodeCellO2S p).map .cellO2S),
    (flTypeCellRawAnalog, fun p => (decodeCellAnalog p).map .cellAnalog),
    (flTypeErrorEvent, fun p => (decodeError p).map .error),
    (flTypeDropMarker, fun p => (decodeDrop p).map .dropMarker),
    (flTypeLogText, fun p => (decodeLogText p).map .logText)]

/-- `DECODERS.get`. -/
def decoderOf (type : UInt8) : Option (List UInt8 → Option LogData) :=
  (decoders.find? fun d => d.1 == type).map Prod.snd

end TelemetryLog

/-! ## What is decoded -/

/-- A format that fits the structure unpacks its fields. -/
theorem unpack_bytes {p : FlPayload} {format : List ScalarType}
    (h : p.fields.map Scalar.type = format) : unpack format p.bytes = p.fields.map Scalar.datum :=
  h ▸ unpack_packed p.fields p.tail

theorem pid_script (p : FlPayloadPid) :
    TelemetryLog.decodePid (FlPayload.pid p).bytes =
      some ⟨p.integral.toNat, p.saturationCount.toNat, p.duty.toNat, p.setpoint.toNat⟩ := by
  have hlen : (FlPayload.pid p).bytes.length = 11 := FlPayload.length_bytes _
  have hfields : unpack sPid (FlPayload.pid p).bytes = (FlPayload.pid p).fields.map Scalar.datum :=
    unpack_bytes rfl
  rw [TelemetryLog.decodePid, if_neg (by rw [hlen]; decide), hfields]
  rfl

theorem diveMarker_script (isStart : Bool) (p : FlPayloadDiveMarker) :
    TelemetryLog.decodeDiveMarker (FlPayload.diveMarker isStart p).bytes =
      some ⟨p.diveNumber.toNat, p.unixTimestamp.toNat⟩ := by
  have hlen : (FlPayload.diveMarker isStart p).bytes.length = 6 := FlPayload.length_bytes _
  have hfields : unpack sDive (FlPayload.diveMarker isStart p).bytes =
      (FlPayload.diveMarker isStart p).fields.map Scalar.datum := unpack_bytes rfl
  rw [TelemetryLog.decodeDiveMarker, if_neg (by rw [hlen]; decide), hfields]
  rfl

theorem solenoidFire_script (p : FlPayloadSolenoidFire) :
    TelemetryLog.decodeSolenoidFire (FlPayload.solenoidFire p).bytes =
      some ⟨p.kind.toNat, p.requestedOnUs.toNat, p.offUs.toNat⟩ := by
  have hlen : (FlPayload.solenoidFire p).bytes.length = 9 := FlPayload.length_bytes _
  have hfields : unpack sSolFire (FlPayload.solenoidFire p).bytes =
      (FlPayload.solenoidFire p).fields.map Scalar.datum := unpack_bytes rfl
  rw [TelemetryLog.decodeSolenoidFire, if_neg (by rw [hlen]; decide), hfields]
  rfl

theorem solenoidCurrent_script (p : FlPayloadSolenoidCurrent) :
    TelemetryLog.decodeSolenoidCurrent (FlPayload.solenoidCurrent p).bytes = some
      ⟨p.role.toNat, p.classification.toNat, p.baselineUa.toInt, p.fireUa.toInt,
        p.deltaUa.toInt⟩ := by
  have hlen : (FlPayload.solenoidCurrent p).bytes.length = 14 := FlPayload.length_bytes _
  have hfields : unpack sSolCurrent (FlPayload.solenoidCurrent p).bytes =
      (FlPayload.solenoidCurrent p).fields.map Scalar.datum := unpack_bytes rfl
  rw [TelemetryLog.decodeSolenoidCurrent, if_neg (by rw [hlen]; decide), hfields]
  rfl

theorem cellO2S_script (p : FlPayloadCellO2S) :
    TelemetryLog.decodeCellO2S (FlPayload.cellO2S p).bytes = some
      ⟨p.cellIndex.toNat, p.ppo2.toNat, p.status.toNat⟩ := by
  have hlen : (FlPayload.cellO2S p).bytes.length = 3 := FlPayload.length_bytes _
  have hfields : unpack sO2S (FlPayload.cellO2S p).bytes =
      (FlPayload.cellO2S p).fields.map Scalar.datum := unpack_bytes rfl
  rw [TelemetryLog.decodeCellO2S, if_neg (by rw [hlen]; decide), hfields]
  rfl

theorem cellAnalog_script (p : FlPayloadCellAnalog) :
    TelemetryLog.decodeCellAnalog (FlPayload.cellAnalog p).bytes = some
      ⟨p.cellIndex.toNat, p.ppo2.toNat, p.rawAdc.toInt, p.millivolts.toNat⟩ := by
  have hlen : (FlPayload.cellAnalog p).bytes.length = 8 := FlPayload.length_bytes _
  have hfields : unpack sAnalog (FlPayload.cellAnalog p).bytes =
      (FlPayload.cellAnalog p).fields.map Scalar.datum := unpack_bytes rfl
  rw [TelemetryLog.decodeCellAnalog, if_neg (by rw [hlen]; decide), hfields]
  rfl

theorem error_script (p : FlPayloadError) :
    TelemetryLog.decodeError (FlPayload.error p).bytes = some ⟨p.code.toNat, p.detail.toNat⟩ := by
  have hlen : (FlPayload.error p).bytes.length = 8 := FlPayload.length_bytes _
  have hfields : unpack sError (FlPayload.error p).bytes =
      (FlPayload.error p).fields.map Scalar.datum := unpack_bytes rfl
  rw [TelemetryLog.decodeError, if_neg (by rw [hlen]; decide), hfields]
  rfl

theorem dropMarker_script (p : FlPayloadDropMarker) :
    TelemetryLog.decodeDrop (FlPayload.dropMarker p).bytes = some
      ⟨p.count.toNat, p.lastDroppedType.toNat⟩ := by
  have hlen : (FlPayload.dropMarker p).bytes.length = 5 := FlPayload.length_bytes _
  have hfields : unpack sDrop (FlPayload.dropMarker p).bytes =
      (FlPayload.dropMarker p).fields.map Scalar.datum := unpack_bytes rfl
  rw [TelemetryLog.decodeDrop, if_neg (by rw [hlen]; decide), hfields]
  rfl

theorem consensus_script (p : FlPayloadConsensus) :
    (TelemetryLog.decodeConsensus (FlPayload.consensus p).bytes).map .consensus =
      some (dataOf (.consensus p)) := by
  have hlen : (FlPayload.consensus p).bytes.length = 14 := FlPayload.length_bytes _
  have hfields : unpack sConsensus (FlPayload.consensus p).bytes =
      (FlPayload.consensus p).fields.map Scalar.datum := unpack_bytes rfl
  rw [TelemetryLog.decodeConsensus, if_neg (by rw [hlen]; decide), hfields]
  rfl

theorem cellDiveO2_script (p : FlPayloadCellDiveO2) :
    (TelemetryLog.decodeCellDiveO2 (FlPayload.cellDiveO2 p).bytes).map .cellDiveO2 =
      some (dataOf (.cellDiveO2 p)) := by
  have hlen : (FlPayload.cellDiveO2 p).bytes.length = 30 := FlPayload.length_bytes _
  have hfields : unpack sDiveO2 (FlPayload.cellDiveO2 p).bytes =
      (FlPayload.cellDiveO2 p).fields.map Scalar.datum := unpack_bytes rfl
  rw [TelemetryLog.decodeCellDiveO2, if_neg (by rw [hlen]; decide), hfields]
  rfl

theorem canFrame_script (isRx : Bool) (p : FlPayloadCanFrame) :
    TelemetryLog.decodeCanFrame (FlPayload.canFrame isRx p).bytes =
      some ⟨p.id.toNat, p.dlc.toNat, p.data.toList⟩ := by
  have hlen : (FlPayload.canFrame isRx p).bytes.length = 14 := FlPayload.length_bytes _
  have hid : ((FlPayload.canFrame isRx p).bytes.drop 0).take 4 = leBytes 4 p.id.toNat :=
    slice_packed (s := .u32 p.id) rfl _
  have hdlc : byteAt (FlPayload.canFrame isRx p).bytes 4 = p.dlc := byteAt_packed _ rfl
  rw [TelemetryLog.decodeCanFrame, if_neg (by omega), unpackUnsigned, hid, hdlc,
    leNat_leBytes p.id.toNat_lt]
  exact congrArg some (CanFrameData.ext rfl rfl (slice_chars _ rfl rfl))

theorem logText_script (p : FlPayloadLogText) :
    TelemetryLog.decodeLogText (FlPayload.logText p).bytes =
      some ⟨p.level.toNat, p.moduleId.toNat, decodeReplacing p.message⟩ := by
  have hlen : (FlPayload.logText p).bytes.length = 3 + p.message.length := FlPayload.length_bytes _
  have hlevel : byteAt (FlPayload.logText p).bytes 0 = p.level := byteAt_packed _ rfl
  have hmodule : ((FlPayload.logText p).bytes.drop 1).take 2 = leBytes 2 p.moduleId.toNat :=
    slice_packed (s := .u16 p.moduleId) rfl _
  rw [TelemetryLog.decodeLogText, if_neg (by omega), unpackUnsigned, hlevel, hmodule,
    leNat_leBytes p.moduleId.toNat_lt]
  rfl

theorem bootMarker_script (p : FlPayloadBootMarker) :
    TelemetryLog.decodeBootMarker (FlPayload.bootMarker p).bytes = some
      { bootId := p.bootId.toNat
        fwVersion := decodeReplacing (upToNul p.fwVersion.toList)
        resetCause := p.resetCause.toNat
        prevCrash :=
          if p.prevCrashMagic = 0xDEADC0DE then
            some ⟨p.prevCrashMagic.toNat, p.prevCrashReason.toNat, p.prevCrashPc.toNat,
              p.prevCrashLr.toNat⟩
          else none } := by
  have hlen : (FlPayload.bootMarker p).bytes.length = 40 := FlPayload.length_bytes _
  have hfields : unpack sBoot (FlPayload.bootMarker p).bytes =
      (FlPayload.bootMarker p).fields.map Scalar.datum := unpack_bytes rfl
  have hiff : (p.prevCrashMagic.toNat : ℤ) = TelemetryLog.crashMagic ↔
      p.prevCrashMagic = 0xDEADC0DE := crashMagic_iff p.prevCrashMagic
  rw [TelemetryLog.decodeBootMarker, if_neg (by omega), if_pos (by rw [hlen]; decide), hfields]
  simp only [FlPayload.fields, List.map_cons, List.map_nil, Scalar.datum, hiff]
  rfl

/-- The script reads a text by its bytes if and only if they are ASCII. -/
theorem decodeReplacing_iff (bytes : List UInt8) :
    decodeReplacing bytes = asText bytes ↔ ∀ b ∈ bytes, b.toNat < 128 := by
  rw [decodeReplacing, asText, List.map_inj_left]
  refine forall₂_congr fun b _ => ⟨fun h => ?_, fun h => if_pos h⟩
  by_contra hb
  rw [if_neg hb] at h
  have hlt : b.toNat < 256 := b.toNat_lt
  have hval : (Char.ofNat 0xFFFD).toNat = (Char.ofNat b.toNat).toNat := congrArg Char.toNat h
  have hreplaced : (Char.ofNat 0xFFFD).toNat = 0xFFFD := by decide
  have hchar : (Char.ofNat b.toNat).toNat = b.toNat := by
    rw [Char.ofNat, dif_pos (.inl (by omega))]
    rfl
  omega

end DiveCANHead.LogClient
