import DiveCANHead.LogClient.Decode

/-!
# The channels of the viewer (`TelemetryModel.js`, `TelemetryBuilder.js`)

The viewer has a table of fields for each record type it plots: the offset, the reader, and for a
field within a word its bits. Labels, units and scales are left out, and so are the channels it
derives from others.
-/

namespace DiveCANHead.LogClient

open DiveCANHead.Lib DiveCANHead.FlashLog

/-- The keys of the channels; a number is the cell's. -/
inductive TelemetryKey where
  | ppo2
  | temperature
  | errCode
  | phase
  | intensity
  | ambientLight
  | pressureMbar
  | humidity
  | status
  | rawAdc
  | millivolts
  | consensusPpo2
  | setpoint
  | confidence
  | ppo2Cell (i : Fin 3)
  | mvCell (i : Fin 3)
  | statusCell (i : Fin 3)
  | includeCell (i : Fin 3)
  | duty
  | integral
  | saturationCount
  | vbusVoltage
  | vccVoltage
  | batteryVoltage
  | canVoltage
  | batteryThreshold
  | currentMa
  | currentAge
  | poseidonAge
  | poseidonPercent
  | lowBattery
  | poseidonFresh
  deriving DecidableEq, Repr

/-- The names of `READERS`. -/
inductive Reader where
  | u8
  | u16
  | i32
  | u32
  | f32
  deriving DecidableEq, Repr

/-- `READERS`. -/
def Reader.read : Reader → List UInt8 → ℕ → Datum
  | .u8, p, o => .int (readU8 p o)
  | .u16, p, o => .int (readU16LE p o)
  | .i32, p, o => .int (readI32LE p o)
  | .u32, p, o => .int (readU32LE p o)
  | .f32, p, o => .float (readF32LE p o)

/-- The shift and the mask of a field within a word. -/
structure FieldBits where
  shift : ℕ
  mask : ℕ
  deriving DecidableEq, Repr

structure TelemetryField where
  key : TelemetryKey
  off : ℕ
  read : Reader
  bits : Option FieldBits := none
  deriving DecidableEq, Repr

/-- `(raw >> shift) & mask`. -/
def FieldBits.select (b : FieldBits) : Datum → Datum
  | .int raw => .int ((raw.toNat >>> b.shift) &&& b.mask : ℕ)
  | raw => raw

/-- The value before it is scaled. -/
def TelemetryField.raw (f : TelemetryField) (payload : List UInt8) : Datum :=
  match f.bits with
  | none => f.read.read payload f.off
  | some bits => bits.select (f.read.read payload f.off)

/-- `DIVEO2_FIELDS`. -/
def diveo2Fields : List TelemetryField :=
  [⟨.ppo2, 1, .u8, none⟩, ⟨.temperature, 2, .i32, none⟩, ⟨.errCode, 6, .u32, none⟩,
    ⟨.phase, 10, .i32, none⟩, ⟨.intensity, 14, .i32, none⟩, ⟨.ambientLight, 18, .i32, none⟩,
    ⟨.pressureMbar, 22, .u32, none⟩, ⟨.humidity, 26, .i32, none⟩]

/-- `O2S_FIELDS`. -/
def o2sFields : List TelemetryField := [⟨.ppo2, 1, .u8, none⟩, ⟨.status, 2, .u8, none⟩]

/-- `ANALOG_FIELDS`. -/
def analogFields : List TelemetryField :=
  [⟨.ppo2, 1, .u8, none⟩, ⟨.rawAdc, 2, .i32, none⟩, ⟨.millivolts, 6, .u16, none⟩]

attribute [local instance] DiveCANHead.Lib.neZero_three in
/-- `CONSENSUS_FIELDS`. -/
def consensusFields : List TelemetryField :=
  [⟨.consensusPpo2, 0, .u8, none⟩, ⟨.setpoint, 13, .u8, none⟩, ⟨.confidence, 12, .u8, none⟩,
    ⟨.ppo2Cell 0, 1, .u8, none⟩, ⟨.ppo2Cell 1, 2, .u8, none⟩, ⟨.ppo2Cell 2, 3, .u8, none⟩,
    ⟨.mvCell 0, 4, .u16, none⟩, ⟨.mvCell 1, 6, .u16, none⟩, ⟨.mvCell 2, 8, .u16, none⟩,
    ⟨.statusCell 0, 10, .u16, some ⟨0, 0x03⟩⟩, ⟨.statusCell 1, 10, .u16, some ⟨3, 0x03⟩⟩,
    ⟨.statusCell 2, 10, .u16, some ⟨6, 0x03⟩⟩, ⟨.includeCell 0, 10, .u16, some ⟨2, 0x01⟩⟩,
    ⟨.includeCell 1, 10, .u16, some ⟨5, 0x01⟩⟩, ⟨.includeCell 2, 10, .u16, some ⟨8, 0x01⟩⟩]

/-- `PID_FIELDS`. -/
def pidFields : List TelemetryField :=
  [⟨.duty, 6, .f32, none⟩, ⟨.integral, 0, .f32, none⟩, ⟨.saturationCount, 4, .u16, none⟩,
    ⟨.setpoint, 10, .u8, none⟩]

/-- `ATMOS_FIELDS`. -/
def atmosFields : List TelemetryField := [⟨.pressureMbar, 0, .u16, none⟩]

/-- `POWER_FIELDS`. -/
def powerFields : List TelemetryField :=
  [⟨.vbusVoltage, 0, .f32, none⟩, ⟨.vccVoltage, 4, .f32, none⟩, ⟨.batteryVoltage, 8, .f32, none⟩,
    ⟨.canVoltage, 12, .f32, none⟩, ⟨.batteryThreshold, 16, .f32, none⟩,
    ⟨.currentMa, 20, .i32, none⟩, ⟨.currentAge, 24, .u32, none⟩, ⟨.poseidonAge, 28, .u16, none⟩,
    ⟨.poseidonPercent, 30, .u8, none⟩, ⟨.lowBattery, 31, .u8, some ⟨7, 1⟩⟩,
    ⟨.poseidonFresh, 31, .u8, some ⟨6, 1⟩⟩]

structure TelemetryTable where
  type : UInt8
  payloadLen : ℕ
  fields : List TelemetryField
  cellOff : Option ℕ := none
  flagsOff : Option ℕ := none
  deriving DecidableEq, Repr

/-- `TABLES`. -/
def tables : List TelemetryTable :=
  [⟨flTypeConsensus, 14, consensusFields, none, none⟩,
    ⟨flTypePidSnapshot, 11, pidFields, none, none⟩,
    ⟨flTypeAtmosPressure, 2, atmosFields, none, none⟩,
    ⟨flTypePowerSnapshot, 32, powerFields, none, some 31⟩,
    ⟨flTypeCellRawDiveO2, 30, diveo2Fields, some 0, none⟩,
    ⟨flTypeCellRawO2S, 3, o2sFields, some 0, none⟩,
    ⟨flTypeCellRawAnalog, 8, analogFields, some 0, none⟩]

/-- `tableForType`. -/
def tableForType (type : UInt8) : Option TelemetryTable := tables.find? fun t => t.type == type

/-! ## What was encoded -/

/-- The values of the fields that are plotted. -/
def channelOf : FlPayload → TelemetryKey → Option Datum
  | .consensus p, key =>
    match key with
    | .consensusPpo2 => some (.int p.consensusPpo2.toNat)
    | .setpoint => some (.int p.setpoint.toNat)
    | .confidence => some (.int p.confidence.toNat)
    | .ppo2Cell i => some (.int (p.ppo2Array i).toNat)
    | .mvCell i => some (.int (p.milliArray i).toNat)
    | .statusCell i => some (.int (statusBits p.statusPacked i))
    | .includeCell i => some (.int (includeBit p.statusPacked i))
    | _ => none
  | .pid p, key =>
    match key with
    | .duty => some (.float p.duty.toNat)
    | .integral => some (.float p.integral.toNat)
    | .saturationCount => some (.int p.saturationCount.toNat)
    | .setpoint => some (.int p.setpoint.toNat)
    | _ => none
  | .atmosPressure p, key =>
    match key with
    | .pressureMbar => some (.int p.pressureMbar.toNat)
    | _ => none
  | .powerSnapshot p, key =>
    match key with
    | .vbusVoltage => some (.float p.vbusVoltage.toNat)
    | .vccVoltage => some (.float p.vccVoltage.toNat)
    | .batteryVoltage => some (.float p.batteryVoltage.toNat)
    | .canVoltage => some (.float p.canVoltage.toNat)
    | .batteryThreshold => some (.float p.batteryThreshold.toNat)
    | .currentMa => some (.int p.currentUa.toInt)
    | .currentAge => some (.int p.currentAgeMs.toNat)
    | .poseidonAge => some (.int p.poseidonAgeSeconds.toNat)
    | .poseidonPercent => some (.int p.poseidonPercent.toNat)
    | .lowBattery => some (.int (p.flags.toNat / 128))
    | .poseidonFresh => some (.int (p.flags.toNat / 64 % 2))
    | _ => none
  | .cellDiveO2 p, key =>
    match key with
    | .ppo2 => some (.int p.ppo2.toNat)
    | .temperature => some (.int p.temperatureMc.toInt)
    | .errCode => some (.int p.errCode.toNat)
    | .phase => some (.int p.phaseMdeg.toInt)
    | .intensity => some (.int p.signalIntensityUv.toInt)
    | .ambientLight => some (.int p.ambientLightUv.toInt)
    | .pressureMbar => some (.int p.ambientPressureUbar.toInt)
    | .humidity => some (.int p.housingHumidityMpercentRh.toInt)
    | _ => none
  | .cellO2S p, key =>
    match key with
    | .ppo2 => some (.int p.ppo2.toNat)
    | .status => some (.int p.status.toNat)
    | _ => none
  | .cellAnalog p, key =>
    match key with
    | .ppo2 => some (.int p.ppo2.toNat)
    | .rawAdc => some (.int p.rawAdc.toInt)
    | .millivolts => some (.int p.millivolts.toNat)
    | _ => none
  | _, _ => none

/-- The index of the cell a record is about. -/
def cellIndexOf : FlPayload → Option UInt8
  | .cellDiveO2 p => some p.cellIndex
  | .cellO2S p => some p.cellIndex
  | .cellAnalog p => some p.cellIndex
  | _ => none

/-- The flags the validity bits are taken from. -/
def flagsOf : FlPayload → Option UInt8
  | .powerSnapshot p => some p.flags
  | _ => none

/-- A table reads the fields of a payload. -/
structure TableReads (t : TelemetryTable) (p : FlPayload) : Prop where
  length : t.payloadLen ≤ p.bytes.length
  raw : ∀ f ∈ t.fields, some (f.raw p.bytes) = channelOf p f.key
  cell : ∀ o, t.cellOff = some o → some (byteAt p.bytes o) = cellIndexOf p
  flags : ∀ o, t.flagsOff = some o → some (byteAt p.bytes o) = flagsOf p

/-! ## Reads -/

section Reads

variable {fields : List Scalar} {o : ℕ} (rest : List UInt8)

theorem select_status (packed : UInt16) (i : Fin 3) :
    FieldBits.select ⟨3 * i, 0x03⟩ (.int packed.toNat) = .int (statusBits packed i) := by
  have hand : ∀ n : ℕ, n &&& 3 = n % 4 := fun n => Nat.and_two_pow_sub_one_eq_mod n 2
  rw [FieldBits.select, Int.toNat_natCast, hand, Nat.shiftRight_eq_div_pow]
  rfl

theorem select_include (packed : UInt16) (i : Fin 3) :
    FieldBits.select ⟨3 * i + 2, 0x01⟩ (.int packed.toNat) = .int (includeBit packed i) := by
  rw [FieldBits.select, Int.toNat_natCast, Nat.and_one_is_mod, Nat.shiftRight_eq_div_pow]
  rfl

/-- The type of the fields a reader is for. -/
def Reader.type : Reader → ScalarType
  | .u8 => .u8
  | .u16 => .u16
  | .i32 => .i32
  | .u32 => .u32
  | .f32 => .f32

/-- A reader gets the field at its offset if the types match. -/
theorem read_packed (r : Reader) {s : Scalar} (h : scalarAt fields o = some s)
    (ht : s.type = r.type) : r.read (packed fields ++ rest) o = s.datum := by
  cases r <;> cases s <;> cases ht
  · exact congrArg Datum.int (readU8_packed rest h)
  · exact congrArg Datum.int (readU16LE_packed rest h)
  · exact congrArg Datum.int (readI32LE_packed rest h)
  · exact congrArg Datum.int (readU32LE_packed rest h)
  · exact congrArg Datum.float (readF32LE_packed rest h)

/-- A field of a table that reads a field of the structure. -/
theorem raw_packed {p : FlPayload} {key : TelemetryKey} {o : ℕ} {r : Reader} (s : Scalar)
    (h : scalarAt p.fields o = some s) (ht : s.type = r.type)
    (hc : channelOf p key = some s.datum) :
    some (TelemetryField.raw ⟨key, o, r, none⟩ p.bytes) = channelOf p key :=
  (congrArg some (read_packed p.tail r h ht)).trans hc.symm

/-- A field of a table that reads some bits of a field of the structure. -/
theorem bits_packed {p : FlPayload} {key : TelemetryKey} {o : ℕ} {r : Reader} {bits : FieldBits}
    (s : Scalar) (h : scalarAt p.fields o = some s) (ht : s.type = r.type)
    (hc : channelOf p key = some (bits.select s.datum)) :
    some (TelemetryField.raw ⟨key, o, r, some bits⟩ p.bytes) = channelOf p key :=
  (congrArg (fun d => some (bits.select d)) (read_packed p.tail r h ht)).trans hc.symm

theorem pid_reads (p : FlPayloadPid) :
    TableReads ⟨flTypePidSnapshot, 11, pidFields, none, none⟩ (.pid p) where
  length := Nat.le_of_eq (FlPayload.length_bytes (.pid p)).symm
  raw := by
    simp only [pidFields, List.forall_mem_cons, List.not_mem_nil, IsEmpty.forall_iff, implies_true,
      and_true]
    exact ⟨raw_packed (.f32 p.duty) rfl rfl rfl, raw_packed (.f32 p.integral) rfl rfl rfl,
      raw_packed (.u16 p.saturationCount) rfl rfl rfl, raw_packed (.u8 p.setpoint) rfl rfl rfl⟩
  cell := fun _ h => absurd h (by simp)
  flags := fun _ h => absurd h (by simp)

theorem consensus_reads (p : FlPayloadConsensus) :
    TableReads ⟨flTypeConsensus, 14, consensusFields, none, none⟩ (.consensus p) where
  length := Nat.le_of_eq (FlPayload.length_bytes (.consensus p)).symm
  raw := by
    simp only [consensusFields, List.forall_mem_cons, List.not_mem_nil, IsEmpty.forall_iff,
      implies_true, and_true]
    exact ⟨raw_packed (.u8 p.consensusPpo2) rfl rfl rfl, raw_packed (.u8 p.setpoint) rfl rfl rfl,
      raw_packed (.u8 p.confidence) rfl rfl rfl, raw_packed (.u8 (p.ppo2Array 0)) rfl rfl rfl,
      raw_packed (.u8 (p.ppo2Array 1)) rfl rfl rfl, raw_packed (.u8 (p.ppo2Array 2)) rfl rfl rfl,
      raw_packed (.u16 (p.milliArray 0)) rfl rfl rfl,
      raw_packed (.u16 (p.milliArray 1)) rfl rfl rfl,
      raw_packed (.u16 (p.milliArray 2)) rfl rfl rfl,
      bits_packed (.u16 p.statusPacked) rfl rfl (congrArg some (select_status _ 0).symm),
      bits_packed (.u16 p.statusPacked) rfl rfl (congrArg some (select_status _ 1).symm),
      bits_packed (.u16 p.statusPacked) rfl rfl (congrArg some (select_status _ 2).symm),
      bits_packed (.u16 p.statusPacked) rfl rfl (congrArg some (select_include _ 0).symm),
      bits_packed (.u16 p.statusPacked) rfl rfl (congrArg some (select_include _ 1).symm),
      bits_packed (.u16 p.statusPacked) rfl rfl (congrArg some (select_include _ 2).symm)⟩
  cell := fun _ h => absurd h (by simp)
  flags := fun _ h => absurd h (by simp)

theorem atmos_reads (p : FlPayloadAtmosPressure) :
    TableReads ⟨flTypeAtmosPressure, 2, atmosFields, none, none⟩ (.atmosPressure p) where
  length := Nat.le_of_eq (FlPayload.length_bytes (.atmosPressure p)).symm
  raw := by
    simp only [atmosFields, List.forall_mem_cons, List.not_mem_nil, IsEmpty.forall_iff,
      implies_true, and_true]
    exact raw_packed (.u16 p.pressureMbar) rfl rfl rfl
  cell := fun _ h => absurd h (by simp)
  flags := fun _ h => absurd h (by simp)

/-- The two highest bits of the flags. -/
theorem select_flags (flags : UInt8) :
    FieldBits.select ⟨7, 1⟩ (.int flags.toNat) = .int (flags.toNat / 128) ∧
      FieldBits.select ⟨6, 1⟩ (.int flags.toNat) = .int (flags.toNat / 64 % 2) := by
  have hlt : flags.toNat < 256 := flags.toNat_lt
  have hhigh : flags.toNat / 2 ^ 7 % 2 = flags.toNat / 128 := by omega
  constructor
  · rw [FieldBits.select, Int.toNat_natCast, Nat.and_one_is_mod, Nat.shiftRight_eq_div_pow, hhigh]
    rfl
  · rw [FieldBits.select, Int.toNat_natCast, Nat.and_one_is_mod, Nat.shiftRight_eq_div_pow]
    rfl

theorem power_reads (p : FlPayloadPowerSnapshot) :
    TableReads ⟨flTypePowerSnapshot, 32, powerFields, none, some 31⟩ (.powerSnapshot p) where
  length := Nat.le_of_eq (FlPayload.length_bytes (.powerSnapshot p)).symm
  raw := by
    simp only [powerFields, List.forall_mem_cons, List.not_mem_nil, IsEmpty.forall_iff,
      implies_true, and_true]
    exact ⟨raw_packed (.f32 p.vbusVoltage) rfl rfl rfl, raw_packed (.f32 p.vccVoltage) rfl rfl rfl,
      raw_packed (.f32 p.batteryVoltage) rfl rfl rfl, raw_packed (.f32 p.canVoltage) rfl rfl rfl,
      raw_packed (.f32 p.batteryThreshold) rfl rfl rfl, raw_packed (.i32 p.currentUa) rfl rfl rfl,
      raw_packed (.u32 p.currentAgeMs) rfl rfl rfl,
      raw_packed (.u16 p.poseidonAgeSeconds) rfl rfl rfl,
      raw_packed (.u8 p.poseidonPercent) rfl rfl rfl,
      bits_packed (.u8 p.flags) rfl rfl (congrArg some (select_flags _).1.symm),
      bits_packed (.u8 p.flags) rfl rfl (congrArg some (select_flags _).2.symm)⟩
  cell := fun _ h => absurd h (by simp)
  flags := by
    rintro o ⟨⟩
    exact congrArg some (byteAt_packed _ rfl)

theorem o2s_reads (p : FlPayloadCellO2S) :
    TableReads ⟨flTypeCellRawO2S, 3, o2sFields, some 0, none⟩ (.cellO2S p) where
  length := Nat.le_of_eq (FlPayload.length_bytes (.cellO2S p)).symm
  raw := by
    simp only [o2sFields, List.forall_mem_cons, List.not_mem_nil, IsEmpty.forall_iff, implies_true,
      and_true]
    exact ⟨raw_packed (.u8 p.ppo2) rfl rfl rfl, raw_packed (.u8 p.status) rfl rfl rfl⟩
  cell := by
    rintro o ⟨⟩
    exact congrArg some (byteAt_packed _ rfl)
  flags := fun _ h => absurd h (by simp)

theorem analog_reads (p : FlPayloadCellAnalog) :
    TableReads ⟨flTypeCellRawAnalog, 8, analogFields, some 0, none⟩ (.cellAnalog p) where
  length := Nat.le_of_eq (FlPayload.length_bytes (.cellAnalog p)).symm
  raw := by
    simp only [analogFields, List.forall_mem_cons, List.not_mem_nil, IsEmpty.forall_iff,
      implies_true, and_true]
    exact ⟨raw_packed (.u8 p.ppo2) rfl rfl rfl, raw_packed (.i32 p.rawAdc) rfl rfl rfl,
      raw_packed (.u16 p.millivolts) rfl rfl rfl⟩
  cell := by
    rintro o ⟨⟩
    exact congrArg some (byteAt_packed _ rfl)
  flags := fun _ h => absurd h (by simp)

/-- A number read without its sign is the number where it has none. -/
theorem toUInt32_eq_iff (v : Int32) : (v.toUInt32.toNat : ℤ) = v.toInt ↔ 0 ≤ v.toInt := by
  have hbits : v.toInt = (v.toUInt32.toNat : ℤ).bmod (2 ^ 32) :=
    BitVec.toInt_eq_toNat_bmod v.toBitVec
  have hlt := v.toUInt32.toNat_lt
  rw [hbits, Int.bmod_def]
  omega

/-- The table of the DiveO2 cell reads every field but a negative pressure. -/
theorem diveo2_reads_iff (p : FlPayloadCellDiveO2) :
    TableReads ⟨flTypeCellRawDiveO2, 30, diveo2Fields, some 0, none⟩ (.cellDiveO2 p) ↔
      0 ≤ p.ambientPressureUbar.toInt := by
  have hpressure : (TelemetryField.raw ⟨.pressureMbar, 22, .u32, none⟩
      (FlPayload.cellDiveO2 p).bytes) = .int p.ambientPressureUbar.toUInt32.toNat :=
    congrArg Datum.int (readU32LE_packed_i32 _ rfl)
  rw [← toUInt32_eq_iff]
  constructor
  · intro h
    have hraw := h.raw ⟨.pressureMbar, 22, .u32, none⟩ (by decide)
    rw [hpressure] at hraw
    exact Datum.int.inj (Option.some.inj hraw)
  · intro hsame
    refine ⟨Nat.le_of_eq (FlPayload.length_bytes (.cellDiveO2 p)).symm, ?_, ?_,
      fun _ h => absurd h (by simp)⟩
    · simp only [diveo2Fields, List.forall_mem_cons, List.not_mem_nil, IsEmpty.forall_iff,
        implies_true, and_true]
      exact ⟨raw_packed (.u8 p.ppo2) rfl rfl rfl, raw_packed (.i32 p.temperatureMc) rfl rfl rfl,
        raw_packed (.u32 p.errCode) rfl rfl rfl, raw_packed (.i32 p.phaseMdeg) rfl rfl rfl,
        raw_packed (.i32 p.signalIntensityUv) rfl rfl rfl,
        raw_packed (.i32 p.ambientLightUv) rfl rfl rfl,
        congrArg some (hpressure.trans (congrArg Datum.int hsame)),
        raw_packed (.i32 p.housingHumidityMpercentRh) rfl rfl rfl⟩
    · rintro o ⟨⟩
      exact congrArg some (byteAt_packed _ rfl)

end Reads

end DiveCANHead.LogClient
