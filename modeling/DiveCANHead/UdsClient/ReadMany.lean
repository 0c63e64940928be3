import DiveCANHead.Uds.ReadBounds
import DiveCANHead.UdsClient.StateDids

/-!
# Reading several DIDs at once (`uds_state_did.c`, `UDSClient.js`)

What a handler encodes has a C type; the client's table has to give the same DID the size and
the type by which the number comes out again, and its loop has to cut the response where the
head put the records together.
-/

namespace DiveCANHead.UdsClient

open DiveCANHead.Uds DiveCANHead.Lib

/-! ## What the head encodes -/

/-- A number with the type that the handler writes it from. -/
inductive DidContent where
  | float (bits : UInt32)
  | uint32 (v : UInt32)
  | int32 (v : Int32)
  | uint16 (v : UInt16)
  | int16 (v : Int16)
  | uint8 (v : UInt8)
  | flag (b : Bool)
  | tankPressure (decibar : UInt16)
  | deviceCurrent (c : DeviceCurrent)

namespace DidContent

def bytes : DidContent → List UInt8
  | float bits => writeFloat32 bits
  | uint32 v => writeUint32 v
  | int32 v => writeUint32 v.toUInt32
  | uint16 v => writeUint16 v
  | int16 v => writeUint16 v.toUInt16
  | uint8 v => [v]
  | flag b => [flagByte b]
  | tankPressure decibar => writeUint16 decibar
  | deviceCurrent c => buildDeviceCurrentStatus c

/-- `TANK_PRESSURE_FAIL`. -/
def tankPressureFail : UInt16 := 0xFFFF

/-- The number as the client should have it: a pressure in bar and a current in milliamperes,
unless there is no reading. -/
def value : DidContent → DidValue
  | float bits => .float bits.toNat
  | uint32 v => .int v.toNat
  | int32 v => .int v.toInt
  | uint16 v => .int v.toNat
  | int16 v => .int v.toInt
  | uint8 v => .int v.toNat
  | flag b => .flag b
  | tankPressure decibar =>
    if decibar = tankPressureFail then .nan else .quotient decibar.toNat 10
  | deviceCurrent c => if c.valid then .quotient c.currentUa.toInt32.toInt 1000 else .nan

end DidContent

section Contents

variable (b : Build) (r : StateReadings)

/-- The contents of the control loop and the supply. -/
def controlContents : List (ℕ × Option DidContent) :=
  [(0xF200, some (.float r.consensusPpo2)), (0xF202, some (.float r.setpoint)),
    (0xF203, some (.uint8 ((buildCellsValidStatus r).getD 0 0))),
    (0xF210, some (.float r.dutyCycle)), (0xF211, some (.float r.integralState)),
    (0xF212, some (.uint16 r.saturationCount)), (0xF220, some (.uint32 (r.uptimeMs / 1000))),
    (0xF230, some (.float r.vbus)), (0xF231, some (.float r.vcc)),
    (0xF232, some (.float r.battery)), (0xF233, some (.float r.can)),
    (0xF234, some (.float r.threshold)), (0xF235, some (.uint8 0)),
    (0xF237, some (.deviceCurrent r.current)),
    (0xF238, if b.o2Transducer then r.tank.map fun t => .tankPressure t.o2Decibar else none),
    (0xF239, if b.dilTransducer then r.tank.map fun t => .tankPressure t.dilDecibar else none)]

/-- A content that only cells of one kind have. -/
def ofKind (kind : CellKind) (cellNum : ℕ) (c : DidContent) : Option DidContent :=
  if b.cellKind cellNum = kind then some c else none

/-- The contents of a cell whose DIDs start at `base`. -/
def cellContents (cellNum base : ℕ) : List (ℕ × Option DidContent) :=
  let c := r.cell cellNum
  [(base, some (.float c.precisionPpo2)),
    (base + 0x01, some (.uint8 (b.cellKind cellNum).code)),
    (base + 0x02, some (.flag (r.included cellNum))),
    (base + 0x03, some (.uint8 c.status)),
    (base + 0x04, ofKind b .analog cellNum (.int16 c.rawSample.toUInt16.toInt16)),
    (base + 0x05, ofKind b .analog cellNum (.uint16 c.millivolts)),
    (base + 0x06, ofKind b .diveO2 cellNum (.int32 c.temperatureMc.toInt32)),
    (base + 0x07, ofKind b .diveO2 cellNum (.uint32 c.errCode)),
    (base + 0x08, ofKind b .diveO2 cellNum (.int32 c.phaseMdeg.toInt32)),
    (base + 0x09, ofKind b .diveO2 cellNum (.int32 c.signalIntensityUv.toInt32)),
    (base + 0x0A, ofKind b .diveO2 cellNum (.int32 c.ambientLightUv.toInt32)),
    (base + 0x0B, ofKind b .diveO2 cellNum (.int32 c.ambientPressureUbar.toInt32)),
    (base + 0x0C, ofKind b .diveO2 cellNum (.int32 c.housingHumidity.toInt32))]

/-- What the head encodes for each DID of the registry; `none` where it has nothing to show. -/
def stateContents : List (ℕ × Option DidContent) :=
  controlContents b r ++ cellContents b r 0 0xF400 ++ cellContents b r 1 0xF410 ++
    cellContents b r 2 0xF420

end Contents

/-! ## Numbers -/

theorem leNat_writeUint32 (v : UInt32) : leNat (writeUint32 v) = v.toNat := by
  have hlt := v.toNat_lt
  have h8 : (8 : UInt32).toNat % 32 = 8 := rfl
  have h16 : (16 : UInt32).toNat % 32 = 16 := rfl
  have h24 : (24 : UInt32).toNat % 32 = 24 := rfl
  simp only [writeUint32, leNat, UInt32.toNat_toUInt8, UInt32.toNat_shiftRight, h8, h16, h24,
    Nat.shiftRight_eq_div_pow]
  omega

theorem leNat_writeUint16 (v : UInt16) : leNat (writeUint16 v) = v.toNat := by
  have hlt := v.toNat_lt
  have h8 : (8 : UInt16).toNat % 16 = 8 := rfl
  simp only [writeUint16, leNat, UInt16.toNat_toUInt8, UInt16.toNat_shiftRight, h8,
    Nat.shiftRight_eq_div_pow]
  omega

theorem leInt_writeUint32 (v : UInt32) : leInt (writeUint32 v) = v.toInt32.toInt := by
  have hlen : (writeUint32 v).length = 4 := rfl
  have hwidth : (256 : ℕ) ^ 4 = 2 ^ 32 := by decide
  rw [leInt, leNat_writeUint32, hlen, hwidth]
  exact (BitVec.toInt_eq_toNat_bmod v.toBitVec).symm

theorem leInt_writeUint16 (v : UInt16) : leInt (writeUint16 v) = v.toInt16.toInt := by
  have hlen : (writeUint16 v).length = 2 := rfl
  have hwidth : (256 : ℕ) ^ 2 = 2 ^ 16 := by decide
  rw [leInt, leNat_writeUint16, hlen, hwidth]
  exact (BitVec.toInt_eq_toNat_bmod v.toBitVec).symm

theorem toNat_of_nonneg {v : Int32} (h : 0 ≤ v.toInt) : (v.toUInt32.toNat : ℤ) = v.toInt := by
  have hbits : v.toInt = (v.toUInt32.toNat : ℤ).bmod (256 ^ 4) :=
    BitVec.toInt_eq_toNat_bmod v.toBitVec
  have hlt := v.toUInt32.toNat_lt
  rw [hbits] at h ⊢
  rw [Int.bmod_def] at h ⊢
  omega

theorem take_writeUint32 (v : UInt32) : (writeUint32 v).take 4 = writeUint32 v := rfl

theorem take_writeUint16 (v : UInt16) : (writeUint16 v).take 2 = writeUint16 v := rfl

/-! ## Types -/

theorem parse_float32 (bits : UInt32) :
    DidType.float32.parse (DidContent.float bits).bytes = (DidContent.float bits).value := by
  show DidValue.float (leNat ((writeUint32 bits).take 4)) = _
  rw [take_writeUint32, leNat_writeUint32]
  rfl

theorem parse_uint32 (v : UInt32) :
    DidType.uint32.parse (DidContent.uint32 v).bytes = (DidContent.uint32 v).value := by
  show DidValue.int (leNat ((writeUint32 v).take 4)) = _
  rw [take_writeUint32, leNat_writeUint32]
  rfl

theorem parse_int32 (v : Int32) :
    DidType.int32.parse (DidContent.int32 v).bytes = (DidContent.int32 v).value := by
  show DidValue.int (leInt ((writeUint32 v.toUInt32).take 4)) = _
  rw [take_writeUint32, leInt_writeUint32]
  rfl

/-- The entry of a cell's pressure is unsigned. -/
theorem parse_uint32_int32 {v : Int32} (h : 0 ≤ v.toInt) :
    DidType.uint32.parse (DidContent.int32 v).bytes = (DidContent.int32 v).value := by
  show DidValue.int (leNat ((writeUint32 v.toUInt32).take 4)) = _
  rw [take_writeUint32, leNat_writeUint32, toNat_of_nonneg h]
  rfl

theorem parse_uint16 (v : UInt16) :
    DidType.uint16.parse (DidContent.uint16 v).bytes = (DidContent.uint16 v).value := by
  show DidValue.int (leNat ((writeUint16 v).take 2)) = _
  rw [take_writeUint16, leNat_writeUint16]
  rfl

theorem parse_int16 (v : Int16) :
    DidType.int16.parse (DidContent.int16 v).bytes = (DidContent.int16 v).value := by
  show DidValue.int (leInt ((writeUint16 v.toUInt16).take 2)) = _
  rw [take_writeUint16, leInt_writeUint16]
  rfl

theorem parse_uint8 (v : UInt8) :
    DidType.uint8.parse (DidContent.uint8 v).bytes = (DidContent.uint8 v).value := rfl

theorem parse_bool (b : Bool) :
    DidType.bool.parse (DidContent.flag b).bytes = (DidContent.flag b).value := by
  cases b <;> rfl

theorem parse_tankPressure (decibar : UInt16) :
    DidType.tankPressure.parse (DidContent.tankPressure decibar).bytes =
      (DidContent.tankPressure decibar).value := by
  have hfail : decibar.toNat = 0xFFFF ↔ decibar = DidContent.tankPressureFail :=
    ⟨fun h => UInt16.toNat_inj.mp h, fun h => by rw [h]; rfl⟩
  show (if leNat ((writeUint16 decibar).take 2) = 0xFFFF then DidValue.nan
    else .quotient (leNat ((writeUint16 decibar).take 2)) 10) = _
  rw [take_writeUint16, leNat_writeUint16, if_congr hfail rfl rfl]
  rfl

theorem parse_deviceCurrent (c : DeviceCurrent) :
    DidType.deviceCurrent.parse (DidContent.deviceCurrent c).bytes =
      (DidContent.deviceCurrent c).value := by
  have htake : (buildDeviceCurrentStatus c).take 4 = writeUint32 c.currentUa := rfl
  rw [DidType.parse, DidContent.bytes, DidContent.value]
  unfold decodeDeviceCurrent
  rw [if_neg (by simp [buildDeviceCurrentStatus, writeUint32, writeUint16]), htake,
    leInt_writeUint32]
  have hvalid : (buildDeviceCurrentStatus c).getD 6 0 = flagByte c.valid := rfl
  dsimp only
  rw [hvalid]
  cases c.valid <;> rfl

/-! ## The two tables -/

/-- The record of a content. -/
def contentRecord : Option DidContent → DidRecord
  | some c => .unchecked c.bytes
  | none => .refused []

/-- The DID shows a cell's pressure, and it is below zero. -/
def NegativePressure (r : StateReadings) (did : ℕ) : Prop :=
  ∃ cellNum < cellMaxCount, did = 0xF40B + 0x10 * cellNum ∧
    (r.cell cellNum).ambientPressureUbar.toInt32.toInt < 0

/-- The client's entry and what the head encodes belong together. -/
structure Agrees (b : Build) (r : StateReadings) (info : DidInfo) (e : ℕ × Option DidContent) :
    Prop where
  did : info.did = e.1
  record : stateDIDHandleRead b r (UInt16.ofNat info.did) = contentRecord e.2
  size : ∀ c, e.2 = some c → c.bytes.length = info.size
  value : ∀ c, e.2 = some c → ¬ NegativePressure r info.did → info.type.parse c.bytes = c.value

theorem agrees_some {b : Build} {r : StateReadings} {info : DidInfo} {c : DidContent}
    (hrecord : stateDIDHandleRead b r (UInt16.ofNat info.did) = .unchecked c.bytes)
    (hsize : c.bytes.length = info.size)
    (hvalue : ¬ NegativePressure r info.did → info.type.parse c.bytes = c.value) :
    Agrees b r info (info.did, some c) where
  did := rfl
  record := hrecord
  size := by rintro _ ⟨⟩; exact hsize
  value := by rintro _ ⟨⟩; exact hvalue

theorem agrees_none {b : Build} {r : StateReadings} {info : DidInfo}
    (hrecord : stateDIDHandleRead b r (UInt16.ofNat info.did) = .refused []) :
    Agrees b r info (info.did, none) where
  did := rfl
  record := hrecord
  size := nofun
  value := nofun

theorem agrees_tank {b : Build} {r : StateReadings} {did : ℕ} {configured : Bool}
    {field : TankPressure → UInt16}
    (hrecord : stateDIDHandleRead b r (UInt16.ofNat did) =
      .onlyIf configured (buildCylPressureStatus r.tank field)) :
    Agrees b r ⟨did, 2, .tankPressure⟩
      (did, if configured then r.tank.map fun t => .tankPressure (field t) else none) := by
  cases configured with
  | false => exact agrees_none hrecord
  | true =>
    cases htank : r.tank with
    | none => exact agrees_none (hrecord.trans (by rw [htank]; rfl))
    | some t =>
      exact agrees_some (hrecord.trans (by rw [htank]; rfl)) rfl fun _ => parse_tankPressure _

theorem agrees_control (b : Build) (r : StateReadings) :
    List.Forall₂ (Agrees b r) controlStateDids (controlContents b r) := by
  refine .cons (agrees_some rfl rfl fun _ => parse_float32 _) <|
    .cons (agrees_some rfl rfl fun _ => parse_float32 _) <|
    .cons (agrees_some rfl rfl fun _ => parse_uint8 _) <|
    .cons (agrees_some rfl rfl fun _ => parse_float32 _) <|
    .cons (agrees_some rfl rfl fun _ => parse_float32 _) <|
    .cons (agrees_some rfl rfl fun _ => parse_uint16 _) <|
    .cons (agrees_some rfl rfl fun _ => parse_uint32 _) <|
    .cons (agrees_some rfl rfl fun _ => parse_float32 _) <|
    .cons (agrees_some rfl rfl fun _ => parse_float32 _) <|
    .cons (agrees_some rfl rfl fun _ => parse_float32 _) <|
    .cons (agrees_some rfl rfl fun _ => parse_float32 _) <|
    .cons (agrees_some rfl rfl fun _ => parse_float32 _) <|
    .cons (agrees_some rfl rfl fun _ => parse_uint8 _) <|
    .cons (agrees_some rfl rfl fun _ => parse_deviceCurrent _) <|
    .cons (agrees_tank rfl) <| .cons (agrees_tank rfl) .nil

variable {b : Build} {r : StateReadings} {cellNum base : ℕ}

/-- The record of a cell of this kind. -/
def cellRecord (b : Build) (r : StateReadings) (cellNum : ℕ) (kind : CellKind) (offset : ℕ) :
    DidRecord :=
  ((universalCellRecords b r cellNum ++ kindCellRecords kind (r.cell cellNum)).lookup
    offset).getD (.refused [])

theorem stateDIDHandleRead_cell (hcell : cellNum < cellMaxCount)
    (hbase : base = 0xF400 + 0x10 * cellNum) {offset : ℕ} (hoffset : offset ≤ cellDidMaxOffset) :
    stateDIDHandleRead b r (UInt16.ofNat (base + offset)) =
      cellRecord b r cellNum (b.cellKind cellNum) offset := by
  have hmax : cellMaxCount = 3 := rfl
  have hlast : cellDidMaxOffset = 0x0C := rfl
  have hdid : (UInt16.ofNat (base + offset)).toNat = base + offset := by
    rw [UInt16.toNat_ofNat']
    omega
  have hcontrol : isControlDID (UInt16.ofNat (base + offset)) = false := by
    simp only [isControlDID, decide_eq_false_iff_not, UInt16.le_iff_toNat_le, hdid,
      UInt16.reduceToNat]
    omega
  have hcellDid : isCellDID (UInt16.ofNat (base + offset)) = true := by
    simp only [isCellDID, decide_eq_true_eq, UInt16.le_iff_toNat_le, UInt16.lt_iff_toNat_lt,
      hdid, UInt16.reduceToNat]
    omega
  have hplace : (UInt16.ofNat (base + offset) - didCellBase).toNat =
      didCellRange * cellNum + offset := by
    have hfirst : didCellBase.toNat = 0xF400 := rfl
    rw [UInt16.toNat_sub, hdid, hfirst, didCellRange]
    omega
  rw [stateDIDHandleRead, hcontrol, if_neg Bool.false_ne_true, if_pos hcellDid]
  dsimp only
  rw [hplace, didCellRange, Nat.mul_add_div (by decide), Nat.mul_add_mod,
    Nat.div_eq_of_lt (by omega), Nat.mod_eq_of_lt (by omega), Nat.add_zero, handleCellDID,
    if_neg (Nat.not_le.mpr hcell), if_neg (Nat.not_lt.mpr hoffset)]
  rfl

theorem agrees_ofKind (hcell : cellNum < cellMaxCount) (hbase : base = 0xF400 + 0x10 * cellNum)
    {kind : CellKind} {offset size : ℕ} {type : DidType} {c : DidContent}
    (hoffset : offset ≤ cellDidMaxOffset)
    (hrecord : cellRecord b r cellNum kind offset = .unchecked c.bytes)
    (hother : ∀ k, k ≠ kind → cellRecord b r cellNum k offset = .refused [])
    (hsize : c.bytes.length = size)
    (hvalue : ¬ NegativePressure r (base + offset) → type.parse c.bytes = c.value) :
    Agrees b r ⟨base + offset, size, type⟩ (base + offset, ofKind b kind cellNum c) := by
  have hread := stateDIDHandleRead_cell (b := b) (r := r) hcell hbase hoffset
  unfold ofKind
  split
  · next h =>
    rw [h, hrecord] at hread
    exact agrees_some hread hsize hvalue
  · next h => exact agrees_none (hread.trans (hother _ h))

theorem agrees_cell (hcell : cellNum < cellMaxCount) (hbase : base = 0xF400 + 0x10 * cellNum) :
    List.Forall₂ (Agrees b r) (cellStateDids base) (cellContents b r cellNum base) := by
  have hread : ∀ offset ≤ cellDidMaxOffset, _ :=
    fun offset hoffset => stateDIDHandleRead_cell (b := b) (r := r) hcell hbase hoffset
  have hpressure : ¬ NegativePressure r (base + 0x0B) →
      0 ≤ (r.cell cellNum).ambientPressureUbar.toInt32.toInt := fun h =>
    not_lt.mp fun hneg => h ⟨cellNum, hcell, by omega, hneg⟩
  refine .cons (agrees_some (hread 0 (by decide)) rfl fun _ => parse_float32 _) <|
    .cons (agrees_some (hread 1 (by decide)) rfl fun _ => parse_uint8 _) <|
    .cons (agrees_some (hread 2 (by decide)) rfl fun _ => parse_bool _) <|
    .cons (agrees_some (hread 3 (by decide)) rfl fun _ => parse_uint8 _) <|
    .cons (agrees_ofKind hcell hbase (by decide) rfl ?_ rfl fun _ => parse_int16 _) <|
    .cons (agrees_ofKind hcell hbase (by decide) rfl ?_ rfl fun _ => parse_uint16 _) <|
    .cons (agrees_ofKind hcell hbase (by decide) rfl ?_ rfl fun _ => parse_int32 _) <|
    .cons (agrees_ofKind hcell hbase (by decide) rfl ?_ rfl fun _ => parse_uint32 _) <|
    .cons (agrees_ofKind hcell hbase (by decide) rfl ?_ rfl fun _ => parse_int32 _) <|
    .cons (agrees_ofKind hcell hbase (by decide) rfl ?_ rfl fun _ => parse_int32 _) <|
    .cons (agrees_ofKind hcell hbase (by decide) rfl ?_ rfl fun _ => parse_int32 _) <|
    .cons (agrees_ofKind hcell hbase (by decide) rfl ?_ rfl fun h =>
      parse_uint32_int32 (hpressure h)) <|
    .cons (agrees_ofKind hcell hbase (by decide) rfl ?_ rfl fun _ => parse_int32 _) .nil
  -- the other kinds of cells have no such record
  all_goals
    intro k hk
    cases k <;> first | rfl | exact absurd rfl hk

theorem agrees_state (b : Build) (r : StateReadings) :
    List.Forall₂ (Agrees b r) stateDids (stateContents b r) := by
  have hcell : ∀ n base, n < cellMaxCount → base = 0xF400 + 0x10 * n →
      List.Forall₂ (Agrees b r) (cellStateDids base) (cellContents b r n base) :=
    fun _ _ => agrees_cell
  exact List.rel_append (List.rel_append (List.rel_append (agrees_control b r)
    (hcell 0 _ (by decide) rfl)) (hcell 1 _ (by decide) rfl)) (hcell 2 _ (by decide) rfl)

/-! ## The response -/

/-- The head shows the DID in some state. -/
def Supports (b : Build) (did : UInt16) : Prop :=
  ∃ r bytes, stateDIDHandleRead b r did = .unchecked bytes

/-- A cylinder pressure. -/
def isTankDID (did : UInt16) : Bool := did == 0xF238 || did == 0xF239

/-- The answer of a read. -/
def answerOf (r : Reading) : Option (List UInt8) :=
  r.effects.findSome? fun
    | .respond payload => some payload
    | _ => none

/-- The exchange of a read request with the head; a negative answer is an error with its code. -/
def askHead (env : ReadEnv) (request : List UInt8) : Except UInt8 (List UInt8) :=
  match answerOf (readDataByIdentifier env (.ofBytes (0 :: request))) with
  | some (sid :: payload) =>
    if sid = sidNegativeResponse then .error (payload.getD 1 0) else .ok (sid :: payload)
  | _ => .error 0

theorem answerOf_after (offset : UInt16) (r : DidRead) (rest : Reading) :
    answerOf (.after offset r rest) = answerOf rest := by
  rw [answerOf, Reading.after, List.findSome?_append, answerOf]
  rw [List.findSome?_eq_none_iff.mpr, Option.none_or]
  intro e he
  obtain ⟨report, -, rfl⟩ := List.mem_map.mp he
  rfl

/-- A request of readable DIDs whose answer fits is answered with all records. -/
theorem answerOf_readFrom {env : ReadEnv} {dids : List UInt16}
    (hread : ∀ d ∈ dids, Readable env d) :
    ∀ {pre}, (responseOf env (pre ++ dids)).length < 256 →
      answerOf (readFrom env pre dids) = some (responseOf env (pre ++ dids)) := by
  induction dids with
  | nil =>
    intro pre hlen
    rw [List.append_nil] at hlen ⊢
    rw [readFrom, readRecords, toNat_nextOffset hlen, List.take_length]
    rfl
  | cons did dids ih =>
    intro pre hlen
    rw [List.append_cons] at hlen ⊢
    have hnext : (responseOf env (pre ++ [did])).length < 256 :=
      (length_responseOf_le env _ dids).trans_lt hlen
    have hround := readFrom_round ((length_responseOf_le env pre [did]).trans_lt hnext) did dids
    have hdid := hread did List.mem_cons_self
    generalize readFrom env pre (did :: dids) = reading at hround
    cases hround with
    | busy h => exact absurd (hdid.1.symm.trans h) Bool.false_ne_true
    | stopped h nrc => exact absurd ⟨hdid, hnext⟩ h
    | served h =>
      rw [answerOf_after]
      exact ih (fun d hd => hread d (List.mem_cons_of_mem _ hd)) hlen

/-! ## The request -/

theorem uint16ToBE_toNat (did : UInt16) : uint16ToBE did.toNat = didHeader did := by
  have h8 : (8 : UInt16).toNat % 16 = 8 := rfl
  have hhigh : UInt8.ofNat (did.toNat / 256) = (did >>> 8).toUInt8 := by
    apply UInt8.toNat_inj.mp
    rw [UInt8.toNat_ofNat', UInt16.toNat_toUInt8, UInt16.toNat_shiftRight, h8,
      Nat.shiftRight_eq_div_pow]
  rw [uint16ToBE, hhigh]
  rfl

theorem beToUint16_didHeader (did : UInt16) : beToUint16 (didHeader did) = did.toNat := by
  have hlt := did.toNat_lt
  have h8 : (8 : UInt16).toNat % 16 = 8 := rfl
  rw [didHeader, beToUint16]
  simp only [List.getD_cons_zero, List.getD_cons_succ, UInt16.toNat_toUInt8,
    UInt16.toNat_shiftRight, h8, Nat.shiftRight_eq_div_pow]
  omega

theorem length_flatMap_didHeader (dids : List UInt16) :
    (dids.flatMap didHeader).length = 2 * dids.length := by
  induction dids with
  | nil => rfl
  | cons did dids ih =>
    rw [List.flatMap_cons, List.length_append, ih, List.length_cons]
    have hheader : (didHeader did).length = 2 := rfl
    omega

theorem getD_flatMap_didHeader {dids : List UInt16} {i : ℕ} (hi : i < dids.length) :
    (dids.flatMap didHeader).getD (2 * i) 0 = (dids.get ⟨i, hi⟩ >>> 8).toUInt8 ∧
      (dids.flatMap didHeader).getD (2 * i + 1) 0 = (dids.get ⟨i, hi⟩).toUInt8 := by
  induction dids generalizing i with
  | nil => exact absurd hi (Nat.not_lt_zero i)
  | cons did dids ih =>
    cases i with
    | zero => exact ⟨rfl, rfl⟩
    | succ i => exact ih (Nat.lt_of_succ_lt_succ hi)

theorem word_of_bytes (v : UInt16) :
    (((v >>> 8).toUInt8.toUInt16 <<< 8) ||| v.toUInt8.toUInt16) = v := by
  have hlt := v.toNat_lt
  have h8 : (8 : UInt16).toNat % 16 = 8 := rfl
  have hhigh : ((v >>> 8).toUInt8.toUInt16 <<< 8).toNat = 256 * (v.toNat / 256) := by
    rw [UInt16.toNat_shiftLeft, UInt8.toNat_toUInt16, UInt16.toNat_toUInt8,
      UInt16.toNat_shiftRight, h8, Nat.shiftRight_eq_div_pow, Nat.shiftLeft_eq]
    omega
  have hlow : v.toUInt8.toUInt16.toNat = v.toNat % 256 := by
    rw [UInt8.toNat_toUInt16, UInt16.toNat_toUInt8]
  have hjoin : 256 * (v.toNat / 256) ||| v.toNat % 256 =
      256 * (v.toNat / 256) + v.toNat % 256 :=
    (Nat.two_pow_add_eq_or_of_lt (i := 8) (Nat.mod_lt _ (by decide)) _).symm
  apply UInt16.toNat_inj.mp
  rw [UInt16.toNat_or, hhigh, hlow, hjoin, Nat.div_add_mod]

theorem requestedDids_ofBytes (sid : UInt8) (dids : List UInt16) :
    requestedDids (.ofBytes (0 :: sid :: dids.flatMap didHeader)) = dids := by
  have hlen := length_flatMap_didHeader dids
  apply List.ext_getElem
  · simp only [requestedDids, Request.ofBytes, List.length_map, List.length_range,
      List.length_cons]
    omega
  · intro i hi hi'
    obtain ⟨hhigh, hlow⟩ := getD_flatMap_didHeader hi'
    simp only [requestedDids, List.getElem_map, List.getElem_range, Request.word, Request.byte,
      Request.ofBytes]
    have hplace : 2 + 2 * i = 2 * i + 1 + 1 := by omega
    rw [hplace, List.getD_cons_succ, List.getD_cons_succ, List.getD_cons_succ,
      List.getD_cons_succ, hhigh, hlow]
    exact word_of_bytes _

/-! ## The round trip -/

/-- A DID of the registry has an entry of its own. -/
theorem getDIDInfo_eq_some {did : ℕ} {info : DidInfo} (h : getDIDInfo did = some info) :
    info ∈ stateDids ∧ info.did = did :=
  ⟨List.mem_of_find?_eq_some h, by simpa using List.find?_some h⟩

theorem parseRecords_nil (m : DidMap) : parseRecords m [] = m := by
  rw [parseRecords]
  intro hi lo first rest h
  cases h

/-- What the loop leaves in the map, for records whose sizes the table has. -/
theorem parseRecords_flatMap (data : UInt16 → List UInt8) {dids : List UInt16}
    (hdata : ∀ d ∈ dids, data d ≠ [] ∧
      ∃ info, getDIDInfo d.toNat = some info ∧ (data d).length = info.size) :
    ∀ {m : DidMap},
      let m' := parseRecords m (dids.flatMap fun d => didHeader d ++ data d)
      (∀ k, k ∈ m' ↔ k ∈ m ∨ ∃ d ∈ dids, d.toNat = k) ∧
        ∀ d, m'.lookup d.toNat = if d ∈ dids then some (data d) else m.lookup d.toNat := by
  induction dids with
  | nil =>
    intro m
    simp [parseRecords_nil]
  | cons did dids ih =>
    intro m
    obtain ⟨hne, info, hinfo, hsize⟩ := hdata did List.mem_cons_self
    obtain ⟨first, rest, hcons⟩ := List.exists_cons_of_ne_nil hne
    have hturn : parseRecords m ((did :: dids).flatMap fun d => didHeader d ++ data d) =
        parseRecords (m.insert did.toNat (data did))
          (dids.flatMap fun d => didHeader d ++ data d) := by
      rw [List.flatMap_cons, hcons, didHeader]
      simp only [List.cons_append, List.nil_append]
      rw [parseRecords]
      have hdid : beToUint16 [(did >>> 8).toUInt8, did.toUInt8] = did.toNat :=
        beToUint16_didHeader did
      have hdataSize : ∀ xs, dataSize did.toNat xs = (first :: rest).length := by
        intro xs
        rw [dataSize, hinfo, ← hcons, hsize]
      rw [hdid, hdataSize, ← List.cons_append, List.take_left, List.drop_left]
    obtain ⟨hkeys, hvalues⟩ := ih (fun d hd => hdata d (List.mem_cons_of_mem _ hd))
      (m := m.insert did.toNat (data did))
    dsimp only
    rw [hturn]
    refine ⟨fun k => ?_, fun d => ?_⟩
    · rw [hkeys, AList.mem_insert]
      grind
    · rw [hvalues]
      by_cases heq : d = did
      · subst heq
        simp
      · have hne' : d.toNat ≠ did.toNat := fun h => heq (UInt16.toNat_inj.mp h)
        rw [AList.lookup_insert_ne hne']
        simp [heq]

/-- The head has something to show in the second state where it has in the first. -/
def StillShown (r : StateReadings) (e₀ e : ℕ × Option DidContent) : Prop :=
  e₀.2.isSome = true → (isTankDID (UInt16.ofNat e₀.1) = true → r.tank.isSome = true) →
    e.2.isSome = true

theorem stillShown_some (r : StateReadings) (e₀ : ℕ × Option DidContent) (did : ℕ)
    (c : DidContent) : StillShown r e₀ (did, some c) := fun _ _ => rfl

theorem stillShown_ofKind (b : Build) (r : StateReadings) (kind : CellKind) (cellNum did : ℕ)
    (c₀ c : DidContent) :
    StillShown r (did, ofKind b kind cellNum c₀) (did, ofKind b kind cellNum c) := by
  intro h _
  unfold ofKind at h ⊢
  split
  · rfl
  · next hkind => rw [if_neg hkind] at h; exact h

theorem stillShown_tank {r₀ r : StateReadings} {did : ℕ} {configured : Bool}
    {field : TankPressure → DidContent} (hdid : isTankDID (UInt16.ofNat did) = true) :
    StillShown r (did, if configured then r₀.tank.map field else none)
      (did, if configured then r.tank.map field else none) := by
  intro h htank
  cases configured with
  | false => exact h
  | true => rw [if_pos rfl, Option.isSome_map, htank hdid]

theorem stillShown_cell (b : Build) (r₀ r : StateReadings) (cellNum base : ℕ) :
    List.Forall₂ (StillShown r) (cellContents b r₀ cellNum base)
      (cellContents b r cellNum base) := by
  unfold cellContents
  dsimp only
  repeat
    first
      | exact .nil
      | refine .cons (stillShown_some _ _ _ _) ?_
      | refine .cons (stillShown_ofKind _ _ _ _ _ _ _) ?_

theorem stillShown_state (b : Build) (r₀ r : StateReadings) :
    List.Forall₂ (StillShown r) (stateContents b r₀) (stateContents b r) := by
  have hcell := stillShown_cell b r₀ r
  refine List.rel_append (List.rel_append (List.rel_append ?_ (hcell 0 _)) (hcell 1 _))
    (hcell 2 _)
  unfold controlContents
  repeat
    first
      | exact .nil
      | refine .cons (stillShown_some _ _ _ _) ?_
      | refine .cons (stillShown_tank rfl) ?_

theorem exists_getElem?_of_forall₂ {α β : Type} {R : α → β → Prop} {xs : List α} {ys : List β}
    (h : List.Forall₂ R xs ys) {i : ℕ} {x : α} (hx : xs[i]? = some x) :
    ∃ y, ys[i]? = some y ∧ R x y := by
  obtain ⟨hi, rfl⟩ := List.getElem?_eq_some_iff.mp hx
  have hi' : i < ys.length := h.length_eq ▸ hi
  exact ⟨ys[i], List.getElem?_eq_getElem hi', h.get hi hi'⟩

/-- The head reads a DID of the registry that the build has, unless it needs the tank channel. -/
theorem exists_content {b : Build} {r : StateReadings} {did : UInt16} {info : DidInfo}
    (hinfo : getDIDInfo did.toNat = some info) (hsup : Supports b did)
    (htank : isTankDID did = true → r.tank.isSome = true) :
    ∃ c, (did.toNat, some c) ∈ stateContents b r ∧ Agrees b r info (did.toNat, some c) := by
  obtain ⟨hmem, hdid⟩ := getDIDInfo_eq_some hinfo
  obtain ⟨i, hi⟩ := List.mem_iff_getElem?.mp hmem
  obtain ⟨r₀, bytes, hbytes⟩ := hsup
  obtain ⟨⟨did₀, content₀⟩, hi₀, hagrees₀⟩ := exists_getElem?_of_forall₂ (agrees_state b r₀) hi
  obtain ⟨⟨did₁, content⟩, hi₁, hagrees⟩ := exists_getElem?_of_forall₂ (agrees_state b r) hi
  obtain ⟨e, he, hshown⟩ := exists_getElem?_of_forall₂ (stillShown_state b r₀ r) hi₀
  obtain rfl : (did₁, content) = e := Option.some.inj (hi₁.symm.trans he)
  obtain rfl : info.did = did₀ := hagrees₀.did
  obtain rfl : info.did = did₁ := hagrees.did
  have hrecord := hagrees₀.record
  rw [hdid, UInt16.ofNat_toNat, hbytes] at hrecord
  have hsome₀ : content₀.isSome = true := by
    cases content₀ with
    | none => exact DidRecord.noConfusion hrecord
    | some c => rfl
  have hsome := hshown hsome₀ (by rw [hdid, UInt16.ofNat_toNat]; exact htank)
  obtain ⟨c, rfl⟩ := Option.isSome_iff_exists.mp hsome
  rw [hdid] at hi₁ hagrees
  exact ⟨c, List.mem_of_getElem? hi₁, hagrees⟩

/-- A request for these DIDs. -/
def readRequest (dids : List UInt16) : Request :=
  .ofBytes (0 :: sidReadDataById :: dids.flatMap didHeader)

theorem readRequest_lengthOk {dids : List UInt16} (h : dids ≠ []) :
    readLengthOk (readRequest dids) = true := by
  have hlen := length_flatMap_didHeader dids
  have hpos := List.length_pos_of_ne_nil h
  have hlength : (readRequest dids).length = 2 * dids.length + 2 := by rw [← hlen]; rfl
  rw [readLengthOk, hlength, decide_eq_true_eq]
  omega

/-- The head answers a request whose records fit with these records. -/
theorem askHead_ok {env : ReadEnv} {dids : List UInt16} (hne : dids ≠ [])
    (hread : ∀ d ∈ dids, Readable env d) (hfit : (responseOf env dids).length < 256) :
    askHead env (sidReadDataById :: dids.flatMap didHeader) = .ok (responseOf env dids) := by
  have hlen : (responseOf env ([] ++ dids)).length < 256 := hfit
  have hrequest : readDataByIdentifier env (.ofBytes (0 :: sidReadDataById ::
      dids.flatMap didHeader)) = readDataByIdentifier env (readRequest dids) := rfl
  unfold askHead
  rw [hrequest, readDataByIdentifier_ok (readRequest_lengthOk hne), answerOf_after, readRequest,
    requestedDids_ofBytes, answerOf_readFrom hread hlen, List.nil_append]
  rfl

/-- A DID of the registry is read with a content of its own. -/
structure ReadsBack (env : ReadEnv) (did : UInt16) (info : DidInfo) (c : DidContent) : Prop where
  known : getDIDInfo did.toNat = some info
  content : (did.toNat, some c) ∈ stateContents env.build env.readings
  record : stateDIDHandleRead env.build env.readings did = .unchecked c.bytes
  readable : Readable env did
  bytes : (readHandler env did fullRoom).bytes = c.bytes
  size : c.bytes.length = info.size
  value : ¬ NegativePressure env.readings did.toNat →
    parseDIDValue did.toNat c.bytes = some c.value

theorem exists_readsBack {env : ReadEnv} {did : UInt16}
    (hreg : (getDIDInfo did.toNat).isSome = true) (hsup : Supports env.build did)
    (htank : isTankDID did = true → env.readings.tank.isSome = true) :
    ∃ info c, ReadsBack env did info c := by
  obtain ⟨info, hinfo⟩ := Option.isSome_iff_exists.mp hreg
  obtain ⟨c, hmem, hagrees⟩ := exists_content hinfo hsup htank
  have hrecord : stateDIDHandleRead env.build env.readings did = .unchecked c.bytes := by
    have h := hagrees.record
    rwa [hagrees.did, UInt16.ofNat_toNat] at h
  have hstate := isStateDID_of_unchecked (uncheckedRecord_eq_some.mpr hrecord)
  have hhandler : readHandler env did fullRoom = { accepted := true, bytes := c.bytes } := by
    rw [readHandler_of_isStateDID env hstate, hrecord]
    rfl
  refine ⟨info, c, hinfo, hmem, hrecord, ⟨?_, by rw [hhandler]⟩, by rw [hhandler],
    hagrees.size c rfl, fun hpressure => ?_⟩
  · rw [← Bool.not_eq_true]
    intro hbusy
    rw [not_isStateDID_of_busy hbusy] at hstate
    exact Bool.false_ne_true hstate
  · rw [parseDIDValue, hinfo]
    dsimp only
    rw [if_neg (hagrees.size c rfl).not_lt, hagrees.value c rfl (hagrees.did.symm ▸ hpressure)]

theorem size_pos : ∀ info ∈ stateDids, 0 < info.size := by decide

/-- Reading any DIDs of the registry at once gives a map with these DIDs as its keys, each with
the bytes that its handler wrote, and the type of each reads the number that was encoded. -/
theorem readMultipleDIDs_roundTrip (env : ReadEnv) (dids : List UInt16) (hne : dids ≠ [])
    (hreg : ∀ d ∈ dids, (getDIDInfo d.toNat).isSome = true)
    (hsup : ∀ d ∈ dids, Supports env.build d)
    (htank : ∀ d ∈ dids, isTankDID d = true → env.readings.tank.isSome = true)
    (hfit : (responseOf env dids).length < maxResponseLength) :
    ∃ m, readMultipleDIDs (askHead env) (dids.map UInt16.toNat) = .ok m ∧
      (∀ k, k ∈ m ↔ k ∈ dids.map UInt16.toNat) ∧
      ∀ d ∈ dids, ∃ c, (d.toNat, some c) ∈ stateContents env.build env.readings ∧
        stateDIDHandleRead env.build env.readings d = .unchecked c.bytes ∧
        m.lookup d.toNat = some c.bytes ∧
        (¬ NegativePressure env.readings d.toNat →
          parseDIDValue d.toNat c.bytes = some c.value) := by
  have hback : ∀ d ∈ dids, ∃ info c, ReadsBack env d info c :=
    fun d hd => exists_readsBack (hreg d hd) (hsup d hd) (htank d hd)
  have hread : ∀ d ∈ dids, Readable env d := by
    intro d hd
    obtain ⟨info, c, h⟩ := hback d hd
    exact h.readable
  have hdata : ∀ d ∈ dids, (readHandler env d fullRoom).bytes ≠ [] ∧ ∃ info,
      getDIDInfo d.toNat = some info ∧
        (readHandler env d fullRoom).bytes.length = info.size := by
    intro d hd
    obtain ⟨info, c, h⟩ := hback d hd
    rw [h.bytes]
    refine ⟨List.ne_nil_of_length_pos ?_, info, h.known, h.size⟩
    rw [h.size]
    exact size_pos info (getDIDInfo_eq_some h.known).1
  obtain ⟨hkeys, hvalues⟩ := parseRecords_flatMap _ hdata (m := ∅)
  refine ⟨parseRecords ∅ (dids.flatMap (recordOf env)), ?_, fun k => ?_, fun d hd => ?_⟩
  · obtain ⟨did, rest, rfl⟩ := List.exists_cons_of_ne_nil hne
    have hrequest : (Service.readMultipleDIDs did.toNat (rest.map UInt16.toNat)).request =
        sidReadDataById :: (did :: rest).flatMap didHeader := by
      simp only [Service.request, Service.sid, Service.body, List.flatMap_map,
        List.flatMap_cons, uint16ToBE_toNat]
    rw [List.map_cons, readMultipleDIDs, hrequest, askHead_ok hne hread hfit]
    rfl
  · rw [List.mem_map]
    exact (hkeys k).trans ⟨fun h => h.resolve_left (AList.notMem_empty k), .inr⟩
  · obtain ⟨info, c, h⟩ := hback d hd
    refine ⟨c, h.content, h.record, ?_, h.value⟩
    rw [← h.bytes]
    exact (hvalues d).trans (if_pos hd)

/-- A head with a digital cell below freezing. -/
def coldCell : ReadEnv :=
  { build := { cellKind := fun _ => .diveO2 }
    readings := { cell := fun _ => { temperatureMc := 0xFFFFFFFF } } }

/-- A flag between two floats and a temperature below zero, one of the floats twice. -/
def mixedDids : List UInt16 := [0xF200, 0xF402, 0xF406, 0xF200]

theorem forall_mixedDids {P : UInt16 → Prop} (hfloat : P 0xF200) (hflag : P 0xF402)
    (htemperature : P 0xF406) : ∀ d ∈ mixedDids, P d := by
  simp only [mixedDids, List.forall_mem_cons, List.not_mem_nil, false_implies, implies_true,
    and_true]
  exact ⟨hfloat, hflag, htemperature, hfloat⟩

theorem readMultipleDIDs_mixed :
    ∃ m, readMultipleDIDs (askHead coldCell) (mixedDids.map UInt16.toNat) = .ok m ∧
      (∀ k, k ∈ m ↔ k ∈ mixedDids.map UInt16.toNat) ∧
      ∀ d ∈ mixedDids, ∃ c, (d.toNat, some c) ∈ stateContents coldCell.build coldCell.readings ∧
        stateDIDHandleRead coldCell.build coldCell.readings d = .unchecked c.bytes ∧
        m.lookup d.toNat = some c.bytes ∧
        (¬ NegativePressure coldCell.readings d.toNat →
          parseDIDValue d.toNat c.bytes = some c.value) :=
  readMultipleDIDs_roundTrip coldCell mixedDids (List.cons_ne_nil _ _)
    (forall_mixedDids rfl rfl rfl)
    (forall_mixedDids ⟨coldCell.readings, _, rfl⟩ ⟨coldCell.readings, _, rfl⟩
      ⟨coldCell.readings, _, rfl⟩)
    (forall_mixedDids nofun nofun nofun) (by decide +kernel)

/-- A head with a transducer for the oxygen cylinder, whose reading has failed. -/
def failedTank : ReadEnv :=
  { build := { o2Transducer := true }
    readings := { tank := some ⟨DidContent.tankPressureFail, DidContent.tankPressureFail⟩ } }

/-- The same head when the channel is not read in time. -/
def lateTank : ReadEnv := { build := { o2Transducer := true } }

/-- No number comes out of the failure code of a pressure, and without the channel there is no
map but the error requestOutOfRange. -/
theorem tankPressure_notRecovered :
    (∃ m, readMultipleDIDs (askHead failedTank) [0xF238] = .ok m ∧
      m.lookup 0xF238 = some (DidContent.tankPressure 0xFFFF).bytes ∧
      (m.lookup 0xF238).bind (parseDIDValue 0xF238) = some .nan) ∧
    readMultipleDIDs (askHead lateTank) [0xF238] = .error Nrc.requestOutOfRange.code := by
  have hask : askHead failedTank (Service.readMultipleDIDs 0xF238 []).request =
      .ok [0x62, 0xF2, 0x38, 0xFF, 0xFF] := by decide +kernel
  have hlate : askHead lateTank (Service.readMultipleDIDs 0xF238 []).request =
      .error Nrc.requestOutOfRange.code := by decide +kernel
  constructor
  · refine ⟨parseRecords ∅ [0xF2, 0x38, 0xFF, 0xFF], by rw [readMultipleDIDs, hask]; rfl, ?_⟩
    have hmap : parseRecords ∅ [0xF2, 0x38, 0xFF, 0xFF] =
        (∅ : DidMap).insert (0xF238 : ℕ) ([0xFF, 0xFF] : List UInt8) := by
      rw [parseRecords]
      exact parseRecords_nil _
    rw [hmap, AList.lookup_insert]
    exact ⟨rfl, rfl⟩
  · rw [readMultipleDIDs, hlate]
    rfl

end DiveCANHead.UdsClient
