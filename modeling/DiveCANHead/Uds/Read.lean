import DiveCANHead.Uds.StateDid

/-!
# ReadDataByIdentifier (`uds.c`)

A request lists DIDs; their records are written one after the other into the response
buffer, each under the room that the earlier ones have left. Every handler keeps to its
room but those that do not look at it.
-/

namespace DiveCANHead.Uds

/-- What the read handlers find; `deviceId` is empty when the driver fails, and
`settingValue` is `UDS_GetSettingValue`. -/
structure ReadEnv where
  build : Build := {}
  readings : StateReadings := {}
  deviceId : List UInt8 := []
  settingsLoaded : Bool := true
  settingValue : ℕ → UInt64 := fun _ => 0

/-! ## DIDs -/

def didSettingInfoBase : UInt16 := 0x9110

def didSettingValueBase : UInt16 := 0x9130

def didSettingLabelBase : UInt16 := 0x9150

/-- `UDS_DID_SETTING_LABEL_END`. -/
def didSettingLabelEnd : UInt16 := 0x9250

def didSettingSaveBase : UInt16 := 0x9350

/-- The DID of some setting in the range that starts at `base`. -/
def isSettingDID (base did : UInt16) : Bool :=
  base ≤ did ∧ did < base + UInt16.ofNat settingCount

/-- `settingDidBusy`. -/
def settingDidBusy (settingsLoaded : Bool) (did : UInt16) (includeSaveRange : Bool) : Bool :=
  !settingsLoaded && (isSettingDID didSettingValueBase did ||
    (includeSaveRange && isSettingDID didSettingSaveBase did))

/-! ## The handlers of single DIDs -/

/-- A handler, given the room for its data. -/
abbrev ReadHandler := UInt16 → DidRead

/-- `readFirmwareVersionDID`. -/
def readFirmwareVersionDID (env : ReadEnv) : ReadHandler := fun room =>
  { accepted := true, bytes := (env.build.version.take 10).take room.toNat }

/-- `readHardwareVersionDID`. -/
def readHardwareVersionDID : ReadHandler := fun _ => { accepted := true, bytes := [0] }

/-- `UDS_VARIANT_NAME_MAX`. -/
def variantNameMax : ℕ := 31

/-- `readVariantNameDID`. -/
def readVariantNameDID (env : ReadEnv) : ReadHandler := fun room =>
  { accepted := true, bytes := (env.build.variant.take variantNameMax).take room.toNat }

/-- `UDS_SERIAL_NUMBER_MAX`. -/
def serialNumberMax : ℕ := 16

/-- `readSerialNumberDID`. -/
def readSerialNumberDID (env : ReadEnv) : ReadHandler := fun room =>
  let uid := (env.deviceId.take serialNumberMax).take room.toNat
  if 0 < uid.length then { accepted := true, bytes := uid }
  else { accepted := false, reports := [(.udsInvalid, 0xF003)] }

/-- `readSettingCountDID`. -/
def readSettingCountDID : ReadHandler := fun _ =>
  { accepted := true, bytes := [UInt8.ofNat settingCount] }

/-- `readDidTable`. -/
def readDidTable (env : ReadEnv) : List (UInt16 × ReadHandler) :=
  [(0xF000, readFirmwareVersionDID env),
    (0xF001, readHardwareVersionDID),
    (0xF002, readVariantNameDID env),
    (0xF003, readSerialNumberDID env),
    (0x9100, readSettingCountDID)]

/-- `SETTING_LABEL_MAX_LEN`. -/
def settingLabelMaxLen : ℕ := 9

/-- The record of `readSettingInfoDID`. -/
def writeSettingInfo (setting : SettingDefinition) : List UInt8 :=
  Lib.padTo settingLabelMaxLen 0 (setting.label.take settingLabelMaxLen) ++
    [0, setting.kind.code, flagByte setting.editable] ++
    match setting.kind with
    | .text => [setting.maxValue.toUInt8, UInt8.ofNat setting.options.length]
    | .number => []

/-- A setting's record, when the setting exists and the record fits. -/
def readSetting (env : ReadEnv) (index : ℕ) (write : SettingDefinition → List UInt8) :
    ReadHandler := fun room =>
  match getSettingInfo env.build.version env.build.menuOrder index with
  | none => { accepted := false, reports := [(.udsInvalid, UInt32.ofNat index)] }
  | some setting =>
    if room.toNat < (write setting).length then
      { accepted := false, reports := [(.udsTooFull, UInt32.ofNat index)] }
    else { accepted := true, bytes := write setting }

/-- `readSettingInfoDID`. -/
def readSettingInfoDID (env : ReadEnv) (did : UInt16) : ReadHandler :=
  readSetting env (did - didSettingInfoBase).toNat writeSettingInfo

/-- A big-endian 64-bit number. -/
def writeUint64BE (v : UInt64) : List UInt8 :=
  (List.range 8).map fun i => (v >>> (56 - 8 * UInt64.ofNat i)).toUInt8

/-- `readSettingValueDID`. -/
def readSettingValueDID (env : ReadEnv) (did : UInt16) : ReadHandler :=
  let index := (did - didSettingValueBase).toNat
  readSetting env index fun setting =>
    writeUint64BE setting.maxValue ++ writeUint64BE (env.settingValue index)

/-- `readSettingLabelDID`; `UDS_DecodeSettingLabelDID` takes the setting from the high nibble. -/
def readSettingLabelDID (env : ReadEnv) (did : UInt16) : ReadHandler := fun room =>
  let place := (did - didSettingLabelBase).toNat
  match getSettingOptionLabel env.build.version env.build.menuOrder (place / 16 % 16)
      (place % 16) with
  | none => { accepted := false, reports := [(.udsInvalid, did.toUInt32)] }
  | some label =>
    { accepted := true, bytes := formatOptionLabel label (min settingLabelMaxLen room.toNat) }

/-- The handler that `ReadSingleDID` finds for a DID. -/
def readHandler (env : ReadEnv) (did : UInt16) : ReadHandler :=
  match (readDidTable env).lookup did with
  | some handler => handler
  | none =>
    if isStateDID did then fun room =>
      (stateDIDHandleRead env.build env.readings did).read room
    else if isSettingDID didSettingInfoBase did then readSettingInfoDID env did
    else if isSettingDID didSettingValueBase did then readSettingValueDID env did
    else if didSettingLabelBase ≤ did ∧ did < didSettingLabelEnd then readSettingLabelDID env did
    else fun _ => { accepted := false }

/-! ## The request -/

/-- A DID before its data, big endian. -/
def didHeader (did : UInt16) : List UInt8 := [(did >>> 8).toUInt8, did.toUInt8]

/-- `ReadSingleDID`, with the header among the bytes. -/
def readSingleDID (env : ReadEnv) (did responseOffset : UInt16) : DidRead :=
  let maxAvailable := UInt16.ofNat maxResponseLength - responseOffset
  if maxAvailable < 3 then
    { accepted := false, reports := [(.udsTooFull, did.toUInt32)] }
  else
    let r := readHandler env did (maxAvailable - 2)
    { r with bytes := didHeader did ++ r.bytes }

/-- What the handling of a request does: the places of the response buffer that it writes, as
offset and size, and its effects. -/
structure Reading where
  writes : List (ℕ × ℕ)
  effects : List Effect
  deriving DecidableEq

/-- A reported and answered rejection, whose answer is built at the start of the buffer. -/
def Reading.reject (nrc : Nrc) : Reading :=
  ⟨[(0, 3)],
    [.opError .udsNrc nrc.code.toUInt32, .respond (negativeResponse sidReadDataById nrc)]⟩

/-- The handler of one DID, then the rest. -/
def Reading.after (offset : UInt16) (r : DidRead) (rest : Reading) : Reading :=
  ⟨(offset.toNat, r.bytes.length) :: rest.writes,
    r.reports.map (fun e => .opError e.1 e.2) ++ rest.effects⟩

/-- The loop of `HandleReadDataByIdentifier` over the DIDs that are left: `buf` is the start
of the response buffer. -/
def readRecords (env : ReadEnv) : List UInt16 → List UInt8 → UInt16 → Reading
  | [], buf, responseOffset => ⟨[], [.respond (buf.take responseOffset.toNat)]⟩
  | did :: dids, buf, responseOffset =>
    if settingDidBusy env.settingsLoaded did false then .reject .busyRepeatRequest
    else
      let r := readSingleDID env did responseOffset
      let next := responseOffset + UInt16.ofNat r.bytes.length
      Reading.after responseOffset r <|
        if r.accepted = false then .reject .requestOutOfRange
        else if 256 ≤ next then .reject .responseTooLong
        else readRecords env dids (buf.take responseOffset.toNat ++ r.bytes) next

/-- The DIDs of a request, from `UDS_DID_HI_IDX` on. -/
def requestedDids (q : Request) : List UInt16 :=
  (List.range ((q.length - 2) / 2)).map fun i => q.word (2 + 2 * i)

/-- The length check of `HandleReadDataByIdentifier`. -/
def readLengthOk (q : Request) : Bool := 4 ≤ q.length ∧ (q.length - 2) % 2 = 0

/-- `HandleReadDataByIdentifier`. -/
def readDataByIdentifier (env : ReadEnv) (q : Request) : Reading :=
  if readLengthOk q then
    Reading.after 0 { accepted := true, bytes := [sidReadDataById + responseSidOffset] }
      (readRecords env (requestedDids q) [sidReadDataById + responseSidOffset] 1)
  else .reject .incorrectMsgLen

/-- The handler within the head: reading has effects only. -/
def handleReadDataByIdentifier (env : ReadEnv) (h : Head) (q : Request) : Head :=
  { h with effects := h.effects ++ (readDataByIdentifier env q).effects }

/-! ## The room -/

/-- The handler keeps to its room. -/
def ReadHandler.Bounded (read : ReadHandler) : Prop :=
  ∀ room, 0 < room.toNat → (read room).bytes.length ≤ room.toNat

/-- Its data does not depend on the room, where it does not fill it. -/
def ReadHandler.Steady (read : ReadHandler) : Prop :=
  ∀ room room', (read room).accepted = true → (read room).bytes.length < room.toNat →
    (read room).bytes.length < room'.toNat → read room' = read room

theorem take_of_length_take_lt {xs : List UInt8} {n m : ℕ} (hn : (xs.take n).length < n)
    (hm : (xs.take n).length < m) : xs.take m = xs.take n := by
  rw [List.length_take] at hn hm
  rw [List.take_of_length_le (i := n) (by omega), List.take_of_length_le (i := m) (by omega)]

theorem bounded_readSetting (env : ReadEnv) (index : ℕ) (write : SettingDefinition → List UInt8) :
    (readSetting env index write).Bounded := by
  intro room _
  unfold readSetting
  split
  · exact Nat.zero_le _
  · split
    · exact Nat.zero_le _
    · exact Nat.le_of_not_lt ‹_›

theorem steady_readSetting (env : ReadEnv) (index : ℕ) (write : SettingDefinition → List UInt8) :
    (readSetting env index write).Steady := by
  intro room room' hacc hlt hlt'
  unfold readSetting at *
  split
  · rfl
  · rename_i setting hinfo
    rw [hinfo] at hacc hlt hlt'
    dsimp only at hacc hlt hlt' ⊢
    split at hacc
    · exact absurd hacc Bool.false_ne_true
    · rename_i hroom
      rw [if_neg hroom] at hlt'
      rw [if_neg hroom, if_neg (Nat.not_lt.mpr hlt'.le)]

theorem bounded_readSettingLabelDID (env : ReadEnv) (did : UInt16) :
    (readSettingLabelDID env did).Bounded := by
  intro room _
  unfold readSettingLabelDID
  dsimp only
  split
  · exact Nat.zero_le _
  · rw [length_formatOptionLabel]
    exact Nat.min_le_right _ _

theorem steady_readSettingLabelDID (env : ReadEnv) (did : UInt16) :
    (readSettingLabelDID env did).Steady := by
  intro room room' hacc hlt hlt'
  unfold readSettingLabelDID at *
  dsimp only at hacc hlt hlt' ⊢
  split
  · rfl
  · rename_i label hlabel
    rw [hlabel] at hlt hlt'
    dsimp only at hlt hlt'
    rw [length_formatOptionLabel] at hlt hlt'
    rw [show min settingLabelMaxLen room'.toNat = min settingLabelMaxLen room.toNat by omega]

/-- A string cut to the room. -/
theorem steady_take (xs : List UInt8) :
    ReadHandler.Steady fun room => { accepted := true, bytes := xs.take room.toNat } := by
  intro room room' _ hlt hlt'
  dsimp only at hlt hlt' ⊢
  rw [take_of_length_take_lt hlt hlt']

theorem steady_readSerialNumberDID (env : ReadEnv) : (readSerialNumberDID env).Steady := by
  intro room room' hacc hlt hlt'
  unfold readSerialNumberDID at *
  dsimp only at hacc hlt hlt' ⊢
  split at hacc
  · rename_i hpos
    rw [if_pos hpos] at hlt hlt'
    rw [take_of_length_take_lt hlt hlt']
  · exact absurd hacc Bool.false_ne_true

theorem bounded_readSerialNumberDID (env : ReadEnv) : (readSerialNumberDID env).Bounded := by
  intro room _
  unfold readSerialNumberDID
  dsimp only
  split
  · exact List.length_take_le _ _
  · exact Nat.zero_le _

theorem steady_didRecord (record : DidRecord) :
    ReadHandler.Steady fun room => record.read room := by
  intro room room' hacc hlt hlt'
  cases record with
  | refused reports => rfl
  | unchecked bytes => rfl
  | checked bytes =>
    simp only [DidRecord.read] at *
    split at hacc
    · exact absurd hacc Bool.false_ne_true
    · rename_i hroom
      rw [if_neg hroom] at hlt'
      rw [if_neg hroom, if_neg (Nat.not_lt.mpr hlt'.le)]

theorem bounded_didRecord {record : DidRecord} (h : ∀ bytes, record ≠ .unchecked bytes) :
    ReadHandler.Bounded fun room => record.read room := by
  intro room _
  cases record with
  | refused reports => exact Nat.zero_le _
  | unchecked bytes => exact absurd rfl (h bytes)
  | checked bytes =>
    dsimp only [DidRecord.read]
    split
    · exact Nat.zero_le _
    · exact Nat.le_of_not_lt ‹_›

/-! ## The handlers -/

/-- What the handler of a state DID writes when it does not look at its room. -/
def uncheckedRecord (env : ReadEnv) (did : UInt16) : Option (List UInt8) :=
  match stateDIDHandleRead env.build env.readings did with
  | .unchecked bytes => some bytes
  | .refused _ | .checked _ => none

theorem uncheckedRecord_eq_some {env : ReadEnv} {did : UInt16} {bytes : List UInt8} :
    uncheckedRecord env did = some bytes ↔
      stateDIDHandleRead env.build env.readings did = .unchecked bytes := by
  unfold uncheckedRecord
  split <;> simp_all

theorem length_uncheckedRecord {env : ReadEnv} {did : UInt16} {bytes : List UInt8}
    (h : uncheckedRecord env did = some bytes) : bytes.length ≤ 8 := by
  have hshort := short_stateDIDHandleRead env.build env.readings did
  rwa [uncheckedRecord_eq_some.mp h] at hshort

theorem isStateDID_of_unchecked {env : ReadEnv} {did : UInt16} {bytes : List UInt8}
    (h : uncheckedRecord env did = some bytes) : isStateDID did = true := by
  rw [uncheckedRecord_eq_some, stateDIDHandleRead] at h
  unfold isStateDID
  split at h
  · rename_i hcontrol
    rw [hcontrol, Bool.true_or]
  · split at h
    · rename_i hcell
      rw [hcell, Bool.or_true]
    · exact DidRecord.noConfusion h

theorem readHandler_of_isStateDID (env : ReadEnv) {did : UInt16} (h : isStateDID did = true) :
    readHandler env did =
      fun room => (stateDIDHandleRead env.build env.readings did).read room := by
  have hlookup : (readDidTable env).lookup did = none := by
    rw [List.lookup_eq_none_iff]
    simp only [readDidTable, List.forall_mem_cons, List.not_mem_nil, false_implies,
      implies_true, and_true, bne_iff_ne]
    refine ⟨?_, ?_, ?_, ?_, ?_⟩ <;>
      · rintro rfl
        exact absurd h (by decide)
  unfold readHandler
  rw [hlookup]
  dsimp only
  rw [if_pos h]

theorem not_isStateDID_of_busy {loaded : Bool} {did : UInt16}
    (h : settingDidBusy loaded did false = true) : isStateDID did = false := by
  simp only [settingDidBusy, isSettingDID, didSettingValueBase, settingCount, Bool.false_and,
    Bool.or_false, Bool.and_eq_true, decide_eq_true_eq, UInt16.le_iff_toNat_le,
    UInt16.lt_iff_toNat_lt] at h
  have hup : did.toNat < 0x913C := h.2.2
  simp only [isStateDID, isControlDID, isCellDID, Bool.or_eq_false_iff, decide_eq_false_iff_not,
    UInt16.le_iff_toNat_le, UInt16.lt_iff_toNat_lt, not_and_or, UInt16.reduceToNat]
  omega

theorem steady_readHandler (env : ReadEnv) (did : UInt16) : (readHandler env did).Steady := by
  have hconst : ∀ r : DidRead, ReadHandler.Steady fun _ => r := fun r _ _ _ _ _ => rfl
  unfold readHandler
  split
  · rename_i handler hlookup
    obtain ⟨l₁, l₂, htable, -⟩ := List.lookup_eq_some_iff.mp hlookup
    have hmem : (did, handler) ∈ readDidTable env := by rw [htable]; simp
    have hall : ∀ e ∈ readDidTable env, e.2.Steady := by
      simp only [readDidTable, List.forall_mem_cons, List.not_mem_nil, false_implies,
        implies_true, and_true]
      exact ⟨steady_take _, hconst _, steady_take _, steady_readSerialNumberDID env, hconst _⟩
    exact hall _ hmem
  · split
    · exact steady_didRecord _
    · split
      · exact steady_readSetting env _ _
      · split
        · exact steady_readSetting env _ _
        · split
          · exact steady_readSettingLabelDID env did
          · exact hconst _

/-- Every handler keeps to its room but the unchecked ones. -/
theorem bounded_readHandler {env : ReadEnv} {did : UInt16} (h : uncheckedRecord env did = none) :
    (readHandler env did).Bounded := by
  have hconst : ∀ r : DidRead, r.bytes.length ≤ 1 → ReadHandler.Bounded fun _ => r :=
    fun r hr room hroom => Nat.le_trans hr hroom
  unfold readHandler
  split
  · rename_i handler hlookup
    obtain ⟨l₁, l₂, htable, -⟩ := List.lookup_eq_some_iff.mp hlookup
    have hmem : (did, handler) ∈ readDidTable env := by rw [htable]; simp
    have hall : ∀ e ∈ readDidTable env, e.2.Bounded := by
      simp only [readDidTable, List.forall_mem_cons, List.not_mem_nil, false_implies,
        implies_true, and_true]
      exact ⟨fun room _ => List.length_take_le _ _, hconst _ (Nat.le_refl 1),
        fun room _ => List.length_take_le _ _, bounded_readSerialNumberDID env,
        hconst _ (Nat.le_refl 1)⟩
    exact hall _ hmem
  · split
    · refine bounded_didRecord fun bytes hbytes => ?_
      rw [uncheckedRecord_eq_some.mpr hbytes] at h
      exact absurd h (Option.some_ne_none bytes)
    · split
      · exact bounded_readSetting env _ _
      · split
        · exact bounded_readSetting env _ _
        · split
          · exact bounded_readSettingLabelDID env did
          · exact hconst _ (Nat.zero_le 1)

end DiveCANHead.Uds
