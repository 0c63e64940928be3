import Mathlib.Algebra.Order.Floor.Ring
import Mathlib.Data.Nat.Digits.Defs
import Mathlib.Data.Rat.Floor
import Mathlib.Tactic.IntervalCases
import DiveCANHead.Settings.Store
import DiveCANHead.Uds.MenuOrder
import DiveCANHead.Uds.Write

/-!
# Writing, saving and reading a setting (`uds_settings.c`, `uds.c`)

A write to 0x9130 + i changes the record in RAM, one to 0x9350 + i persists the field as well, and
a reset reads every field back from its key. A save whose flash write fails is refused with the
value left in RAM, as after a write; a save may have any number of value bytes.
-/

namespace DiveCANHead.Settings

open DiveCANHead.Lib DiveCANHead.Uds

/-! ## Values on the wire -/

def wireOfBool (b : Bool) : UInt64 := if b = true then 1 else 0

/-- `lroundf` of a gain in micro-units. -/
def wireOfGain : Number → UInt64
  | .finite q => UInt64.ofNat ⌊q * 1000000 + 1 / 2⌋.toNat
  | _ => 0

attribute [local instance] DiveCANHead.Lib.neZero_three in
/-- The value of a setting under its storage index; the first one and those past the end have
none. -/
def settingAt (s : RuntimeSettings) : ℕ → UInt64
  | 1 => s.ppo2ControlMode.code.toUInt64
  | 2 => s.calibrationMode.code.toUInt64
  | 3 => wireOfBool s.depthCompensation
  | 4 => wireOfGain s.pidKp
  | 5 => wireOfGain s.pidKi
  | 6 => wireOfGain s.pidKd
  | 7 => s.batteryType.code.toUInt64
  | 8 => wireOfBool (s.enforceBroadcast 0)
  | 9 => wireOfBool (s.enforceBroadcast 1)
  | 10 => wireOfBool (s.enforceBroadcast 2)
  | 11 => s.divecanIdentity.code.toUInt64
  | _ => 0

/-- `UDS_GetSettingValue`. -/
def udsGetSettingValue (build : SettingsBuild) (cached : RuntimeSettings) (index : ℕ) : UInt64 :=
  match menuToStorage build.menuSlots index with
  | some storage => settingAt cached storage
  | none => 0

/-- `UDS_SetSettingValue`: the record it leaves in the cache, if it takes the value. -/
def udsSetSettingValue (build : SettingsBuild) (cached : RuntimeSettings) (index : ℕ)
    (value : UInt64) : Option RuntimeSettings := do
  let storage ← (SettingCall.mk false index value).accepted build
  let rs := setSetting storage value cached
  if runtimeSettingsValidate build rs = true then some rs else none

/-! ## The head's settings -/

/-- The cache, the flash, whether the load has been done and, for the statements only, the record
in which each field is as it was last saved. -/
structure SettingsStore where
  cached : RuntimeSettings
  nvs : Nvs
  loaded : Bool
  stored : RuntimeSettings

/-- What a request does, and whether it is answered with a positive response. -/
structure Handled where
  accepted : Bool
  store : SettingsStore

/-- `writeSettingValueDID_handler`. -/
def SettingsStore.write (build : SettingsBuild) (s : SettingsStore) (q : Request) : Handled :=
  if q.length ≠ settingValueWriteLen then ⟨false, s⟩
  else
    match udsSetSettingValue build s.cached (q.did - didSettingValueBase).toNat
      (settingValueOf q) with
    | some rs => ⟨true, { s with cached := rs }⟩
    | none => ⟨false, s⟩

/-- `UDS_SaveSettingValue`. -/
def SettingsStore.saveValue (build : SettingsBuild) (s : SettingsStore) (index : ℕ)
    (value : UInt64) (written : Bool) : Handled :=
  match udsSetSettingValue build s.cached index value with
  | none => ⟨false, s⟩
  | some rs =>
    let s := { s with cached := rs }
    match (menuToStorage build.menuSlots index).bind settingIndexToField with
    | none => ⟨false, s⟩
    | some field =>
      match runtimeSettingsSaveField build rs s.nvs field written with
      | some nvs => ⟨true, { s with nvs := nvs, stored := rs.copyField field s.stored }⟩
      | none => ⟨false, s⟩

/-- `writeSettingSaveDID`. -/
def SettingsStore.save (build : SettingsBuild) (s : SettingsStore) (q : Request)
    (written : Bool) : Handled :=
  s.saveValue build (q.did - didSettingSaveBase).toNat (settingValueOf q) written

/-- What `HandleWriteDataByIdentifier` does with the settings; a write of another DID leaves them
alone. -/
def SettingsStore.handle (build : SettingsBuild) (s : SettingsStore) (q : Request)
    (written : Bool) : Handled :=
  if q.length < 4 then ⟨false, s⟩
  else if settingDidBusy s.loaded q.did true = true then ⟨false, s⟩
  else if isSettingDID didSettingSaveBase q.did = true then s.save build q written
  else if isSettingDID didSettingValueBase q.did = true then s.write build q
  else ⟨false, s⟩

inductive StoreEvent where
  | request (q : Request) (written : Bool)
  | reset
  | load (ready : Bool) (names : List String)
  deriving DecidableEq, Repr

def storeStep (v : SettingsVariant) (s : SettingsStore) : StoreEvent → Option SettingsStore
  | .request q written => some (s.handle v.toSettingsBuild q written).store
  | .reset => some { s with cached := v.defaults, loaded := false }
  | .load ready names =>
    if s.loaded = true then some s
    else some { s with cached := runtimeSettingsLoad v s.nvs ready names, loaded := true }

/-! ## Reading back -/

section ReadBack

variable {build : SettingsBuild}

theorem wireOfGain_gainOfWire (value : UInt64) : wireOfGain (gainOfWire value) = value := by
  have hexact : (value.toNat : ℚ) / 1000000 * 1000000 = value.toNat := by ring
  have hround : ⌊(value.toNat : ℚ) / 1000000 * 1000000 + 1 / 2⌋ = (value.toNat : ℤ) := by
    rw [Int.floor_eq_iff, hexact]
    constructor
    · push_cast
      linarith
    · push_cast
      linarith
  rw [gainOfWire, wireOfGain, hround, Int.toNat_natCast, UInt64.ofNat_toNat]

theorem eq_ofNat_of_le {value bound : UInt64} (h : value ≤ bound) :
    ∃ n ≤ bound.toNat, value = UInt64.ofNat n :=
  ⟨value.toNat, UInt64.le_iff_toNat_le.mp h, UInt64.ofNat_toNat.symm⟩

theorem wireOfBool_ne_zero {value : UInt64} (h : value ≤ 1) : wireOfBool (value != 0) = value := by
  obtain ⟨n, hn, rfl⟩ := eq_ofNat_of_le h
  have hn : n ≤ 1 := hn
  interval_cases n <;> rfl

/-- A value within the range of its setting is read back. -/
theorem settingAt_setSetting {version : List UInt8} {storage : ℕ} {setting : SettingDefinition}
    {value : UInt64} (hset : (settings version)[storage]? = some setting)
    (heditable : setting.editable = true) (hmax : value ≤ setting.maxValue)
    (s : RuntimeSettings) : settingAt (setSetting storage value s) storage = value := by
  have hlt : storage < settingCount := by
    rw [← length_settings version]
    exact (List.getElem?_eq_some_iff.mp hset).1
  have hcode : ∀ (bound : UInt64) (code : ℕ → UInt64),
      (∀ n ≤ bound.toNat, code n = UInt64.ofNat n) → value ≤ bound → code value.toNat = value := by
    intro bound code hcode hle
    rw [hcode _ (UInt64.le_iff_toNat_le.mp hle), UInt64.ofNat_toNat]
  unfold settingCount at hlt
  interval_cases storage <;> cases hset
  · exact absurd heditable (by simp)
  · exact hcode 2 (fun n => (PPO2ControlMode.ofCode n).code.toUInt64) (by decide) hmax
  · exact hcode 4 (fun n => (CalibrationMode.ofCode n).code.toUInt64) (by decide) hmax
  · exact wireOfBool_ne_zero hmax
  · exact wireOfGain_gainOfWire value
  · exact wireOfGain_gainOfWire value
  · exact wireOfGain_gainOfWire value
  · exact hcode 3 (fun n => (BatteryType.ofCode n).code.toUInt64) (by decide) hmax
  · exact wireOfBool_ne_zero hmax
  · exact wireOfBool_ne_zero hmax
  · exact wireOfBool_ne_zero hmax
  · exact hcode 1 (fun n => (DiveCANIdentity.ofCode n).code.toUInt64) (by decide) hmax

/-- The other settings keep their value. -/
theorem settingAt_setSetting_other {storage other : ℕ} (h : other ≠ storage) (value : UInt64)
    (s : RuntimeSettings) : settingAt (setSetting storage value s) other = settingAt s other := by
  unfold setSetting
  split <;> unfold settingAt <;> split <;> first | rfl | exact absurd rfl h

/-- What an accepted write leaves in the cache: the record has the value, every other setting is as
it was, and the record is valid. -/
theorem udsSetSettingValue_some {cached rs : RuntimeSettings} {index : ℕ} {value : UInt64}
    (h : udsSetSettingValue build cached index value = some rs) :
    udsGetSettingValue build rs index = value ∧
      (∀ j ≠ index, udsGetSettingValue build rs j = udsGetSettingValue build cached j) ∧
      runtimeSettingsValidate build rs = true := by
  obtain ⟨storage, haccepted, hrs⟩ := Option.bind_eq_some_iff.mp h
  obtain ⟨hvalid, hrs⟩ := Option.ite_none_right_eq_some.mp hrs
  obtain rfl := Option.some.inj hrs
  obtain ⟨hstorage, hany⟩ := Option.filter_eq_some_iff.mp haccepted
  obtain ⟨setting, hsetting, hchecks⟩ := (Option.any_eq_true ..).mp hany
  rw [Bool.and_eq_true, decide_eq_true_eq] at hchecks
  refine ⟨?_, fun j hj => ?_, hvalid⟩
  · rw [udsGetSettingValue, hstorage]
    exact settingAt_setSetting hsetting hchecks.1 hchecks.2 cached
  · unfold udsGetSettingValue
    cases hother : menuToStorage build.menuSlots j with
    | none => rfl
    | some other =>
      refine settingAt_setSetting_other ?_ value cached
      rintro rfl
      exact hj (menuToStorage_inj hother hstorage)

/-- A gain within its range is taken by a head whose settings are valid. -/
theorem udsSetSettingValue_gain {cached : RuntimeSettings} {index storage : ℕ} {value : UInt64}
    (hvalid : runtimeSettingsValidate build cached = true)
    (hstorage : menuToStorage build.menuSlots index = some storage)
    (hgain : storage ∈ [4, 5, 6]) (hmax : value ≤ pidGainMaxWire) :
    udsSetSettingValue build cached index value = some (setSetting storage value cached) := by
  have hwire : pidGainValid (gainOfWire value) = true := by
    have hle : value.toNat ≤ 100000000 := UInt64.le_iff_toNat_le.mp hmax
    have hle : (value.toNat : ℚ) ≤ 100000000 := by exact_mod_cast hle
    rw [gainOfWire, pidGainValid, Bool.and_eq_true, decide_eq_true_eq, decide_eq_true_eq]
    exact ⟨by positivity, by linarith⟩
  have haccepted : (SettingCall.mk false index value).accepted build = some storage := by
    rw [SettingCall.accepted, hstorage, Option.filter_some, if_pos]
    simp only [List.mem_cons, List.not_mem_nil, or_false] at hgain
    rcases hgain with rfl | rfl | rfl <;> exact decide_eq_true hmax
  have hset : runtimeSettingsValidate build (setSetting storage value cached) = true := by
    rw [runtimeSettingsValidate_iff] at hvalid ⊢
    obtain ⟨hppo2, hcal, hkp, hki, hkd, hdepth⟩ := hvalid
    simp only [List.mem_cons, List.not_mem_nil, or_false] at hgain
    rcases hgain with rfl | rfl | rfl
    · exact ⟨hppo2, hcal, hwire, hki, hkd, hdepth⟩
    · exact ⟨hppo2, hcal, hkp, hwire, hkd, hdepth⟩
    · exact ⟨hppo2, hcal, hkp, hki, hwire, hdepth⟩
  simp only [udsSetSettingValue, haccepted, Option.bind_eq_bind, Option.bind_some, if_pos hset]

/-- The bytes that carry the value. -/
def valueBytes (q : Request) : List UInt8 := (q.payload 4).take 8

/-- The value is the number that its bytes spell, most significant first. -/
theorem settingValueOf_toNat (q : Request) :
    (settingValueOf q).toNat = Nat.ofDigits 256 ((valueBytes q).reverse.map UInt8.toNat) := by
  have hfold : ∀ bytes : List UInt8, bytes.length ≤ 8 →
      (bytes.foldl (fun (value : UInt64) b => (value <<< 8) ||| b.toUInt64) 0).toNat =
        Nat.ofDigits 256 (bytes.reverse.map UInt8.toNat) := by
    intro bytes
    induction bytes using List.reverseRecOn with
    | nil => intro _; rfl
    | append_singleton bytes b ih =>
      intro hlen
      rw [List.length_append, List.length_singleton] at hlen
      have ih := ih (by omega)
      have hdigit : ∀ d ∈ bytes.reverse.map UInt8.toNat, d < 256 := by
        intro d hd
        obtain ⟨c, -, rfl⟩ := List.mem_map.mp hd
        exact c.toNat_lt
      have hlt : Nat.ofDigits 256 (bytes.reverse.map UInt8.toNat) < 256 ^ 7 := by
        refine (Nat.ofDigits_lt_base_pow_length (by omega) hdigit).trans_le ?_
        refine Nat.pow_le_pow_right (by omega) ?_
        rw [List.length_map, List.length_reverse]
        omega
      rw [List.foldl_append, List.reverse_append, List.foldl_cons, List.foldl_nil,
        List.reverse_singleton, List.map_append, List.map_singleton, List.singleton_append,
        Nat.ofDigits_cons, UInt64.toNat_or, UInt64.toNat_shiftLeft, ih, UInt8.toNat_toUInt64]
      generalize Nat.ofDigits 256 (bytes.reverse.map UInt8.toNat) = n at hlt
      have hshift : n <<< (UInt64.toNat 8 % 64) % 2 ^ 64 = n <<< 8 := by
        rw [show UInt64.toNat 8 % 64 = 8 from rfl, Nat.mod_eq_of_lt]
        rw [Nat.shiftLeft_eq]
        omega
      rw [hshift, ← Nat.shiftLeft_add_eq_or_of_lt b.toNat_lt, Nat.shiftLeft_eq]
      omega
  exact hfold _ (List.length_take_le _ _)

end ReadBack

/-! ## Runs -/

/-- A head after a reset, with what is in its flash. -/
def SettingsStore.init (v : SettingsVariant) (nvs : Nvs) : SettingsStore where
  cached := v.defaults
  nvs := nvs
  loaded := false
  stored := readBack v nvs

/-- The record in RAM has the value, and every other setting as it was. -/
def Taken (build : SettingsBuild) (s t : SettingsStore) (index : ℕ) (value : UInt64) : Prop :=
  t.loaded = true ∧ udsGetSettingValue build t.cached index = value ∧
    ∀ j ≠ index, udsGetSettingValue build t.cached j = udsGetSettingValue build s.cached j

/-- What a write does, accepted or not; a gain in its range is accepted. -/
structure WriteLaw (build : SettingsBuild) (s t : SettingsStore) (q : Request) (accepted : Bool) :
    Prop where
  taken : accepted = true →
    Taken build s t (q.did - didSettingValueBase).toNat (settingValueOf q) ∧ t.nvs = s.nvs ∧
      t.stored = s.stored
  refused : accepted = false → t = s
  gain : s.loaded = true → q.length = settingValueWriteLen → ∀ storage ∈ [4, 5, 6],
    menuToStorage build.menuSlots (q.did - didSettingValueBase).toNat = some storage →
      settingValueOf q ≤ pidGainMaxWire → accepted = true

/-- What a save does. Refused, it leaves the flash alone, and the cache too unless it is only the
flash that failed. -/
structure SaveLaw (build : SettingsBuild) (s t : SettingsStore) (q : Request) (written : Bool)
    (accepted : Bool) : Prop where
  taken : accepted = true →
    Taken build s t (q.did - didSettingSaveBase).toNat (settingValueOf q) ∧
      ∃ field, (menuToStorage build.menuSlots (q.did - didSettingSaveBase).toNat).bind
          settingIndexToField = some field ∧
        (∀ key ≠ rtKey field.name, t.nvs key = s.nvs key) ∧
        SameField field t.stored t.cached ∧ ∀ g ≠ field, SameField g t.stored s.stored
  refused : accepted = false → t.nvs = s.nvs ∧ t.stored = s.stored ∧ t.loaded = s.loaded ∧
    (t.cached = s.cached ∨ written = false ∧
      udsSetSettingValue build s.cached (q.did - didSettingSaveBase).toNat (settingValueOf q) =
        some t.cached)
  sent : (settingValueOf q).toNat = Nat.ofDigits 256 ((valueBytes q).reverse.map UInt8.toNat)

/-- What holds of a step. A load gives every field that it is given the value last saved of it, and
its default to every other one. -/
def SettingsLaw (v : SettingsVariant) (s : SettingsStore) (e : StoreEvent) (t : SettingsStore) :
    Prop :=
  match e with
  | .request q written =>
    (isSettingDID didSettingValueBase q.did = true → WriteLaw v.toSettingsBuild s t q
      (s.handle v.toSettingsBuild q written).accepted) ∧
    (isSettingDID didSettingSaveBase q.did = true → SaveLaw v.toSettingsBuild s t q written
      (s.handle v.toSettingsBuild q written).accepted)
  | .reset => t.nvs = s.nvs ∧ t.stored = s.stored
  | .load ready names =>
    (s.loaded = true → t = s) ∧ (s.loaded = false → t.nvs = s.nvs ∧ t.stored = s.stored ∧
      ∀ field, SameField field t.cached
        (if ready = true ∧ field.name ∈ names then s.stored else v.defaults))

structure SettingsStore.Inv (v : SettingsVariant) (s : SettingsStore) : Prop where
  cached : runtimeSettingsValidate v.toSettingsBuild s.cached = true
  stored : runtimeSettingsValidate v.toSettingsBuild s.stored = true
  keyed : ∀ field, SameField field (loadName v.toSettingsBuild s.nvs v.defaults field.name) s.stored

section Runs

variable {v : SettingsVariant} {s t : SettingsStore} {q : Request} {written : Bool}

theorem SettingsStore.init_inv {nvs : Nvs}
    (hdepth : v.hasO2Solenoid = true ∨ (readBack v nvs).depthCompensation = false) :
    (SettingsStore.init v nvs).Inv v where
  cached := v.defaultsValid
  stored := readBack_valid hdepth
  keyed field := readBack_sameField v nvs field

/-- A write that is taken up. -/
theorem settingDid_served {did : UInt16} {loaded : Bool}
    (hdid : isSettingDID didSettingValueBase did = true ∨
      isSettingDID didSettingSaveBase did = true)
    (hserved : settingDidBusy loaded did true ≠ true) : loaded = true := by
  cases loaded with
  | true => rfl
  | false =>
    refine absurd ?_ hserved
    rcases hdid with h | h <;> simp [settingDidBusy, h]

theorem not_saveDID {did : UInt16} (h : isSettingDID didSettingValueBase did = true) :
    isSettingDID didSettingSaveBase did ≠ true := by
  intro hsave
  have hlow : did < didSettingValueBase + UInt16.ofNat settingCount := (of_decide_eq_true h).2
  have hhigh : didSettingSaveBase ≤ did := (of_decide_eq_true hsave).1
  exact absurd (UInt16.lt_of_le_of_lt hhigh hlow) (by decide)

theorem handle_value (v : SettingsVariant) (s : SettingsStore) (written : Bool)
    (hdid : isSettingDID didSettingValueBase q.did = true) :
    (s.handle v.toSettingsBuild q written = ⟨false, s⟩ ∧
      (s.loaded = true → q.length ≠ settingValueWriteLen)) ∨
    s.loaded = true ∧ s.handle v.toSettingsBuild q written = s.write v.toSettingsBuild q := by
  rw [SettingsStore.handle]
  by_cases hshort : q.length < 4
  · rw [if_pos hshort]
    refine .inl ⟨rfl, fun _ hlen => ?_⟩
    rw [hlen] at hshort
    exact absurd hshort (by decide)
  · rw [if_neg hshort]
    by_cases hbusy : settingDidBusy s.loaded q.did true = true
    · rw [if_pos hbusy]
      refine .inl ⟨rfl, fun hloaded => ?_⟩
      rw [hloaded] at hbusy
      exact absurd hbusy (by simp [settingDidBusy])
    · rw [if_neg hbusy, if_neg (not_saveDID hdid), if_pos hdid]
      exact .inr ⟨settingDid_served (.inl hdid) hbusy, rfl⟩

theorem handle_saving (v : SettingsVariant) (s : SettingsStore) (written : Bool)
    (hdid : isSettingDID didSettingSaveBase q.did = true) :
    s.handle v.toSettingsBuild q written = ⟨false, s⟩ ∨
    s.loaded = true ∧
      s.handle v.toSettingsBuild q written = s.save v.toSettingsBuild q written := by
  rw [SettingsStore.handle]
  by_cases hshort : q.length < 4
  · exact .inl (if_pos hshort)
  · rw [if_neg hshort]
    by_cases hbusy : settingDidBusy s.loaded q.did true = true
    · exact .inl (if_pos hbusy)
    · rw [if_neg hbusy, if_pos hdid]
      exact .inr ⟨settingDid_served (.inr hdid) hbusy, rfl⟩

theorem handle_writeLaw (hi : s.Inv v) (hdid : isSettingDID didSettingValueBase q.did = true) :
    WriteLaw v.toSettingsBuild s (s.handle v.toSettingsBuild q written).store q
      (s.handle v.toSettingsBuild q written).accepted := by
  rcases handle_value v s written hdid with ⟨hrefused, hlength⟩ | ⟨hloaded, hwrite⟩
  · rw [hrefused]
    exact {
      taken := fun h => absurd h Bool.false_ne_true
      refused := fun _ => rfl
      gain := fun hloaded hlen => absurd hlen (hlength hloaded) }
  · rw [hwrite, SettingsStore.write]
    by_cases hlen : q.length = settingValueWriteLen
    · rw [if_neg (not_not_intro hlen)]
      cases hset : udsSetSettingValue v.toSettingsBuild s.cached
          (q.did - didSettingValueBase).toNat (settingValueOf q) with
      | some rs =>
        obtain ⟨hread, hothers, -⟩ := udsSetSettingValue_some hset
        exact {
          taken := fun _ => ⟨⟨hloaded, hread, hothers⟩, rfl, rfl⟩
          refused := fun h => absurd h.symm Bool.false_ne_true
          gain := fun _ _ _ _ _ _ => rfl }
      | none =>
        refine {
          taken := fun h => absurd h Bool.false_ne_true
          refused := fun _ => rfl
          gain := fun _ _ storage hgain hstorage hmax => ?_ }
        rw [udsSetSettingValue_gain hi.cached hstorage hgain hmax] at hset
        exact absurd hset (Option.some_ne_none _)
    · rw [if_pos hlen]
      exact {
        taken := fun h => absurd h Bool.false_ne_true
        refused := fun _ => rfl
        gain := fun _ h => absurd h hlen }

/-- Every setting that takes values has a key. -/
theorem settingIndexToField_of_accepted {build : SettingsBuild} {c : SettingCall} {storage : ℕ}
    (h : c.accepted build = some storage) : ∃ field, settingIndexToField storage = some field := by
  obtain ⟨-, hany⟩ := Option.filter_eq_some_iff.mp h
  obtain ⟨setting, hsetting, hchecks⟩ := (Option.any_eq_true ..).mp hany
  have hlt : storage < settingCount := by
    rw [← length_settings build.version]
    exact (List.getElem?_eq_some_iff.mp hsetting).1
  unfold settingCount at hlt
  interval_cases storage
  · cases hsetting
    exact absurd hchecks (by simp)
  all_goals exact ⟨_, rfl⟩

/-- A save of a value that is taken goes on to the key of its field. -/
theorem saveValue_of_some {build : SettingsBuild} {rs : RuntimeSettings} {index : ℕ}
    {value : UInt64} (written : Bool)
    (hset : udsSetSettingValue build s.cached index value = some rs) :
    ∃ field, (menuToStorage build.menuSlots index).bind settingIndexToField = some field ∧
      s.saveValue build index value written =
        if written = true then
          ⟨true, ⟨rs, Function.update s.nvs (rtKey field.name) (some (rs.block field)), s.loaded,
            rs.copyField field s.stored⟩⟩
        else ⟨false, { s with cached := rs }⟩ := by
  obtain ⟨-, -, hvalid⟩ := udsSetSettingValue_some hset
  obtain ⟨storage, haccepted, -⟩ := Option.bind_eq_some_iff.mp hset
  obtain ⟨hstorage, -⟩ := Option.filter_eq_some_iff.mp haccepted
  obtain ⟨field, hfield⟩ := settingIndexToField_of_accepted haccepted
  have hbind : (menuToStorage build.menuSlots index).bind settingIndexToField = some field := by
    rw [hstorage, Option.bind_some, hfield]
  refine ⟨field, hbind, ?_⟩
  cases written <;> simp [SettingsStore.saveValue, hset, hbind, runtimeSettingsSaveField, hvalid]

theorem sameField_copyField (r dst : RuntimeSettings) (field : RuntimeSettingField) :
    SameField field (r.copyField field dst) r := by
  intro dst'
  cases field <;> rfl

theorem sameField_copyField_other (r dst : RuntimeSettings) {field g : RuntimeSettingField}
    (h : g ≠ field) : SameField g (r.copyField field dst) dst := by
  intro dst'
  cases field <;> cases g <;> first | rfl | exact absurd rfl h

theorem rtKey_name_inj {f g : RuntimeSettingField} (h : rtKey f.name = rtKey g.name) : f = g := by
  revert h
  cases f <;> cases g <;> decide

theorem handle_saveLaw (hdid : isSettingDID didSettingSaveBase q.did = true) :
    SaveLaw v.toSettingsBuild s (s.handle v.toSettingsBuild q written).store q written
      (s.handle v.toSettingsBuild q written).accepted := by
  rcases handle_saving v s written hdid with hrefused | ⟨hloaded, hsave⟩
  · rw [hrefused]
    exact {
      taken := fun h => absurd h Bool.false_ne_true
      refused := fun _ => ⟨rfl, rfl, rfl, .inl rfl⟩
      sent := settingValueOf_toNat q }
  · rw [hsave, SettingsStore.save]
    cases hset : udsSetSettingValue v.toSettingsBuild s.cached
        (q.did - didSettingSaveBase).toNat (settingValueOf q) with
    | none =>
      rw [SettingsStore.saveValue, hset]
      exact {
        taken := fun h => absurd h Bool.false_ne_true
        refused := fun _ => ⟨rfl, rfl, rfl, .inl rfl⟩
        sent := settingValueOf_toNat q }
    | some rs =>
      obtain ⟨hread, hothers, -⟩ := udsSetSettingValue_some hset
      obtain ⟨field, hfield, hvalue⟩ := saveValue_of_some written hset
      rw [hvalue]
      cases written with
      | true =>
        refine {
          taken := fun _ => ⟨⟨hloaded, hread, hothers⟩, field, hfield, ?_,
            sameField_copyField rs s.stored field, ?_⟩
          refused := fun h => absurd h.symm Bool.false_ne_true
          sent := settingValueOf_toNat q }
        · exact fun key hkey => Function.update_of_ne hkey _ _
        · exact fun g hg => sameField_copyField_other rs s.stored hg
      | false =>
        exact {
          taken := fun h => absurd h Bool.false_ne_true
          refused := fun _ => ⟨rfl, rfl, rfl, .inr ⟨rfl, hset⟩⟩
          sent := settingValueOf_toNat q }

theorem SettingsStore.Inv.withCached (hi : s.Inv v) {rs : RuntimeSettings}
    (hrs : runtimeSettingsValidate v.toSettingsBuild rs = true) :
    SettingsStore.Inv v { s with cached := rs } where
  cached := hrs
  stored := hi.stored
  keyed := hi.keyed

theorem SettingsStore.Inv.withSaved (hi : s.Inv v) {rs : RuntimeSettings}
    (hrs : runtimeSettingsValidate v.toSettingsBuild rs = true) (field : RuntimeSettingField) :
    SettingsStore.Inv v ⟨rs, Function.update s.nvs (rtKey field.name) (some (rs.block field)),
      s.loaded, rs.copyField field s.stored⟩ where
  cached := hrs
  stored := by
    refine valid_of_sameField fun g => ?_
    by_cases hg : g = field
    · subst hg
      exact ⟨rs, sameField_copyField rs s.stored g, hrs⟩
    · exact ⟨s.stored, sameField_copyField_other rs s.stored hg, hi.stored⟩
  keyed g := by
    rw [loadName_name]
    by_cases hg : g = field
    · subst hg
      simp only [Function.update_self]
      exact (loadField_block hrs v.defaults g).trans (sameField_copyField rs s.stored g).symm
    · have hkey : rtKey g.name ≠ rtKey field.name := fun h => hg (rtKey_name_inj h)
      have hkeyed := hi.keyed g
      rw [loadName_name] at hkeyed
      simp only [Function.update_of_ne hkey]
      exact hkeyed.trans (sameField_copyField_other rs s.stored hg).symm

theorem saveValue_inv (hi : s.Inv v) (index : ℕ) (value : UInt64) :
    (s.saveValue v.toSettingsBuild index value written).store.Inv v := by
  cases hset : udsSetSettingValue v.toSettingsBuild s.cached index value with
  | none =>
    rw [SettingsStore.saveValue, hset]
    exact hi
  | some rs =>
    obtain ⟨-, -, hvalid⟩ := udsSetSettingValue_some hset
    obtain ⟨field, -, hvalue⟩ := saveValue_of_some written hset
    rw [hvalue]
    split
    · exact hi.withSaved hvalid field
    · exact hi.withCached hvalid

theorem handle_inv (hi : s.Inv v) : (s.handle v.toSettingsBuild q written).store.Inv v := by
  unfold SettingsStore.handle
  split_ifs
  · exact hi
  · exact hi
  · exact saveValue_inv hi _ _
  · unfold SettingsStore.write
    split
    · exact hi
    · split
      · rename_i rs hset
        exact hi.withCached (udsSetSettingValue_some hset).2.2
      · exact hi
  · exact hi

theorem runtimeSettingsLoad_sameField (hi : s.Inv v) (ready : Bool) (names : List String)
    (field : RuntimeSettingField) :
    SameField field (runtimeSettingsLoad v s.nvs ready names)
      (if ready = true ∧ field.name ∈ names then s.stored else v.defaults) := by
  unfold runtimeSettingsLoad
  cases ready with
  | false => exact .refl field v.defaults
  | true =>
    have hfields : ∀ f : RuntimeSettingField,
        SameField f (names.foldl (loadName v.toSettingsBuild s.nvs) v.defaults)
          (if f.name ∈ names then s.stored else v.defaults) := by
      intro f
      have h := @foldl_loadName v.toSettingsBuild s.nvs f names v.defaults
      by_cases hmem : f.name ∈ names
      · rw [if_pos hmem] at h ⊢
        exact h.trans (hi.keyed f)
      · rw [if_neg hmem] at h ⊢
        exact h
    have hvalid : runtimeSettingsValidate v.toSettingsBuild
        (names.foldl (loadName v.toSettingsBuild s.nvs) v.defaults) = true := by
      refine valid_of_sameField fun f => ⟨_, hfields f, ?_⟩
      split
      · exact hi.stored
      · exact v.defaultsValid
    simp only [if_pos hvalid, if_true, true_and]
    exact hfields field

theorem runtimeSettingsLoad_valid (v : SettingsVariant) (nvs : Nvs) (ready : Bool)
    (names : List String) :
    runtimeSettingsValidate v.toSettingsBuild (runtimeSettingsLoad v nvs ready names) = true := by
  unfold runtimeSettingsLoad
  split
  · dsimp only
    split
    · assumption
    · exact v.defaultsValid
  · exact v.defaultsValid

theorem settingsLaw_of_inv {e : StoreEvent} (hi : s.Inv v) (hstep : storeStep v s e = some t) :
    t.Inv v ∧ SettingsLaw v s e t := by
  cases e with
  | request q written =>
    obtain rfl := Option.some.inj hstep
    exact ⟨handle_inv hi, fun hdid => handle_writeLaw hi hdid, fun hdid => handle_saveLaw hdid⟩
  | reset =>
    obtain rfl := Option.some.inj hstep
    exact ⟨⟨v.defaultsValid, hi.stored, hi.keyed⟩, rfl, rfl⟩
  | load ready names =>
    simp only [storeStep] at hstep
    by_cases hloaded : s.loaded = true
    · rw [if_pos hloaded] at hstep
      obtain rfl := Option.some.inj hstep
      exact ⟨hi, fun _ => rfl, fun h => absurd hloaded (h ▸ Bool.false_ne_true)⟩
    · rw [if_neg hloaded] at hstep
      obtain rfl := Option.some.inj hstep
      refine ⟨⟨runtimeSettingsLoad_valid v s.nvs ready names, hi.stored, hi.keyed⟩, ?_, ?_⟩
      · exact fun h => absurd h hloaded
      · exact fun _ => ⟨rfl, rfl, runtimeSettingsLoad_sameField hi ready names⟩

/-- In every run from whatever is in flash, a write or save that is accepted is read back and moves
no other setting; one that is refused changes nothing, except for a save that the flash refuses,
whose value stays in RAM; and a load gives every field its last saved value or its default. A depth
flag that the build does not allow must not be in flash at first. -/
theorem settings_roundTrip (v : SettingsVariant) (nvs : Nvs)
    (hdepth : v.hasO2Solenoid = true ∨ (readBack v nvs).depthCompensation = false)
    (es : List StoreEvent) :
    Steps (storeStep v) (SettingsLaw v) (SettingsStore.init v nvs) es := by
  have hkeep : ∀ {s e t}, s.Inv v → True → storeStep v s e = some t →
      t.Inv v ∧ SettingsLaw v s e t := fun hi _ hstep => settingsLaw_of_inv hi hstep
  exact Steps.of_inv hkeep (SettingsStore.init_inv hdepth) (Steps.of_mem fun _ _ => trivial)

/-- `fullBuild` with its defaults. -/
def fullVariant : SettingsVariant where
  toSettingsBuild := fullBuild
  defaults := fullDefaults
  defaultsValid := by decide +kernel

/-- The battery type saved as 3S. -/
def batterySave : Request :=
  .ofBytes [0x00, 0x2E, 0x93, 0x57, 0, 0, 0, 0, 0, 0, 0, 3]

/-- The battery type saved with no value. -/
def emptySave : Request := .ofBytes [0x00, 0x2E, 0x93, 0x57]

theorem settings_roundTrip_blank :
    (fullVariant.hasO2Solenoid = true ∨
      (readBack fullVariant fun _ => none).depthCompensation = false) ∧
    Steps (storeStep fullVariant) (SettingsLaw fullVariant)
      (SettingsStore.init fullVariant fun _ => none)
      [.load true rtNames, .request batterySave true, .reset, .load true rtNames] :=
  ⟨.inl rfl, settings_roundTrip fullVariant (fun _ => none) (.inl rfl) _⟩

/-- A save that the flash refuses leaves its value in the cache; one without a value stores the
first option. -/
theorem save_keeps_and_zeroes :
    (∃ s t, exec (storeStep fullVariant) (.init fullVariant fun _ => none) [.load true rtNames] =
        some s ∧ storeStep fullVariant s (.request batterySave false) = some t ∧
      (s.handle fullBuild batterySave false).accepted = false ∧ t.cached ≠ s.cached) ∧
    ∃ s t, exec (storeStep fullVariant) (.init fullVariant fun _ => none) [.load true rtNames] =
        some s ∧ storeStep fullVariant s (.request emptySave true) = some t ∧
      valueBytes emptySave = [] ∧ t.nvs (rtKey "bat") = some (.bytes [0]) ∧
      s.nvs (rtKey "bat") = none := by
  refine ⟨⟨_, _, rfl, rfl, by decide +kernel, by decide +kernel⟩, _, _, rfl, rfl, by decide,
    by decide +kernel, rfl⟩

end Runs

/-! ## The answer -/

/-- What the write handlers find with these settings. -/
def SettingsStore.env (s : SettingsStore) (build : SettingsBuild) (written : Bool)
    (env : WriteEnv) : WriteEnv :=
  { env with
    settingsLoaded := s.loaded
    settingValue := udsGetSettingValue build s.cached
    setSetting := fun index value => (udsSetSettingValue build s.cached index value).isSome
    saveSetting := fun index value => (s.saveValue build index value written).accepted }

/-- No other handler takes a setting's DID. -/
theorem writeHandler_setting {env : WriteEnv} {did : UInt16}
    (hdid : isSettingDID didSettingValueBase did = true ∨
      isSettingDID didSettingSaveBase did = true) :
    writeHandler env did =
      if settingDidBusy env.settingsLoaded did true = true then
        fun _ h _ => h.rejectWrite .busyRepeatRequest
      else if isSettingDID didSettingSaveBase did = true then writeSettingSaveDID
      else if isSettingDID didSettingValueBase did = true then writeSettingValueDID
      else fun _ h _ => h.rejectWrite .requestOutOfRange := by
  have hlt : did < 0xF240 := by
    rcases hdid with h | h
    · exact UInt16.lt_trans (of_decide_eq_true h).2 (by decide)
    · exact UInt16.lt_trans (of_decide_eq_true h).2 (by decide)
  have hlookup : (writeDidTable env.build).lookup did = none := by
    rw [List.lookup_eq_none_iff]
    have hkeys : ∀ entry ∈ writeDidTable env.build, 0xF240 ≤ entry.1 := by
      unfold writeDidTable
      cases env.build.o2Solenoid <;> cases env.build.flashLog <;> simp
    intro entry hentry
    rw [bne_iff_ne]
    rintro rfl
    exact absurd (UInt16.lt_of_lt_of_le hlt (hkeys entry hentry)) (UInt16.lt_irrefl _)
  have hcell : isCellDID did ≠ true := fun h =>
    absurd (UInt16.lt_of_lt_of_le hlt (UInt16.le_trans (by decide) (of_decide_eq_true h).1))
      (UInt16.lt_irrefl _)
  rw [writeHandler, hlookup]
  exact if_neg fun h => hcell h.2.1

/-- The head answers a setting request as the settings say. -/
theorem handleWrite_answers (s : SettingsStore) (build : SettingsBuild) (written : Bool)
    (env : WriteEnv) (h : Head) (q : Request)
    (hdid : isSettingDID didSettingValueBase q.did = true ∨
      isSettingDID didSettingSaveBase q.did = true) :
    if (s.handle build q written).accepted = true then
      ∃ h₁ : Head, handleWriteDataByIdentifier (s.env build written env) h q = h₁.acceptWrite q
    else ∃ (h₁ : Head) (nrc : Nrc),
      handleWriteDataByIdentifier (s.env build written env) h q = h₁.rejectWrite nrc := by
  rw [handleWriteDataByIdentifier, SettingsStore.handle]
  by_cases hshort : q.length < 4
  · simp only [if_pos hshort]
    exact ⟨h, _, rfl⟩
  rw [if_neg hshort, if_neg hshort, writeHandler_setting hdid]
  have hloaded : (s.env build written env).settingsLoaded = s.loaded := rfl
  rw [hloaded]
  by_cases hbusy : settingDidBusy s.loaded q.did true = true
  · simp only [if_pos hbusy]
    exact ⟨h, _, rfl⟩
  rw [if_neg hbusy, if_neg hbusy]
  by_cases hsave : isSettingDID didSettingSaveBase q.did = true
  · rw [if_pos hsave, if_pos hsave, SettingsStore.save]
    have hanswer : (s.env build written env).saveSetting (q.did - didSettingSaveBase).toNat
        (settingValueOf q) =
      (s.saveValue build (q.did - didSettingSaveBase).toNat (settingValueOf q) written).accepted :=
        rfl
    simp only [writeSettingSaveDID, hanswer]
    split
    · exact ⟨_, rfl⟩
    · exact ⟨_, _, rfl⟩
  · have hvalue := hdid.resolve_right hsave
    rw [if_neg hsave, if_neg hsave, if_pos hvalue, if_pos hvalue, SettingsStore.write]
    have hanswer : (s.env build written env).setSetting (q.did - didSettingValueBase).toNat
        (settingValueOf q) =
      (udsSetSettingValue build s.cached (q.did - didSettingValueBase).toNat
        (settingValueOf q)).isSome := rfl
    simp only [writeSettingValueDID, hanswer]
    by_cases hlen : q.length = settingValueWriteLen
    · rw [if_neg (not_not_intro hlen), if_neg (not_not_intro hlen)]
      cases udsSetSettingValue build s.cached (q.did - didSettingValueBase).toNat
        (settingValueOf q) with
      | some rs => exact ⟨_, rfl⟩
      | none => exact ⟨_, _, rfl⟩
    · rw [if_pos hlen, if_pos hlen]
      exact ⟨_, _, rfl⟩

end DiveCANHead.Settings
