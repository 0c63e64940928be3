import Mathlib.Logic.Function.Basic
import DiveCANHead.Lib.Numerals
import DiveCANHead.Settings.Runtime

/-!
# Settings in flash (`runtime_settings.c`)

Every field has a key of its own under `rt/`; a load starts from the defaults and goes through the
keys it is given, and each loader takes a value only if it is one the field can have. So a load
gives every field what its own key says, whatever the other keys hold. Only the depth flag is taken
as it is: one that the build does not allow takes all the other fields back to their defaults.
-/

namespace DiveCANHead.Settings

open DiveCANHead.Lib

/-- A build with the settings it starts from. -/
structure SettingsVariant extends SettingsBuild where
  defaults : RuntimeSettings
  defaultsValid : runtimeSettingsValidate toSettingsBuild defaults = true

/-- What is stored under a key: bytes or, where a gain was written, the number that its four bytes
are. -/
inductive StoredBlock where
  | bytes (block : List UInt8)
  | gain (value : Number)
  deriving DecidableEq, Repr

/-- The settings area of the flash. -/
abbrev Nvs := String → Option StoredBlock

/-! ## Values -/

def PPO2ControlMode.code : PPO2ControlMode → UInt8
  | .off => 0
  | .pid => 1
  | .mk15 => 2

def CalibrationMode.code : CalibrationMode → UInt8
  | .digitalReference => 0
  | .analogAbsolute => 1
  | .totalAbsolute => 2
  | .solenoidFlush => 3
  | .check => 4

def BatteryType.code : BatteryType → UInt8
  | .nineVolt => 0
  | .li1s => 1
  | .li2s => 2
  | .li3s => 3

def DiveCANIdentity.code : DiveCANIdentity → UInt8
  | .solo => 0
  | .oboe => 1

/-- A `bool` as it is stored. -/
def boolCode (b : Bool) : UInt8 := if b = true then 1 else 0

/-- The first bytes of a block, if it has that many. -/
def StoredBlock.read (size : ℕ) : StoredBlock → Option (List UInt8)
  | .bytes block => if size ≤ block.length then some (block.take size) else none
  | .gain _ => none

/-- The first byte of a block. -/
def StoredBlock.readByte (block : StoredBlock) : Option UInt8 := (block.read 1).bind List.head?

/-! ## The loaders -/

section Loaders

variable (build : SettingsBuild) (block : StoredBlock) (cached : RuntimeSettings)

/-- `load_ppo2`. -/
def loadPpo2 : RuntimeSettings :=
  match block.readByte.bind fun val => build.validPpo2ControlModes.find? (·.code = val) with
  | some mode => { cached with ppo2ControlMode := mode }
  | none => cached

/-- `load_cal`. -/
def loadCal : RuntimeSettings :=
  match block.readByte.bind fun val => build.validCalModes.find? (·.code = val) with
  | some mode => { cached with calibrationMode := mode }
  | none => cached

/-- `load_depth`: the flag is not checked against the build. -/
def loadDepth : RuntimeSettings :=
  match block.readByte with
  | some val => { cached with depthCompensation := val != 0 }
  | none => cached

/-- `load_pid_gain`. -/
def loadPidGain (put : Number → RuntimeSettings) : RuntimeSettings :=
  match block with
  | .gain val => if pidGainValid val = true then put val else cached
  | .bytes _ => cached

/-- `load_battery`. -/
def loadBattery : RuntimeSettings :=
  match block.readByte.bind fun val =>
    [BatteryType.nineVolt, .li1s, .li2s, .li3s].find? (·.code = val) with
  | some battery => { cached with batteryType := battery }
  | none => cached

/-- `load_identity`. -/
def loadIdentity : RuntimeSettings :=
  match block.readByte.bind fun val =>
    [DiveCANIdentity.solo, .oboe].find? (·.code = val) with
  | some identity => { cached with divecanIdentity := identity }
  | none => cached

/-- `load_bcst`. -/
def loadBcst : RuntimeSettings :=
  match block.read 3 with
  | some vals => { cached with enforceBroadcast := fun i => vals.getD i.val 0 != 0 }
  | none => cached

/-- The loader of a key. -/
def loadField : RuntimeSettingField → RuntimeSettings
  | .ppo2 => loadPpo2 build block cached
  | .cal => loadCal build block cached
  | .depth => loadDepth block cached
  | .kp => loadPidGain block cached fun val => { cached with pidKp := val }
  | .ki => loadPidGain block cached fun val => { cached with pidKi := val }
  | .kd => loadPidGain block cached fun val => { cached with pidKd := val }
  | .battery => loadBattery block cached
  | .bcst => loadBcst block cached
  | .identity => loadIdentity block cached

end Loaders

/-- The field of a name below `rt`, as `settings_set` compares them; another name is not found. -/
def fieldOfName (name : String) : Option RuntimeSettingField :=
  if name = "ppo2" then some .ppo2
  else if name = "cal" then some .cal
  else if name = "depth" then some .depth
  else if name = "kp" then some .kp
  else if name = "ki" then some .ki
  else if name = "kd" then some .kd
  else if name = "bat" then some .battery
  else if name = "bcst" then some .bcst
  else if name = "ident" then some .identity
  else none

/-- `settings_set`. -/
def settingsSet (build : SettingsBuild) (name : String) (block : StoredBlock)
    (cached : RuntimeSettings) : RuntimeSettings :=
  match fieldOfName name with
  | some field => loadField build block cached field
  | none => cached

/-! ## Saving and loading -/

/-- The name that `runtime_settings_save_field` puts after `rt/`. -/
def RuntimeSettingField.name : RuntimeSettingField → String
  | .ppo2 => "ppo2"
  | .cal => "cal"
  | .depth => "depth"
  | .kp => "kp"
  | .ki => "ki"
  | .kd => "kd"
  | .battery => "bat"
  | .bcst => "bcst"
  | .identity => "ident"

/-- All names. -/
def rtNames : List String := ["ppo2", "cal", "depth", "kp", "ki", "kd", "bat", "bcst", "ident"]

/-- `SETTINGS_SUBTREE` before a name. -/
def rtKey (name : String) : String := "rt/" ++ name

attribute [local instance] DiveCANHead.Lib.neZero_three in
/-- What `runtime_settings_save_field` writes for a field. -/
def RuntimeSettings.block (s : RuntimeSettings) : RuntimeSettingField → StoredBlock
  | .ppo2 => .bytes [s.ppo2ControlMode.code]
  | .cal => .bytes [s.calibrationMode.code]
  | .depth => .bytes [boolCode s.depthCompensation]
  | .kp => .gain s.pidKp
  | .ki => .gain s.pidKi
  | .kd => .gain s.pidKd
  | .battery => .bytes [s.batteryType.code]
  | .bcst => .bytes [boolCode (s.enforceBroadcast 0), boolCode (s.enforceBroadcast 1),
      boolCode (s.enforceBroadcast 2)]
  | .identity => .bytes [s.divecanIdentity.code]

/-- `runtime_settings_save_field`; a write of the key that fails leaves the old one. -/
def runtimeSettingsSaveField (build : SettingsBuild) (cached : RuntimeSettings) (nvs : Nvs)
    (field : RuntimeSettingField) (written : Bool) : Option Nvs :=
  if runtimeSettingsValidate build cached = true ∧ written = true then
    some (Function.update nvs (rtKey field.name) (some (cached.block field)))
  else none

/-- A name that the subtree is loaded with, if its key is there. -/
def loadName (build : SettingsBuild) (nvs : Nvs) (cached : RuntimeSettings) (name : String) :
    RuntimeSettings :=
  match nvs (rtKey name) with
  | some block => settingsSet build name block cached
  | none => cached

/-- `runtime_settings_load`, once: the names are those that the subsystem gives the handler, in
its order, up to where it fails. -/
def runtimeSettingsLoad (v : SettingsVariant) (nvs : Nvs) (ready : Bool) (names : List String) :
    RuntimeSettings :=
  if ready = true then
    let cached := names.foldl (loadName v.toSettingsBuild nvs) v.defaults
    if runtimeSettingsValidate v.toSettingsBuild cached = true then cached else v.defaults
  else v.defaults

/-- The defaults, with every field that has a good value in flash as it is there. -/
def readBack (v : SettingsVariant) (nvs : Nvs) : RuntimeSettings :=
  rtNames.foldl (loadName v.toSettingsBuild nvs) v.defaults

/-! ## One field at a time -/

/-- Two records with the same value of a field. -/
def SameField (field : RuntimeSettingField) (s t : RuntimeSettings) : Prop :=
  ∀ dst, s.copyField field dst = t.copyField field dst

section SameField

variable {build : SettingsBuild} {field : RuntimeSettingField} {s t u : RuntimeSettings}

theorem SameField.refl (field : RuntimeSettingField) (s : RuntimeSettings) : SameField field s s :=
  fun _ => rfl

theorem SameField.symm (h : SameField field s t) : SameField field t s := fun dst => (h dst).symm

theorem SameField.trans (h : SameField field s t) (h' : SameField field t u) :
    SameField field s u :=
  fun dst => (h dst).trans (h' dst)

theorem fieldOfName_name (field : RuntimeSettingField) : fieldOfName field.name = some field := by
  cases field <;> rfl

theorem name_of_fieldOfName {name : String} (h : fieldOfName name = some field) :
    name = field.name := by
  unfold fieldOfName at h
  split_ifs at h <;> cases h <;> assumption

/-- A loader leaves every key but its own alone. -/
theorem loadField_other (block : StoredBlock) (s : RuntimeSettings) {g : RuntimeSettingField}
    (h : g ≠ field) : SameField field (loadField build block s g) s := by
  intro dst
  cases g <;> simp only [loadField, loadPpo2, loadCal, loadDepth, loadPidGain, loadBattery,
    loadIdentity, loadBcst] <;> split <;> (try split) <;> cases field <;>
    first | rfl | exact absurd rfl h

/-- What a loader makes of its key does not depend on the other keys. -/
theorem loadField_congr (block : StoredBlock) (h : SameField field s t) :
    SameField field (loadField build block s field) (loadField build block t field) := by
  intro dst
  have hs := h dst
  cases field <;> simp only [loadField, loadPpo2, loadCal, loadDepth, loadPidGain, loadBattery,
    loadIdentity, loadBcst] <;> split <;> (try split) <;> first | exact hs | rfl

/-- Loading a key again changes nothing. -/
theorem loadField_again (block : StoredBlock) (s : RuntimeSettings) :
    loadField build block (loadField build block s field) field =
      loadField build block s field := by
  cases field <;> simp only [loadField, loadPpo2, loadCal, loadDepth, loadPidGain, loadBattery,
    loadIdentity, loadBcst] <;> split <;> (try split) <;> simp_all

theorem loadName_name (nvs : Nvs) (s : RuntimeSettings) (field : RuntimeSettingField) :
    loadName build nvs s field.name =
      match nvs (rtKey field.name) with
      | some block => loadField build block s field
      | none => s := by
  simp only [loadName, settingsSet, fieldOfName_name]

theorem loadName_other (nvs : Nvs) (s : RuntimeSettings) {name : String} (h : name ≠ field.name) :
    SameField field (loadName build nvs s name) s := by
  unfold loadName settingsSet
  split
  · split
    · rename_i g hg
      refine loadField_other _ s fun hgf => h ?_
      rw [name_of_fieldOfName hg, hgf]
    · exact .refl field s
  · exact .refl field s

theorem loadName_congr (nvs : Nvs) (h : SameField field s t) :
    SameField field (loadName build nvs s field.name) (loadName build nvs t field.name) := by
  rw [loadName_name, loadName_name]
  split
  · exact loadField_congr _ h
  · exact h

theorem loadName_again (nvs : Nvs) (s : RuntimeSettings) :
    loadName build nvs (loadName build nvs s field.name) field.name =
      loadName build nvs s field.name := by
  rw [loadName_name nvs s, loadName_name]
  split
  · exact loadField_again _ s
  · rfl

/-- A field after a load is what its own key makes of it, if that was among the names. -/
theorem foldl_loadName (nvs : Nvs) (field : RuntimeSettingField) :
    ∀ (names : List String) (s : RuntimeSettings),
      SameField field (names.foldl (loadName build nvs) s)
        (if field.name ∈ names then loadName build nvs s field.name else s)
  | [], s => .refl field s
  | name :: names, s => by
    have ih := foldl_loadName nvs field names (loadName build nvs s name)
    rw [List.foldl_cons]
    by_cases hname : name = field.name
    · subst hname
      rw [loadName_again, ite_self] at ih
      rw [if_pos List.mem_cons_self]
      exact ih
    · have hother : SameField field (loadName build nvs s name) s := loadName_other nvs s hname
      have hmem : field.name ∈ name :: names ↔ field.name ∈ names := by
        rw [List.mem_cons, or_iff_right fun h => hname h.symm]
      simp only [hmem]
      refine ih.trans ?_
      split
      · exact loadName_congr nvs hother
      · exact hother

theorem name_mem_rtNames (field : RuntimeSettingField) : field.name ∈ rtNames := by
  cases field <;> decide

theorem readBack_sameField (v : SettingsVariant) (nvs : Nvs) (field : RuntimeSettingField) :
    SameField field (loadName v.toSettingsBuild nvs v.defaults field.name) (readBack v nvs) := by
  have h := @foldl_loadName v.toSettingsBuild nvs field rtNames v.defaults
  rw [if_pos (name_mem_rtNames field)] at h
  exact h.symm

/-! ## Valid records -/

theorem runtimeSettingsValidate_iff : runtimeSettingsValidate build s = true ↔
    s.ppo2ControlMode ∈ build.validPpo2ControlModes ∧ s.calibrationMode ∈ build.validCalModes ∧
      pidGainValid s.pidKp = true ∧ pidGainValid s.pidKi = true ∧ pidGainValid s.pidKd = true ∧
      (build.hasO2Solenoid = true ∨ s.depthCompensation = false) := by
  simp only [runtimeSettingsValidate, Bool.and_eq_true, Bool.or_eq_true, decide_eq_true_eq,
    Bool.not_eq_true', and_assoc]

/-- A record whose fields are those of valid records is valid. -/
theorem valid_of_sameField (h : ∀ field, ∃ r, SameField field s r ∧
    runtimeSettingsValidate build r = true) : runtimeSettingsValidate build s = true := by
  obtain ⟨r₁, hppo2, h₁⟩ := h .ppo2
  obtain ⟨r₂, hcal, h₂⟩ := h .cal
  obtain ⟨r₃, hdepth, h₃⟩ := h .depth
  obtain ⟨r₄, hkp, h₄⟩ := h .kp
  obtain ⟨r₅, hki, h₅⟩ := h .ki
  obtain ⟨r₆, hkd, h₆⟩ := h .kd
  rw [runtimeSettingsValidate_iff] at *
  rw [show s.ppo2ControlMode = _ from congrArg RuntimeSettings.ppo2ControlMode (hppo2 s),
    show s.calibrationMode = _ from congrArg RuntimeSettings.calibrationMode (hcal s),
    show s.depthCompensation = _ from congrArg RuntimeSettings.depthCompensation (hdepth s),
    show s.pidKp = _ from congrArg RuntimeSettings.pidKp (hkp s),
    show s.pidKi = _ from congrArg RuntimeSettings.pidKi (hki s),
    show s.pidKd = _ from congrArg RuntimeSettings.pidKd (hkd s)]
  exact ⟨h₁.1, h₂.2.1, h₄.2.2.1, h₅.2.2.2.1, h₆.2.2.2.2.1, h₃.2.2.2.2.2⟩

/-- A loader keeps a record valid, but for a depth flag that the build does not allow. -/
theorem loadField_valid (block : StoredBlock) (hvalid : runtimeSettingsValidate build s = true)
    (hdepth : field = .depth → build.hasO2Solenoid = true ∨
      (loadField build block s field).depthCompensation = false) :
    runtimeSettingsValidate build (loadField build block s field) = true := by
  rw [runtimeSettingsValidate_iff] at *
  obtain ⟨hppo2, hcal, hkp, hki, hkd, hd⟩ := hvalid
  cases field with
  | ppo2 =>
    simp only [loadField, loadPpo2]
    split
    · rename_i mode hmode
      obtain ⟨val, -, hfind⟩ := Option.bind_eq_some_iff.mp hmode
      exact ⟨List.mem_of_find?_eq_some hfind, hcal, hkp, hki, hkd, hd⟩
    · exact ⟨hppo2, hcal, hkp, hki, hkd, hd⟩
  | cal =>
    simp only [loadField, loadCal]
    split
    · rename_i mode hmode
      obtain ⟨val, -, hfind⟩ := Option.bind_eq_some_iff.mp hmode
      exact ⟨hppo2, List.mem_of_find?_eq_some hfind, hkp, hki, hkd, hd⟩
    · exact ⟨hppo2, hcal, hkp, hki, hkd, hd⟩
  | depth =>
    refine ⟨?_, ?_, ?_, ?_, ?_, hdepth rfl⟩ <;> simp only [loadField, loadDepth] <;> split <;>
      assumption
  | kp | ki | kd =>
    simp only [loadField, loadPidGain]
    split
    · split
      · rename_i hgain
        first
        | exact ⟨hppo2, hcal, hgain, hki, hkd, hd⟩
        | exact ⟨hppo2, hcal, hkp, hgain, hkd, hd⟩
        | exact ⟨hppo2, hcal, hkp, hki, hgain, hd⟩
      · exact ⟨hppo2, hcal, hkp, hki, hkd, hd⟩
    · exact ⟨hppo2, hcal, hkp, hki, hkd, hd⟩
  | battery | bcst | identity =>
    simp only [loadField, loadBattery, loadBcst, loadIdentity]
    split
    · exact ⟨hppo2, hcal, hkp, hki, hkd, hd⟩
    · exact ⟨hppo2, hcal, hkp, hki, hkd, hd⟩

theorem readBack_valid {v : SettingsVariant} {nvs : Nvs}
    (hdepth : v.hasO2Solenoid = true ∨ (readBack v nvs).depthCompensation = false) :
    runtimeSettingsValidate v.toSettingsBuild (readBack v nvs) = true := by
  refine valid_of_sameField fun field => ⟨_, (readBack_sameField v nvs field).symm, ?_⟩
  have hflag : (loadName v.toSettingsBuild nvs v.defaults "depth").depthCompensation =
      (readBack v nvs).depthCompensation := by
    have hcopy := readBack_sameField v nvs .depth (readBack v nvs)
    exact congrArg (fun r => r.depthCompensation) hcopy
  rw [loadName_name]
  split
  · rename_i block hblock
    refine loadField_valid block v.defaultsValid ?_
    rintro rfl
    rw [← hflag, show "depth" = RuntimeSettingField.depth.name from rfl, loadName_name, hblock]
      at hdepth
    exact hdepth
  · exact v.defaultsValid

/-! ## A key that was saved -/

theorem readByte_singleton (val : UInt8) : (StoredBlock.bytes [val]).readByte = some val := rfl

theorem find?_code {α : Type} {code : α → UInt8} {modes : List α} {mode : α}
    (hinj : ∀ a c, code a = code c → a = c) (h : mode ∈ modes) :
    modes.find? (fun a => code a = code mode) = some mode := by
  cases hx : modes.find? (fun a => code a = code mode) with
  | none =>
    have hnone := List.find?_eq_none.mp hx mode h
    exact absurd (decide_eq_true rfl) hnone
  | some x =>
    have hcode : code x = code mode := by simpa using List.find?_some hx
    rw [hinj x mode hcode]

/-- What was saved of a valid record is what its loader reads. -/
theorem loadField_block (hvalid : runtimeSettingsValidate build s = true) (t : RuntimeSettings)
    (field : RuntimeSettingField) :
    SameField field (loadField build (s.block field) t field) s := by
  obtain ⟨hppo2, hcal, hkp, hki, hkd, -⟩ := runtimeSettingsValidate_iff.mp hvalid
  intro dst
  cases field with
  | ppo2 =>
    have hinj : ∀ a c : PPO2ControlMode, a.code = c.code → a = c := by
      rintro (_ | _ | _) (_ | _ | _) <;> decide
    simp only [loadField, loadPpo2, RuntimeSettings.block, readByte_singleton, Option.bind_some,
      find?_code hinj hppo2, RuntimeSettings.copyField]
  | cal =>
    have hinj : ∀ a c : CalibrationMode, a.code = c.code → a = c := by
      rintro (_ | _ | _ | _ | _) (_ | _ | _ | _ | _) <;> decide
    simp only [loadField, loadCal, RuntimeSettings.block, readByte_singleton, Option.bind_some,
      find?_code hinj hcal, RuntimeSettings.copyField]
  | depth =>
    simp only [loadField, loadDepth, RuntimeSettings.block, readByte_singleton,
      RuntimeSettings.copyField]
    cases s.depthCompensation <;> rfl
  | kp => simp only [loadField, loadPidGain, RuntimeSettings.block, if_pos hkp]; rfl
  | ki => simp only [loadField, loadPidGain, RuntimeSettings.block, if_pos hki]; rfl
  | kd => simp only [loadField, loadPidGain, RuntimeSettings.block, if_pos hkd]; rfl
  | battery =>
    simp only [loadField, loadBattery, RuntimeSettings.block, readByte_singleton, Option.bind_some,
      RuntimeSettings.copyField]
    cases s.batteryType <;> rfl
  | bcst =>
    have hcode : ∀ on : Bool, (boolCode on != 0) = on := by decide
    have henforce : (fun i : Fin 3 => [boolCode (s.enforceBroadcast 0),
        boolCode (s.enforceBroadcast 1), boolCode (s.enforceBroadcast 2)].getD i.val 0 != 0) =
          s.enforceBroadcast := by
      have hcells : ∀ i : Fin 3, i = 0 ∨ i = 1 ∨ i = 2 := by decide
      funext i
      rcases hcells i with rfl | rfl | rfl
      · exact hcode _
      · exact hcode _
      · exact hcode _
    exact congrArg (fun e => { dst with enforceBroadcast := e }) henforce
  | identity =>
    simp only [loadField, loadIdentity, RuntimeSettings.block, readByte_singleton,
      Option.bind_some, RuntimeSettings.copyField]
    cases s.divecanIdentity <;> rfl

end SameField

end DiveCANHead.Settings
