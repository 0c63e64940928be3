import Mathlib.Data.Fintype.Basic
import Mathlib.Data.Fintype.Pi
import DiveCANHead.Lib.Number
import DiveCANHead.Lib.Runs
import DiveCANHead.Uds.Settings

/-!
# Writers of the runtime settings (`runtime_settings.c`)

The autotune thread and the UDS handler each copy the whole record out of the cache, change their
own fields of the copy, and write the copy back; a save then persists one key from the cache. No
lock spans the three steps, so what one of them wrote in between goes back to what the other read.
-/

namespace DiveCANHead.Settings

open DiveCANHead.Lib DiveCANHead.Uds

/-! ## The record -/

/-- `PPO2ControlMode_t`. -/
inductive PPO2ControlMode where
  | off
  | pid
  | mk15
  deriving DecidableEq, Repr

/-- `CalibrationMode_t`. -/
inductive CalibrationMode where
  | digitalReference
  | analogAbsolute
  | totalAbsolute
  | solenoidFlush
  | check
  deriving DecidableEq, Repr

/-- `BatteryType_t`. -/
inductive BatteryType where
  | nineVolt
  | li1s
  | li2s
  | li3s
  deriving DecidableEq, Repr

/-- `DiveCANIdentity_t`. -/
inductive DiveCANIdentity where
  | solo
  | oboe
  deriving DecidableEq, Repr

def PPO2ControlMode.ofCode : ℕ → PPO2ControlMode
  | 0 => .off
  | 1 => .pid
  | _ => .mk15

def CalibrationMode.ofCode : ℕ → CalibrationMode
  | 0 => .digitalReference
  | 1 => .analogAbsolute
  | 2 => .totalAbsolute
  | 3 => .solenoidFlush
  | _ => .check

def BatteryType.ofCode : ℕ → BatteryType
  | 0 => .nineVolt
  | 1 => .li1s
  | 2 => .li2s
  | _ => .li3s

def DiveCANIdentity.ofCode : ℕ → DiveCANIdentity
  | 0 => .solo
  | _ => .oboe

/-- `RuntimeSettings_t`, its gains exact. -/
structure RuntimeSettings where
  ppo2ControlMode : PPO2ControlMode
  calibrationMode : CalibrationMode
  depthCompensation : Bool
  pidKp : Number
  pidKi : Number
  pidKd : Number
  batteryType : BatteryType
  enforceBroadcast : Fin 3 → Bool
  divecanIdentity : DiveCANIdentity
  deriving DecidableEq

/-- What a build fixes: its version string, its menu, the modes its hardware has, and whether it has
an O2 solenoid. -/
structure SettingsBuild where
  version : List UInt8
  menuSlots : List ℤ
  validPpo2ControlModes : List PPO2ControlMode
  validCalModes : List CalibrationMode
  hasO2Solenoid : Bool

/-- `pid_gain_valid`. -/
def pidGainValid : Number → Bool
  | .finite q => 0 ≤ q && q ≤ 100
  | _ => false

/-- `runtime_settings_validate`. -/
def runtimeSettingsValidate (build : SettingsBuild) (s : RuntimeSettings) : Bool :=
  s.ppo2ControlMode ∈ build.validPpo2ControlModes && s.calibrationMode ∈ build.validCalModes &&
    (pidGainValid s.pidKp && pidGainValid s.pidKi && pidGainValid s.pidKd) &&
    (build.hasO2Solenoid || !s.depthCompensation)

/-! ## Its writers -/

/-- The gains an autotune stages. -/
structure Gains where
  kp : Number
  ki : Number
  kd : Number
  deriving DecidableEq, Repr

/-- What `stage_gains_volatile` does to its copy. -/
def stageGains (g : Gains) (s : RuntimeSettings) : RuntimeSettings :=
  { s with pidKp := g.kp, pidKi := g.ki, pidKd := g.kd }

/-- A gain in micro-units. -/
def gainOfWire (value : UInt64) : Number := .finite (value.toNat / 1000000)

/-- The enforcement of one cell. -/
def setEnforce (cell : ℕ) (on : Bool) (enforce : Fin 3 → Bool) : Fin 3 → Bool :=
  fun i => if i.val = cell then on else enforce i

/-- What `UDS_SetSettingValue` does to its copy for a storage index. -/
def setSetting (storage : ℕ) (value : UInt64) (s : RuntimeSettings) : RuntimeSettings :=
  match storage with
  | 1 => { s with ppo2ControlMode := .ofCode value.toNat }
  | 2 => { s with calibrationMode := .ofCode value.toNat }
  | 3 => { s with depthCompensation := value != 0 }
  | 4 => { s with pidKp := gainOfWire value }
  | 5 => { s with pidKi := gainOfWire value }
  | 6 => { s with pidKd := gainOfWire value }
  | 7 => { s with batteryType := .ofCode value.toNat }
  | 8 => { s with enforceBroadcast := setEnforce 0 (value != 0) s.enforceBroadcast }
  | 9 => { s with enforceBroadcast := setEnforce 1 (value != 0) s.enforceBroadcast }
  | 10 => { s with enforceBroadcast := setEnforce 2 (value != 0) s.enforceBroadcast }
  | 11 => { s with divecanIdentity := .ofCode value.toNat }
  | _ => s

/-- `RuntimeSettingField_t`: a key in the settings. -/
inductive RuntimeSettingField where
  | ppo2
  | cal
  | depth
  | kp
  | ki
  | kd
  | battery
  | bcst
  | identity
  deriving DecidableEq, Repr

/-- `setting_index_to_field`: the broadcast flags of all cells share a key. -/
def settingIndexToField : ℕ → Option RuntimeSettingField
  | 1 => some .ppo2
  | 2 => some .cal
  | 3 => some .depth
  | 4 => some .kp
  | 5 => some .ki
  | 6 => some .kd
  | 7 => some .battery
  | 8 | 9 | 10 => some .bcst
  | 11 => some .identity
  | _ => none

/-- One key of `dst` as in `src`. -/
def RuntimeSettings.copyField (src : RuntimeSettings) (field : RuntimeSettingField)
    (dst : RuntimeSettings) : RuntimeSettings :=
  match field with
  | .ppo2 => { dst with ppo2ControlMode := src.ppo2ControlMode }
  | .cal => { dst with calibrationMode := src.calibrationMode }
  | .depth => { dst with depthCompensation := src.depthCompensation }
  | .kp => { dst with pidKp := src.pidKp }
  | .ki => { dst with pidKi := src.pidKi }
  | .kd => { dst with pidKd := src.pidKd }
  | .battery => { dst with batteryType := src.batteryType }
  | .bcst => { dst with enforceBroadcast := src.enforceBroadcast }
  | .identity => { dst with divecanIdentity := src.divecanIdentity }

/-- A write of one setting leaves every other key alone. -/
theorem setSetting_copyField (storage : ℕ) (value : UInt64) (s dst : RuntimeSettings)
    (field : RuntimeSettingField) (h : settingIndexToField storage ≠ some field) :
    (setSetting storage value s).copyField field dst = s.copyField field dst := by
  unfold setSetting
  split <;> cases field <;> first | rfl | exact absurd rfl h

/-- Staged gains leave every key but theirs alone. -/
theorem stageGains_copyField (g : Gains) (s dst : RuntimeSettings) (field : RuntimeSettingField)
    (h : field ≠ .kp ∧ field ≠ .ki ∧ field ≠ .kd) :
    (stageGains g s).copyField field dst = s.copyField field dst := by
  obtain ⟨hkp, hki, hkd⟩ := h
  cases field with
  | kp => exact absurd rfl hkp
  | ki => exact absurd rfl hki
  | kd => exact absurd rfl hkd
  | ppo2 | cal | depth | battery | bcst | identity => rfl

/-! ## The threads -/

/-- A UDS write of a setting, by its place in the menu, and whether it is a save. -/
structure SettingCall where
  save : Bool
  index : ℕ
  value : UInt64
  deriving DecidableEq, Repr

/-- The storage index `UDS_SetSettingValue` goes on with, past its checks. -/
def SettingCall.accepted (build : SettingsBuild) (c : SettingCall) : Option ℕ :=
  (menuToStorage build.menuSlots c.index).filter fun storage =>
    ((settings build.version)[storage]?).any fun setting =>
      setting.editable && c.value ≤ setting.maxValue

/-- Where `stage_gains_volatile` is: not called, or with its copy. -/
inductive StagingPhase where
  | idle
  | copied (g : Gains) (copy : RuntimeSettings)
  deriving DecidableEq

/-- Where the handler is: between two writes; with its copy; or about to persist a key, with the
record it wrote. -/
inductive HandlerPhase where
  | idle
  | copied (c : SettingCall) (storage : ℕ) (copy : RuntimeSettings)
  | saving (field : RuntimeSettingField) (written : RuntimeSettings)
  deriving DecidableEq

/-- The cache, the keys in NVS (a missing one stands for its default), both threads and, for the
statements only: the records in which each field is as it was last written, and last saved. -/
structure SettingsSystem where
  cached : RuntimeSettings
  nvs : RuntimeSettings
  staging : StagingPhase
  handler : HandlerPhase
  latest : RuntimeSettings
  stored : RuntimeSettings
  deriving DecidableEq

inductive SettingsEvent where
  | stageCopy (g : Gains)
  | stageWrite
  | handlerCopy (c : SettingCall)
  | handlerWrite
  | handlerSave (ok : Bool)
  deriving DecidableEq, Repr

/-- `runtime_settings_set_volatile` of a changed copy; `change` is what was done to it. -/
def SettingsSystem.setVolatile (build : SettingsBuild) (s : SettingsSystem)
    (change : RuntimeSettings → RuntimeSettings) (copy : RuntimeSettings) : SettingsSystem :=
  if runtimeSettingsValidate build (change copy) = true then
    { s with cached := change copy, latest := change s.latest }
  else s

/-- Where the handler goes once it has written: a save goes on to its key, if the write was good. -/
def savePhase (build : SettingsBuild) (c : SettingCall) (storage : ℕ) (written : RuntimeSettings) :
    HandlerPhase :=
  if c.save = true ∧ runtimeSettingsValidate build written = true then
    match settingIndexToField storage with
    | some field => .saving field written
    | none => .idle
  else .idle

def settingsStep (build : SettingsBuild) (s : SettingsSystem) :
    SettingsEvent → Option SettingsSystem
  | .stageCopy g =>
    if s.staging = .idle then some { s with staging := .copied g s.cached } else none
  | .stageWrite =>
    match s.staging with
    | .copied g copy => some { s.setVolatile build (stageGains g) copy with staging := .idle }
    | .idle => none
  | .handlerCopy c =>
    if s.handler = .idle then
      match c.accepted build with
      | some storage => some { s with handler := .copied c storage s.cached }
      | none => some s
    else none
  | .handlerWrite =>
    match s.handler with
    | .copied c storage copy =>
      some { s.setVolatile build (setSetting storage c.value) copy with
        handler := savePhase build c storage (setSetting storage c.value copy) }
    | _ => none
  | .handlerSave ok =>
    match s.handler with
    | .saving field written =>
      some (if runtimeSettingsValidate build s.cached = true ∧ ok = true then
        { s with
          nvs := s.cached.copyField field s.nvs
          stored := written.copyField field s.stored
          handler := .idle }
        else { s with handler := .idle })
    | _ => none

/-- The system with a record in its cache and in NVS. -/
def settingsInit (s : RuntimeSettings) : SettingsSystem := ⟨s, s, .idle, .idle, s, s⟩

/-! ## Runs -/

/-- Every field holds what the last operation that wrote it wrote, in the cache and in NVS. -/
def SettingsSystem.Kept (s : SettingsSystem) : Prop := s.cached = s.latest ∧ s.nvs = s.stored

/-- Both threads are done. -/
def SettingsSystem.Finished (s : SettingsSystem) : Prop := s.staging = .idle ∧ s.handler = .idle

/-- A copy is written back over a cache that differs from it at most in what was changed in it. -/
def CopyFresh (build : SettingsBuild) (cached : RuntimeSettings)
    (change : RuntimeSettings → RuntimeSettings) (copy : RuntimeSettings) : Prop :=
  runtimeSettingsValidate build (change copy) = true → change copy = change cached

/-- The conditions on a step: a copy that is written back differs from the cache at most in the
fields its writer set, and a key that is saved still reads in the cache as its save wrote it. -/
def Clean (build : SettingsBuild) (s : SettingsSystem) : SettingsEvent → Prop
  | .stageWrite =>
    match s.staging with
    | .copied g copy => CopyFresh build s.cached (stageGains g) copy
    | .idle => True
  | .handlerWrite =>
    match s.handler with
    | .copied c storage copy => CopyFresh build s.cached (setSetting storage c.value) copy
    | _ => True
  | .handlerSave ok =>
    match s.handler with
    | .saving field written => runtimeSettingsValidate build s.cached = true ∧ ok = true →
      s.cached.copyField field s.nvs = written.copyField field s.nvs
    | _ => True
  | _ => True

instance decidableKept (s : SettingsSystem) : Decidable s.Kept := by
  unfold SettingsSystem.Kept
  infer_instance

instance decidableFinished (s : SettingsSystem) : Decidable s.Finished := by
  unfold SettingsSystem.Finished
  infer_instance

/-- Writing a copy back keeps every field exactly if the copy is fresh. -/
theorem setVolatile_kept_iff {build : SettingsBuild} {s : SettingsSystem} (hi : s.Kept)
    (change : RuntimeSettings → RuntimeSettings) (copy : RuntimeSettings) :
    (s.setVolatile build change copy).Kept ↔ CopyFresh build s.cached change copy := by
  unfold SettingsSystem.setVolatile SettingsSystem.Kept CopyFresh
  by_cases hvalid : runtimeSettingsValidate build (change copy) = true
  · rw [if_pos hvalid]
    constructor
    · intro h _
      rw [hi.1]
      exact h.1
    · intro h
      refine ⟨?_, hi.2⟩
      rw [← hi.1]
      exact h hvalid
  · rw [if_neg hvalid]
    exact iff_of_true hi fun h => absurd h hvalid

theorem kept_iff_clean {build : SettingsBuild} {s t : SettingsSystem} {e : SettingsEvent}
    (hi : s.Kept) (hstep : settingsStep build s e = some t) : t.Kept ↔ Clean build s e := by
  cases e with
  | stageCopy g =>
    obtain ⟨-, ht⟩ := Option.ite_none_right_eq_some.mp hstep
    exact iff_of_true (Option.some.inj ht ▸ hi) trivial
  | stageWrite =>
    simp only [settingsStep] at hstep
    split at hstep
    · rename_i g copy hstaging
      obtain rfl := Option.some.inj hstep
      simp only [Clean, hstaging]
      exact setVolatile_kept_iff hi (stageGains g) copy
    · exact absurd hstep (by simp)
  | handlerCopy c =>
    obtain ⟨-, ht⟩ := Option.ite_none_right_eq_some.mp hstep
    refine iff_of_true ?_ trivial
    split at ht
    · exact Option.some.inj ht ▸ hi
    · exact Option.some.inj ht ▸ hi
  | handlerWrite =>
    simp only [settingsStep] at hstep
    split at hstep
    · rename_i c storage copy hhandler
      obtain rfl := Option.some.inj hstep
      simp only [Clean, hhandler]
      exact setVolatile_kept_iff hi (setSetting storage c.value) copy
    · exact absurd hstep (by simp)
  | handlerSave ok =>
    simp only [settingsStep] at hstep
    split at hstep
    · rename_i field written hhandler
      obtain rfl := Option.some.inj hstep
      simp only [Clean, hhandler]
      by_cases hsaves : runtimeSettingsValidate build s.cached = true ∧ ok = true
      · rw [if_pos hsaves]
        refine ⟨fun h _ => ?_, fun h => ⟨hi.1, ?_⟩⟩
        · have hnvs := h.2
          rw [← hi.2] at hnvs
          exact hnvs
        · rw [← hi.2]
          exact h hsaves
      · rw [if_neg hsaves]
        exact iff_of_true hi fun h => absurd h hsaves
    · exact absurd hstep (by simp)

/-- Every field holds what its last writer wrote, after every step, in exactly the runs in which
copies are written back, and keys saved, with nothing changed under them. -/
theorem settings_kept_iff (build : SettingsBuild) (s : RuntimeSettings)
    (es : List SettingsEvent) :
    Steps (settingsStep build) (fun _ _ t => t.Kept) (settingsInit s) es ↔
      Steps (settingsStep build) (fun s e _ => Clean build s e) (settingsInit s) es := by
  have hkeep : ∀ {s e t}, s.Kept → settingsStep build s e = some t →
      (t.Kept ↔ Clean build s e) ∧ (Clean build s e → t.Kept) := fun hi hstep =>
    have hiff := kept_iff_clean hi hstep
    ⟨hiff, hiff.mpr⟩
  exact Steps.iff_of_inv hkeep ⟨rfl, rfl⟩

/-- A build with every mode and the settings in their own order. -/
def fullBuild : SettingsBuild where
  version := [0x64]
  menuSlots := [0, 1, 2, 3, 4]
  validPpo2ControlModes := [.off, .pid, .mk15]
  validCalModes := [.digitalReference, .analogAbsolute, .totalAbsolute, .solenoidFlush, .check]
  hasO2Solenoid := true

/-- The defaults of `fullBuild`. -/
def fullDefaults : RuntimeSettings where
  ppo2ControlMode := .off
  calibrationMode := .solenoidFlush
  depthCompensation := false
  pidKp := .finite 0.4
  pidKi := .finite 0.01
  pidKd := .finite 0
  batteryType := .li2s
  enforceBroadcast := fun _ => false
  divecanIdentity := .solo

/-- The battery is saved as 1S between the copy and the write of staged gains, up to its key. -/
def batteryUnderStaging : List SettingsEvent :=
  [.stageCopy ⟨.finite 1, .finite 0.05, .finite 0⟩, .handlerCopy ⟨true, 7, 1⟩, .handlerWrite,
    .stageWrite, .handlerSave true]

/-- With both threads through, the cache and NVS hold the battery type from before its save. -/
theorem battery_restored :
    ¬ Steps (settingsStep fullBuild) (fun _ _ t => t.Finished → t.Kept)
      (settingsInit fullDefaults) batteryUnderStaging := by
  decide +kernel

end DiveCANHead.Settings
