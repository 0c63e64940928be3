import Mathlib.Data.Int.Notation
import Mathlib.Data.List.Basic

/-!
# Settings as the handset sees them (`uds_settings.c`)

The table of settings under their storage index, and the menu order: the variant's
curated slots first and every other setting after them. The handset addresses a setting
by its place in that order.
-/

namespace DiveCANHead.Uds

/-- `SettingKind_t`. -/
inductive SettingKind where
  | number
  | text
  deriving DecidableEq, Repr

def SettingKind.code : SettingKind → UInt8
  | .number => 0
  | .text => 1

/-- The bytes of an ASCII string, without its terminator. -/
def ascii (s : String) : List UInt8 := s.toList.map fun c => c.toNat.toUInt8

/-- `SettingDefinition_t`; `option_count` is the number of options. -/
structure SettingDefinition where
  label : List UInt8
  kind : SettingKind
  editable : Bool
  maxValue : UInt64
  options : List (List UInt8)
  deriving DecidableEq, Repr

def ppo2ModeOptions : List (List UInt8) := ["Off", "PID", "MK15"].map ascii

def calModeOptions : List (List UInt8) :=
  ["Dig Ref", "Absolute", "TotalAbs", "Sol Flsh", "Check"].map ascii

def boolOptions : List (List UInt8) := ["Off", "On"].map ascii

def batteryTypeOptions : List (List UInt8) := ["9V", "Li 1S", "Li 2S", "Li 3S"].map ascii

def identityOptions : List (List UInt8) := ["SOLO", "OBOE"].map ascii

/-- `PID_GAIN_MAX_WIRE`. -/
def pidGainMaxWire : UInt64 := 100000000

/-- `settings[]`, where the first one shows the version string of the build. -/
def settings (version : List UInt8) : List SettingDefinition :=
  [⟨ascii "FW Commit", .text, false, 1, [version]⟩,
    ⟨ascii "PPO2 Mode", .text, true, 2, ppo2ModeOptions⟩,
    ⟨ascii "Cal Mode", .text, true, 4, calModeOptions⟩,
    ⟨ascii "DepthComp", .text, true, 1, boolOptions⟩,
    ⟨ascii "Kp x1M", .number, true, pidGainMaxWire, []⟩,
    ⟨ascii "Ki x1M", .number, true, pidGainMaxWire, []⟩,
    ⟨ascii "Kd x1M", .number, true, pidGainMaxWire, []⟩,
    ⟨ascii "Battery", .text, true, 3, batteryTypeOptions⟩,
    ⟨ascii "C1 Bcst", .text, true, 1, boolOptions⟩,
    ⟨ascii "C2 Bcst", .text, true, 1, boolOptions⟩,
    ⟨ascii "C3 Bcst", .text, true, 1, boolOptions⟩,
    ⟨ascii "CAN ID", .text, true, 1, identityOptions⟩]

def settingCount : ℕ := 12

theorem length_settings (version : List UInt8) : (settings version).length = settingCount := rfl

/-! ## The menu order -/

/-- The curated slots: in range, and each setting once. -/
def menuSlots (count : ℕ) : List ℕ → List ℤ → List ℕ
  | out, [] => out
  | out, s :: cfg =>
    if s < 0 ∨ (count : ℤ) ≤ s ∨ s.toNat ∈ out then menuSlots count out cfg
    else menuSlots count (out ++ [s.toNat]) cfg

/-- `UDS_ComputeMenuOrder`. -/
def computeMenuOrder (cfg : List ℤ) (count : ℕ) : List ℕ :=
  let curated := menuSlots count [] cfg
  curated ++ (List.range count).filter fun s => s ∉ curated

/-- The menu with the slots of the variant's `CONFIG_MENU_ORDER_n`. -/
def menuToStorage (cfg : List ℤ) (wireIndex : ℕ) : Option ℕ :=
  (computeMenuOrder cfg settingCount)[wireIndex]?

/-- `UDS_GetSettingInfo`. -/
def getSettingInfo (version : List UInt8) (cfg : List ℤ) (index : ℕ) : Option SettingDefinition :=
  (menuToStorage cfg index).bind fun storage => (settings version)[storage]?

/-- `UDS_GetSettingOptionLabel`. -/
def getSettingOptionLabel (version : List UInt8) (cfg : List ℤ) (index option : ℕ) :
    Option (List UInt8) :=
  (getSettingInfo version cfg index).bind fun setting => setting.options[option]?

/-- `UDS_FormatOptionLabel`: cut or padded with spaces to the width. -/
def formatOptionLabel (label : List UInt8) (width : ℕ) : List UInt8 :=
  label.take width ++ List.replicate (width - (label.take width).length) 0x20

theorem length_formatOptionLabel (label : List UInt8) (width : ℕ) :
    (formatOptionLabel label width).length = width := by
  have hle : (label.take width).length ≤ width := List.length_take_le _ _
  rw [formatOptionLabel, List.length_append, List.length_replicate]
  omega

end DiveCANHead.Uds
