import DiveCANHead.Lib.Segment

/-!
# CAN messages and the ISO-TP frame formats (`isotp.h`, `divecan_types.h`)

DiveCAN puts a pad byte in front of the payload of a Single Frame and of a First
Frame, and counts it in the length.
-/

namespace DiveCANHead.IsoTp

open DiveCANHead.Lib

/-! ## Constants -/

def isotpPciSf : UInt8 := 0x00

def isotpPciFf : UInt8 := 0x10

def isotpPciCf : UInt8 := 0x20

def isotpPciFc : UInt8 := 0x30

def isotpPciMask : UInt8 := 0xF0

def isotpPciLenMask : UInt8 := 0x0F

def isotpSeqMask : UInt8 := 0x0F

def isotpFcCts : UInt8 := 0x30

def isotpFcWait : UInt8 := 0x31

def isotpFcOvflw : UInt8 := 0x32

def isotpBroadcastAddr : UInt8 := 0xFF

def isotpMaxPayload : ℕ := 256

def isotpCanFrameLen : UInt8 := 8

def isotpSfMaxData : ℕ := 7

def isotpSfMaxWithPad : ℕ := 6

def isotpFfDataBytes : ℕ := 6

def isotpFfDataWithPad : ℕ := 5

def isotpCfDataBytes : ℕ := 7

def isotpStminMsMax : UInt8 := 0x7F

def isotpTimeoutNBs : UInt32 := 1000

def isotpTimeoutNCr : UInt32 := 1000

def menuId : UInt32 := 0x0D0A0000

/-! ## Messages -/

/-- `DiveCANMessage_t`, whose data array has eight bytes. -/
structure DiveCANMessage where
  id : UInt32
  length : UInt8
  data : List UInt8
  size : data.length = 8
  deriving DecidableEq, Repr

/-- A zeroed message with these first bytes. -/
def DiveCANMessage.ofBytes (id : UInt32) (length : UInt8) (bytes : List UInt8) :
    DiveCANMessage where
  id := id
  length := length
  data := (padTo 8 0 bytes).take 8
  size := length_take_padTo 8 0 bytes

theorem ofBytes_data {id : UInt32} {length : UInt8} {bytes : List UInt8} (h : bytes.length ≤ 8) :
    (DiveCANMessage.ofBytes id length bytes).data = padTo 8 0 bytes :=
  List.take_of_length_le (length_padTo h).le

/-- A byte of the data array. -/
def DiveCANMessage.byte (m : DiveCANMessage) (i : ℕ) : UInt8 := m.data.getD i 0

/-- Bits 11 to 8 of an identifier. -/
def msgTarget (id : UInt32) : UInt8 := (id >>> 8).toUInt8 &&& isotpPciLenMask

/-- Bits 7 to 0 of an identifier. -/
def msgSource (id : UInt32) : UInt8 := id.toUInt8

/-! ## Nibbles -/

theorem and_mask_toNat (x : UInt8) : (x &&& 0x0F).toNat = x.toNat % 16 := by
  rw [UInt8.toNat_and]
  exact Nat.and_two_pow_sub_one_eq_mod x.toNat 4

theorem seq_succ_toNat (s : UInt8) : ((s + 1) &&& isotpSeqMask).toNat = (s.toNat + 1) % 16 := by
  rw [isotpSeqMask, and_mask_toNat, UInt8.toNat_add]
  exact Nat.mod_mod_of_dvd _ ⟨16, rfl⟩

/-- A nibble below a PCI type: the type and the nibble can be read back. -/
theorem pci_or_nibble (n : Fin 16) : ∀ pci ∈ [isotpPciSf, isotpPciFf, isotpPciCf],
    (pci ||| UInt8.ofNat n) &&& isotpPciMask = pci ∧
      (pci ||| UInt8.ofNat n) &&& isotpPciLenMask = UInt8.ofNat n := by
  revert n
  decide +kernel

theorem ofNat_toNat_and_mask (x : UInt8) : x &&& 0x0F = UInt8.ofNat (x.toNat % 16) := by
  rw [← and_mask_toNat, UInt8.ofNat_toNat]

/-- A masked nibble below a PCI type can be read back. -/
theorem pci_or_masked (x : UInt8) {pci : UInt8} (h : pci ∈ [isotpPciSf, isotpPciFf, isotpPciCf]) :
    (pci ||| (x &&& 0x0F)) &&& isotpPciMask = pci ∧
      (pci ||| (x &&& 0x0F)) &&& isotpPciLenMask = x &&& 0x0F := by
  rw [ofNat_toNat_and_mask]
  exact pci_or_nibble ⟨x.toNat % 16, Nat.mod_lt _ (by decide)⟩ pci h

end DiveCANHead.IsoTp
