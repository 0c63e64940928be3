import DiveCANHead.IsoTp.Message

/-!
# The PPO2 and pressure frames (`divecan_tx.c`)

`divecan_tx.c` composes the frames, and `DiveCANMessage.slot` and its kin are the fields of a frame
as a handset reads them.
-/

namespace DiveCANHead.Broadcast

open DiveCANHead.Lib DiveCANHead.IsoTp

/-- `DiveCANType_t`. -/
inductive DiveCANType where
  | controller
  | oboe
  | monitor
  | solo
  | revo
  deriving DecidableEq, Repr

def DiveCANType.code : DiveCANType → UInt32
  | .controller => 1
  | .oboe => 2
  | .monitor => 3
  | .solo => 4
  | .revo => 5

def ppo2Ppo2Id : UInt32 := 0x0D040000

def ppo2MillisId : UInt32 := 0x0D110000

def ppo2StatusId : UInt32 := 0x0DCA0000

def tankPressureId : UInt32 := 0x0D0B0000

/-- `DIVECAN_TANK_O2`. -/
def divecanTankO2 : UInt8 := 0x00

/-- `DIVECAN_TANK_DIL`. -/
def divecanTankDil : UInt8 := 0x10

/-- `TANK_PRESSURE_FAIL`. -/
def tankPressureFail : UInt16 := 0xFFFF

/-! ## The composers -/

/-- The two bytes of a word, the high one first. -/
def bigEndian (w : UInt16) : List UInt8 := [(w >>> 8).toUInt8, w.toUInt8]

def txPpo2 (deviceType : DiveCANType) (cell1 cell2 cell3 : UInt8) : DiveCANMessage :=
  .ofBytes (ppo2Ppo2Id ||| deviceType.code) 4 [0x00, cell1, cell2, cell3]

def txMillivolts (deviceType : DiveCANType) (cell1 cell2 cell3 : UInt16) : DiveCANMessage :=
  .ofBytes (ppo2MillisId ||| deviceType.code) 7
    (bigEndian cell1 ++ bigEndian cell2 ++ bigEndian cell3)

/-- `cellMask`: the bit of a cell is set where it is included. -/
def cellMask (cell1 cell2 cell3 : Bool) : UInt8 :=
  cell1.toUInt8 ||| cell2.toUInt8 <<< 1 ||| cell3.toUInt8 <<< 2

def txCellState (deviceType : DiveCANType) (cell1 cell2 cell3 : Bool) (ppo2 : UInt8) :
    DiveCANMessage :=
  .ofBytes (ppo2StatusId ||| deviceType.code) 2 [cellMask cell1 cell2 cell3, ppo2]

/-- The failure is not sent. -/
def txTankPressure (deviceType : DiveCANType) (cylinder : UInt8) (pressureDecibar : UInt16) :
    List DiveCANMessage :=
  if tankPressureFail = pressureDecibar then []
  else [.ofBytes (tankPressureId ||| deviceType.code) 3 (cylinder :: bigEndian pressureDecibar)]

/-! ## What a handset reads -/

/-- The PPO2 of a cell in a PPO2 frame. -/
def slot (m : DiveCANMessage) (i : Fin 3) : UInt8 := m.byte (i + 1)

/-- Two bytes of a frame as a number. -/
def word (m : DiveCANMessage) (i : ℕ) : ℕ := 256 * (m.byte i).toNat + (m.byte (i + 1)).toNat

/-- The voltage of a cell in a millivolts frame. -/
def millis (m : DiveCANMessage) (i : Fin 3) : ℕ := word m (2 * i)

/-- Whether a cell state frame has a cell in. -/
def hasCell (m : DiveCANMessage) (i : Fin 3) : Bool := (m.byte 0 >>> UInt8.ofNat i) &&& 1 == 1

/-- The consensus in a cell state frame. -/
def consensusByte (m : DiveCANMessage) : UInt8 := m.byte 1

theorem slot_txPpo2 (t : DiveCANType) (p : Fin 3 → UInt8) (i : Fin 3) :
    slot (txPpo2 t (p 0) (p 1) (p 2)) i = p i := by
  match i with
  | 0 | 1 | 2 => rfl

theorem word_bigEndian (w : UInt16) :
    256 * (w >>> 8).toUInt8.toNat + w.toUInt8.toNat = w.toNat := by
  have hw : w.toNat < 65536 := w.toNat_lt
  rw [UInt16.toNat_toUInt8, UInt16.toNat_toUInt8, UInt16.toNat_shiftRight,
    show UInt16.toNat 8 % 16 = 8 from rfl, Nat.shiftRight_eq_div_pow]
  omega

theorem millis_txMillivolts (t : DiveCANType) (v : Fin 3 → UInt16) (i : Fin 3) :
    millis (txMillivolts t (v 0) (v 1) (v 2)) i = (v i).toNat := by
  match i with
  | 0 => exact word_bigEndian (v 0)
  | 1 => exact word_bigEndian (v 1)
  | 2 => exact word_bigEndian (v 2)

/-- Each bit of the mask is its own cell's. -/
theorem hasCell_txCellState (t : DiveCANType) (c : Fin 3 → Bool) (ppo2 : UInt8) (i : Fin 3) :
    hasCell (txCellState t (c 0) (c 1) (c 2) ppo2) i = c i := by
  have hmask : ∀ a b d : Bool, ∀ i : Fin 3,
      ((cellMask a b d >>> UInt8.ofNat i) &&& 1 == 1) = [a, b, d][i] := by decide
  have hread := hmask (c 0) (c 1) (c 2) i
  match i with
  | 0 | 1 | 2 => exact hread

theorem consensusByte_txCellState (t : DiveCANType) (c1 c2 c3 : Bool) (ppo2 : UInt8) :
    consensusByte (txCellState t c1 c2 c3 ppo2) = ppo2 := rfl

end DiveCANHead.Broadcast
