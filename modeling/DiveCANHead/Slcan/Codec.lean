import DiveCANHead.Lib.Hex
import Mathlib.Data.List.Basic

/-!
# The SLCAN codec (`CanableConnection.js`)

Frames travel over the serial link as lines of hexadecimal digits. The reader collects characters up
to a carriage return and cuts the line up by position; its numbers are read by `parseInt`, so some
lines that are no frames are taken for one.
-/

namespace DiveCANHead.Slcan

open DiveCANHead.Lib

/-- What a `frame` event carries. -/
structure SlcanFrame where
  id : ℤ
  data : List UInt8
  extended : Bool
  remote : Bool
  deriving DecidableEq, Repr

inductive SlcanEvent where
  | line (text : List ℕ)
  | frame (frame : SlcanFrame)
  | rejected
  deriving DecidableEq, Repr

/-! ## Writing -/

/-- `'T'` or `'t'`. -/
def framePrefix (extended : Bool) : ℕ := if extended = true then 84 else 116

def idWidth (extended : Bool) : ℕ := if extended = true then 8 else 3

/-- The line of `sendFrame`, without its end. -/
def frameText (id : ℕ) (bytes : List UInt8) (extended : Bool) : List ℕ :=
  framePrefix extended :: (padStart (idWidth extended) (toHex id) ++ (toHex bytes.length ++
    bytes.flatMap fun b => padStart 2 (toHex b.toNat)))

/-- `sendFrame`; `none` is its `RangeError`. -/
def sendFrame (id : ℕ) (bytes : List UInt8) (extended : Bool) : Option (List ℕ) :=
  if 8 < bytes.length then none else some (frameText id bytes extended ++ [13])

/-! ## Reading -/

/-- `line.slice(a, b)`. -/
def slice (line : List ℕ) (a b : ℕ) : List ℕ := (line.drop a).take (b - a)

/-- An element of a `Uint8Array` that is set to this number. -/
def toUint8 : Option ℤ → UInt8
  | some n => UInt8.ofNat (n % 256).toNat
  | none => 0

/-- `T` or `R`. -/
def isExtended (head : ℕ) : Bool := head = 84 ∨ head = 82

/-- `R` or `r`. -/
def isRemote (head : ℕ) : Bool := head = 82 ∨ head = 114

/-- `_parseFrame`: the frame it emits. -/
def parseFrame (text : List ℕ) : Option SlcanFrame :=
  match text[0]? with
  | none => none
  | some head =>
    let extended := isExtended head
    if extended = false ∧ head ≠ 116 ∧ head ≠ 114 then none
    else
      let remote := isRemote head
      let width := idWidth extended
      match parseInt16 (slice text 1 (1 + width)),
          text[1 + width]?.bind fun c => parseInt16 [c] with
      | some id, some dlc =>
        let hex := slice text (2 + width) (2 + width + if remote = true then 0 else dlc.toNat * 2)
        if remote = false ∧ hex.length ≠ dlc.toNat * 2 then none
        else some
          { id := id
            data := (List.range dlc.toNat).map fun i =>
              toUint8 (parseInt16 (slice hex (i * 2) (i * 2 + 2)))
            extended := extended
            remote := remote }
      | _, _ => none

structure SlcanReader where
  line : List ℕ := []
  events : List SlcanEvent := []
  deriving DecidableEq, Repr

/-- The events of a line that has ended. -/
def lineEvents (line : List ℕ) : List SlcanEvent :=
  if line = [] then [] else .line line :: ((parseFrame line).toList.map .frame)

/-- One character of `_consume`. -/
def SlcanReader.char (r : SlcanReader) (c : ℕ) : SlcanReader :=
  if c = 13 then ⟨[], r.events ++ lineEvents r.line⟩
  else if c = 7 then ⟨[], r.events ++ [.rejected]⟩
  else if c ≠ 10 then { r with line := r.line ++ [c] }
  else r

/-- `_consume`. -/
def SlcanReader.consume (r : SlcanReader) (text : List ℕ) : SlcanReader := text.foldl char r

/-- The frames that were emitted. -/
def SlcanReader.frames (r : SlcanReader) : List SlcanFrame :=
  r.events.filterMap fun
    | .frame f => some f
    | _ => none

/-! ## Lines -/

def IsFrameHead (head : ℕ) : Prop := head = 84 ∨ head = 82 ∨ head = 116 ∨ head = 114

/-- One of `t`, `T`, `r`, `R`, the digits of the identifier, a length, as many pairs of digits as
it says, and the four digits of a timestamp or nothing. -/
def WellFormed (line : List ℕ) : Prop :=
  ∃ head id n pairs stamp,
    line = head :: (id ++ (48 + n) :: (pairs ++ stamp)) ∧ IsFrameHead head ∧
    (id.length = idWidth (isExtended head) ∧ ∀ c ∈ id, isHex c = true) ∧ n ≤ 8 ∧
    (pairs.length = (if isRemote head = true then 0 else 2 * n) ∧ ∀ c ∈ pairs, isHex c = true) ∧
    (stamp = [] ∨ stamp.length = 4) ∧ ∀ c ∈ stamp, isHex c = true

/-- What the reader asks of a line: a number that begins where the identifier's digits are expected,
a digit behind its field, and for data frames twice as many characters as this digit says. -/
def Loose (text : List ℕ) : Prop :=
  ∃ head, text[0]? = some head ∧ IsFrameHead head ∧
    (∃ c ∈ (numberStart (slice text 1 (1 + idWidth (isExtended head)))).head?, isHex c = true) ∧
    ∃ n, text[1 + idWidth (isExtended head)]?.bind hexValue = some n ∧
      (isRemote head = false → 2 + idWidth (isExtended head) + n * 2 ≤ text.length)

theorem isFrameHead_iff (head : ℕ) :
    IsFrameHead head ↔ ¬(isExtended head = false ∧ head ≠ 116 ∧ head ≠ 114) := by
  unfold IsFrameHead isExtended
  rw [decide_eq_false_iff_not]
  omega

theorem length_slice (line : List ℕ) (a n : ℕ) :
    (slice line a (a + n)).length = min n (line.length - a) := by
  rw [slice, List.length_take, List.length_drop, Nat.add_sub_cancel_left]

/-- The length digit is read as one digit. -/
theorem bind_parseInt16 (digit : Option ℕ) :
    (digit.bind fun c => parseInt16 [c]) = (digit.bind hexValue).map Nat.cast := by
  cases digit with
  | none => rfl
  | some c => exact parseInt16_singleton c

/-- The reader emits a frame for every loose line, and for no other. -/
theorem isSome_parseFrame (text : List ℕ) : (parseFrame text).isSome = true ↔ Loose text := by
  unfold parseFrame Loose
  cases hhead : text[0]? with
  | none => exact iff_of_false nofun nofun
  | some head =>
    simp only [Option.some.injEq, exists_eq_left', bind_parseInt16, isFrameHead_iff,
      ← isSome_parseInt16]
    split
    · next hnot => exact iff_of_false nofun fun h => h.1 hnot
    next hframe =>
    rw [and_iff_right hframe]
    cases parseInt16 (slice text 1 (1 + idWidth (isExtended head))) with
    | none => exact iff_of_false nofun fun h => absurd h.1 nofun
    | some id =>
      rw [Option.isSome_some, and_iff_right rfl]
      cases hlength : text[1 + idWidth (isExtended head)]?.bind hexValue with
      | none => exact iff_of_false nofun nofun
      | some n =>
        obtain ⟨c, hc, _⟩ := Option.bind_eq_some_iff.mp hlength
        obtain ⟨hin, _⟩ := List.getElem?_eq_some_iff.mp hc
        simp only [Option.map_some, Int.toNat_natCast, Option.some.injEq, exists_eq_left']
        cases hremote : isRemote head with
        | true => exact iff_of_true rfl nofun
        | false =>
          simp only [true_and, Bool.false_eq_true, if_false, length_slice, forall_const]
          split
          · exact iff_of_false nofun (by omega)
          · exact iff_of_true rfl (by omega)

end DiveCANHead.Slcan
