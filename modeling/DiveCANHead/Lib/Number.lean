import Mathlib.Algebra.Order.Ring.Rat
import Mathlib.Tactic.NormNum
import DiveCANHead.Lib.Text

/-!
# Floating-point numbers in text

`strtof` after the C standard: white space, a sign, then an infinity, a NaN, a hexadecimal or a
decimal number, the longest that fits. A finite number keeps its exact value; only one too large for
a `float` becomes an infinity.
-/

namespace DiveCANHead.Lib

inductive Number where
  | finite (value : ℚ)
  | infinite (negative : Bool)
  | nan
  deriving DecidableEq, Repr

namespace Number

/-- The product with a positive factor. -/
def scale (k : ℚ) : Number → Number
  | .finite q => .finite (q * k)
  | x => x

/-- Whether a number compares greater than a bound. -/
def above (bound : ℚ) : Number → Bool
  | .finite q => bound < q
  | .infinite negative => !negative
  | .nan => false

def neg : Number → Number
  | .finite q => .finite (-q)
  | .infinite negative => .infinite !negative
  | .nan => .nan

end Number

def toLower (c : UInt8) : UInt8 := if 65 ≤ c ∧ c ≤ 90 then c + 32 else c

/-- `isxdigit`. -/
def isHexDigit (c : UInt8) : Bool := isDigit c || (97 ≤ toLower c && toLower c ≤ 102)

def digitValue (c : UInt8) : ℕ := if isDigit c then c.toNat - 48 else (toLower c).toNat - 87

/-- What follows a word at the start of a text, in whatever case it is written. -/
def afterWord (word s : Text) : Option Text :=
  if (s.take word.length).map toLower = word then some (s.drop word.length) else none

/-- The digits before and after a point, how many came after it, and the rest. -/
def mantissa (digit : UInt8 → Bool) (s : Text) : Option (Text × ℕ × Text) :=
  let whole := s.takeWhile digit
  match s.dropWhile digit with
  | 0x2E :: t =>
    let fraction := t.takeWhile digit
    if whole ++ fraction = [] then none
    else some (whole ++ fraction, fraction.length, t.dropWhile digit)
  | rest => if whole = [] then none else some (whole, 0, rest)

/-- An exponent after its mark, or none where no digit follows. -/
def exponent (mark : UInt8) (s : Text) : ℤ × Text :=
  match s with
  | c :: t =>
    let u := splitSign t
    let ds := u.2.takeWhile isDigit
    if toLower c = mark ∧ ds ≠ [] then
      (if u.1 then -(digitsValue ds : ℤ) else digitsValue ds, u.2.dropWhile isDigit)
    else (0, s)
  | [] => (0, s)

/-- A number to a base, with an exponent of a base of its own. -/
def positional (base expBase : ℕ) (digit : UInt8 → Bool) (mark : UInt8) (s : Text) :
    Option (ℚ × Text) :=
  (mantissa digit s).map fun (ds, places, rest) =>
    let e := exponent mark rest
    ((ds.foldl (fun n d => base * n + digitValue d) 0 : ℕ) / (base : ℚ) ^ places *
      (expBase : ℚ) ^ e.1, e.2)

/-- Halfway past the largest `float`: from here on a number rounds to an infinity. -/
def floatOverflow : ℚ := 2 ^ 128 - 2 ^ 103

def toFloat (q : ℚ) : Number := if q < floatOverflow then .finite q else .infinite false

/-- The payload a NaN may carry in brackets. -/
def afterPayload (s : Text) : Text :=
  match s with
  | 0x28 :: t =>
    let alnum (c : UInt8) := isDigit c || (97 ≤ toLower c && toLower c ≤ 122) || c == 0x5F
    match t.dropWhile alnum with
    | 0x29 :: rest => rest
    | _ => s
  | _ => s

/-- The number a text starts with, without a sign. -/
def magnitude (s : Text) : Option (Number × Text) :=
  match afterWord (ascii ['i', 'n', 'f', 'i', 'n', 'i', 't', 'y']) s with
  | some rest => some (.infinite false, rest)
  | none =>
    match afterWord (ascii ['i', 'n', 'f']) s with
    | some rest => some (.infinite false, rest)
    | none =>
      match afterWord (ascii ['n', 'a', 'n']) s with
      | some rest => some (.nan, afterPayload rest)
      | none =>
        let hex := (afterWord (ascii ['0', 'x']) s).bind (positional 16 2 isHexDigit 0x70)
        (hex.or (positional 10 10 isDigit 0x65 s)).map fun (q, rest) => (toFloat q, rest)

/-- `strtof`, and where it stops: at the start of the text where there is no number. -/
def strtof (s : Text) : Number × Text :=
  let t := splitSign (s.dropWhile isSpace)
  match magnitude t.2 with
  | some (x, rest) => (if t.1 then x.neg else x, rest)
  | none => (.finite 0, s)

/-- What decimal numbers are written with, and the white space before them. -/
def isDecimalChar (c : UInt8) : Bool :=
  isDigit c || isSpace c || c == 0x2B || c == 0x2D || c == 0x2E || toLower c == 0x65

/-- The finite decimal number that is the whole text. -/
def decimalOf (s : Text) : Option ℚ :=
  if s ≠ [] ∧ s.all isDecimalChar then
    match strtof s with
    | (.finite q, []) => some q
    | _ => none
  else none

theorem decimalOf_eq_some {s : Text} {q : ℚ} (h : decimalOf s = some q) :
    s ≠ [] ∧ (∀ c ∈ s, isDecimalChar c = true) ∧ strtof s = (.finite q, []) := by
  obtain ⟨⟨hne, hall⟩, hq⟩ := Option.ite_none_right_eq_some.mp h
  split at hq
  · rename_i hread
    exact ⟨hne, List.all_eq_true.mp hall, Option.some.inj hq ▸ hread⟩
  · exact absurd hq (by simp)

end DiveCANHead.Lib
