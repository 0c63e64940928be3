import Mathlib.Data.List.TakeWhile
import Mathlib.Data.Int.Basic
import Mathlib.Tactic.Common

/-!
# Text as C has it

A text is the bytes of a C string, without the NUL that ends it. `tokens` is what repeated calls
of `strtok_r` cut out of one; `strtol` reads an integer to the base 10 into a `long` of 32 bits,
and `integerOf` is the integer a whole text stands for.
-/

namespace DiveCANHead.Lib

abbrev Text := List UInt8

def ascii (cs : List Char) : Text := cs.map Char.toUInt8

/-- The string at the front of a buffer. -/
def cString (buf : List UInt8) : Text := buf.takeWhile (· != 0)

/-- What comes before the first element that fails the test. -/
theorem takeWhile_append_stop {α : Type*} {p : α → Bool} {xs ys : List α} {a : α}
    (hxs : ∀ x ∈ xs, p x = true) (ha : p a = false) : (xs ++ a :: ys).takeWhile p = xs := by
  rw [List.takeWhile_append_of_pos hxs, List.takeWhile_cons_of_neg (by simp [ha]), List.append_nil]

/-! ## Tokens -/

/-- The stretches between the separators, the empty ones with them. -/
def pieces (sep : UInt8) : Text → List Text
  | [] => [[]]
  | c :: s =>
    if c = sep then [] :: pieces sep s
    else
      match pieces sep s with
      | [] => [[c]]
      | p :: ps => (c :: p) :: ps

/-- The tokens `strtok_r` finds, call after call. -/
def tokens (sep : UInt8) (s : Text) : List Text := (pieces sep s).filter (· ≠ [])

theorem pieces_of_notMem {sep : UInt8} {s : Text} (h : sep ∉ s) : pieces sep s = [s] := by
  induction s with
  | nil => rfl
  | cons c s ih =>
    obtain ⟨hc, hs⟩ := not_or.mp (mt List.mem_cons.mpr h)
    rw [pieces, if_neg (Ne.symm hc), ih hs]

theorem pieces_append {sep : UInt8} {s t : Text} (h : sep ∉ s) :
    pieces sep (s ++ sep :: t) = s :: pieces sep t := by
  induction s with
  | nil => rw [List.nil_append, pieces, if_pos rfl]
  | cons c s ih =>
    obtain ⟨hc, hs⟩ := not_or.mp (mt List.mem_cons.mpr h)
    rw [List.cons_append, pieces, if_neg (Ne.symm hc), ih hs]

/-- A text with one separator, and something on both its sides. -/
theorem tokens_pair {sep : UInt8} {s t : Text} (hs : sep ∉ s) (ht : sep ∉ t) (hs' : s ≠ [])
    (ht' : t ≠ []) : tokens sep (s ++ sep :: t) = [s, t] := by
  rw [tokens, pieces_append hs, pieces_of_notMem ht]
  simp [hs', ht']

/-- The first `count` fields, where each of them reads as a value. -/
def readFields {α : Type*} (read : Text → Option α) : ℕ → List Text → Option (List α)
  | 0, _ => some []
  | _ + 1, [] => none
  | count + 1, field :: fields =>
    (read field).bind fun value => (readFields read count fields).map (value :: ·)

theorem readFields_map {α β : Type*} (read : Text → Option α) (f : α → β) (count : ℕ)
    (fields : List Text) :
    readFields (fun field => (read field).map f) count fields =
      (readFields read count fields).map (List.map f) := by
  induction count generalizing fields with
  | zero => rfl
  | succ count ih =>
    cases fields with
    | nil => rfl
    | cons field fields =>
      rw [readFields, readFields, ih]
      cases read field <;> cases readFields read count fields <;> rfl

theorem length_readFields {α : Type*} {read : Text → Option α} {count : ℕ} {fields : List Text}
    {values : List α} (h : readFields read count fields = some values) :
    values.length = count := by
  induction count generalizing fields values with
  | zero => rw [← Option.some.inj h, List.length_nil]
  | succ count ih =>
    cases fields with
    | nil => exact absurd h (by simp [readFields])
    | cons field fields =>
      obtain ⟨v, -, htail⟩ := Option.bind_eq_some_iff.mp h
      obtain ⟨vs, hvs, rfl⟩ := Option.map_eq_some_iff.mp htail
      rw [List.length_cons, ih hvs]

/-- Each value is read from the field in its place. -/
theorem read_of_readFields {α : Type*} {read : Text → Option α} {count : ℕ} {fields : List Text}
    {values : List α} (h : readFields read count fields = some values) {i : ℕ} {value : α}
    (hi : values[i]? = some value) : read (fields.getD i []) = some value := by
  induction count generalizing fields values i with
  | zero => simp [← Option.some.inj h] at hi
  | succ count ih =>
    cases fields with
    | nil => exact absurd h (by simp [readFields])
    | cons field fields =>
      obtain ⟨v, hv, htail⟩ := Option.bind_eq_some_iff.mp h
      obtain ⟨vs, hvs, rfl⟩ := Option.map_eq_some_iff.mp htail
      cases i with
      | zero => simpa [hv] using hi
      | succ i => simpa using ih hvs (by simpa using hi)

/-! ## Integers -/

/-- `isspace`. -/
def isSpace (c : UInt8) : Bool := c == 32 || (9 ≤ c && c ≤ 13)

/-- `isdigit`. -/
def isDigit (c : UInt8) : Bool := 48 ≤ c && c ≤ 57

/-- Whether a text starts with a minus, and what follows its sign. -/
def splitSign : Text → Bool × Text
  | [] => (false, [])
  | c :: s => if c = 0x2D then (true, s) else if c = 0x2B then (false, s) else (false, c :: s)

def digitsValue (ds : Text) : ℕ := ds.foldl (fun n d => 10 * n + (d.toNat - 48)) 0

/-- The integer a text starts with, after white space and a sign, and the rest of the text. -/
def numeral (s : Text) : Option (ℤ × Text) :=
  let t := splitSign (s.dropWhile isSpace)
  let ds := t.2.takeWhile isDigit
  if ds = [] then none
  else some (if t.1 then -(digitsValue ds : ℤ) else digitsValue ds, t.2.dropWhile isDigit)

/-- The integer that is the whole text. -/
def integerOf (s : Text) : Option ℤ :=
  match numeral s with
  | some (z, []) => some z
  | _ => none

/-- `LONG_MIN`. -/
def longMin : ℤ := -2147483648

/-- `LONG_MAX`. -/
def longMax : ℤ := 2147483647

/-- An integer as a `long`, the nearest one where it does not fit. -/
def toLong (z : ℤ) : ℤ := if z < longMin then longMin else if longMax < z then longMax else z

/-- `strtol`, and where it stops: without a numeral at the start of the text. -/
def strtol (s : Text) : ℤ × Text :=
  match numeral s with
  | some (z, rest) => (toLong z, rest)
  | none => (0, s)

theorem toLong_eq_zero_iff {z : ℤ} : toLong z = 0 ↔ z = 0 := by
  grind [toLong, longMin, longMax]

/-- Strictly inside its range a `long` is exact. -/
theorem toLong_exact {z : ℤ} (hlo : longMin < toLong z) (hhi : toLong z < longMax) :
    toLong z = z := by
  grind [toLong, longMin, longMax]

theorem length_splitSign_le (s : Text) : (splitSign s).2.length ≤ s.length := by
  cases s with
  | nil => exact Nat.le_refl _
  | cons c s =>
    simp only [splitSign]
    split
    · exact Nat.le_succ _
    · split
      · exact Nat.le_succ _
      · exact Nat.le_refl _

/-- A numeral takes something away from the text. -/
theorem length_rest_lt {s rest : Text} {z : ℤ} (h : numeral s = some (z, rest)) :
    rest.length < s.length := by
  simp only [numeral] at h
  split at h
  · exact absurd h (by simp)
  · rename_i hds
    obtain ⟨-, rfl⟩ := Prod.mk.injEq .. ▸ Option.some.injEq .. ▸ h
    have hcut := congrArg List.length
      (List.takeWhile_append_dropWhile (p := isDigit) (l := (splitSign (s.dropWhile isSpace)).2))
    rw [List.length_append] at hcut
    have hpos := List.length_pos_iff.mpr hds
    have hsign := length_splitSign_le (s.dropWhile isSpace)
    have hspace := (List.dropWhile_suffix isSpace (l := s)).length_le
    omega

theorem numeral_of_integerOf {s : Text} {z : ℤ} (h : integerOf s = some z) :
    numeral s = some (z, []) := by
  simp only [integerOf] at h
  split at h
  · rename_i hs
    rw [hs, Option.some.inj h]
  · exact absurd h (by simp)

/-- `strtol` reads a whole text exactly where it is an integer. -/
theorem strtol_of_integerOf {s : Text} {z : ℤ} (h : integerOf s = some z) :
    strtol s = (toLong z, []) := by
  rw [strtol, numeral_of_integerOf h]

theorem integerOf_of_strtol {s : Text} (hmoved : (strtol s).2 ≠ s) (hall : (strtol s).2 = []) :
    ∃ z, integerOf s = some z := by
  cases hs : numeral s with
  | none => exact absurd (by rw [strtol, hs]) hmoved
  | some p =>
    obtain ⟨z, rest⟩ := p
    rw [strtol, hs] at hall
    obtain rfl : rest = [] := hall
    exact ⟨z, by rw [integerOf, hs]⟩

theorem ne_nil_of_integerOf {s : Text} {z : ℤ} (h : integerOf s = some z) : s ≠ [] := by
  have := length_rest_lt (numeral_of_integerOf h)
  exact List.length_pos_iff.mp (by omega)

/-! ## Integers without white space -/

/-- The text does not start with white space. -/
def Unspaced (s : Text) : Prop := ∀ c ∈ s.head?, isSpace c = false

instance decidableUnspaced (s : Text) : Decidable (Unspaced s) :=
  inferInstanceAs (Decidable (∀ c ∈ s.head?, isSpace c = false))

/-- A text is looked through byte by byte. -/
@[reducible]
def decidableDigits (s : Text) : Decidable (∀ c ∈ s, isDigit c = true) := List.decidableBAll _ s

attribute [local instance] decidableDigits in
/-- The integer that a text spells by a sign, if any, and digits, and nothing else. -/
def strictIntegerOf (s : Text) : Option ℤ :=
  let t := splitSign s
  if t.2 ≠ [] ∧ ∀ c ∈ t.2, isDigit c = true then
    some (if t.1 then -(digitsValue t.2 : ℤ) else digitsValue t.2)
  else none

theorem dropWhile_of_unspaced {s : Text} (h : Unspaced s) : s.dropWhile isSpace = s := by
  cases s with
  | nil => rfl
  | cons c s => rw [List.dropWhile_cons_of_neg (by simp [h c rfl])]

theorem isSpace_of_isDigit {c : UInt8} (h : isDigit c = true) : isSpace c = false := by
  simp only [isDigit, isSpace, Bool.and_eq_true, decide_eq_true_eq, Bool.or_eq_false_iff,
    beq_eq_false_iff_ne, Bool.and_eq_false_iff, decide_eq_false_iff_not] at h ⊢
  grind

/-- A text of a sign and digits does not start with white space. -/
theorem unspaced_of_strictIntegerOf {s : Text} {z : ℤ} (h : strictIntegerOf s = some z) :
    Unspaced s := by
  unfold strictIntegerOf at h
  dsimp only at h
  split at h
  · next hdigits =>
    cases s with
    | nil => exact absurd rfl hdigits.1
    | cons c s =>
      intro d hd
      obtain rfl : c = d := Option.some.inj hd
      simp only [splitSign] at hdigits
      split at hdigits
      · next hminus => rw [hminus]; rfl
      · split at hdigits
        · next hplus => rw [hplus]; rfl
        · exact isSpace_of_isDigit (hdigits.2 c List.mem_cons_self)
  · cases h

/-- What a text spells is the integer it stands for, white space apart. -/
theorem strictIntegerOf_eq_some_iff {s : Text} {z : ℤ} :
    strictIntegerOf s = some z ↔ integerOf s = some z ∧ Unspaced s := by
  have hsame : Unspaced s → (strictIntegerOf s = some z ↔ integerOf s = some z) := by
    intro hun
    simp only [strictIntegerOf, integerOf, numeral, dropWhile_of_unspaced hun]
    by_cases hdigits : (splitSign s).2 ≠ [] ∧ ∀ c ∈ (splitSign s).2, isDigit c = true
    · have htake : (splitSign s).2.takeWhile isDigit = (splitSign s).2 :=
        List.takeWhile_eq_self_iff.mpr hdigits.2
      have hdrop : (splitSign s).2.dropWhile isDigit = [] :=
        List.dropWhile_eq_nil_iff.mpr hdigits.2
      rw [if_pos hdigits, htake, hdrop, if_neg hdigits.1]
    · rw [if_neg hdigits]
      refine iff_of_false (by simp) fun h => hdigits ?_
      split at h
      · next z' hz =>
        split at hz
        · cases hz
        · next hne =>
          have hdrop : (splitSign s).2.dropWhile isDigit = [] :=
            (Prod.mk.inj (Option.some.inj hz)).2
          refine ⟨fun hnil => hne (by rw [hnil]; rfl), List.dropWhile_eq_nil_iff.mp hdrop⟩
      · cases h
  exact ⟨fun h => ⟨(hsame (unspaced_of_strictIntegerOf h)).mp h, unspaced_of_strictIntegerOf h⟩,
    fun h => (hsame h.2).mpr h.1⟩

end DiveCANHead.Lib
