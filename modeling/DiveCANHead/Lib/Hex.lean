import Mathlib.Algebra.Group.Nat.Defs
import Mathlib.Data.List.TakeWhile
import Mathlib.Data.Int.Basic
import Mathlib.Tactic.Common

/-!
# Hexadecimal numerals as JavaScript has them

A text is the code units of a string. `toHex` is `toString(16).toUpperCase()` and `parseInt16` is
`Number.parseInt(text, 16)`, which takes blanks, a sign and `0x` in front of the digits and leaves
alone what follows them.
-/

namespace DiveCANHead.Lib

/-! ## Digits -/

/-- The value of a digit of either case. -/
def hexValue (c : ℕ) : Option ℕ :=
  if 48 ≤ c ∧ c ≤ 57 then some (c - 48)
  else if 65 ≤ c ∧ c ≤ 70 then some (c - 55)
  else if 97 ≤ c ∧ c ≤ 102 then some (c - 87)
  else none

def isHex (c : ℕ) : Bool := (hexValue c).isSome

/-- The digit of a value, in upper case. -/
def hexDigit (d : ℕ) : ℕ := if d < 10 then 48 + d else 55 + d

theorem hexValue_hexDigit {d : ℕ} (h : d < 16) : hexValue (hexDigit d) = some d := by
  unfold hexValue hexDigit
  by_cases hd : d < 10
  · rw [if_pos hd, if_pos (by omega), Nat.add_sub_cancel_left]
  · rw [if_neg hd, if_neg (by omega), if_pos (by omega), Nat.add_sub_cancel_left]

theorem isHex_hexDigit {d : ℕ} (h : d < 16) : isHex (hexDigit d) = true := by
  rw [isHex, hexValue_hexDigit h]
  rfl

theorem range_of_isHex {c : ℕ} (h : isHex c = true) :
    48 ≤ c ∧ c ≤ 57 ∨ 65 ≤ c ∧ c ≤ 70 ∨ 97 ≤ c ∧ c ≤ 102 := by
  unfold isHex hexValue at h
  by_cases hdecimal : 48 ≤ c ∧ c ≤ 57
  · exact .inl hdecimal
  rw [if_neg hdecimal] at h
  by_cases hupper : 65 ≤ c ∧ c ≤ 70
  · exact .inr (.inl hupper)
  rw [if_neg hupper] at h
  by_cases hlower : 97 ≤ c ∧ c ≤ 102
  · exact .inr (.inr hlower)
  rw [if_neg hlower] at h
  cases h

theorem hexValue_of_isHex {c : ℕ} (h : isHex c = true) : ∃ d, hexValue c = some d :=
  Option.isSome_iff_exists.mp h

/-! ## Numerals -/

/-- The number that these digits stand for. -/
def ofHex (cs : List ℕ) : ℕ := cs.foldl (fun n c => 16 * n + (hexValue c).getD 0) 0

def toHex (n : ℕ) : List ℕ :=
  if n < 16 then [hexDigit n] else toHex (n / 16) ++ [hexDigit (n % 16)]

/-- `padStart(width, '0')`. -/
def padStart (width : ℕ) (cs : List ℕ) : List ℕ := List.replicate (width - cs.length) 48 ++ cs

theorem ofHex_concat (cs : List ℕ) (c : ℕ) :
    ofHex (cs ++ [c]) = 16 * ofHex cs + (hexValue c).getD 0 := by
  unfold ofHex
  rw [List.foldl_append]
  rfl

theorem ofHex_toHex (n : ℕ) : ofHex (toHex n) = n := by
  induction n using Nat.strong_induction_on with
  | _ n ih =>
    rw [toHex]
    split
    · next h =>
      change 16 * 0 + (hexValue (hexDigit n)).getD 0 = n
      rw [hexValue_hexDigit h, Option.getD_some, Nat.mul_zero, Nat.zero_add]
    · next h =>
      have hmod := Nat.mod_lt n (show 0 < 16 by decide)
      rw [ofHex_concat, ih (n / 16) (by omega), hexValue_hexDigit hmod, Option.getD_some]
      exact Nat.div_add_mod n 16

theorem isHex_of_mem_toHex {n c : ℕ} (h : c ∈ toHex n) : isHex c = true := by
  induction n using Nat.strong_induction_on with
  | _ n ih =>
    rw [toHex] at h
    split at h
    · next hlt => exact List.mem_singleton.mp h ▸ isHex_hexDigit hlt
    · next hge =>
      rcases List.mem_append.mp h with h | h
      · exact ih (n / 16) (by omega) h
      · exact List.mem_singleton.mp h ▸ isHex_hexDigit (Nat.mod_lt n (by decide))

theorem length_toHex_le {n k : ℕ} (h : n < 16 ^ (k + 1)) : (toHex n).length ≤ k + 1 := by
  induction k generalizing n with
  | zero =>
    rw [toHex, if_pos (by omega)]
    exact Nat.le_refl _
  | succ k ih =>
    rw [toHex]
    split
    · exact Nat.succ_le_succ (Nat.zero_le _)
    · rw [List.length_append, List.length_singleton]
      exact Nat.succ_le_succ (ih (Nat.div_lt_of_lt_mul (by rwa [Nat.pow_succ'] at h)))

theorem length_padStart {width : ℕ} {cs : List ℕ} (h : cs.length ≤ width) :
    (padStart width cs).length = width := by
  rw [padStart, List.length_append, List.length_replicate, Nat.sub_add_cancel h]

theorem isHex_of_mem_padStart {width c : ℕ} {cs : List ℕ} (hcs : ∀ c ∈ cs, isHex c = true)
    (h : c ∈ padStart width cs) : isHex c = true := by
  rcases List.mem_append.mp h with h | h
  · rw [List.eq_of_mem_replicate h]
    rfl
  · exact hcs c h

theorem ofHex_padStart (width : ℕ) (cs : List ℕ) : ofHex (padStart width cs) = ofHex cs := by
  unfold padStart ofHex
  rw [List.foldl_append]
  congr 1
  generalize width - cs.length = k
  induction k with
  | zero => rfl
  | succ k ih =>
    rw [List.replicate_succ, List.foldl_cons]
    exact ih

/-! ## `Number.parseInt` -/

/-- The white space and line ends that `parseInt` skips. -/
def isBlank (c : ℕ) : Bool :=
  c ∈ [9, 10, 11, 12, 13, 32, 0xA0, 0x1680, 0x2028, 0x2029, 0x202F, 0x205F, 0x3000, 0xFEFF] ||
    (0x2000 ≤ c && c ≤ 0x200A)

def afterSign : List ℕ → List ℕ
  | c :: cs => if c = 43 ∨ c = 45 then cs else c :: cs
  | [] => []

def after0x : List ℕ → List ℕ
  | c :: x :: cs => if c = 48 ∧ (x = 120 ∨ x = 88) then cs else c :: x :: cs
  | cs => cs

/-- Where the digits are expected. -/
def numberStart (text : List ℕ) : List ℕ := after0x (afterSign (text.dropWhile isBlank))

/-- `Number.parseInt(text, 16)`, where `none` is `NaN`. -/
def parseInt16 (text : List ℕ) : Option ℤ :=
  let digits := (numberStart text).takeWhile isHex
  if digits = [] then none
  else if (text.dropWhile isBlank).head? = some 45 then some (-(ofHex digits : ℤ))
  else some (ofHex digits : ℤ)

/-- A number begins where the digits are expected. -/
theorem isSome_parseInt16 (text : List ℕ) :
    (parseInt16 text).isSome = true ↔ ∃ c ∈ (numberStart text).head?, isHex c = true := by
  unfold parseInt16
  dsimp only
  cases hnumeral : numberStart text with
  | nil =>
    rw [List.takeWhile_nil, if_pos rfl]
    exact iff_of_false nofun fun ⟨_, hc, _⟩ => absurd hc nofun
  | cons c cs =>
    cases hc : isHex c with
    | true =>
      rw [List.takeWhile_cons_of_pos hc, if_neg (List.cons_ne_nil _ _)]
      refine iff_of_true ?_ ⟨c, rfl, hc⟩
      split <;> rfl
    | false =>
      rw [List.takeWhile_cons_of_neg (by rw [hc]; exact Bool.false_ne_true), if_pos rfl]
      refine iff_of_false nofun fun ⟨d, hd, hhex⟩ => ?_
      rw [← Option.some.inj hd, hc] at hhex
      cases hhex

theorem not_isBlank_of_isHex {c : ℕ} (h : isHex c = true) : isBlank c = false := by
  have hrange := range_of_isHex h
  refine Bool.eq_false_iff.mpr fun hblank => ?_
  unfold isBlank at hblank
  simp only [Bool.or_eq_true, decide_eq_true_eq, List.mem_cons, List.not_mem_nil, or_false,
    Bool.and_eq_true] at hblank
  omega

theorem numberStart_of_isHex {c : ℕ} {cs : List ℕ} (hc : isHex c = true)
    (hcs : ∀ x ∈ cs, isHex x = true) : numberStart (c :: cs) = c :: cs := by
  have hrange := range_of_isHex hc
  have hblank : ¬ isBlank c = true := by
    rw [not_isBlank_of_isHex hc]
    exact Bool.false_ne_true
  rw [numberStart, List.dropWhile_cons_of_neg hblank, afterSign, if_neg (by omega)]
  cases cs with
  | nil => rfl
  | cons x cs =>
    have hx := range_of_isHex (hcs x List.mem_cons_self)
    rw [after0x, if_neg (by omega)]

/-- Digits alone are read as their number. -/
theorem parseInt16_of_isHex {cs : List ℕ} (hne : cs ≠ []) (hcs : ∀ c ∈ cs, isHex c = true) :
    parseInt16 cs = some (ofHex cs : ℤ) := by
  cases cs with
  | nil => exact absurd rfl hne
  | cons c cs =>
    have hc := hcs c List.mem_cons_self
    have hrange := range_of_isHex hc
    have hblank : ¬ isBlank c = true := by
      rw [not_isBlank_of_isHex hc]
      exact Bool.false_ne_true
    have hsign : ¬ (some c = some 45) := fun h => by
      have hc := Option.some.inj h
      omega
    have hall : (c :: cs).takeWhile isHex = c :: cs := List.takeWhile_eq_self_iff.mpr hcs
    unfold parseInt16
    dsimp only
    rw [numberStart_of_isHex hc fun x hx => hcs x (List.mem_cons_of_mem c hx), hall,
      if_neg (List.cons_ne_nil _ _), List.dropWhile_cons_of_neg hblank, List.head?_cons,
      if_neg hsign]

theorem parseInt16_singleton (c : ℕ) : parseInt16 [c] = (hexValue c).map Nat.cast := by
  cases hc : hexValue c with
  | some d =>
    have hhex : isHex c = true := by
      rw [isHex, hc]
      rfl
    rw [parseInt16_of_isHex (List.cons_ne_nil _ _) (List.forall_mem_singleton.mpr hhex), ofHex,
      List.foldl_cons, List.foldl_nil, hc, Nat.mul_zero, Nat.zero_add]
    rfl
  | none =>
    have hhex : isHex c = false := by
      rw [isHex, hc]
      rfl
    refine Option.not_isSome_iff_eq_none.mp fun hsome => ?_
    obtain ⟨d, hd, hdigit⟩ := (isSome_parseInt16 _).mp hsome
    have hsame : d = c := by
      unfold numberStart at hd
      cases hblank : isBlank c with
      | true =>
        rw [List.dropWhile_cons_of_pos hblank] at hd
        cases hd
      | false =>
        rw [List.dropWhile_cons_of_neg (by rw [hblank]; exact Bool.false_ne_true), afterSign] at hd
        split at hd
        · cases hd
        · exact (Option.some.inj hd).symm
    rw [hsame, hhex] at hdigit
    cases hdigit

end DiveCANHead.Lib
