import DiveCANHead.Lib.Hex
import Mathlib.Data.List.Basic

/-!
# Numerals and byte strings as they are printed

Decimal numerals, hexadecimal ones in lower case, and bytes as pairs of such digits.
-/

namespace DiveCANHead.Lib

/-! ## Decimal numerals -/

def toDecimal (n : ℕ) : List ℕ :=
  if n < 10 then [48 + n] else toDecimal (n / 10) ++ [48 + n % 10]

/-- The number that these digits stand for. -/
def ofDecimal (cs : List ℕ) : ℕ := cs.foldl (fun n c => 10 * n + (c - 48)) 0

theorem ofDecimal_toDecimal (n : ℕ) : ofDecimal (toDecimal n) = n := by
  induction n using Nat.strong_induction_on with
  | _ n ih =>
    rw [toDecimal]
    split
    · show 10 * 0 + (48 + n - 48) = n
      omega
    · unfold ofDecimal at ih ⊢
      rw [List.foldl_append, ih (n / 10) (by omega)]
      show 10 * (n / 10) + (48 + n % 10 - 48) = n
      omega

theorem range_of_mem_toDecimal {n c : ℕ} (h : c ∈ toDecimal n) : 48 ≤ c ∧ c ≤ 57 := by
  induction n using Nat.strong_induction_on with
  | _ n ih =>
    rw [toDecimal] at h
    split at h
    · rw [List.mem_singleton.mp h]
      omega
    · rcases List.mem_append.mp h with h | h
      · exact ih (n / 10) (by omega) h
      · rw [List.mem_singleton.mp h]
        omega

theorem length_toDecimal_le {n k : ℕ} (h : n < 10 ^ (k + 1)) : (toDecimal n).length ≤ k + 1 := by
  induction k generalizing n with
  | zero =>
    rw [toDecimal, if_pos (by omega)]
    exact Nat.le_refl _
  | succ k ih =>
    rw [toDecimal]
    split
    · exact Nat.succ_le_succ (Nat.zero_le _)
    · rw [List.length_append, List.length_singleton]
      exact Nat.succ_le_succ (ih (Nat.div_lt_of_lt_mul (by rwa [Nat.pow_succ'] at h)))

/-! ## Lower case -/

def lowerDigit (c : ℕ) : ℕ := if 65 ≤ c ∧ c ≤ 70 then c + 32 else c

theorem hexValue_lowerDigit {c : ℕ} (h : isHex c = true) :
    hexValue (lowerDigit c) = hexValue c := by
  have hrange := range_of_isHex h
  unfold lowerDigit
  split
  · unfold hexValue
    rw [if_neg (by omega), if_neg (by omega), if_pos (by omega), if_neg (by omega),
      if_pos (by omega)]
    congr 1
  · rfl

/-- `toString(16).padStart(width, '0')`. -/
def lowerHex (width n : ℕ) : List ℕ := padStart width ((toHex n).map lowerDigit)

theorem isHex_of_mem_lowerHex {width n c : ℕ} (h : c ∈ lowerHex width n) : isHex c = true := by
  refine isHex_of_mem_padStart (fun c hc => ?_) h
  obtain ⟨d, hd, rfl⟩ := List.mem_map.mp hc
  have hhex := isHex_of_mem_toHex hd
  rw [isHex, hexValue_lowerDigit hhex]
  exact hhex

theorem ofHex_lowerHex (width n : ℕ) : ofHex (lowerHex width n) = n := by
  have hlower : ∀ (cs : List ℕ) (k : ℕ), (∀ c ∈ cs, isHex c = true) →
      (cs.map lowerDigit).foldl (fun n c => 16 * n + (hexValue c).getD 0) k =
        cs.foldl (fun n c => 16 * n + (hexValue c).getD 0) k := by
    intro cs
    induction cs with
    | nil => exact fun k _ => rfl
    | cons c cs ih =>
      intro k hcs
      rw [List.map_cons, List.foldl_cons, List.foldl_cons,
        hexValue_lowerDigit (hcs c List.mem_cons_self), ih _ fun d hd => hcs d (.tail _ hd)]
  rw [lowerHex, ofHex_padStart, ofHex, hlower _ 0 fun c hc => isHex_of_mem_toHex hc]
  exact ofHex_toHex n

/-! ## Bytes -/

def byteHex (b : UInt8) : List ℕ := lowerHex 2 b.toNat

/-- `toHexString(bytes, '')`. -/
def bytesHex (bytes : List UInt8) : List ℕ := bytes.flatMap byteHex

theorem length_byteHex (b : UInt8) : (byteHex b).length = 2 :=
  length_padStart (by
    rw [List.length_map]
    exact length_toHex_le b.toNat_lt)

/-- A byte is two digits. -/
theorem byteHex_eq (b : UInt8) : ∃ c d, byteHex b = [c, d] ∧ isHex c = true ∧ isHex d = true ∧
    16 * (hexValue c).getD 0 + (hexValue d).getD 0 = b.toNat := by
  obtain ⟨c, d, hpair⟩ := List.length_eq_two.mp (length_byteHex b)
  have hhex : ∀ x ∈ byteHex b, isHex x = true := fun x hx => isHex_of_mem_lowerHex hx
  have hvalue : ofHex (byteHex b) = b.toNat := ofHex_lowerHex 2 b.toNat
  rw [hpair] at hhex hvalue
  refine ⟨c, d, hpair, hhex c List.mem_cons_self, hhex d (.tail _ List.mem_cons_self), ?_⟩
  have hfold : 16 * (16 * 0 + (hexValue c).getD 0) + (hexValue d).getD 0 = b.toNat := hvalue
  omega

theorem parseInt16_byteHex (b : UInt8) : parseInt16 (byteHex b) = some (b.toNat : ℤ) := by
  have hne : byteHex b ≠ [] := fun h => by
    have hlen := length_byteHex b
    rw [h] at hlen
    cases hlen
  rw [parseInt16_of_isHex hne fun c hc => isHex_of_mem_lowerHex hc, byteHex, ofHex_lowerHex]

theorem isHex_of_mem_bytesHex {bytes : List UInt8} {c : ℕ} (h : c ∈ bytesHex bytes) :
    isHex c = true := by
  obtain ⟨b, -, hc⟩ := List.mem_flatMap.mp h
  exact isHex_of_mem_lowerHex hc

theorem length_bytesHex (bytes : List UInt8) : (bytesHex bytes).length = 2 * bytes.length := by
  induction bytes with
  | nil => rfl
  | cons b bytes ih =>
    have hcons : bytesHex (b :: bytes) = byteHex b ++ bytesHex bytes := rfl
    rw [hcons, List.length_append, length_byteHex, ih, List.length_cons]
    omega

end DiveCANHead.Lib
