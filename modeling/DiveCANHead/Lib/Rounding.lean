import Mathlib.Algebra.Order.Floor.Ring
import Mathlib.Algebra.Order.Archimedean.Basic
import Mathlib.Data.Rat.Floor
import Mathlib.Tactic.Linarith
import Mathlib.Tactic.NormNum
import DiveCANHead.Lib.Numerals

/-!
# Rounding half away from zero

`roundAway` is C's `lround` in exact arithmetic: the nearest integer, with
halves rounded away from zero. `truncate` is a cast to an integer type, which
drops the fraction. `toWord w` is the conversion of an integer to an
unsigned word of `w` bits, which reduces modulo `2 ^ w`.
-/

namespace DiveCANHead.Lib

section Round

variable {K : Type*} [Field K] [LinearOrder K] [FloorRing K]

attribute [local instance] atLeastTwo_two in
/-- The nearest integer, halves away from zero. -/
def roundAway (x : K) : ℤ := if 0 ≤ x then ⌊x + 1 / 2⌋ else -⌊-x + 1 / 2⌋

theorem roundAway_of_nonneg {x : K} (h : 0 ≤ x) : roundAway x = ⌊x + 1 / 2⌋ := if_pos h

theorem roundAway_of_neg {x : K} (h : x < 0) : roundAway x = -⌊-x + 1 / 2⌋ :=
  if_neg (not_le.mpr h)

variable [IsStrictOrderedRing K]

theorem roundAway_nonneg {x : K} (h : 0 ≤ x) : 0 ≤ roundAway x := by
  rw [roundAway_of_nonneg h]
  exact Int.floor_nonneg.mpr (by linarith)

theorem roundAway_nonpos {x : K} (h : x < 0) : roundAway x ≤ 0 := by
  rw [roundAway_of_neg h]
  have : 0 ≤ ⌊-x + 1 / 2⌋ := Int.floor_nonneg.mpr (by linarith)
  omega

/-- The rounding error is at most one half. -/
theorem abs_roundAway_sub_le (x : K) : |(roundAway x : K) - x| ≤ 1 / 2 := by
  rcases le_or_gt 0 x with h | h
  · have hlo := Int.floor_le (x + 1 / 2)
    have hhi := Int.lt_floor_add_one (x + 1 / 2)
    rw [roundAway_of_nonneg h, abs_le]
    constructor <;> linarith
  · have hlo := Int.floor_le (-x + 1 / 2)
    have hhi := Int.lt_floor_add_one (-x + 1 / 2)
    rw [roundAway_of_neg h, abs_le]
    push_cast
    constructor <;> linarith

theorem roundAway_mono {x y : K} (h : x ≤ y) : roundAway x ≤ roundAway y := by
  rcases le_or_gt 0 x with hx | hx
  · rw [roundAway_of_nonneg hx, roundAway_of_nonneg (hx.trans h)]
    exact Int.floor_le_floor (by linarith)
  · rcases le_or_gt 0 y with hy | hy
    · exact (roundAway_nonpos hx).trans (roundAway_nonneg hy)
    · rw [roundAway_of_neg hx, roundAway_of_neg hy]
      exact neg_le_neg (Int.floor_le_floor (by linarith))

@[simp] theorem roundAway_intCast (n : ℤ) : roundAway (n : K) = n := by
  have h := abs_roundAway_sub_le (n : K)
  rw [abs_le] at h
  have h1 : (roundAway (n : K) : K) < (n + 1 : ℤ) := by push_cast; linarith
  have h2 : ((n - 1 : ℤ) : K) < roundAway (n : K) := by push_cast; linarith
  have h1' := Int.cast_lt.mp h1
  have h2' := Int.cast_lt.mp h2
  omega

theorem roundAway_le {x : K} {n : ℤ} (h : x ≤ n) : roundAway x ≤ n := by
  simpa using roundAway_mono h

theorem le_roundAway {x : K} {n : ℤ} (h : (n : K) ≤ x) : n ≤ roundAway x := by
  simpa using roundAway_mono h

/-- In integers: half of the divisor is added before the division. -/
theorem roundAway_intCast_div {n d : ℤ} (hn : 0 ≤ n) (hd : 0 < d) :
    roundAway ((n : K) / d) = (n + d / 2) / d := by
  have hdK : (0 : K) < d := Int.cast_pos.mpr hd
  have hdiv := Int.mul_ediv_add_emod (n + d / 2) d
  have hlo := Int.emod_nonneg (n + d / 2) hd.ne'
  have hhi := Int.emod_lt_of_pos (n + d / 2) hd
  set q := (n + d / 2) / d
  have hq : 2 * (d * q) ≤ 2 * n + d ∧ 2 * n + d < 2 * (d * q) + 2 * d := by omega
  rw [roundAway_of_nonneg (div_nonneg (Int.cast_nonneg hn) hdK.le), Int.floor_eq_iff]
  have hlower : (2 * (d * q) : K) ≤ 2 * n + d := by exact_mod_cast hq.1
  have hupper : (2 * n + d : K) < 2 * (d * q) + 2 * d := by exact_mod_cast hq.2
  constructor
  · rw [← sub_le_iff_le_add, le_div_iff₀ hdK]
    linarith
  · rw [← lt_sub_iff_add_lt, div_lt_iff₀ hdK]
    linarith

/-- Rounding stays at or below `n` exactly for values under its upper half. -/
theorem roundAway_le_iff {x : K} {n : ℤ} (hn : 0 ≤ n) : roundAway x ≤ n ↔ x < n + 1 / 2 := by
  have hnK : (0 : K) ≤ n := by exact_mod_cast hn
  rcases le_or_gt 0 x with hx | hx
  · rw [roundAway_of_nonneg hx, ← Int.lt_add_one_iff, Int.floor_lt]
    push_cast
    constructor <;> intro h <;> linarith
  · exact ⟨fun _ => by linarith, fun _ => (roundAway_nonpos hx).trans hn⟩

/-- A value below minus one half rounds to a negative integer. -/
theorem roundAway_neg_of_le {x : K} (h : x ≤ -(1 / 2)) : roundAway x < 0 := by
  have hx : x < 0 := by linarith
  have : 1 ≤ ⌊-x + 1 / 2⌋ := Int.le_floor.mpr (by push_cast; linarith)
  rw [roundAway_of_neg hx]
  omega

/-- The two roundings of a whole `n` split at `x` miss `n` by at most one. -/
theorem abs_roundAway_split_le (x : K) (n : ℤ) :
    |roundAway x + roundAway ((n : K) - x) - n| ≤ 1 := by
  have h1 := abs_le.mp (abs_roundAway_sub_le x)
  have h2 := abs_le.mp (abs_roundAway_sub_le ((n : K) - x))
  have hlo : ((-1 : ℤ) : K) ≤ (roundAway x + roundAway ((n : K) - x) - n : ℤ) := by
    push_cast; linarith
  have hhi : ((roundAway x + roundAway ((n : K) - x) - n : ℤ) : K) ≤ (1 : ℤ) := by
    push_cast; linarith
  exact abs_le.mpr ⟨Int.cast_le.mp hlo, Int.cast_le.mp hhi⟩

/-- The value without its fraction. -/
def truncate (x : K) : ℤ := if 0 ≤ x then ⌊x⌋ else -⌊-x⌋

theorem natAbs_truncate (x : K) : (truncate x).natAbs = ⌊|x|⌋₊ := by
  unfold truncate
  split
  · next hx =>
    rw [abs_of_nonneg hx, ← Int.floor_toNat]
    have := Int.floor_nonneg.mpr hx
    omega
  · next hx =>
    rw [abs_of_neg (not_le.mp hx), ← Int.floor_toNat]
    have : 0 ≤ ⌊-x⌋ := Int.floor_nonneg.mpr (by linarith)
    omega

end Round

/-- Conversion of an integer to an unsigned word of `w` bits. -/
def toWord (w : ℕ) (z : ℤ) : ℕ := (z % 2 ^ w).toNat

theorem toWord_of_lt {w : ℕ} {z : ℤ} (h0 : 0 ≤ z) (h : z < 2 ^ w) : toWord w z = z.toNat := by
  rw [toWord, Int.emod_eq_of_lt h0 h]

end DiveCANHead.Lib
