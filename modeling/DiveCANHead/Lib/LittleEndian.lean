import Mathlib.Data.Int.Notation
import Mathlib.Data.List.Basic
import Mathlib.Data.Nat.Notation
import Mathlib.Algebra.Order.Ring.Nat

/-!
# Little-endian numbers

A number as bytes with the lowest first, read back without and with a sign.
-/

namespace DiveCANHead.Lib

/-- The lowest `n` bytes of a number. -/
def leBytes : ℕ → ℕ → List UInt8
  | 0, _ => []
  | n + 1, v => UInt8.ofNat v :: leBytes n (v / 256)

/-- The number that bytes stand for. -/
def leNat : List UInt8 → ℕ
  | [] => 0
  | b :: bytes => b.toNat + 256 * leNat bytes

/-- The same in two's complement. -/
def leInt (bytes : List UInt8) : ℤ := (leNat bytes : ℤ).bmod (256 ^ bytes.length)

@[simp] theorem length_leBytes (n v : ℕ) : (leBytes n v).length = n := by
  induction n generalizing v with
  | zero => rfl
  | succ n ih => rw [leBytes, List.length_cons, ih]

theorem leNat_leBytes_mod (n v : ℕ) : leNat (leBytes n v) = v % 256 ^ n := by
  induction n generalizing v with
  | zero => rw [leBytes, leNat, pow_zero, Nat.mod_one]
  | succ n ih =>
    have hbyte : (UInt8.ofNat v).toNat = v % 256 := UInt8.toNat_ofNat'
    rw [leBytes, leNat, ih, hbyte, pow_succ', Nat.mod_mul]

theorem leNat_lt (bytes : List UInt8) : leNat bytes < 256 ^ bytes.length := by
  induction bytes with
  | nil => exact Nat.one_pos
  | cons b bytes ih =>
    have hb : b.toNat < 256 := b.toNat_lt
    rw [leNat, List.length_cons, pow_succ]
    omega

/-- The second part of the bytes counts from the length of the first on. -/
theorem leNat_append (xs ys : List UInt8) :
    leNat (xs ++ ys) = leNat xs + 256 ^ xs.length * leNat ys := by
  induction xs with
  | nil => rw [List.nil_append, List.length_nil, pow_zero, one_mul, leNat, zero_add]
  | cons x xs ih =>
    rw [List.cons_append, leNat, leNat, ih, List.length_cons, pow_succ', mul_add, mul_assoc,
      add_assoc]

/-- A number that fits is read back. -/
theorem leNat_leBytes {n v : ℕ} (h : v < 256 ^ n) : leNat (leBytes n v) = v := by
  rw [leNat_leBytes_mod, Nat.mod_eq_of_lt h]

end DiveCANHead.Lib
