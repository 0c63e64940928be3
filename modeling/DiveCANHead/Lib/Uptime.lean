import Mathlib.Data.Int.Notation
import Mathlib.Tactic.Common

/-!
# A clock read in 32 bits

A millisecond clock counts without end; what is read of it is its low 32 bits. The difference of
two readings is the time between them up to a multiple of 2^32, so it is never too long for a
reading that came first, and means nothing for one that came later.
-/

namespace DiveCANHead.Lib

/-- `k_uptime_get_32`. -/
def uptime32 (t : ℕ) : UInt32 := UInt32.ofNat t

/-- The difference of any two readings. -/
theorem uptime32_sub_toNat (a b : ℕ) :
    ((uptime32 b - uptime32 a).toNat : ℤ) = ((b : ℤ) - a) % 4294967296 := by
  simp only [uptime32, UInt32.toNat_sub, UInt32.toNat_ofNat']
  omega

theorem uptime32_sub {a b : ℕ} (h : a ≤ b) :
    (uptime32 b - uptime32 a).toNat = (b - a) % 4294967296 := by
  simp only [uptime32, UInt32.toNat_sub, UInt32.toNat_ofNat']
  omega

/-- Time that passed by two readings really passed. -/
theorem add_le_of_uptime32 {a b : ℕ} {k : UInt32} (h : a ≤ b)
    (hk : k ≤ uptime32 b - uptime32 a) : a + k.toNat ≤ b := by
  have hle : k.toNat ≤ (uptime32 b - uptime32 a).toNat := UInt32.le_iff_toNat_le.mp hk
  rw [uptime32_sub h] at hle
  have hmod : (b - a) % 4294967296 ≤ b - a := Nat.mod_le _ _
  omega

/-- A short time is read as it is. -/
theorem uptime32_sub_lt {a b : ℕ} {k : UInt32} (h : a ≤ b) (hk : b < a + k.toNat) :
    uptime32 b - uptime32 a < k := by
  rw [UInt32.lt_iff_toNat_lt, uptime32_sub h]
  have hmod : (b - a) % 4294967296 ≤ b - a := Nat.mod_le _ _
  omega

end DiveCANHead.Lib
