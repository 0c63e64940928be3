import Mathlib.Tactic.Common

/-!
# Regions of memory

A region gives the content of every offset. `patch` overwrites a range, `window` is the region seen
from an offset on, and `AgreeBelow` compares two regions up to a length, as `memcmp` does.
-/

namespace DiveCANHead.Lib

variable {β : Type}

/-- The region with `buf` written over the `len` cells from `off` on. -/
def patch (r : ℕ → β) (off len : ℕ) (buf : ℕ → β) : ℕ → β :=
  fun i => if off ≤ i ∧ i < off + len then buf (i - off) else r i

def window (r : ℕ → β) (off : ℕ) : ℕ → β := fun i => r (off + i)

def AgreeBelow (a b : ℕ → β) (n : ℕ) : Prop := ∀ i < n, a i = b i

instance [DecidableEq β] (a b : ℕ → β) (n : ℕ) : Decidable (AgreeBelow a b n) :=
  inferInstanceAs (Decidable (∀ i < n, a i = b i))

variable {a b r buf buf' : ℕ → β} {m n off len : ℕ}

theorem patch_patch : patch (patch r off len buf) off len buf' = patch r off len buf' := by
  funext i
  by_cases h : off ≤ i ∧ i < off + len
  · simp only [patch, if_pos h]
  · simp only [patch, if_neg h]

/-- A patch by what is there. -/
theorem patch_window : patch r off len (window r off) = r := by
  funext i
  by_cases h : off ≤ i ∧ i < off + len
  · simp only [patch, if_pos h, window, Nat.add_sub_cancel' h.1]
  · simp only [patch, if_neg h]

theorem window_window : window (window r m) n = window r (m + n) := by
  funext i
  simp only [window, Nat.add_assoc]

theorem agreeBelow_window_patch : AgreeBelow (window (patch r off len buf) off) buf len := by
  intro i hi
  have h : off ≤ off + i ∧ off + i < off + len := ⟨by omega, by omega⟩
  simp only [window, patch, if_pos h, Nat.add_sub_cancel_left]

theorem agreeBelow_zero : AgreeBelow a b 0 := fun _ hi => absurd hi (Nat.not_lt_zero _)

theorem AgreeBelow.symm (h : AgreeBelow a b n) : AgreeBelow b a n := fun i hi => (h i hi).symm

theorem AgreeBelow.mono (h : AgreeBelow a b n) (hm : m ≤ n) : AgreeBelow a b m :=
  fun i hi => h i (Nat.lt_of_lt_of_le hi hm)

theorem AgreeBelow.patch (h : AgreeBelow a b n) (hn : n ≤ off) :
    AgreeBelow (Lib.patch a off len buf) b n := by
  intro i hi
  rw [Lib.patch, if_neg (by omega)]
  exact h i hi

theorem AgreeBelow.append (h : AgreeBelow a b off)
    (hw : AgreeBelow (window a off) (window b off) len) : AgreeBelow a b (off + len) := by
  intro i hi
  by_cases ho : i < off
  · exact h i ho
  · have := hw (i - off) (by omega)
    rwa [window, window, Nat.add_sub_cancel' (Nat.not_lt.mp ho)] at this

end DiveCANHead.Lib
