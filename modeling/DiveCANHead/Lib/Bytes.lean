import Mathlib.Data.List.TakeDrop
import Mathlib.Tactic.Common

/-!
# Fixed-size buffers

`padTo n a xs` fills a list up to length `n`; `overlay buf i xs` is a copy of
`xs` into a buffer at offset `i`.
-/

namespace DiveCANHead.Lib

universe u

variable {α : Type u}

/-- Filled up to length `n` with `a`. -/
def padTo (n : ℕ) (a : α) (xs : List α) : List α := xs ++ List.replicate (n - xs.length) a

theorem length_padTo {n : ℕ} {a : α} {xs : List α} (h : xs.length ≤ n) :
    (padTo n a xs).length = n := by
  simp only [padTo, List.length_append, List.length_replicate]
  omega

theorem take_padTo {n k : ℕ} {a : α} {xs : List α} (h : k ≤ xs.length) :
    (padTo n a xs).take k = xs.take k := by
  rw [padTo, List.take_append_of_le_length h]

theorem length_take_padTo (n : ℕ) (a : α) (xs : List α) : ((padTo n a xs).take n).length = n := by
  simp only [padTo, List.length_take, List.length_append, List.length_replicate]
  omega

theorem padTo_of_length_eq {n : ℕ} {a : α} {xs : List α} (h : xs.length = n) :
    padTo n a xs = xs := by
  simp [padTo, h]

/-- The buffer with `xs` written at offset `i`. -/
def overlay (buf : List α) (i : ℕ) (xs : List α) : List α :=
  buf.take i ++ xs ++ buf.drop (i + xs.length)

theorem length_overlay {buf xs : List α} {i : ℕ} (h : i + xs.length ≤ buf.length) :
    (overlay buf i xs).length = buf.length := by
  simp only [overlay, List.length_append, List.length_take, List.length_drop]
  omega

/-- The buffer up to the end of what was written. -/
theorem take_overlay {buf xs : List α} {i k : ℕ} (h : i ≤ buf.length) (hk : k ≤ i + xs.length) :
    (overlay buf i xs).take k = (buf.take i ++ xs).take k := by
  rw [overlay, List.take_append_of_le_length]
  simp only [List.length_append, List.length_take]
  omega

theorem take_overlay_zero {buf xs : List α} {k : ℕ} (hk : k ≤ xs.length) :
    (overlay buf 0 xs).take k = xs.take k := by
  rw [take_overlay (Nat.zero_le _) (by omega)]
  simp

/-- What is written where `xs` ends takes the place of what followed. -/
theorem overlay_append (xs ys zs : List α) :
    overlay (xs ++ zs) xs.length ys = xs ++ ys ++ zs.drop ys.length := by
  rw [overlay, List.take_left' rfl, List.drop_append, List.drop_of_length_le (by omega),
    Nat.add_sub_cancel_left, List.nil_append]

theorem overlay_length (xs ys : List α) : overlay xs xs.length ys = xs ++ ys := by
  simpa using overlay_append xs ys []

end DiveCANHead.Lib
