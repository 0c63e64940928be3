import Mathlib.Algebra.BigOperators.Group.List.Basic
import Mathlib.Algebra.GroupWithZero.Nat
import Mathlib.Data.List.TakeDrop
import Mathlib.Tactic.Common

/-!
# A pool of tasks

The tasks in progress are a list; one of them goes on, by `set`, or ends, by `eraseIdx`. What is
counted or summed over the pool changes by that task alone.
-/

namespace DiveCANHead.Lib

universe u

variable {α : Type u} {l : List α} {i : ℕ} {a : α}

/-- The pool around one of its tasks. -/
theorem exists_around (h : l[i]? = some a) :
    ∃ before after, l = before ++ a :: after ∧ (∀ b, l.set i b = before ++ b :: after) ∧
      l.eraseIdx i = before ++ after := by
  obtain ⟨hi, rfl⟩ := List.getElem?_eq_some_iff.mp h
  refine ⟨l.take i, l.drop (i + 1), ?_, fun b => ?_, List.eraseIdx_eq_take_drop_succ l i⟩
  · rw [List.cons_getElem_drop_succ, List.take_append_drop]
  · rw [List.set_eq_take_append_cons_drop, if_pos hi]

/-- A task that goes on as one of its kind. -/
theorem countP_set_same {p : α → Bool} {b : α} (h : l[i]? = some a) (hp : p b = p a) :
    (l.set i b).countP p = l.countP p := by
  obtain ⟨before, after, hl, hset, -⟩ := exists_around h
  rw [hset, hl]
  simp [List.countP_append, List.countP_cons, hp]

/-- A task that ends. -/
theorem countP_eraseIdx_add {p : α → Bool} (h : l[i]? = some a) :
    (l.eraseIdx i).countP p + (p a).toNat = l.countP p := by
  obtain ⟨before, after, hl, -, herase⟩ := exists_around h
  rw [herase, hl]
  cases hp : p a <;> simp [List.countP_append, hp, Nat.add_assoc]

theorem sum_map_set_add {f : α → ℕ} {b : α} (h : l[i]? = some a) :
    ((l.set i b).map f).sum + f a = (l.map f).sum + f b := by
  obtain ⟨before, after, hl, hset, -⟩ := exists_around h
  rw [hset, hl]
  simp only [List.map_append, List.map_cons, List.sum_append, List.sum_cons]
  omega

theorem sum_map_eraseIdx_add {f : α → ℕ} (h : l[i]? = some a) :
    ((l.eraseIdx i).map f).sum + f a = (l.map f).sum := by
  obtain ⟨before, after, hl, -, herase⟩ := exists_around h
  rw [herase, hl]
  simp only [List.map_append, List.map_cons, List.sum_append, List.sum_cons]
  omega

end DiveCANHead.Lib
