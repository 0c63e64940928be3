import Mathlib.Data.List.Sort
import Mathlib.Logic.Function.Basic
import Mathlib.Tactic.Common

/-!
# Columns that are sorted together

A table is kept as columns, each a function on the rows. The rows are sorted by one column, and
every column is put in the same order. Where the rows come in groups, and the sort keeps the groups
apart, a column that only tells the group stays what it is.
-/

namespace DiveCANHead.Lib

universe u v w

/-- The first entries of a column in another order. -/
def permute {α : Type u} (order : List ℕ) (column : ℕ → α) (i : ℕ) : α :=
  ((order[i]?).map column).getD (column i)

theorem permute_of_getElem {α : Type u} {order : List ℕ} {i j : ℕ} (h : order[i]? = some j)
    (column : ℕ → α) : permute order column i = column j := by
  rw [permute, h]
  rfl

section Sorting

variable {α : Type u} {κ : Type v} {γ : Type w} [LinearOrder κ] [LinearOrder γ]

/-- The entries in the order of their keys. -/
def sortBy (key : α → κ) (l : List α) : List α :=
  l.mergeSort fun a b => decide (key a ≤ key b)

theorem sortBy_perm (key : α → κ) (l : List α) : (sortBy key l).Perm l := List.mergeSort_perm _ _

theorem pairwise_sortBy (key : α → κ) (l : List α) :
    (sortBy key l).Pairwise fun a b => key a ≤ key b := by
  have htrans : ∀ a b c : α, decide (key a ≤ key b) = true → decide (key b ≤ key c) = true →
      decide (key a ≤ key c) = true := fun _ _ _ hab hbc =>
    decide_eq_true (le_trans (of_decide_eq_true hab) (of_decide_eq_true hbc))
  have htotal : ∀ a b : α, (decide (key a ≤ key b) || decide (key b ≤ key a)) = true :=
    fun a b => by
      rcases le_total (key a) (key b) with h | h
      · rw [decide_eq_true h]
        rfl
      · rw [decide_eq_true h, Bool.or_true]
  have hsorted := List.pairwise_mergeSort htrans htotal l
  exact hsorted.imp fun h => of_decide_eq_true h

/-- Groups that are in order before the sort, and have their keys apart, stay where they are. -/
theorem map_sortBy {key : α → κ} {group : α → γ} {l : List α}
    (hgroups : l.Pairwise fun a b => group a ≤ group b)
    (hkeys : ∀ a ∈ l, ∀ b ∈ l, group a < group b → key a < key b) :
    (sortBy key l).map group = l.map group := by
  refine ((sortBy_perm key l).map group).eq_of_pairwise
    (fun a b _ _ (hab : a ≤ b) (hba : b ≤ a) => le_antisymm hab hba) ?_
    (List.pairwise_map.mpr hgroups)
  refine List.pairwise_map.mpr ((pairwise_sortBy key l).imp_of_mem fun ha hb hab => ?_)
  refine le_of_not_gt fun hlt => not_lt_of_ge hab ?_
  exact hkeys _ ((sortBy_perm key l).mem_iff.mp hb) _ ((sortBy_perm key l).mem_iff.mp ha) hlt

end Sorting

/-! ## A column that grows -/

/-- Where a list with one more entry has a value. -/
theorem getElem?_concat_eq_some {α : Type u} {l : List α} {x y : α} {i : ℕ} :
    (l ++ [x])[i]? = some y ↔ l[i]? = some y ∨ i = l.length ∧ x = y := by
  rcases Nat.lt_trichotomy i l.length with h | h | h
  · rw [List.getElem?_append_left h]
    exact ⟨.inl, fun hor => hor.resolve_right fun he => h.ne he.1⟩
  · subst h
    simp
  · have hlen : (l ++ [x]).length ≤ i := by
      rw [List.length_append, List.length_singleton]
      exact h
    rw [List.getElem?_eq_none h.le, List.getElem?_eq_none hlen]
    simp [h.ne']

/-- The entries of a column behind one another are those before, and the one just written. -/
theorem map_range_succ {α : Type u} {column column' : ℕ → α} {n : ℕ}
    (hbefore : ∀ i < n, column' i = column i) :
    (List.range (n + 1)).map column' = (List.range n).map column ++ [column' n] := by
  rw [List.range_succ, List.map_append, List.map_cons, List.map_nil]
  exact congrArg (· ++ _) (List.map_congr_left fun i hi => hbefore i (List.mem_range.mp hi))

end DiveCANHead.Lib
