import Mathlib.Data.List.DropRight
import Mathlib.Logic.Function.Basic

/-!
# A rolling store of the newest records

An array of fixed depth with the number of its slots that are filled. A record goes to the first
free slot; in a full array the records move down by one and it goes to the last.
-/

namespace DiveCANHead.Lib

variable {α : Type} {depth : ℕ}

/-- The slots and how many of them are filled. -/
structure Rolling (α : Type) (depth : ℕ) where
  count : ℕ
  records : Fin depth → α

/-- The records held, oldest first. -/
def Rolling.contents (r : Rolling α depth) : List α := (List.ofFn r.records).take r.count

/-- Appends a record. -/
def Rolling.append (r : Rolling α depth) (x : α) : Rolling α depth :=
  if h : r.count < depth then
    { count := r.count + 1, records := Function.update r.records ⟨r.count, h⟩ x }
  else
    { r with records := fun i => if h : i + 1 < depth then r.records ⟨i + 1, h⟩ else x }

theorem Rolling.length_contents {r : Rolling α depth} (h : r.count ≤ depth) :
    r.contents.length = r.count := by
  rw [contents, List.length_take, List.length_ofFn, Nat.min_eq_left h]

theorem Rolling.getElem_contents (r : Rolling α depth) {i : ℕ} (hi : i < r.contents.length)
    (hd : i < depth) : r.contents[i] = r.records ⟨i, hd⟩ := by
  simp [contents]

theorem Rolling.count_append {r : Rolling α depth} (h : r.count ≤ depth) (x : α) :
    (r.append x).count = min (r.count + 1) depth := by
  unfold append
  split
  · show r.count + 1 = _
    omega
  · show r.count = _
    omega

/-- A rolling store holds the newest records, at most as many as it has slots. -/
theorem Rolling.contents_append {r : Rolling α depth} (h : r.count ≤ depth) (x : α) :
    (r.append x).contents = (r.contents ++ [x]).rtake depth := by
  have hlen := r.length_contents h
  have hcount : (r.append x).count ≤ depth := by rw [count_append h]; omega
  refine List.ext_getElem ?_ fun i hi hi' => ?_
  · rw [length_contents hcount, count_append h, List.rtake, List.length_drop,
      List.length_append, hlen, List.length_singleton]
    omega
  · rw [length_contents hcount, count_append h] at hi
    have hd : i < depth := by omega
    rw [getElem_contents _ _ hd]
    simp only [List.rtake, List.getElem_drop, List.length_append, hlen, List.length_singleton]
    by_cases hfree : r.count < depth
    · -- the array is not full: nothing moves
      have hdrop : r.count + 1 - depth = 0 := by omega
      simp only [append, dif_pos hfree, hdrop, Nat.zero_add]
      rcases Nat.lt_or_ge i r.count with hlt | hge
      · rw [List.getElem_append_left (hlen.symm ▸ hlt), getElem_contents _ _ hd,
          Function.update_of_ne (Fin.ne_of_lt hlt)]
      · obtain rfl : i = r.count := by omega
        rw [Function.update_self, List.getElem_append_right hlen.le]
        simp
    · -- the array is full: every record moves down by one
      have hdrop : r.count + 1 - depth = 1 := by omega
      simp only [append, dif_neg hfree, hdrop]
      by_cases hlast : i + 1 < depth
      · rw [dif_pos hlast, List.getElem_append_left (by omega),
          getElem_contents _ _ (by omega)]
        simp only [Nat.add_comm]
      · rw [dif_neg hlast, List.getElem_append_right (by omega)]
        simp

/-- The newest records of more records are those of the newest and what came after. -/
theorem rtake_append_rtake (n : ℕ) (l m : List α) :
    (l.rtake n ++ m).rtake n = (l ++ m).rtake n := by
  simp only [List.rtake, List.drop_append, List.length_append, List.length_drop, List.drop_drop]
  congr 2 <;> omega

end DiveCANHead.Lib
