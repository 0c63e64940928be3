import Mathlib.Data.List.Basic
import Mathlib.Tactic.Common

/-!
# Streams of terminated segments

A stream is cut at its stop symbols: the segments that a stop symbol ends, and the rest after the
last one.
-/

namespace DiveCANHead.Lib

universe u

variable {α : Type u} {stop : α → Bool}

/-- The segments a stream ends, where `seg` is what came before it of the first one. -/
def segmentsFrom (stop : α → Bool) (seg : List α) : List α → List (List α)
  | [] => []
  | a :: stream =>
    if stop a then seg :: segmentsFrom stop [] stream else segmentsFrom stop (seg ++ [a]) stream

/-- The terminated segments of a stream, the empty ones with them. -/
def segments (stop : α → Bool) (stream : List α) : List (List α) := segmentsFrom stop [] stream

theorem segmentsFrom_stop {a : α} (h : stop a = true) (seg stream : List α) :
    segmentsFrom stop seg (a :: stream) = seg :: segmentsFrom stop [] stream := by
  rw [segmentsFrom, if_pos h]

theorem segmentsFrom_more {a : α} (h : stop a = false) (seg stream : List α) :
    segmentsFrom stop seg (a :: stream) = segmentsFrom stop (seg ++ [a]) stream := by
  rw [segmentsFrom, if_neg (Bool.eq_false_iff.mp h)]

/-- Shortening what a filter should drop keeps it, unless nothing of it is left. -/
theorem filter_map_eq_filter_iff {f : List α → List α} {short : List α → Bool}
    (hf : ∀ seg, short seg = true → f seg = seg) (segs : List (List α)) :
    (segs.map f).filter (!·.isEmpty) = segs.filter (fun seg => !seg.isEmpty && short seg) ↔
      ∀ seg ∈ segs, short seg = false → f seg = [] := by
  have hle : ∀ segs : List (List α), (segs.filter fun seg => !seg.isEmpty && short seg).length ≤
      ((segs.map f).filter (!·.isEmpty)).length := by
    intro segs
    induction segs with
    | nil => exact Nat.le_refl _
    | cons seg segs ih =>
      rw [List.map_cons, List.filter_cons, List.filter_cons]
      cases hshort : short seg with
      | true =>
        rw [hf seg hshort, Bool.and_true]
        split
        · exact Nat.succ_le_succ ih
        · exact ih
      | false =>
        rw [Bool.and_false, if_neg Bool.false_ne_true]
        split
        · exact Nat.le_succ_of_le ih
        · exact ih
  induction segs with
  | nil => exact iff_of_true rfl fun seg h => absurd h List.not_mem_nil
  | cons seg segs ih =>
    rw [List.map_cons, List.forall_mem_cons, List.filter_cons, List.filter_cons]
    refine Iff.trans ?_ (and_congr_right fun _ => ih)
    cases hshort : short seg with
    | true =>
      rw [hf seg hshort, Bool.and_true]
      have hvacuous : true = false → seg = [] := fun h => absurd h.symm Bool.false_ne_true
      split
      · rw [List.cons_inj_right]
        exact ⟨fun h => ⟨hvacuous, h⟩, fun h => h.2⟩
      · exact ⟨fun h => ⟨hvacuous, h⟩, fun h => h.2⟩
    | false =>
      rw [Bool.and_false, if_neg Bool.false_ne_true]
      by_cases hnil : f seg = []
      · rw [hnil, List.isEmpty_nil, Bool.not_true, if_neg Bool.false_ne_true]
        exact ⟨fun h => ⟨fun _ => rfl, h⟩, fun h => h.2⟩
      · rw [if_pos (by simpa using hnil)]
        refine iff_of_false (fun h => ?_) fun h => hnil (h.1 rfl)
        have hlength := congrArg List.length h
        rw [List.length_cons] at hlength
        have := hle segs
        omega

end DiveCANHead.Lib
