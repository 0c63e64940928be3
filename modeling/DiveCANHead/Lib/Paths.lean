import Mathlib.Logic.Relation
import Mathlib.Order.Bounds.Basic

/-!
# Sums along the paths of a graph

`next` lists the successors of a node and every node has a weight. The greatest sum along the paths
that start at a node is the node's weight and the greatest sum of a successor.
-/

namespace DiveCANHead.Lib

universe u

variable {V : Type u}

/-- The sums of the weights along the paths that start at a node. -/
inductive PathSum (next : V → List V) (weight : V → Nat) : V → Nat → Prop
  | last (v : V) : PathSum next weight v (weight v)
  | step {v c : V} {n : Nat} (hc : c ∈ next v) (hn : PathSum next weight c n) :
      PathSum next weight v (weight v + n)

/-- A node can go on to one where `bad` holds, or to a node that comes back to itself. -/
def Diverges (next : V → List V) (bad : V → Prop) (v : V) : Prop :=
  ∃ u, Relation.ReflTransGen (fun a b => b ∈ next a) v u ∧
    (bad u ∨ Relation.TransGen (fun a b => b ∈ next a) u u)

variable {next : V → List V} {weight : V → Nat} {bad : V → Prop} {v c : V}

theorem Diverges.of_next (hc : c ∈ next v) (h : Diverges next bad c) : Diverges next bad v := by
  obtain ⟨u, hreach, hu⟩ := h
  exact ⟨u, hreach.head hc, hu⟩

theorem Diverges.cycle (h : Relation.TransGen (fun a b => b ∈ next a) v v) :
    Diverges next bad v := ⟨v, .refl, .inr h⟩

/-- `m` is the greatest sum of these nodes, at least `start`. -/
structure GreatestOf (next : V → List V) (weight : V → Nat) (nodes : List V) (start m : Nat) :
    Prop where
  start_le : start ≤ m
  bounds : ∀ c ∈ nodes, ∃ n ≤ m, IsGreatest {n | PathSum next weight c n} n
  reached : m = start ∨ ∃ c ∈ nodes, PathSum next weight c m

theorem GreatestOf.nil (start : Nat) : GreatestOf next weight [] start start :=
  ⟨Nat.le_refl _, nofun, .inl rfl⟩

theorem GreatestOf.cons {nodes : List V} {start n m : Nat}
    (hn : IsGreatest {n | PathSum next weight c n} n)
    (h : GreatestOf next weight nodes (max start n) m) :
    GreatestOf next weight (c :: nodes) start m := by
  refine ⟨Nat.le_trans (Nat.le_max_left _ _) h.start_le, fun d hd => ?_, ?_⟩
  · rcases List.mem_cons.mp hd with rfl | hd
    · exact ⟨n, Nat.le_trans (Nat.le_max_right _ _) h.start_le, hn⟩
    · exact h.bounds d hd
  · rcases h.reached with rfl | ⟨d, hd, hsum⟩
    · rcases Nat.le_total start n with hle | hle
      · exact .inr ⟨c, List.mem_cons_self, by rw [Nat.max_eq_right hle]; exact hn.1⟩
      · exact .inl (Nat.max_eq_left hle)
    · exact .inr ⟨d, List.mem_cons_of_mem c hd, hsum⟩

/-- The greatest sum of a node is its weight and the greatest sum of its successors. -/
theorem GreatestOf.isGreatest {m : Nat} (h : GreatestOf next weight (next v) 0 m) :
    IsGreatest {n | PathSum next weight v n} (weight v + m) := by
  refine ⟨?_, fun n hn => ?_⟩
  · rcases h.reached with rfl | ⟨c, hc, hsum⟩
    · exact PathSum.last v
    · exact PathSum.step hc hsum
  · cases hn with
    | last => exact Nat.le_add_right _ _
    | step hc hsum =>
      obtain ⟨top, hle, htop⟩ := h.bounds _ hc
      exact Nat.add_le_add_left (Nat.le_trans (htop.2 hsum) hle) _

end DiveCANHead.Lib
