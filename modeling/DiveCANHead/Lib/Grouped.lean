import Mathlib.Data.List.Induction
import Mathlib.Data.List.Nodup

/-!
# Grouping

`groupsOf key l` are the elements of `l` by their key, the keys in the order in which they first
come and the elements of a key in the order of `l`: what a loop that appends to the entries of an
insertion-ordered map leaves.
-/

namespace DiveCANHead.Lib

universe u v w

variable {α : Type u} {β : Type v} {κ : Type w} [DecidableEq κ]

/-! ## First occurrences -/

/-- One more element is kept if it is a new one. -/
theorem eraseDups_concat (l : List κ) (a : κ) :
    (l ++ [a]).eraseDups = if a ∈ l.eraseDups then l.eraseDups else l.eraseDups ++ [a] := by
  rw [List.eraseDups_append]
  by_cases hold : a ∈ l
  · simp [List.removeAll, hold]
  · simp [List.removeAll, hold, List.eraseDups_cons]

theorem nodup_eraseDups (l : List κ) : l.eraseDups.Nodup := by
  induction l using List.reverseRecOn with
  | nil => exact List.nodup_nil
  | append_singleton l a ih =>
    rw [eraseDups_concat]
    split
    · exact ih
    · rename_i hnew
      refine List.nodup_append.mpr ⟨ih, List.nodup_singleton a, fun b hb c hc => ?_⟩
      rw [List.mem_singleton.mp hc]
      rintro rfl
      exact hnew hb

/-! ## Groups -/

/-- An element goes to the group of its key, and opens it where there is none. -/
def insertGroup (key : α → κ) (a : α) : List (κ × List α) → List (κ × List α)
  | [] => [(key a, [a])]
  | (k, g) :: groups =>
    if k = key a then (k, g ++ [a]) :: groups else (k, g) :: insertGroup key a groups

/-- The groups of a list. -/
def groupsOf (key : α → κ) (l : List α) : List (κ × List α) :=
  l.foldl (fun groups a => insertGroup key a groups) []

theorem groupsOf_concat (key : α → κ) (l : List α) (a : α) :
    groupsOf key (l ++ [a]) = insertGroup key a (groupsOf key l) := by
  rw [groupsOf, List.foldl_append]
  rfl

/-- An element changes the group of its key only. -/
theorem insertGroup_map (key : α → κ) (a : α) (l : List α) {ks : List κ} (hnodup : ks.Nodup)
    (hkeys : key a ∉ ks → l.filter (fun b => key b = key a) = []) :
    insertGroup key a (ks.map fun k => (k, l.filter fun b => key b = k)) =
      (if key a ∈ ks then ks else ks ++ [key a]).map fun k =>
        (k, (l ++ [a]).filter fun b => key b = k) := by
  have hother : ∀ k, k ≠ key a → (l ++ [a]).filter (fun b => key b = k) =
      l.filter (fun b => key b = k) := fun k hk => by
    simp [List.filter_append, hk.symm]
  have hown : (l ++ [a]).filter (fun b => key b = key a) =
      l.filter (fun b => key b = key a) ++ [a] := by
    simp [List.filter_append]
  induction ks with
  | nil =>
    rw [if_neg List.not_mem_nil, List.nil_append, List.map_singleton, hown,
      hkeys List.not_mem_nil]
    rfl
  | cons k ks ih =>
    obtain ⟨hfirst, hrest⟩ := List.nodup_cons.mp hnodup
    rw [List.map_cons, insertGroup]
    by_cases hk : k = key a
    · subst hk
      have hothers : ks.map (fun k => (k, l.filter fun b => key b = k)) =
          ks.map fun k => (k, (l ++ [a]).filter fun b => key b = k) :=
        List.map_congr_left fun k hk => by
          rw [hother k fun h => hfirst (h ▸ hk)]
      rw [if_pos rfl, if_pos List.mem_cons_self, List.map_cons, hown, hothers]
    · have hrestKeys : key a ∉ ks → l.filter (fun b => key b = key a) = [] := fun h =>
        hkeys fun hmem => (List.mem_cons.mp hmem).elim (fun he => hk he.symm) h
      rw [if_neg hk, ih hrest hrestKeys]
      by_cases hmem : key a ∈ ks
      · rw [if_pos hmem, if_pos (List.mem_cons_of_mem k hmem), List.map_cons, hother k hk]
      · have hnew : key a ∉ k :: ks := fun h =>
          (List.mem_cons.mp h).elim (fun he => hk he.symm) hmem
        rw [if_neg hmem, if_neg hnew, List.cons_append, List.map_cons, hother k hk]

/-- The groups are the keys, each once, with their elements. -/
theorem groupsOf_eq (key : α → κ) (l : List α) :
    groupsOf key l = (l.map key).eraseDups.map fun k => (k, l.filter fun b => key b = k) := by
  induction l using List.reverseRecOn with
  | nil => rfl
  | append_singleton l a ih =>
    have hkeys : key a ∉ (l.map key).eraseDups → l.filter (fun b => key b = key a) = [] := by
      intro h
      refine List.filter_eq_nil_iff.mpr fun b hb he => h ?_
      rw [← of_decide_eq_true he]
      exact List.mem_eraseDups.mpr (List.mem_map_of_mem hb)
    rw [groupsOf_concat, ih, insertGroup_map key a l (nodup_eraseDups _) hkeys, List.map_append,
      List.map_singleton, eraseDups_concat]

/-- No key has two groups. -/
theorem nodup_keys_groupsOf (key : α → κ) (l : List α) :
    ((groupsOf key l).map Prod.fst).Nodup := by
  have hkeys : (groupsOf key l).map Prod.fst = (l.map key).eraseDups := by
    rw [groupsOf_eq, List.map_map]
    exact List.map_id _
  rw [hkeys]
  exact nodup_eraseDups _

/-- A change of the elements that keeps their keys goes through. -/
theorem groupsOf_map (f : α → β) (key : β → κ) (l : List α) :
    groupsOf key (l.map f) = (groupsOf (fun a => key (f a)) l).map fun group =>
      (group.1, group.2.map f) := by
  rw [groupsOf_eq, groupsOf_eq, List.map_map, List.map_map]
  refine List.map_congr_left fun k _ => ?_
  rw [List.filter_map]
  rfl

theorem group_eq_filter {key : α → κ} {l : List α} {k : κ} {g : List α}
    (h : (k, g) ∈ groupsOf key l) : g = l.filter fun b => key b = k := by
  rw [groupsOf_eq] at h
  obtain ⟨k', -, he⟩ := List.mem_map.mp h
  obtain ⟨rfl, rfl⟩ := Prod.mk.inj he
  rfl

end DiveCANHead.Lib
