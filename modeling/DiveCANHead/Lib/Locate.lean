import Mathlib.Data.List.Infix
import Mathlib.Tactic.Common

/-!
# Segments of a list, located by elements that occur once

A list is read in three parts, `u ++ v ++ w`. A segment that starts at an element
that occurs once lies in the middle part when that part reaches far enough.
-/

namespace DiveCANHead.Lib

universe u

variable {α : Type u} {pre mid post u v w : List α} {s t : α}

/-- Splitting at an element that occurs once: where it lies decides the split. -/
theorem split_of_mem_middle (h : pre ++ s :: post = u ++ v ++ w) (hpre : s ∉ pre)
    (hpost : s ∉ post) (hs : s ∈ v) :
    ∃ v₁ v₂, v = v₁ ++ s :: v₂ ∧ pre = u ++ v₁ ∧ post = v₂ ++ w := by
  obtain ⟨v₁, v₂, rfl⟩ := List.append_of_mem hs
  have hsplit : u ++ v₁ ++ s :: (v₂ ++ w) = pre ++ s :: post := by
    rw [h]
    simp
  obtain ⟨rfl, -, rfl⟩ := (List.append_cons_inj_of_notMem hpre hpost).mp hsplit.symm
  exact ⟨v₁, v₂, rfl, rfl, rfl⟩

/-- A segment between two elements that occur once lies in the middle part
exactly when both of them do. -/
theorem infix_middle_iff (h : pre ++ s :: (mid ++ t :: post) = u ++ v ++ w) (hspre : s ∉ pre)
    (hspost : s ∉ mid ++ t :: post) (htpre : t ∉ pre ++ s :: mid) (htpost : t ∉ post) :
    s :: (mid ++ [t]) <:+: v ↔ s ∈ v ∧ t ∈ v := by
  constructor
  · intro hin
    exact ⟨hin.subset List.mem_cons_self, hin.subset (by simp)⟩
  · rintro ⟨hs, ht⟩
    obtain ⟨v₁, v₂, rfl, rfl, hrest⟩ := split_of_mem_middle h hspre hspost hs
    have ht₂ : t ∈ v₂ := by
      rcases List.mem_append.mp ht with ht | ht
      · exact absurd (List.mem_append_left _ (List.mem_append_right _ ht)) htpre
      · rcases List.mem_cons.mp ht with rfl | ht
        · exact absurd (List.mem_append_right _ List.mem_cons_self) htpre
        · exact ht
    have hmid : t ∉ mid := fun hm =>
      htpre (List.mem_append_right _ (List.mem_cons_of_mem _ hm))
    obtain ⟨w₁, w₂, rfl, rfl, -⟩ := split_of_mem_middle (u := []) (by simpa using hrest) hmid
      htpost ht₂
    exact ⟨v₁, w₂, by simp⟩

/-- A segment from an element that occurs once lies in a middle part that holds
the element exactly when what follows this part is left over by the segment. -/
theorem infix_middle_iff_suffix (h : pre ++ s :: (mid ++ post) = u ++ v ++ w) (hspre : s ∉ pre)
    (hspost : s ∉ mid ++ post) (hs : s ∈ v) : s :: mid <:+: v ↔ w <:+ post := by
  obtain ⟨v₁, v₂, rfl, rfl, hrest⟩ := split_of_mem_middle h hspre hspost hs
  have hs₁ : s ∉ v₁ := fun hm => hspre (List.mem_append_right _ hm)
  have hs₂ : s ∉ v₂ := fun hm => hspost (by rw [hrest]; exact List.mem_append_left _ hm)
  constructor
  · rintro ⟨x, y, hxy⟩
    have halign : x ++ s :: (mid ++ y) = v₁ ++ s :: v₂ := by
      rw [← hxy]
      simp
    obtain ⟨-, -, rfl⟩ := (List.append_cons_inj_of_notMem hs₁ hs₂).mp halign.symm
    rw [List.append_assoc] at hrest
    exact ⟨y, (List.append_cancel_left hrest).symm⟩
  · rintro ⟨y, rfl⟩
    rw [← List.append_assoc] at hrest
    have hv₂ := List.append_cancel_right hrest
    exact ⟨v₁, y, by rw [← hv₂]; simp⟩

end DiveCANHead.Lib
