import Mathlib.Data.List.Basic
import Mathlib.Tactic.Common

/-!
# Batches that stop at the first bad element

Elements come in batches, and of each batch those before the first bad one are handed on. Nothing
good is lost where no good element comes after a bad one, and only there if all come in one batch.
-/

namespace DiveCANHead.Lib

universe u v

variable {α : Type u} {β : Type v} {p : α → Bool} {l : List α}

/-- No good element comes after a bad one. -/
def GoodFirst (p : α → Bool) (l : List α) : Prop := l.Pairwise fun a b => p a = true ∨ p b = false

theorem takeWhile_eq_filter (h : GoodFirst p l) : l.takeWhile p = l.filter p := by
  induction l with
  | nil => rfl
  | cons a l ih =>
    obtain ⟨hall, h⟩ := List.pairwise_cons.mp h
    cases ha : p a with
    | true => rw [List.takeWhile_cons_of_pos ha, List.filter_cons_of_pos ha, ih h]
    | false =>
      have hnone : l.filter p = [] := List.filter_eq_nil_iff.mpr fun b hb => by
        rcases hall b hb with h | h
        · exact absurd (h.symm.trans ha) nofun
        · rw [h]
          exact Bool.false_ne_true
      rw [List.takeWhile_cons_of_neg (by rw [ha]; exact Bool.false_ne_true),
        List.filter_cons_of_neg (by rw [ha]; exact Bool.false_ne_true), hnone]

/-- If as many are handed on as there are good ones, no good one comes after a bad one. -/
theorem goodFirst_of_length (h : (l.takeWhile p).length = (l.filter p).length) :
    GoodFirst p l := by
  induction l with
  | nil => exact List.Pairwise.nil
  | cons a l ih =>
    cases ha : p a with
    | true =>
      rw [List.takeWhile_cons_of_pos ha, List.filter_cons_of_pos ha] at h
      exact List.pairwise_cons.mpr ⟨fun _ _ => .inl ha, ih (Nat.succ.inj h)⟩
    | false =>
      have hneg : ¬p a = true := by
        rw [ha]
        exact Bool.false_ne_true
      rw [List.takeWhile_cons_of_neg hneg, List.filter_cons_of_neg hneg] at h
      have hnone := List.filter_eq_nil_iff.mp (List.length_eq_zero_iff.mp h.symm)
      have hfalse : ∀ b ∈ l, p b = false := fun b hb => Bool.eq_false_iff.mpr (hnone b hb)
      exact List.pairwise_cons.mpr ⟨fun b hb => .inr (hfalse b hb),
        List.pairwise_of_forall_mem_list fun _ _ b hb => .inr (hfalse b hb)⟩

/-- Lists that are pointwise no shorter, and together as long, are pointwise as long. -/
theorem length_eq_of_flatMap {f g : α → List β} (hle : ∀ a ∈ l, (g a).length ≤ (f a).length)
    (h : (l.flatMap f).length ≤ (l.flatMap g).length) :
    ∀ a ∈ l, (f a).length = (g a).length := by
  have hsum : ∀ l : List α, (∀ a ∈ l, (g a).length ≤ (f a).length) →
      (l.flatMap g).length ≤ (l.flatMap f).length := by
    intro l hle
    induction l with
    | nil => exact Nat.le_refl _
    | cons a l ih =>
      rw [List.flatMap_cons, List.flatMap_cons, List.length_append, List.length_append]
      exact Nat.add_le_add (hle a List.mem_cons_self) (ih fun b hb => hle b (.tail a hb))
  induction l with
  | nil => exact nofun
  | cons a l ih =>
    rw [List.flatMap_cons, List.flatMap_cons, List.length_append, List.length_append] at h
    have hhead := hle a List.mem_cons_self
    have htail := hsum l fun b hb => hle b (.tail a hb)
    intro b hb
    rcases List.mem_cons.mp hb with rfl | hb
    · omega
    · exact ih (fun b hb => hle b (.tail a hb)) (by omega) b hb

end DiveCANHead.Lib
