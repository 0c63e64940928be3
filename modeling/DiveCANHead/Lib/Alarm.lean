import Mathlib.Order.Basic

/-!
# One alarm for many obligations

`due i` is the latest time at which obligation `i` must be met, if it is open.
An alarm covers the obligations when it is set and goes off in time for each of
the open ones.
-/

namespace DiveCANHead.Lib

universe u v

variable {ι : Type u} {α : Type v} [Preorder α] {alarm : Option α} {due due' : ι → Option α}

/-- Every open obligation has the alarm set no later than it is due. -/
def Covers (alarm : Option α) (due : ι → Option α) : Prop :=
  ∀ i d, due i = some d → ∃ a, alarm = some a ∧ a ≤ d

/-- Nothing is open. -/
theorem covers_of_none (h : ∀ i, due i = none) : Covers alarm due := by
  intro i d hd
  rw [h i] at hd
  cases hd

/-- An alarm that goes off in time for every open obligation covers them. -/
theorem covers_some {a : α} (h : ∀ i d, due i = some d → a ≤ d) : Covers (some a) due :=
  fun i d hd => ⟨a, rfl, h i d hd⟩

namespace Covers

/-- Closing obligations keeps the cover. -/
theorem mono (h : Covers alarm due) (hd : ∀ i d, due' i = some d → due i = some d) :
    Covers alarm due' :=
  fun i d hi => h i d (hd i d hi)

/-- Until the alarm goes off no open obligation is late. -/
theorem not_late (h : Covers alarm due) {now : α} (hn : ∀ a, alarm = some a → now ≤ a) {i : ι}
    {d : α} (hd : due i = some d) : now ≤ d := by
  obtain ⟨a, ha, hle⟩ := h i d hd
  exact (hn a ha).trans hle

end Covers

end DiveCANHead.Lib
