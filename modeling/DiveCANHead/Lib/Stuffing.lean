import Mathlib.Data.List.Basic
import Mathlib.Tactic.Common

/-!
# Byte stuffing

A list is freed of the `stop` mark by an escape: `stop` and `esc` each become `esc` and a letter of
their own. What is stuffed can be ended by `stop`, and is read back as it was.
-/

namespace DiveCANHead.Lib

universe u

/-- The four letters; nothing that stands for another letter is `stop`. -/
structure Marks (α : Type u) where
  stop : α
  esc : α
  stuffedStop : α
  stuffedEsc : α
  esc_ne : esc ≠ stop
  stuffedStop_ne : stuffedStop ≠ stop
  stuffedEsc_ne : stuffedEsc ≠ stop
  stuffed_ne : stuffedStop ≠ stuffedEsc

namespace Marks

variable {α : Type u} [DecidableEq α] (m : Marks α)

/-- What one letter becomes. -/
def stuffed (a : α) : List α :=
  if a = m.stop then [m.esc, m.stuffedStop]
  else if a = m.esc then [m.esc, m.stuffedEsc]
  else [a]

def stuff (as : List α) : List α := as.flatMap m.stuffed

/-- What was stuffed; `none` where no list becomes this. -/
def unstuff (escaped : Bool) : List α → Option (List α)
  | [] => if escaped then none else some []
  | a :: as =>
    if escaped then
      if a = m.stuffedStop then (unstuff false as).map (m.stop :: ·)
      else if a = m.stuffedEsc then (unstuff false as).map (m.esc :: ·)
      else none
    else if a = m.esc then unstuff true as
    else if a = m.stop then none
    else (unstuff false as).map (a :: ·)

@[simp] theorem stuff_nil : m.stuff [] = [] := rfl

@[simp] theorem stuff_cons (a : α) (as : List α) : m.stuff (a :: as) = m.stuffed a ++ m.stuff as :=
  List.flatMap_cons

theorem stop_notMem_stuff (as : List α) : m.stop ∉ m.stuff as := by
  intro h
  obtain ⟨a, -, ha⟩ := List.mem_flatMap.mp h
  unfold stuffed at ha
  split at ha
  · simp [m.esc_ne.symm, m.stuffedStop_ne.symm] at ha
  split at ha
  · simp [m.esc_ne.symm, m.stuffedEsc_ne.symm] at ha
  · next hstop _ => exact hstop (List.mem_singleton.mp ha).symm

theorem unstuff_stuffed (a : α) (as : List α) :
    m.unstuff false (m.stuffed a ++ as) = (m.unstuff false as).map (a :: ·) := by
  unfold stuffed
  split
  · next h => simp [unstuff, h]
  split
  · next h => simp [unstuff, h, m.stuffed_ne.symm]
  · next hstop hesc => simp [unstuff, hstop, hesc]

/-- What is stuffed is read back as it was. -/
theorem unstuff_stuff (as : List α) : m.unstuff false (m.stuff as) = some as := by
  induction as with
  | nil => rfl
  | cons a as ih => rw [stuff_cons, unstuff_stuffed, ih, Option.map_some]

/-- What reads back as a list is that list stuffed. -/
theorem stuff_unstuff {as bs : List α} (h : m.unstuff false as = some bs) : m.stuff bs = as := by
  suffices hboth : ∀ escaped bs, m.unstuff escaped as = some bs →
      m.stuff bs = if escaped then m.esc :: as else as from hboth false bs h
  clear h bs
  induction as with
  | nil =>
    intro escaped bs h
    cases escaped with
    | false =>
      obtain rfl := Option.some.inj h
      rfl
    | true => cases h
  | cons a as ih =>
    intro escaped bs h
    cases escaped with
    | true =>
      simp only [unstuff, if_true] at h
      split at h
      · next ha =>
        obtain ⟨cs, hcs, rfl⟩ := Option.map_eq_some_iff.mp h
        simp [ih false cs hcs, stuffed, ha]
      split at h
      · next ha =>
        obtain ⟨cs, hcs, rfl⟩ := Option.map_eq_some_iff.mp h
        simp [ih false cs hcs, stuffed, ha, m.esc_ne]
      · cases h
    | false =>
      simp only [unstuff, Bool.false_eq_true, if_false] at h
      split at h
      · next ha => simp [ih true bs h, ha]
      split at h
      · cases h
      · next hesc hstop =>
        obtain ⟨cs, hcs, rfl⟩ := Option.map_eq_some_iff.mp h
        simp [ih false cs hcs, stuffed, hesc, hstop]

theorem unstuff_eq_some {as bs : List α} : m.unstuff false as = some bs ↔ as = m.stuff bs :=
  ⟨fun h => (m.stuff_unstuff h).symm, fun h => h ▸ m.unstuff_stuff bs⟩

end Marks

end DiveCANHead.Lib
