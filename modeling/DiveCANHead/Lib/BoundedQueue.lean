/-!
# A bounded first-in first-out queue

`put` refuses when the queue is full and `get` takes the oldest entry, as the
non-blocking operations of a message queue do.
-/

namespace DiveCANHead.Lib

universe u

/-- A queue of at most `cap` entries, oldest first. -/
structure BoundedQueue (α : Type u) (cap : Nat) where
  items : List α
  bound : items.length ≤ cap
  deriving DecidableEq, Repr

namespace BoundedQueue

variable {α : Type u} {cap : Nat}

def empty : BoundedQueue α cap := ⟨[], Nat.zero_le cap⟩

def full (q : BoundedQueue α cap) : Bool := q.items.length = cap

def put (q : BoundedQueue α cap) (x : α) : Option (BoundedQueue α cap) :=
  if h : q.items.length < cap then some ⟨q.items ++ [x], by simpa using Nat.succ_le_of_lt h⟩
  else none

def get (q : BoundedQueue α cap) : Option (α × BoundedQueue α cap) :=
  match q with
  | ⟨[], _⟩ => none
  | ⟨x :: rest, h⟩ => some (x, ⟨rest, Nat.le_of_succ_le h⟩)

theorem put_of_full {q : BoundedQueue α cap} (h : q.full = true) (x : α) : q.put x = none := by
  have hlen : q.items.length = cap := of_decide_eq_true h
  simp [put, hlen]

theorem put_of_not_full {q : BoundedQueue α cap} (h : q.full = false) (x : α) :
    ∃ r, q.put x = some r ∧ r.items = q.items ++ [x] := by
  have hlen : q.items.length < cap := Nat.lt_of_le_of_ne q.bound (of_decide_eq_false h)
  exact ⟨_, by simp only [put, dif_pos hlen]; rfl, rfl⟩

theorem get_eq_none {q : BoundedQueue α cap} : q.get = none ↔ q.items = [] := by
  obtain ⟨items, h⟩ := q
  cases items <;> simp [get]

theorem get_eq_some {q r : BoundedQueue α cap} {x : α} :
    q.get = some (x, r) ↔ q.items = x :: r.items := by
  obtain ⟨items, h⟩ := q
  obtain ⟨rest, h'⟩ := r
  cases items <;> simp [get]

/-- An entry leaves room for another. -/
theorem not_full_of_get {q r : BoundedQueue α cap} {x : α} (h : q.get = some (x, r)) :
    r.full = false := by
  have hb := q.bound
  rw [get_eq_some.mp h, List.length_cons] at hb
  exact decide_eq_false (Nat.ne_of_lt hb)

end BoundedQueue

end DiveCANHead.Lib
