import Mathlib.Algebra.Field.Defs
import Mathlib.Data.Nat.Notation

/-!
# Index loops that may fault

`scan a b f s` is the loop `for (i = a; i < b; ++i)` over a state, where a turn may fault: it reads
an element that is not there, or divides by zero. What every turn keeps, and does without a fault,
the whole loop keeps; and a change of data that every turn commutes with, the whole loop does.
-/

namespace DiveCANHead.Lib

universe u v w

variable {σ : Type u} {τ : Type v}

/-- The indices of `for (i = a; i < b; ++i)`. -/
def indices (a b : ℕ) : List ℕ :=
  List.range' a (b - a)

theorem mem_indices {a b i : ℕ} : i ∈ indices a b ↔ a ≤ i ∧ i < b := by
  simp only [indices, List.mem_range'_1]
  omega

@[simp]
theorem indices_self (a : ℕ) : indices a a = [] := by
  simp [indices]

theorem indices_cons {a b : ℕ} (h : a < b) : indices a b = a :: indices (a + 1) b := by
  rw [indices, show b - a = b - (a + 1) + 1 by omega, List.range'_succ, indices]

/-- The loop over the indices from `a` to `b - 1`, in order. -/
def scan (a b : ℕ) (f : σ → ℕ → Option σ) (s : σ) : Option σ :=
  (indices a b).foldlM f s

@[simp]
theorem scan_self (a : ℕ) (f : σ → ℕ → Option σ) (s : σ) : scan a a f s = some s := by
  simp [scan]

theorem scan_cons {a b : ℕ} (h : a < b) (f : σ → ℕ → Option σ) (s : σ) :
    scan a b f s = (f s a).bind fun t => scan (a + 1) b f t := by
  simp [scan, indices_cons h, bind]

/-- A loop whose turns do not fault where the invariant holds, and keep it, does not fault and ends
in the invariant. -/
theorem scan_inv {a b : ℕ} {f : σ → ℕ → Option σ} {I : ℕ → σ → Prop} (hab : a ≤ b)
    (hturn : ∀ i s, a ≤ i → i < b → I i s → ∃ t, f s i = some t ∧ I (i + 1) t) {s : σ}
    (hs : I a s) : ∃ t, scan a b f s = some t ∧ I b t := by
  induction hab using Nat.decreasingInduction generalizing s with
  | self => exact ⟨s, scan_self b f s, hs⟩
  | of_succ a hab ih =>
    obtain ⟨t, ht, hit⟩ := hturn a s (Nat.le_refl a) hab hs
    obtain ⟨r, hr, hir⟩ := ih (fun i s hi => hturn i s (Nat.le_of_succ_le hi)) hit
    exact ⟨r, by rw [scan_cons hab, ht, Option.bind_some, hr], hir⟩

/-- Two loops whose turns go together under `h` end together under it. -/
theorem scan_map {a b : ℕ} {f : σ → ℕ → Option σ} {g : τ → ℕ → Option τ} (h : ℕ → σ → τ)
    (hab : a ≤ b) (hturn : ∀ i s, a ≤ i → i < b → g (h i s) i = (f s i).map (h (i + 1))) (s : σ) :
    scan a b g (h a s) = (scan a b f s).map (h b) := by
  induction hab using Nat.decreasingInduction generalizing s with
  | self => simp
  | of_succ a hab ih =>
    rw [scan_cons hab, scan_cons hab, hturn a s (Nat.le_refl a) hab]
    cases f s a with
    | none => rfl
    | some t => exact ih (fun i s hi => hturn i s (Nat.le_of_succ_le hi)) t

/-- `scan_map` where the change does not depend on the turn. -/
theorem scan_map_const {a b : ℕ} {f : σ → ℕ → Option σ} {g : τ → ℕ → Option τ} (h : σ → τ)
    (hturn : ∀ i s, a ≤ i → i < b → g (h s) i = (f s i).map h) (s : σ) :
    scan a b g (h s) = (scan a b f s).map h := by
  rcases Nat.le_total a b with hab | hab
  · exact scan_map (fun _ => h) hab hturn s
  · simp [scan, indices, Nat.sub_eq_zero_of_le hab]

/-- The first index from `a` to `b - 1` that passes the test, or `d`. -/
def search (p : ℕ → Option Bool) (d : ℕ) : List ℕ → Option ℕ
  | [] => some d
  | i :: is => do
    if ← p i then some i else search p d is

/-- A search whose tests do not fault does not fault, and finds one of the indices that passes. -/
theorem search_spec {p : ℕ → Option Bool} {d : ℕ} : ∀ {is : List ℕ},
    (∀ i ∈ is, ∃ b, p i = some b) →
      ∃ r, search p d is = some r ∧ (r = d ∨ (r ∈ is ∧ p r = some true))
  | [], _ => ⟨d, rfl, .inl rfl⟩
  | i :: is, h => by
    obtain ⟨b, hb⟩ := h i List.mem_cons_self
    cases b with
    | true => exact ⟨i, by simp [search, hb], .inr ⟨List.mem_cons_self, hb⟩⟩
    | false =>
      obtain ⟨r, hr, hcases⟩ := search_spec (d := d) fun j hj => h j (List.mem_cons_of_mem i hj)
      refine ⟨r, by simp [search, hb, hr], hcases.imp_right ?_⟩
      rintro ⟨hmem, hp⟩
      exact ⟨List.mem_cons_of_mem i hmem, hp⟩

/-- Searches whose tests agree agree. -/
theorem search_congr {p q : ℕ → Option Bool} {d : ℕ} : ∀ {is : List ℕ},
    (∀ i ∈ is, p i = q i) → search p d is = search q d is
  | [], _ => rfl
  | i :: is, h => by
    have hrest : search p d is = search q d is :=
      search_congr fun j hj => h j (List.mem_cons_of_mem i hj)
    simp [search, h i List.mem_cons_self, hrest]

/-- A computation that does not fault, before one that does not where the first ends. -/
theorem bind_some_of {x : Option σ} {f : σ → Option τ} {P : σ → Prop} {Q : τ → Prop}
    (hx : ∃ a, x = some a ∧ P a) (hf : ∀ a, P a → ∃ b, f a = some b ∧ Q b) :
    ∃ b, x.bind f = some b ∧ Q b := by
  obtain ⟨a, rfl, ha⟩ := hx
  exact hf a ha

/-- What is seen of a computation is seen alike where it is of the rest. -/
theorem map_bind_congr {α β ρ : Type u} {x : Option α} {f g : α → Option β} {h : β → ρ}
    (hfg : ∀ a, (f a).map h = (g a).map h) : (x >>= f).map h = (x >>= g).map h := by
  cases x with
  | none => rfl
  | some a => exact hfg a

section Division

variable {K : Type w} [Field K] [DecidableEq K]

/-- Division that faults on zero. -/
def divide (a b : K) : Option K :=
  if b = 0 then none else some (a / b)

theorem divide_eq_some {a b : K} (h : b ≠ 0) : divide a b = some (a / b) :=
  if_neg h

end Division

end DiveCANHead.Lib
