/-!
# Runs of a machine that may refuse events

A machine is a function `step : σ → ε → Option σ`. `Steps step P s es` says that
`P` holds at every step of the run of `es` from `s`; an event the machine
refuses ends the run.
-/

namespace DiveCANHead.Lib

universe u v

variable {σ : Type u} {ε : Type v} {step : σ → ε → Option σ}

/-- `P` holds at every step of the run of the events from `s`. -/
def Steps (step : σ → ε → Option σ) (P : σ → ε → σ → Prop) : σ → List ε → Prop
  | _, [] => True
  | s, e :: es =>
    match step s e with
    | some t => P s e t ∧ Steps step P t es
    | none => True

/-- The state a run ends in, where no event is refused. -/
def exec (step : σ → ε → Option σ) : σ → List ε → Option σ
  | s, [] => some s
  | s, e :: es => (step s e).bind fun t => exec step t es

theorem steps_cons_some {P : σ → ε → σ → Prop} {s t : σ} {e : ε} {es : List ε}
    (h : step s e = some t) : Steps step P s (e :: es) ↔ P s e t ∧ Steps step P t es := by
  simp only [Steps, h]

theorem steps_cons_none {P : σ → ε → σ → Prop} {s : σ} {e : ε} {es : List ε}
    (h : step s e = none) : Steps step P s (e :: es) := by
  simp only [Steps, h]

/-- A run that goes wrong later goes wrong. -/
theorem not_steps_cons {P : σ → ε → σ → Prop} {s t : σ} {e : ε} {es : List ε}
    (h : step s e = some t) (ht : ¬ Steps step P t es) : ¬ Steps step P s (e :: es) :=
  fun hs => ht ((steps_cons_some h).mp hs).2

instance decidableSteps (P : σ → ε → σ → Prop) [∀ s e t, Decidable (P s e t)] :
    ∀ s es, Decidable (Steps step P s es)
  | _, [] => isTrue trivial
  | s, e :: es =>
    match h : step s e with
    | some t =>
      have : Decidable (Steps step P t es) := decidableSteps P t es
      decidable_of_iff (P s e t ∧ Steps step P t es) (steps_cons_some h).symm
    | none => isTrue (steps_cons_none h)

/-- What holds of every event of a run holds at every step. -/
theorem Steps.of_mem {Q : ε → Prop} :
    ∀ {s : σ} {es : List ε}, (∀ e ∈ es, Q e) → Steps step (fun _ e _ => Q e) s es
  | _, [], _ => trivial
  | s, e :: es, h => by
    cases hs : step s e with
    | none => exact steps_cons_none hs
    | some t =>
      rw [steps_cons_some hs]
      exact ⟨h e List.mem_cons_self, of_mem fun e' he' => h e' (List.mem_cons_of_mem e he')⟩

theorem Steps.mono {P Q : σ → ε → σ → Prop} (h : ∀ {s e t}, P s e t → Q s e t) :
    ∀ {s : σ} {es : List ε}, Steps step P s es → Steps step Q s es
  | _, [], _ => trivial
  | s, e :: es, hp => by
    cases hs : step s e with
    | none => exact steps_cons_none hs
    | some t =>
      rw [steps_cons_some hs] at hp ⊢
      exact ⟨h hp.1, hp.2.mono h⟩

theorem Steps.and {P Q : σ → ε → σ → Prop} :
    ∀ {s : σ} {es : List ε}, Steps step P s es → Steps step Q s es →
      Steps step (fun s e t => P s e t ∧ Q s e t) s es
  | _, [], _, _ => trivial
  | s, e :: es, hp, hq => by
    cases hs : step s e with
    | none => exact steps_cons_none hs
    | some t =>
      rw [steps_cons_some hs] at hp hq ⊢
      exact ⟨⟨hp.1, hq.1⟩, hp.2.and hq.2⟩

theorem Steps.left {P : σ → ε → σ → Prop} :
    ∀ {s : σ} {es es' : List ε}, Steps step P s (es ++ es') → Steps step P s es
  | _, [], _, _ => trivial
  | s, e :: es, es', h => by
    cases hs : step s e with
    | none => exact steps_cons_none hs
    | some t =>
      rw [List.cons_append, steps_cons_some hs] at h
      exact (steps_cons_some hs).mpr ⟨h.1, h.2.left⟩

/-- What holds at every step holds at the last one. -/
theorem Steps.last {P : σ → ε → σ → Prop} {s t u : σ} {es : List ε} {e : ε}
    (h : Steps step P s (es ++ [e])) (ht : exec step s es = some t) (hu : step t e = some u) :
    P t e u := by
  induction es generalizing s with
  | nil =>
    rw [← Option.some.inj ht] at hu ⊢
    exact ((steps_cons_some hu).mp h).1
  | cons e' es ih =>
    obtain ⟨v, hv, ht⟩ := Option.bind_eq_some_iff.mp ht
    rw [List.cons_append, steps_cons_some hv] at h
    exact ih h.2 ht

/-- A run goes on from where its first part ends. -/
theorem exec_append {s t : σ} {es es' : List ε} (h : exec step s es = some t) :
    exec step s (es ++ es') = exec step t es' := by
  induction es generalizing s with
  | nil => rw [List.nil_append, Option.some.inj h]
  | cons e es ih =>
    obtain ⟨u, hu, ht⟩ := Option.bind_eq_some_iff.mp h
    rw [List.cons_append, exec, hu]
    exact ih ht

/-- An invariant of every step holds where a run ends. -/
theorem exec_inv {Inv : σ → Prop} (hstep : ∀ {s e t}, Inv s → step s e = some t → Inv t) :
    ∀ {s t : σ} {es : List ε}, Inv s → exec step s es = some t → Inv t
  | _, _, [], hi, ht => Option.some.inj ht ▸ hi
  | _, _, _ :: _, hi, ht => by
    obtain ⟨_, hu, ht⟩ := Option.bind_eq_some_iff.mp ht
    exact exec_inv hstep (hstep hi hu) ht

section Invariant

variable {Inv : σ → Prop} {Clean : σ → ε → Prop} {Safe : σ → ε → σ → Prop}

/-- If an invariant is kept, and safety follows from it, at every clean step,
then every run of clean steps is safe. -/
theorem Steps.of_inv
    (hstep : ∀ {s e t}, Inv s → Clean s e → step s e = some t → Inv t ∧ Safe s e t) :
    ∀ {s : σ} {es : List ε}, Inv s → Steps step (fun s e _ => Clean s e) s es →
      Steps step Safe s es
  | _, [], _, _ => trivial
  | s, e :: es, hi, hc => by
    cases h : step s e with
    | none => exact steps_cons_none h
    | some t =>
      rw [steps_cons_some h] at hc ⊢
      obtain ⟨hi', hs⟩ := hstep hi hc.1 h
      exact ⟨hs, of_inv hstep hi' hc.2⟩

/-- If under the invariant exactly the clean steps are safe, and keep it, then exactly the runs of
clean steps are safe. -/
theorem Steps.iff_of_inv
    (hstep : ∀ {s e t}, Inv s → step s e = some t →
      (Safe s e t ↔ Clean s e) ∧ (Clean s e → Inv t)) :
    ∀ {s : σ} {es : List ε}, Inv s →
      (Steps step Safe s es ↔ Steps step (fun s e _ => Clean s e) s es)
  | _, [], _ => Iff.rfl
  | s, e :: es, hi => by
    cases h : step s e with
    | none => exact iff_of_true (steps_cons_none h) (steps_cons_none h)
    | some t =>
      obtain ⟨hiff, hkeep⟩ := hstep hi h
      rw [steps_cons_some h, steps_cons_some h, hiff]
      exact and_congr_right fun hc => iff_of_inv hstep (hkeep hc)

/-- The invariant holds where a run of clean steps ends. -/
theorem Steps.inv_exec
    (hstep : ∀ {s e t}, Inv s → Clean s e → step s e = some t → Inv t) :
    ∀ {s t : σ} {es : List ε}, Inv s → Steps step (fun s e _ => Clean s e) s es →
      exec step s es = some t → Inv t
  | _, _, [], hi, _, ht => Option.some.inj ht ▸ hi
  | s, t, e :: es, hi, hc, ht => by
    obtain ⟨u, hu, ht⟩ := Option.bind_eq_some_iff.mp ht
    rw [steps_cons_some hu] at hc
    exact inv_exec hstep (hstep hi hc.1 hu) hc.2 ht

end Invariant

end DiveCANHead.Lib
