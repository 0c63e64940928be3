/-!
# Bounded loops that may be left

`loop f n` runs `f 0`, `f 1`, up to `f (n - 1)` on a state; an error leaves the loop. What every
turn keeps holds after the last.
-/

namespace DiveCANHead.Lib

universe u v

variable {σ : Type u} {ε : Type v}

/-- The turns `0` to `n - 1`, in order. -/
def loop (f : Nat → σ → Except ε σ) : Nat → σ → Except ε σ
  | 0, s => .ok s
  | n + 1, s =>
    match loop f n s with
    | .ok t => f n t
    | .error e => .error e

theorem loop_succ {f : Nat → σ → Except ε σ} {n : Nat} {s u : σ} (h : loop f (n + 1) s = .ok u) :
    ∃ t, loop f n s = .ok t ∧ f n t = .ok u := by
  unfold loop at h
  split at h
  · next t ht => exact ⟨t, ht, h⟩
  · cases h

/-- What every turn keeps holds where the loop ends. -/
theorem loop_inv {f : Nat → σ → Except ε σ} {I : Nat → σ → Prop} :
    ∀ {n : Nat} {s t : σ}, (∀ {i s t}, i < n → I i s → f i s = .ok t → I (i + 1) t) →
      I 0 s → loop f n s = .ok t → I n t
  | 0, _, _, _, hi, h => Except.ok.inj h ▸ hi
  | n + 1, _, _, hstep, hi, h => by
    obtain ⟨t, ht, hu⟩ := loop_succ h
    have hprev := loop_inv (fun hlt => hstep (Nat.lt_succ_of_lt hlt)) hi ht
    exact hstep (Nat.lt_succ_self n) hprev hu

theorem loop_congr {f g : Nat → σ → Except ε σ} :
    ∀ {n : Nat} {s : σ}, (∀ {i}, i < n → ∀ s, f i s = g i s) → loop f n s = loop g n s
  | 0, _, _ => rfl
  | n + 1, s, h => by
    have hfirst : loop f n s = loop g n s := loop_congr fun hlt => h (Nat.lt_succ_of_lt hlt)
    rw [loop, loop, hfirst]
    cases loop g n s with
    | ok t => exact h (Nat.lt_succ_self n) t
    | error e => rfl

/-- A loop whose turns succeed where those of another do succeeds with it. -/
theorem loop_ok_mono {f g : Nat → σ → Except ε σ} :
    ∀ {n : Nat} {s t : σ}, (∀ {i s t}, i < n → f i s = .ok t → g i s = .ok t) →
      loop f n s = .ok t → loop g n s = .ok t
  | 0, _, _, _, h => h
  | n + 1, _, _, hturn, h => by
    obtain ⟨u, hu, ht⟩ := loop_succ h
    rw [loop, loop_ok_mono (fun hlt => hturn (Nat.lt_succ_of_lt hlt)) hu]
    exact hturn (Nat.lt_succ_self n) ht

/-- A loop goes on from where its first turns end. -/
theorem loop_add {f : Nat → σ → Except ε σ} {m : Nat} {s : σ} :
    ∀ {n : Nat}, loop f (m + n) s =
      match loop f m s with
      | .ok t => loop (fun i => f (m + i)) n t
      | .error e => .error e
  | 0 => by
    rw [Nat.add_zero]
    cases loop f m s <;> rfl
  | n + 1 => by
    rw [← Nat.add_assoc, loop, loop_add]
    cases loop f m s <;> rfl

/-- Windows that own consecutive turns are one loop over the turns of all of them. -/
theorem loop_windows {g : Nat → σ → Except ε σ} {start : Nat → Nat} {s : σ}
    (hmono : ∀ k, start k ≤ start (k + 1)) (n : Nat) : start 0 ≤ start n ∧
      loop (fun k => loop (fun i => g (start k + i)) (start (k + 1) - start k)) n s =
        loop (fun i => g (start 0 + i)) (start n - start 0) s := by
  induction n with
  | zero => exact ⟨Nat.le_refl _, by rw [Nat.sub_self]; rfl⟩
  | succ n ih =>
    obtain ⟨hle, ih⟩ := ih
    have hnext := hmono n
    refine ⟨Nat.le_trans hle hnext, ?_⟩
    have hcount : start (n + 1) - start 0 = start n - start 0 + (start (n + 1) - start n) := by
      omega
    have hat : ∀ i, start 0 + (start n - start 0 + i) = start n + i := by omega
    rw [loop, ih, hcount, loop_add]
    simp only [hat]

/-! ## Looking for the only place -/

section Only

variable {p : Nat → Prop} {fail : Nat → Nat → ε}

/-- What the search over the places from `a` to before `b` may have come to. -/
def OnlyAmong (p : Nat → Prop) (fail : Nat → Nat → ε) (a b : Nat) :
    Except ε (Option Nat) → Prop
  | .ok none => ∀ i, a ≤ i → i < b → ¬ p i
  | .ok (some j) => a ≤ j ∧ j < b ∧ p j ∧ ∀ i, a ≤ i → i < b → p i → i = j
  | .error e => ∃ i j, a ≤ i ∧ i < j ∧ j < b ∧ p i ∧ p j ∧ e = fail i j

/-- No place. -/
theorem OnlyAmong.none_iff {a b : Nat} {r : Except ε (Option Nat)} (h : OnlyAmong p fail a b r) :
    r = .ok none ↔ ∀ i, a ≤ i → i < b → ¬ p i := by
  match r, h with
  | .ok none, h => exact iff_of_true rfl h
  | .ok (some j), ⟨hle, hlt, hp, _⟩ => exact iff_of_false nofun fun hnone => hnone j hle hlt hp
  | .error _, ⟨i, j, hi, hij, hj, hp, _⟩ =>
    exact iff_of_false nofun fun hnone => hnone i hi (Nat.lt_trans hij hj) hp

/-- One place. -/
theorem OnlyAmong.some_iff {a b j : Nat} {r : Except ε (Option Nat)}
    (h : OnlyAmong p fail a b r) :
    r = .ok (some j) ↔ (a ≤ j ∧ j < b ∧ p j) ∧ ∀ i, a ≤ i → i < b → p i → i = j := by
  match r, h with
  | .ok none, h => exact iff_of_false nofun fun hj => h j hj.1.1 hj.1.2.1 hj.1.2.2
  | .ok (some k), ⟨hle, hlt, hp, honly⟩ =>
    refine ⟨fun heq => ?_, fun hj => ?_⟩
    · cases heq
      exact ⟨⟨hle, hlt, hp⟩, honly⟩
    · rw [hj.2 k hle hlt hp]
  | .error _, ⟨i, k, hi, hik, hk, hp, hpk, _⟩ =>
    refine iff_of_false nofun fun hj => ?_
    have hfirst := hj.2 i hi (Nat.lt_trans hik hk) hp
    have hsecond := hj.2 k (Nat.le_trans hi (Nat.le_of_lt hik)) hk hpk
    exact Nat.ne_of_lt hik (hfirst.trans hsecond.symm)

/-- Two places, or more. -/
theorem OnlyAmong.error_iff {a b : Nat} {r : Except ε (Option Nat)}
    (h : OnlyAmong p fail a b r) :
    (∃ e, r = .error e) ↔ ∃ i j, a ≤ i ∧ i < j ∧ j < b ∧ p i ∧ p j := by
  match r, h with
  | .ok none, h =>
    refine iff_of_false nofun fun ⟨i, j, hi, hij, hj, hp, _⟩ => ?_
    exact h i hi (Nat.lt_trans hij hj) hp
  | .ok (some k), ⟨_, _, _, honly⟩ =>
    refine iff_of_false nofun fun ⟨i, j, hi, hij, hj, hp, hpj⟩ => ?_
    have hfirst := honly i hi (Nat.lt_trans hij hj) hp
    have hsecond := honly j (Nat.le_trans hi (Nat.le_of_lt hij)) hj hpj
    exact Nat.ne_of_lt hij (hfirst.trans hsecond.symm)
  | .error e, ⟨i, j, hi, hij, hj, hp, hpj, _⟩ =>
    exact iff_of_true ⟨e, rfl⟩ ⟨i, j, hi, hij, hj, hp, hpj⟩

/-- One place of the search; a second place where `p` holds is an error. -/
def onlyAt (p : Nat → Prop) [DecidablePred p] (fail : Nat → Nat → ε) (i : Nat)
    (found : Option Nat) : Except ε (Option Nat) :=
  if p i then
    match found with
    | some first => .error (fail first i)
    | none => .ok (some i)
  else .ok found

variable [DecidablePred p]

theorem OnlyAmong.next {a b : Nat} {found : Option Nat} (hle : a ≤ b)
    (h : OnlyAmong p fail a b (.ok found)) :
    OnlyAmong p fail a (b + 1) (onlyAt p fail b found) := by
  unfold onlyAt
  split
  · next hp =>
    cases found with
    | none =>
      refine ⟨hle, Nat.lt_succ_self b, hp, fun i hi hlt hpi => ?_⟩
      exact (Nat.lt_succ_iff_lt_or_eq.mp hlt).resolve_left fun hlt => h i hi hlt hpi
    | some first => exact ⟨first, b, h.1, h.2.1, Nat.lt_succ_self b, h.2.2.1, hp, rfl⟩
  · next hnot =>
    have hbelow : ∀ {i}, i < b + 1 → p i → i < b := fun hlt hpi =>
      (Nat.lt_succ_iff_lt_or_eq.mp hlt).resolve_right fun heq => hnot (heq ▸ hpi)
    cases found with
    | none => exact fun i hi hlt hpi => h i hi (hbelow hlt hpi) hpi
    | some first =>
      obtain ⟨hfirst, hlt, hp, honly⟩ := h
      exact ⟨hfirst, Nat.lt_succ_of_lt hlt, hp, fun i hi hlt hpi =>
        honly i hi (hbelow hlt hpi) hpi⟩

theorem onlyAmong_loop (a n : Nat) :
    OnlyAmong p fail a (a + n) (loop (fun i => onlyAt p fail (a + i)) n none) := by
  induction n with
  | zero => exact fun i hle hlt => absurd hlt (Nat.not_lt_of_le hle)
  | succ n ih =>
    rw [loop]
    cases h : loop (fun i => onlyAt p fail (a + i)) n none with
    | ok found => exact (h ▸ ih).next (Nat.le_add_right a n)
    | error e =>
      obtain ⟨i, j, hi, hij, hj, hrest⟩ := h ▸ ih
      exact ⟨i, j, hi, hij, Nat.lt_succ_of_lt hj, hrest⟩

end Only

end DiveCANHead.Lib
