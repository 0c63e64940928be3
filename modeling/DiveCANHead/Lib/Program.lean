import Mathlib.Tactic.Common

/-!
# Programs whose states are observed

A `Prog σ α` runs from a state, returns a value and leaves a state; `seen` lists the states it
passes through, so that a power cut or a concurrent reader may find any of them. `Ensures C Q`
says that a program passes through states of `C` only and ends with `Q`.
-/

namespace DiveCANHead.Lib

variable {σ α β : Type}

/-- What a program returned, the state it left and the states it passed through. -/
structure Run (σ α : Type) where
  value : α
  state : σ
  seen : List σ

def Prog (σ α : Type) : Type := σ → Run σ α

namespace Prog

instance : Monad (Prog σ) where
  pure a := fun s => ⟨a, s, []⟩
  bind m f := fun s =>
    match m s with
    | ⟨a, t, seen⟩ =>
      match f a t with
      | ⟨b, u, seen'⟩ => ⟨b, u, seen ++ seen'⟩

/-- Looks at the state. -/
def look (f : σ → α) : Prog σ α := fun s => ⟨f s, s, []⟩

/-- One step, after which the state is observed. -/
def move (f : σ → σ) : Prog σ Unit := fun s => ⟨(), f s, [f s]⟩

/-- Goes on where `m` succeeds. -/
def onSuccess (m rest : Prog σ Int) : Prog σ Int := do
  let rc ← m
  if rc = 0 then rest else pure rc

/-- `do … while`: try number `k`, and `more` at most if it fails. -/
def retry (body : ℕ → Prog σ Int) : ℕ → ℕ → Prog σ Int
  | 0, k => body k
  | more + 1, k => do
    let rc ← body k
    if rc = 0 then pure 0 else retry body more (k + 1)

/-- The passes of `forChunks` from `off` on. -/
def chunksFrom (size total : ℕ) (body : ℕ → ℕ → Prog σ Int) : ℕ → ℕ → Prog σ Int
  | 0, _ => pure 0
  | fuel + 1, off =>
    if off < total then
      (body off (min size (total - off))).onSuccess (chunksFrom size total body fuel (off + size))
    else pure 0

/-- `for (off = 0; 0 == rc && off < total; off += size)`, with a short last chunk. There are no
more passes than `total`. -/
def forChunks (size total : ℕ) (body : ℕ → ℕ → Prog σ Int) : Prog σ Int :=
  chunksFrom size total body total 0

def Ensures (m : Prog σ α) (C : σ → Prop) (Q : α → σ → Prop) (s : σ) : Prop :=
  (∀ t ∈ (m s).seen, C t) ∧ Q (m s).value (m s).state

/-- The postcondition of a program that returns a status. -/
def outcome (G B : σ → Prop) (rc : Int) (t : σ) : Prop := (rc = 0 → G t) ∧ (rc ≠ 0 → B t)

section Rules

variable {C C' G G' B B' : σ → Prop} {Q Q' R : α → σ → Prop} {s : σ}

theorem outcome_zero {t : σ} : outcome G B 0 t ↔ G t := by simp [outcome]

theorem outcome_ne {rc : Int} {t : σ} (h : rc ≠ 0) : outcome G B rc t ↔ B t := by
  simp [outcome, h]

theorem outcome_self {rc : Int} {t : σ} : outcome G G rc t ↔ G t := by
  by_cases h : rc = 0 <;> simp [outcome, h]

theorem Ensures.mono {m : Prog σ α} (h : m.Ensures C Q s) (hC : ∀ t, C t → C' t)
    (hQ : ∀ a t, Q a t → Q' a t) : m.Ensures C' Q' s :=
  ⟨fun t ht => hC t (h.1 t ht), hQ _ _ h.2⟩

theorem Ensures.outcome_mono {m : Prog σ Int} (h : m.Ensures C (outcome G B) s)
    (hC : ∀ t, C t → C' t) (hok : ∀ t, G t → G' t) (hbad : ∀ t, B t → B' t) :
    m.Ensures C' (outcome G' B') s :=
  h.mono hC fun _ t hq => ⟨fun h0 => hok t (hq.1 h0), fun h0 => hbad t (hq.2 h0)⟩

theorem ensures_pure {a : α} (h : Q a s) : (pure a : Prog σ α).Ensures C Q s :=
  ⟨fun _ ht => absurd ht (List.not_mem_nil), h⟩

theorem ensures_look {f : σ → α} (h : Q (f s) s) : (look f).Ensures C Q s :=
  ⟨fun _ ht => absurd ht (List.not_mem_nil), h⟩

theorem ensures_move {f : σ → σ} {P : Unit → σ → Prop} (hC : C (f s)) (h : P () (f s)) :
    (move f).Ensures C P s :=
  ⟨fun _ ht => List.mem_singleton.mp ht ▸ hC, h⟩

theorem Ensures.bind {m : Prog σ α} {f : α → Prog σ β} {P : β → σ → Prop}
    (hm : m.Ensures C R s) (hf : ∀ a t, R a t → (f a).Ensures C P t) :
    (m >>= f).Ensures C P s := by
  obtain ⟨hseen, hr⟩ := hm
  obtain ⟨hseen', hp⟩ := hf _ _ hr
  refine ⟨fun t ht => ?_, hp⟩
  rcases List.mem_append.mp ht with ht | ht
  · exact hseen t ht
  · exact hseen' t ht

theorem Ensures.ite {p : Prop} [Decidable p] {m m' : Prog σ α} (h : p → m.Ensures C Q s)
    (h' : ¬p → m'.Ensures C Q s) : (if p then m else m').Ensures C Q s := by
  by_cases hp : p
  · rw [if_pos hp]
    exact h hp
  · rw [if_neg hp]
    exact h' hp

/-- A status given without a step. -/
theorem ensures_status {rc : Int} (hok : G s) (hbad : B s) :
    (pure rc : Prog σ Int).Ensures C (outcome G B) s :=
  ensures_pure ⟨fun _ => hok, fun _ => hbad⟩

theorem Ensures.onSuccess {m rest : Prog σ Int} {M : σ → Prop}
    (hm : m.Ensures C (outcome M B) s)
    (hrest : ∀ t, M t → rest.Ensures C (outcome G B) t) :
    (m.onSuccess rest).Ensures C (outcome G B) s := by
  refine hm.bind fun rc t h => Ensures.ite (fun h0 => hrest t (h.1 h0)) fun h0 => ?_
  exact ensures_pure ((outcome_ne h0).mpr (h.2 h0))

/-- The first try, and what the others make of its failure. -/
theorem ensures_retry_succ {body : ℕ → Prog σ Int} {M : σ → Prop} {more k : ℕ}
    (hbody : (body k).Ensures C (outcome G M) s)
    (hrest : ∀ t, M t → (retry body more (k + 1)).Ensures C (outcome G B) t) :
    (retry body (more + 1) k).Ensures C (outcome G B) s := by
  refine hbody.bind fun rc t h => Ensures.ite (fun h0 => ?_) fun h0 => hrest t (h.2 h0)
  exact ensures_pure (outcome_zero.mpr (h.1 h0))

/-- A try that fails leaves what the next one starts from. -/
theorem ensures_retry {body : ℕ → Prog σ Int}
    (hbody : ∀ k t, B t → (body k).Ensures C (outcome G B) t) :
    ∀ more k s, B s → (retry body more k).Ensures C (outcome G B) s
  | 0, k, s, hs => hbody k s hs
  | more + 1, k, s, hs =>
    ensures_retry_succ (hbody k s hs) fun t => ensures_retry hbody more (k + 1) t

section Chunks

variable {size total : ℕ} {body : ℕ → ℕ → Prog σ Int} {I : ℕ → σ → Prop}

/-- `I off` holds where the chunks below `off` are done. -/
theorem ensures_chunksFrom (hsize : 0 < size)
    (hbody : ∀ off t, off < total → I off t →
      (body off (min size (total - off))).Ensures C
        (outcome (I (off + min size (total - off))) B) t) :
    ∀ fuel off s, total ≤ off + fuel → I (min off total) s →
      (chunksFrom size total body fuel off).Ensures C (outcome (I total) B) s
  | 0, off, s, hfuel, hs => by
    rw [Nat.add_zero] at hfuel
    exact ensures_pure (outcome_zero.mpr (Nat.min_eq_right hfuel ▸ hs))
  | fuel + 1, off, s, hfuel, hs => by
    refine Ensures.ite (fun hoff => ?_) fun hoff => ?_
    · rw [Nat.min_eq_left (Nat.le_of_lt hoff)] at hs
      refine (hbody off s hoff hs).onSuccess fun t ht => ?_
      refine ensures_chunksFrom hsize hbody fuel (off + size) t (by omega) ?_
      rwa [show min (off + size) total = off + min size (total - off) by omega]
    · exact ensures_pure (outcome_zero.mpr (Nat.min_eq_right (Nat.not_lt.mp hoff) ▸ hs))

theorem ensures_forChunks (hsize : 0 < size)
    (hbody : ∀ off t, off < total → I off t →
      (body off (min size (total - off))).Ensures C
        (outcome (I (off + min size (total - off))) B) t)
    (hs : I 0 s) : (forChunks size total body).Ensures C (outcome (I total) B) s :=
  ensures_chunksFrom hsize hbody total 0 s (by omega) (by rwa [Nat.zero_min])

end Chunks

end Rules

end Prog

end DiveCANHead.Lib
