import Mathlib.Algebra.BigOperators.Group.Finset.Basic
import Mathlib.Algebra.Order.Field.Basic
import Mathlib.Data.Finset.Card
import Mathlib.Tactic.FieldSimp
import Mathlib.Tactic.Linarith
import Mathlib.Tactic.LinearCombination

/-!
# Voting among at most three readings

`Vote δ p valid ins` admits the outcomes of a vote with deviation bound `δ`:
among three voters the two closest agree first, and the third is in when it is
near their mean. The relation names no voter, so it is carried along by every
relabelling; it leaves the outcome open only where two pairs are equally close
(`Contested`).
-/

namespace DiveCANHead.Lib

section Voting

variable {ι : Type*} [DecidableEq ι] {K : Type*} [Field K] [LinearOrder K]

/-- How far two readings are apart. -/
def gap (p : ι → K) (a b : ι) : K := |p a - p b|

/-- The mean reading of a set of voters. -/
def mean (p : ι → K) (s : Finset ι) : K := (∑ i ∈ s, p i) / s.card

/-- Of the three voters, no two are closer than `a` and `b`. -/
structure Closest (p : ι → K) (a b c : ι) : Prop where
  ab : a ≠ b
  ac : a ≠ c
  bc : b ≠ c
  le_ac : gap p a b ≤ gap p a c
  le_bc : gap p a b ≤ gap p b c

/-- The voters that a vote among `valid` may let in. -/
inductive Vote (δ : K) (p : ι → K) (valid : Finset ι) : Finset ι → Prop where
  | few (h : valid.card ≤ 1) : Vote δ p valid ∅
  | scattered (h : 2 ≤ valid.card)
      (far : ∀ a ∈ valid, ∀ b ∈ valid, a ≠ b → δ < gap p a b) : Vote δ p valid ∅
  | pair {a b : ι} (hab : a ≠ b) (hv : valid = {a, b}) (near : gap p a b ≤ δ) :
      Vote δ p valid valid
  | outlier {a b c : ι} (h : Closest p a b c) (hv : valid = {a, b, c}) (near : gap p a b ≤ δ)
      (far : δ < |p c - mean p {a, b}|) : Vote δ p valid {a, b}
  | agreed {a b c : ι} (h : Closest p a b c) (hv : valid = {a, b, c}) (near : gap p a b ≤ δ)
      (all : |p c - mean p {a, b}| ≤ δ) : Vote δ p valid valid

/-- Two pairs are equally close, and the voter they leave out is too far from either. -/
def Contested (δ : K) (p : ι → K) (valid : Finset ι) : Prop :=
  ∃ a b c, a ≠ b ∧ a ≠ c ∧ b ≠ c ∧ valid = {a, b, c} ∧ p b - p a = p c - p b ∧
    2 • δ < 3 • (p b - p a) ∧ p b - p a ≤ δ

omit [DecidableEq ι] in
theorem gap_comm (p : ι → K) (a b : ι) : gap p a b = gap p b a := abs_sub_comm _ _

omit [DecidableEq ι] [LinearOrder K] in
theorem mean_congr {p q : ι → K} {s : Finset ι} (h : ∀ i ∈ s, p i = q i) :
    mean p s = mean q s := by
  rw [mean, mean, Finset.sum_congr rfl h]

omit [DecidableEq ι] [LinearOrder K] in
theorem mean_map {ι' : Type*} (p : ι' → K) (e : ι ≃ ι') (s : Finset ι) :
    mean p (s.map e.toEmbedding) = mean (p ∘ e) s := by
  rw [mean, mean, Finset.sum_map, Finset.card_map]
  rfl

omit [LinearOrder K] in
theorem mean_pair (p : ι → K) {a b : ι} (h : a ≠ b) : mean p {a, b} = (p a + p b) / 2 := by
  rw [mean, Finset.sum_pair h, Finset.card_pair h, Nat.cast_ofNat]

omit [LinearOrder K] in
theorem mean_triple (p : ι → K) {a b c : ι} (hab : a ≠ b) (hac : a ≠ c) (hbc : b ≠ c) :
    mean p {a, b, c} = (p a + p b + p c) / 3 := by
  rw [mean, Finset.sum_insert (by simp [hab, hac]), Finset.sum_pair hbc,
    Finset.card_eq_three.mpr ⟨a, b, c, hab, hac, hbc, rfl⟩, Nat.cast_ofNat, add_assoc]

omit [DecidableEq ι] in
theorem Closest.symm {p : ι → K} {a b c : ι} (h : Closest p a b c) : Closest p b a c :=
  ⟨h.ab.symm, h.bc, h.ac, gap_comm p b a ▸ h.le_bc, gap_comm p b a ▸ h.le_ac⟩

theorem Vote.subset {δ : K} {p : ι → K} {valid ins : Finset ι} (h : Vote δ p valid ins) :
    ins ⊆ valid := by
  cases h with
  | few | scattered => exact Finset.empty_subset _
  | pair | agreed => exact Finset.Subset.refl _
  | outlier h hv =>
    rw [hv]
    intro i hi
    simp only [Finset.mem_insert, Finset.mem_singleton] at hi ⊢
    tauto

/-- A vote lets in nobody, two or three. -/
theorem Vote.card {δ : K} {p : ι → K} {valid ins : Finset ι} (h : Vote δ p valid ins) :
    ins.card = 0 ∨ ins.card = 2 ∨ ins.card = 3 := by
  cases h with
  | few | scattered => exact .inl Finset.card_empty
  | pair hab hv => exact .inr (.inl (hv ▸ Finset.card_pair hab))
  | outlier h => exact .inr (.inl (Finset.card_pair h.ab))
  | agreed h hv =>
    exact .inr (.inr (Finset.card_eq_three.mpr ⟨_, _, _, h.ab, h.ac, h.bc, hv⟩))

/-- Nobody is let in when all are too far apart. -/
theorem Vote.eq_empty {δ : K} {p : ι → K} {valid ins : Finset ι} (h : Vote δ p valid ins)
    (far : ∀ a ∈ valid, ∀ b ∈ valid, a ≠ b → δ < gap p a b) : ins = ∅ := by
  cases h with
  | few | scattered => rfl
  | pair hab hv near =>
    exact absurd near (not_le.mpr (far _ (by simp [hv]) _ (by simp [hv]) hab))
  | outlier h hv near | agreed h hv near =>
    exact absurd near (not_le.mpr (far _ (by simp [hv]) _ (by simp [hv]) h.ab))

/-- A vote is carried along by a relabelling of the voters. -/
theorem Vote.relabel {δ : K} {p : ι → K} {valid ins : Finset ι} (h : Vote δ p valid ins)
    {ι' : Type*} [DecidableEq ι'] (e : ι ≃ ι') :
    Vote δ (p ∘ e.symm) (valid.map e.toEmbedding) (ins.map e.toEmbedding) := by
  have hgap : ∀ a b, gap (p ∘ e.symm) (e a) (e b) = gap p a b := by simp [gap]
  have hclose : ∀ {a b c}, Closest p a b c → Closest (p ∘ e.symm) (e a) (e b) (e c) := by
    intro a b c h
    exact ⟨e.injective.ne h.ab, e.injective.ne h.ac, e.injective.ne h.bc,
      by simpa only [hgap] using h.le_ac, by simpa only [hgap] using h.le_bc⟩
  have hmean : ∀ {a b}, a ≠ b → mean (p ∘ e.symm) {e a, e b} = mean p {a, b} := by
    intro a b h
    simp [mean_pair _ h, mean_pair _ (e.injective.ne h)]
  cases h with
  | few h => exact .few (by simpa using h)
  | scattered h far =>
    refine .scattered (by simpa using h) ?_
    intro a ha b hb hab
    simp only [Finset.mem_map_equiv] at ha hb
    exact far _ ha _ hb (e.symm.injective.ne hab)
  | @pair a b hab hv near =>
    exact .pair (a := e a) (b := e b) (e.injective.ne hab) (by simp [hv]) (by rwa [hgap])
  | @outlier a b c h hv near far =>
    have hout : Vote δ (p ∘ e.symm) (valid.map e.toEmbedding) {e a, e b} :=
      .outlier (hclose h) (by simp [hv]) (by rwa [hgap]) (by simpa [hmean h.ab] using far)
    simpa using hout
  | @agreed a b c h hv near all =>
    exact .agreed (hclose h) (by simp [hv]) (by rwa [hgap]) (by simpa [hmean h.ab] using all)

variable [IsStrictOrderedRing K]

/-- Everyone let in is near the mean of those let in. -/
theorem Vote.near_mean {δ : K} {p : ι → K} {valid ins : Finset ι} (h : Vote δ p valid ins) :
    ∀ i ∈ ins, |p i - mean p ins| ≤ δ := by
  -- two readings are each half their gap from their mean
  have hpair : ∀ {a b}, a ≠ b → gap p a b ≤ δ →
      ∀ i ∈ ({a, b} : Finset ι), |p i - mean p {a, b}| ≤ δ := by
    intro a b hab near i hi
    have h2 := abs_le.mp near
    rw [mean_pair p hab, abs_le]
    rcases Finset.mem_insert.mp hi with rfl | hi
    · constructor <;> linarith
    · rw [Finset.mem_singleton.mp hi]
      constructor <;> linarith
  cases h with
  | few | scattered => intro i hi; exact absurd hi (Finset.notMem_empty i)
  | pair hab hv near => subst hv; exact hpair hab near
  | outlier h _ near => exact hpair h.ab near
  | @agreed a b c h hv near all =>
    subst hv
    intro i hi
    have h2 := abs_le.mp near
    have h3 := abs_le.mp all
    rw [mean_pair p h.ab] at h3
    rw [mean_triple p h.ab h.ac h.bc, abs_le]
    simp only [Finset.mem_insert, Finset.mem_singleton] at hi
    rcases hi with rfl | rfl | rfl <;> constructor <;> linarith

omit [DecidableEq ι] in
/-- Two closest pairs of one voting share the middle one of three equally spaced readings. -/
theorem Closest.spaced {p : ι → K} {a b c : ι} (h : Closest p a b c) (h' : Closest p b c a) :
    p b - p a = p c - p b := by
  have heq : |p a - p b| = |p b - p c| := le_antisymm h.le_bc (h'.le_ac.trans_eq (gap_comm p b a))
  rcases abs_eq_abs.mp heq with hd | hd
  · linarith
  · -- the outer two coincide, so the closest pair does too
    have hac : gap p b c ≤ |p c - p a| := h'.le_bc
    have : p c - p a = 0 := by linarith
    rw [this, abs_zero] at hac
    have := abs_nonpos_iff.mp hac
    linarith

/-- A tie between two closest pairs leaves both third voters equally far out, and if that is too
far the vote is contested. -/
theorem Closest.tie {p : ι → K} {a b c : ι} (h : Closest p a b c) (h' : Closest p b c a) :
    |p c - mean p {a, b}| = |p a - mean p {b, c}| ∧
      ∀ δ, gap p a b ≤ δ → δ < |p c - mean p {a, b}| → Contested δ p {a, b, c} := by
  have hd := h.spaced h'
  rw [mean_pair p h.ab, mean_pair p h.bc]
  have hc : p c - (p a + p b) / 2 = 3 / 2 * (p b - p a) := by linarith
  have ha : p a - (p b + p c) / 2 = -(3 / 2 * (p b - p a)) := by linarith
  rw [hc, ha, abs_neg]
  refine ⟨rfl, fun δ near far => ?_⟩
  rw [gap, abs_le] at near
  unfold Contested
  simp only [nsmul_eq_mul, Nat.cast_ofNat]
  rcases le_or_gt 0 (p b - p a) with h0 | h0
  · rw [abs_of_nonneg (by linarith)] at far
    exact ⟨a, b, c, h.ab, h.ac, h.bc, rfl, hd, by linarith, by linarith⟩
  · rw [abs_of_neg (by linarith)] at far
    refine ⟨c, b, a, h.bc.symm, h.ac.symm, h.ab.symm, ?_, by linarith, by linarith, by linarith⟩
    ext i
    simp only [Finset.mem_insert, Finset.mem_singleton]
    tauto

omit [LinearOrder K] [IsStrictOrderedRing K] in
/-- A pair taken from three voters, by the voter it leaves out. -/
theorem pair_of_triple {a b c a' b' c' : ι} (hab : a' ≠ b') (hac : a' ≠ c') (hbc : b' ≠ c')
    (hv : ({a, b, c} : Finset ι) = {a', b', c'}) :
    c' = c ∧ (a' = a ∧ b' = b ∨ a' = b ∧ b' = a) ∨
      c' = a ∧ (a' = b ∧ b' = c ∨ a' = c ∧ b' = b) ∨
      c' = b ∧ (a' = a ∧ b' = c ∨ a' = c ∧ b' = a) := by
  have ha : a' ∈ ({a, b, c} : Finset ι) := by simp [hv]
  have hb : b' ∈ ({a, b, c} : Finset ι) := by simp [hv]
  have hc : c' ∈ ({a, b, c} : Finset ι) := by simp [hv]
  simp only [Finset.mem_insert, Finset.mem_singleton] at ha hb hc
  rcases ha with rfl | rfl | rfl <;> rcases hb with rfl | rfl | rfl <;>
    rcases hc with rfl | rfl | rfl <;> simp_all

/-- Two closest pairs of the same three voters are the same pair or tie. -/
theorem Closest.same_or_tie {p : ι → K} {a b c a' b' c' : ι} (h : Closest p a b c)
    (h' : Closest p a' b' c') (hv : ({a, b, c} : Finset ι) = {a', b', c'}) :
    (c' = c ∧ ({a', b'} : Finset ι) = {a, b}) ∨
      (|p c - mean p {a, b}| = |p c' - mean p {a', b'}| ∧
        ∀ δ, gap p a b ≤ δ → δ < |p c - mean p {a, b}| → Contested δ p {a, b, c}) := by
  rcases pair_of_triple h'.ab h'.ac h'.bc hv with ⟨rfl, hpair⟩ | ⟨rfl, hpair⟩ | ⟨rfl, hpair⟩
  · refine .inl ⟨rfl, ?_⟩
    rcases hpair with ⟨rfl, rfl⟩ | ⟨rfl, rfl⟩
    · rfl
    · exact Finset.pair_comm _ _
  · refine .inr ?_
    rcases hpair with ⟨rfl, rfl⟩ | ⟨rfl, rfl⟩
    · exact h.tie h'
    · rw [Finset.pair_comm a' b']
      exact h.tie h'.symm
  · refine .inr ?_
    rw [Finset.pair_comm a c', gap_comm, Finset.insert_comm]
    rcases hpair with ⟨rfl, rfl⟩ | ⟨rfl, rfl⟩
    · exact h.symm.tie h'
    · rw [Finset.pair_comm a' b']
      exact h.symm.tie h'.symm

/-- With a closest pair near, an uncontested vote is settled by the voter it leaves out. -/
theorem Vote.eq_of_closest {δ : K} {p : ι → K} {valid ins : Finset ι} {a b c : ι}
    (hc : ¬Contested δ p valid) (hab : Closest p a b c) (hv : valid = {a, b, c})
    (near : gap p a b ≤ δ) (h : Vote δ p valid ins) :
    ins = if δ < |p c - mean p {a, b}| then {a, b} else valid := by
  have h3 : valid.card = 3 := Finset.card_eq_three.mpr ⟨a, b, c, hab.ab, hab.ac, hab.bc, hv⟩
  cases h with
  | few h1 => omega
  | scattered _ far =>
    exact absurd near (not_le.mpr (far _ (by simp [hv]) _ (by simp [hv]) hab.ab))
  | pair hne hv2 =>
    have := Finset.card_pair hne
    rw [← hv2] at this
    omega
  | outlier h' hv' _ far =>
    rcases hab.same_or_tie h' (hv.symm.trans hv') with ⟨rfl, hpair⟩ | ⟨hdev, hcon⟩
    · rw [if_pos (by rwa [← hpair]), hpair]
    · exact absurd (hv ▸ hcon δ near (hdev ▸ far)) hc
  | agreed h' hv' _ all =>
    rw [if_neg (not_lt.mpr ?_)]
    rcases hab.same_or_tie h' (hv.symm.trans hv') with ⟨rfl, hpair⟩ | ⟨hdev, -⟩
    · rwa [← hpair]
    · rwa [hdev]

/-- An uncontested vote has one outcome. -/
theorem Vote.unique {δ : K} {p : ι → K} {valid ins ins' : Finset ι} (hc : ¬Contested δ p valid)
    (h : Vote δ p valid ins) (h' : Vote δ p valid ins') : ins = ins' := by
  cases h with
  | few hcard =>
    refine (h'.eq_empty fun a ha b hb hab => ?_).symm
    exact absurd (Finset.card_le_one.mp hcard a ha b hb) hab
  | scattered _ far => exact (h'.eq_empty far).symm
  | @pair a b hab hv near =>
    have h2 : valid.card = 2 := hv ▸ Finset.card_pair hab
    cases h' with
    | few h1 => omega
    | scattered _ far =>
      exact absurd near (not_le.mpr (far _ (by simp [hv]) _ (by simp [hv]) hab))
    | pair => rfl
    | outlier h hv' | agreed h hv' =>
      have := Finset.card_eq_three.mpr ⟨_, _, _, h.ab, h.ac, h.bc, hv'⟩
      omega
  | outlier h hv near far => rw [h'.eq_of_closest hc h hv near, if_pos far]
  | agreed h hv near all => rw [h'.eq_of_closest hc h hv near, if_neg (not_lt.mpr all)]

/-- Of three equally spaced readings no closest pair leaves out the middle one, and the voter it
leaves out is one and a half gaps away from its mean. -/
theorem Closest.of_spaced {δ : K} {p : ι → K} {a b c x y r : ι} (h : Closest p x y r)
    (hv : ({a, b, c} : Finset ι) = {x, y, r}) (hbc : b ≠ c) (hab : a ≠ b)
    (heq : p b - p a = p c - p b) (hlo : 2 * δ < 3 * (p b - p a)) (hhi : p b - p a ≤ δ) :
    r ≠ b ∧ gap p x y ≤ δ ∧ δ < |p r - mean p {x, y}| := by
  have hgap : |p a - p b| = p b - p a := by
    rw [abs_sub_comm, abs_of_pos (by linarith)]
  have hgap' : |p b - p c| = p b - p a := by
    rw [abs_sub_comm, abs_of_pos (by linarith), heq]
  have hout : δ < |p c - (p a + p b) / 2| :=
    lt_of_lt_of_le (by linarith) (le_abs_self _)
  have hout' : δ < |p a - (p b + p c) / 2| :=
    lt_of_lt_of_le (by linarith) (neg_le_abs _)
  rw [mean_pair p h.ab]
  rcases pair_of_triple h.ab h.ac h.bc hv with ⟨rfl, hpair⟩ | ⟨rfl, hpair⟩ | ⟨rfl, hpair⟩
  · refine ⟨hbc.symm, ?_⟩
    rcases hpair with ⟨rfl, rfl⟩ | ⟨rfl, rfl⟩
    · exact ⟨hgap.trans_le hhi, hout⟩
    · rw [gap_comm, add_comm]
      exact ⟨hgap.trans_le hhi, hout⟩
  · refine ⟨hab, ?_⟩
    rcases hpair with ⟨rfl, rfl⟩ | ⟨rfl, rfl⟩
    · exact ⟨hgap'.trans_le hhi, hout'⟩
    · rw [gap_comm, add_comm]
      exact ⟨hgap'.trans_le hhi, hout'⟩
  · -- the outer two are two gaps apart, so they are not the closest pair
    exfalso
    rcases hpair with ⟨rfl, rfl⟩ | ⟨rfl, rfl⟩
    · have hle : |p x - p y| ≤ |p x - p r| := h.le_ac
      have hwide : |p x - p y| = 2 * (p r - p x) := by
        rw [abs_sub_comm, abs_of_pos (by linarith)]
        linarith
      linarith
    · have hle : |p x - p y| ≤ |p y - p r| := h.le_bc
      have hwide : |p x - p y| = 2 * (p r - p y) := by
        rw [abs_of_pos (by linarith)]
        linarith
      linarith

omit [IsStrictOrderedRing K] in
/-- Swapping the outer two of three equally spaced readings keeps every gap. -/
theorem gap_swap {p : ι → K} {a b c x y : ι} (hab : a ≠ b) (hbc : b ≠ c)
    (heq : p b - p a = p c - p b) (hx : x ∈ ({a, b, c} : Finset ι))
    (hy : y ∈ ({a, b, c} : Finset ι)) :
    gap (p ∘ Equiv.swap a c) x y = gap p x y := by
  have hgap : |p a - p b| = |p c - p b| := by rw [abs_sub_comm, heq]
  have hgap' : |p b - p a| = |p b - p c| := by rw [abs_sub_comm, hgap, abs_sub_comm]
  have hmid : Equiv.swap a c b = b := Equiv.swap_apply_of_ne_of_ne hab.symm hbc
  simp only [Finset.mem_insert, Finset.mem_singleton] at hx hy
  rcases hx with rfl | rfl | rfl <;> rcases hy with rfl | rfl | rfl <;>
    simp only [gap, Function.comp_apply, Equiv.swap_apply_left, Equiv.swap_apply_right, hmid,
      hgap, hgap', sub_self, abs_sub_comm]

end Voting

end DiveCANHead.Lib
