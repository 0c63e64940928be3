import DiveCANHead.Lib.Bytes
import Mathlib.Algebra.Order.Ring.Nat
import Mathlib.Tactic.Common

/-!
# Segmentation and reassembly

A long list is cut into `chunks` of at most `k`, and each chunk is sent under a
sequence number modulo `m`. A receiver keeps a `Partial` message; `assemble` is
the rule for any machine that appends the chunks it is fed: over a whole
numbered segmentation it ends with exactly the list that was cut.
-/

namespace DiveCANHead.Lib

universe u v

variable {α : Type u}

/-! ## Chunks -/

/-- The list cut into pieces of `k`, the last one possibly shorter. -/
def chunks (k : ℕ) : List α → List (List α)
  | [] => []
  | x :: xs => (x :: xs.take (k - 1)) :: chunks k (xs.drop (k - 1))
termination_by xs => xs.length
decreasing_by simp only [List.length_drop, List.length_cons]; omega

@[simp] theorem chunks_nil (k : ℕ) : chunks k ([] : List α) = [] := by
  rw [chunks]

theorem chunks_of_ne_nil {k : ℕ} (hk : 0 < k) {xs : List α} (h : xs ≠ []) :
    chunks k xs = xs.take k :: chunks k (xs.drop k) := by
  obtain ⟨n, rfl⟩ := Nat.exists_eq_succ_of_ne_zero hk.ne'
  cases xs with
  | nil => exact absurd rfl h
  | cons x xs =>
    rw [chunks]
    rfl

theorem chunks_eq_nil {k : ℕ} {xs : List α} : chunks k xs = [] ↔ xs = [] := by
  cases xs with
  | nil => simp
  | cons x xs =>
    rw [chunks]
    simp

/-- The first `n` blocks of `k`, which are short or empty once the list is used up. -/
def blocks (k : ℕ) : ℕ → List α → List (List α)
  | 0, _ => []
  | n + 1, xs => xs.take k :: blocks k n (xs.drop k)

theorem blocks_first (k n : ℕ) (xs : List α) :
    blocks k (n + 1) xs = xs.take k :: blocks k n (xs.drop k) := rfl

@[simp] theorem length_blocks (k n : ℕ) (xs : List α) : (blocks k n xs).length = n := by
  induction n generalizing xs with
  | zero => rfl
  | succ n ih => rw [blocks_first, List.length_cons, ih]

/-- The last of the blocks. -/
theorem blocks_succ (k n : ℕ) (xs : List α) :
    blocks k (n + 1) xs = blocks k n xs ++ [(xs.drop (n * k)).take k] := by
  induction n generalizing xs with
  | zero =>
    rw [Nat.zero_mul, List.drop_zero]
    rfl
  | succ n ih =>
    rw [blocks_first, ih, blocks_first, List.cons_append, List.drop_drop, Nat.succ_mul,
      Nat.add_comm k]

/-- Fewer blocks are a prefix of more. -/
theorem blocks_prefix (k : ℕ) {m n : ℕ} (h : m ≤ n) (xs : List α) :
    blocks k m xs <+: blocks k n xs := by
  induction n, h using Nat.le_induction with
  | base => exact List.prefix_rfl
  | succ n _ ih => exact ih.trans (blocks_succ k n xs ▸ List.prefix_append _ _)

theorem flatten_blocks (k n : ℕ) (xs : List α) : (blocks k n xs).flatten = xs.take (n * k) := by
  induction n generalizing xs with
  | zero => rw [Nat.zero_mul]; rfl
  | succ n ih =>
    have hsplit : (n + 1) * k = k + n * k := by rw [Nat.succ_mul, Nat.add_comm]
    rw [blocks_first, List.flatten_cons, ih, hsplit, List.take_add]

theorem length_le_of_mem_blocks {k n : ℕ} {xs b : List α} (h : b ∈ blocks k n xs) :
    b.length ≤ k := by
  induction n generalizing xs with
  | zero => cases h
  | succ n ih =>
    rcases List.mem_cons.mp h with rfl | h
    · exact List.length_take_le _ _
    · exact ih h

/-- After a short block there is nothing left. -/
theorem flatten_blocks_of_short {k n i : ℕ} {xs b : List α} (h : (blocks k n xs)[i]? = some b)
    (hshort : b.length < k) : ((blocks k n xs).take (i + 1)).flatten = xs := by
  induction n generalizing xs i with
  | zero => cases h
  | succ n ih =>
    rw [blocks_first] at h ⊢
    cases i with
    | zero =>
      obtain rfl : xs.take k = b := Option.some.inj h
      rw [List.length_take] at hshort
      rw [List.take_succ_cons, List.take_zero, List.flatten_cons, List.flatten_nil,
        List.append_nil, List.take_of_length_le (by omega)]
    | succ i =>
      rw [List.getElem?_cons_succ] at h
      rw [List.take_succ_cons, List.flatten_cons, ih h, List.take_append_drop]

/-- As many chunks as it takes to hold the list. -/
theorem length_chunks {k : ℕ} (hk : 0 < k) (xs : List α) :
    (chunks k xs).length = (xs.length + (k - 1)) / k := by
  induction hn : xs.length using Nat.strong_induction_on generalizing xs with
  | _ n ih =>
    by_cases hnil : xs = []
    · subst hnil
      obtain rfl : n = 0 := by simpa using hn.symm
      rw [chunks_nil, List.length_nil, Nat.zero_add, Nat.div_eq_of_lt (by omega)]
    · have hpos := List.length_pos_iff.mpr hnil
      have hdrop : (xs.drop k).length = n - k := by rw [List.length_drop, hn]
      rw [chunks_of_ne_nil hk hnil, List.length_cons, ih (n - k) (by omega) _ hdrop]
      rcases Nat.lt_or_ge n k with hlt | hge
      · rw [Nat.sub_eq_zero_of_le hlt.le, Nat.zero_add, Nat.div_eq_of_lt (by omega)]
        rw [Nat.div_eq_of_lt_le] <;> omega
      · rw [← Nat.add_div_right _ hk]
        congr 1
        omega

theorem length_le_of_mem_chunks {k : ℕ} (hk : 0 < k) {xs c : List α} (h : c ∈ chunks k xs) :
    c.length ≤ k := by
  induction hn : xs.length using Nat.strong_induction_on generalizing xs with
  | _ n ih =>
    by_cases hnil : xs = []
    · subst hnil
      simp at h
    · have hpos := List.length_pos_iff.mpr hnil
      rw [chunks_of_ne_nil hk hnil] at h
      rcases List.mem_cons.mp h with rfl | h
      · exact List.length_take_le _ _
      · exact ih (xs.drop k).length (by simp only [List.length_drop]; omega) h rfl

/-! ## Sequence numbers -/

/-- Each entry under its number, counted modulo `m` from `i`. -/
def numbered {β : Type v} (m : ℕ) : ℕ → List β → List (ℕ × β)
  | _, [] => []
  | i, b :: bs => (i, b) :: numbered m ((i + 1) % m) bs

theorem numbered_cons {β : Type v} (m i : ℕ) (b : β) (bs : List β) :
    numbered m i (b :: bs) = (i, b) :: numbered m ((i + 1) % m) bs := rfl

@[simp] theorem length_numbered {β : Type v} (m i : ℕ) (bs : List β) :
    (numbered m i bs).length = bs.length := by
  induction bs generalizing i with
  | nil => rfl
  | cons b bs ih => rw [numbered_cons, List.length_cons, ih, List.length_cons]

theorem numbered_map {β γ : Type v} (m i : ℕ) (f : β → γ) (bs : List β) :
    numbered m i (bs.map f) = (numbered m i bs).map fun c => (c.1, f c.2) := by
  induction bs generalizing i with
  | nil => rfl
  | cons b bs ih => rw [List.map_cons, numbered_cons, ih, numbered_cons, List.map_cons]

theorem snd_mem_of_mem_numbered {β : Type v} {m i : ℕ} {bs : List β} {c : ℕ × β}
    (h : c ∈ numbered m i bs) : c.2 ∈ bs := by
  induction bs generalizing i with
  | nil => cases h
  | cons b bs ih =>
    rcases List.mem_cons.mp h with rfl | h
    · exact List.mem_cons_self
    · exact List.mem_cons_of_mem _ (ih h)

/-! ## Reassembly -/

/-- A message in reception: its announced length, what has arrived, and the
number the next segment must carry. -/
structure Partial (α : Type u) where
  total : ℕ
  bytes : List α
  seq : ℕ

namespace Partial

/-- One more segment: no more than is missing is taken from it. -/
def accept (m : ℕ) (p : Partial α) (data : List α) : Partial α where
  total := p.total
  bytes := p.bytes ++ data.take (p.total - p.bytes.length)
  seq := (p.seq + 1) % m

def complete (p : Partial α) : Prop := p.total ≤ p.bytes.length

instance (p : Partial α) : Decidable p.complete := inferInstanceAs (Decidable (_ ≤ _))

/-- The last chunk, padded or not, completes the message. -/
theorem accept_last {m k : ℕ} {a : α} {p : Partial α} {xs : List α}
    (ht : p.total = p.bytes.length + xs.length) :
    (p.accept m (padTo k a xs)).bytes = p.bytes ++ xs ∧ (p.accept m (padTo k a xs)).complete := by
  have hbytes : (p.accept m (padTo k a xs)).bytes = p.bytes ++ xs := by
    have hmiss : p.total - p.bytes.length = xs.length := by omega
    simp only [accept, hmiss]
    rw [take_padTo le_rfl, List.take_length]
  refine ⟨hbytes, ?_⟩
  simp only [complete, hbytes, List.length_append]
  exact ht.le

/-- A chunk that is not the last is taken whole and leaves the message open. -/
theorem accept_more {m k : ℕ} {a : α} {p : Partial α} {xs : List α} (hk : k < xs.length)
    (ht : p.total = p.bytes.length + xs.length) :
    (p.accept m (padTo k a (xs.take k))).bytes = p.bytes ++ xs.take k ∧
      ¬ (p.accept m (padTo k a (xs.take k))).complete := by
  have hlen : (xs.take k).length = k := List.length_take_of_le hk.le
  have hbytes : (p.accept m (padTo k a (xs.take k))).bytes = p.bytes ++ xs.take k := by
    simp only [accept]
    rw [padTo_of_length_eq hlen, List.take_of_length_le (by omega)]
  refine ⟨hbytes, ?_⟩
  simp only [complete, hbytes, List.length_append, hlen]
  simp only [accept]
  omega

end Partial

section Assemble

variable {σ : Type v} {m k : ℕ} {a : α} (step : σ → ℕ × List α → σ)
  (Receiving : σ → Partial α → Prop) (Done : σ → List α → Prop)

/-- A machine that appends each segment under the expected number, until the
message is complete, ends with the whole list. -/
theorem assemble (hk : 0 < k)
    (hmore : ∀ s p data, Receiving s p → data.length = k → ¬ (p.accept m data).complete →
      Receiving (step s (p.seq, data)) (p.accept m data))
    (hdone : ∀ s p data, Receiving s p → data.length = k → (p.accept m data).complete →
      Done (step s (p.seq, data)) (p.accept m data).bytes)
    {s : σ} {p : Partial α} {xs : List α} (hr : Receiving s p) (hne : xs ≠ [])
    (ht : p.total = p.bytes.length + xs.length) :
    Done ((numbered m p.seq ((chunks k xs).map (padTo k a))).foldl step s) (p.bytes ++ xs) := by
  induction hn : xs.length using Nat.strong_induction_on generalizing xs s p with
  | _ n ih =>
    rw [chunks_of_ne_nil hk hne, List.map_cons, numbered_cons, List.foldl_cons]
    have hlen : (padTo k a (xs.take k)).length = k := length_padTo (List.length_take_le _ _)
    rcases Nat.lt_or_ge k xs.length with hlt | hge
    · -- a full chunk, and more to come
      obtain ⟨hbytes, hopen⟩ := Partial.accept_more (m := m) (a := a) hlt ht
      have hne' : xs.drop k ≠ [] := by simpa using hlt
      have ht' : (p.accept m (padTo k a (xs.take k))).total =
          (p.accept m (padTo k a (xs.take k))).bytes.length + (xs.drop k).length := by
        rw [hbytes]
        simp only [Partial.accept, List.length_append, List.length_take, List.length_drop]
        omega
      have hrest := ih (xs.drop k).length (by simp only [List.length_drop]; omega)
        (hmore s p _ hr hlen hopen) hne' ht' rfl
      rw [hbytes, List.append_assoc, List.take_append_drop] at hrest
      exact hrest
    · -- the last chunk
      have htake : xs.take k = xs := List.take_of_length_le hge
      have hdrop : xs.drop k = [] := List.drop_eq_nil_of_le hge
      obtain ⟨hbytes, hcomplete⟩ := Partial.accept_last (m := m) (k := k) (a := a) ht
      rw [htake] at hlen ⊢
      rw [hdrop, chunks_nil, ← hbytes]
      exact hdone s p _ hr hlen hcomplete

end Assemble

end DiveCANHead.Lib
