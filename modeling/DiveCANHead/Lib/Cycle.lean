import Mathlib.Data.List.TakeWhile
import Mathlib.Data.List.Nodup
import Mathlib.Data.List.Range
import Mathlib.Tactic.Common

/-!
# Walks around a ring

`cycle cnt o n` lists `n` slots of a ring of `cnt`, from slot `o` on. Between two
slots of such a walk lie the slots whose numbers lie between theirs, or, when
the walk has wrapped, all those above the first and below the second
(`mem_between`).
-/

namespace DiveCANHead.Lib

universe u

/-! ## Slots -/

/-- `n` slots of a ring of `cnt`, from slot `o` on. -/
def cycle (cnt o n : ℕ) : List ℕ := (List.range n).map fun k => (o + k) % cnt

@[simp] theorem length_cycle (cnt o n : ℕ) : (cycle cnt o n).length = n := by
  simp [cycle]

theorem getElem?_cycle {cnt o n k : ℕ} (h : k < n) :
    (cycle cnt o n)[k]? = some ((o + k) % cnt) := by
  simp [cycle, h]

theorem cycle_succ (cnt o n : ℕ) : cycle cnt o (n + 1) = o % cnt :: cycle cnt (o + 1) n := by
  rw [cycle, List.range_succ_eq_map, List.map_cons, List.map_map]
  congr 1
  refine List.map_congr_left fun k _ => ?_
  rw [Function.comp_apply, Nat.succ_eq_add_one, Nat.add_right_comm, Nat.add_assoc]

theorem lt_of_mem_cycle {cnt o n x : ℕ} (hcnt : 0 < cnt) (h : x ∈ cycle cnt o n) : x < cnt := by
  obtain ⟨k, -, rfl⟩ := List.mem_map.mp h
  exact Nat.mod_lt _ hcnt

/-- The slot that is `k` slots after `a`. -/
theorem add_mod_eq {cnt a k : ℕ} (ha : a < cnt) (hk : k ≤ cnt) :
    (a + k) % cnt = if a + k < cnt then a + k else a + k - cnt := by
  split
  · next h => exact Nat.mod_eq_of_lt h
  · next h =>
    rw [Nat.mod_eq_sub_mod (by omega)]
    exact Nat.mod_eq_of_lt (by omega)

/-- A walk no longer than the ring meets no slot twice. -/
theorem nodup_cycle {cnt o n : ℕ} (h : n ≤ cnt) : (cycle cnt o n).Nodup := by
  refine List.Nodup.map_on ?_ List.nodup_range
  intro i hi j hj heq
  have hi := List.mem_range.mp hi
  have hj := List.mem_range.mp hj
  have ha : o % cnt < cnt := Nat.mod_lt _ (by omega)
  rw [← Nat.mod_add_mod o cnt i, ← Nat.mod_add_mod o cnt j, add_mod_eq ha (by omega),
    add_mod_eq ha (by omega)] at heq
  split_ifs at heq <;> omega

/-- The slots behind a slot of a walk, counted from it. -/
theorem slots_after {cnt o n : ℕ} (hn : n ≤ cnt) {a b : ℕ} {pre mid post : List ℕ}
    (h : cycle cnt o n = pre ++ a :: (mid ++ b :: post)) :
    a < cnt ∧ mid.length + 1 < cnt ∧ b = (a + (mid.length + 1)) % cnt ∧
      ∀ x, x ∈ mid ↔ ∃ k < mid.length, (a + (k + 1)) % cnt = x := by
  have hlen := congrArg List.length h
  simp only [length_cycle, List.length_append, List.length_cons] at hlen
  have hat : ∀ k < n, (pre ++ a :: (mid ++ b :: post))[k]? = some ((o + k) % cnt) := by
    intro k hk
    rw [← h, getElem?_cycle hk]
  have hfirst : a = (o + pre.length) % cnt := by
    have := hat pre.length (by omega)
    simpa using this
  have hlt : a < cnt := by
    rw [hfirst]
    exact Nat.mod_lt _ (by omega)
  have hafter : ∀ k, (o + (pre.length + k)) % cnt = (a + k) % cnt := by
    intro k
    rw [hfirst, Nat.mod_add_mod, Nat.add_assoc]
  have hlast : b = (a + (mid.length + 1)) % cnt := by
    have := hat (pre.length + (mid.length + 1)) (by omega)
    rw [hafter, List.getElem?_append_right (Nat.le_add_right _ _), Nat.add_sub_cancel_left,
      List.getElem?_cons_succ, List.getElem?_append_right le_rfl, Nat.sub_self] at this
    simpa using this
  have hmid : ∀ k < mid.length, mid[k]? = some ((a + (k + 1)) % cnt) := by
    intro k hk
    have := hat (pre.length + (k + 1)) (by omega)
    rwa [hafter, List.getElem?_append_right (Nat.le_add_right _ _), Nat.add_sub_cancel_left,
      List.getElem?_cons_succ, List.getElem?_append_left hk] at this
  refine ⟨hlt, by omega, hlast, fun x => ?_⟩
  constructor
  · intro hx
    obtain ⟨k, hk⟩ := List.mem_iff_getElem?.mp hx
    have hkl := (List.getElem?_eq_some_iff.mp hk).1
    rw [hmid k hkl] at hk
    exact ⟨k, hkl, Option.some.inj hk⟩
  · rintro ⟨k, hk, rfl⟩
    exact List.mem_iff_getElem?.mpr ⟨k, hmid k hk⟩

/-- What lies between two slots of a walk. -/
theorem mem_between {cnt o n : ℕ} (hn : n ≤ cnt) {a b : ℕ} {pre mid post : List ℕ}
    (h : cycle cnt o n = pre ++ a :: (mid ++ b :: post)) :
    (a < b ∧ ∀ x, x ∈ mid ↔ a < x ∧ x < b) ∨
      (b < a ∧ ∀ x, x ∈ mid ↔ (a < x ∧ x < cnt) ∨ x < b) := by
  obtain ⟨hlt, hshort, hlast, hmem⟩ := slots_after hn h
  rw [add_mod_eq hlt (by omega)] at hlast
  split at hlast
  · next hnowrap =>
    refine .inl ⟨by omega, fun x => ?_⟩
    rw [hmem]
    constructor
    · rintro ⟨k, hk, rfl⟩
      rw [add_mod_eq hlt (by omega), if_pos (by omega)]
      omega
    · rintro ⟨h1, h2⟩
      refine ⟨x - a - 1, by omega, ?_⟩
      rw [add_mod_eq hlt (by omega), if_pos (by omega)]
      omega
  · next hwrap =>
    refine .inr ⟨by omega, fun x => ?_⟩
    rw [hmem]
    constructor
    · rintro ⟨k, hk, rfl⟩
      rw [add_mod_eq hlt (by omega)]
      split <;> omega
    · rintro (⟨h1, h2⟩ | h1)
      · refine ⟨x - a - 1, by omega, ?_⟩
        rw [add_mod_eq hlt (by omega), if_pos (by omega)]
        omega
      · refine ⟨x + cnt - a - 1, by omega, ?_⟩
        rw [add_mod_eq hlt (by omega), if_neg (by omega)]
        omega

/-! ## The part of a walk before a slot -/

variable {α : Type u}

/-- A walk reaches a slot when nothing up to this slot ends it. -/
theorem mem_takeWhile {p : α → Bool} {b : α} {u v : List α} (hu : b ∉ u) :
    b ∈ (u ++ b :: v).takeWhile p ↔ ∀ x ∈ u ++ [b], p x = true := by
  induction u with
  | nil =>
    by_cases h : p b = true
    · simp [h]
    · simp [h]
  | cons x u ih =>
    obtain ⟨hbx, hu⟩ := not_or.mp (mt List.mem_cons.mpr hu)
    by_cases h : p x = true
    · rw [List.cons_append, List.takeWhile_cons_of_pos h, List.mem_cons, ih hu]
      simp [hbx, h]
    · simp [h]

/-! ## Slots with their contents -/

variable {β : Type u} {f : α → List β}

/-- The contents of slots, each with its slot. -/
def tagged (f : α → List β) (l : List α) : List (α × β) := l.flatMap fun s => (f s).map (Prod.mk s)

theorem tagged_cons (f : α → List β) (s : α) (l : List α) :
    tagged f (s :: l) = (f s).map (Prod.mk s) ++ tagged f l := List.flatMap_cons

theorem map_snd_tagged (f : α → List β) (l : List α) : (tagged f l).map Prod.snd = l.flatMap f := by
  induction l with
  | nil => rfl
  | cons s l ih =>
    rw [tagged_cons, List.map_append, ih, List.map_map, List.flatMap_cons]
    congr 1
    exact List.map_id _

theorem mem_tagged {l : List α} {p : α × β} : p ∈ tagged f l ↔ p.1 ∈ l ∧ p.2 ∈ f p.1 := by
  constructor
  · intro h
    obtain ⟨s, hs, hp⟩ := List.mem_flatMap.mp h
    obtain ⟨x, hx, rfl⟩ := List.mem_map.mp hp
    exact ⟨hs, hx⟩
  · rintro ⟨hs, hp⟩
    exact List.mem_flatMap.mpr ⟨p.1, hs, List.mem_map.mpr ⟨p.2, hp, rfl⟩⟩

/-- Where only slots that are not empty end the walk, the contents before its end
are those of the slots before its end. -/
theorem takeWhile_tagged {p : α → Bool} (he : ∀ s, p s = false → f s ≠ []) (l : List α) :
    (tagged f l).takeWhile (fun x => p x.1) = tagged f (l.takeWhile p) := by
  induction l with
  | nil => rfl
  | cons s l ih =>
    by_cases h : p s = true
    · have hall : ∀ x ∈ (f s).map (Prod.mk s), p x.1 = true := by
        rintro x hx
        obtain ⟨y, -, rfl⟩ := List.mem_map.mp hx
        exact h
      rw [tagged_cons, List.takeWhile_append_of_pos hall, ih, List.takeWhile_cons_of_pos h,
        tagged_cons]
    · obtain ⟨x, xs, hx⟩ := List.exists_cons_of_ne_nil (he s (Bool.eq_false_iff.mpr h))
      simp [tagged, hx, h]

/-- Distinct slots hold no more than the slots that all their contents are in. -/
theorem length_tagged_le_of_mem {l l' : List α} (hl : l.Nodup)
    (h : ∀ s ∈ l, f s ≠ [] → s ∈ l') : (tagged f l).length ≤ (tagged f l').length := by
  induction l generalizing l' with
  | nil => exact Nat.zero_le _
  | cons s l ih =>
    obtain ⟨hs, hl⟩ := List.nodup_cons.mp hl
    rw [tagged_cons, List.length_append, List.length_map]
    by_cases he : f s = []
    · rw [he, List.length_nil, Nat.zero_add]
      exact ih hl fun t ht => h t (List.mem_cons_of_mem _ ht)
    · obtain ⟨u, v, rfl⟩ := List.append_of_mem (h s List.mem_cons_self he)
      have hrest : (tagged f l).length ≤ (tagged f (u ++ v)).length := by
        refine ih hl fun t ht hne => ?_
        have hts : t ≠ s := fun heq => hs (heq ▸ ht)
        have := h t (List.mem_cons_of_mem _ ht) hne
        simp only [List.mem_append, List.mem_cons] at this ⊢
        tauto
      simp only [tagged, List.flatMap_append, List.flatMap_cons, List.length_append,
        List.length_map] at hrest ⊢
      omega

variable [DecidableEq α]

/-- The contents under one slot are its own. -/
theorem filter_tagged {l : List α} (hl : l.Nodup) {s : α} (h : s ∉ l → f s = []) :
    ((tagged f l).filter fun p => decide (p.1 = s)).map Prod.snd = f s := by
  induction l with
  | nil => exact (h List.not_mem_nil).symm
  | cons t l ih =>
    obtain ⟨ht, hl⟩ := List.nodup_cons.mp hl
    rw [tagged_cons, List.filter_append, List.map_append]
    by_cases hts : t = s
    · subst hts
      have hrest : (tagged f l).filter (fun p => decide (p.1 = t)) = [] := by
        rw [List.filter_eq_nil_iff]
        intro p hp
        have : p.1 ∈ l := (mem_tagged.mp hp).1
        simp only [decide_eq_true_eq]
        rintro rfl
        exact ht this
      have hself : ((f t).map (Prod.mk t)).filter (fun p => decide (p.1 = t)) =
          (f t).map (Prod.mk t) := by
        rw [List.filter_eq_self]
        intro p hp
        obtain ⟨x, -, rfl⟩ := List.mem_map.mp hp
        exact decide_eq_true rfl
      rw [hrest, hself, List.map_nil, List.append_nil, List.map_map]
      exact List.map_id _
    · have hskip : ((f t).map (Prod.mk t)).filter (fun p => decide (p.1 = s)) = [] := by
        rw [List.filter_eq_nil_iff]
        intro p hp
        obtain ⟨x, -, rfl⟩ := List.mem_map.mp hp
        simpa using hts
      rw [hskip, List.map_nil, List.nil_append]
      exact ih hl fun hs => h (by simp [Ne.symm hts, hs])

end DiveCANHead.Lib
