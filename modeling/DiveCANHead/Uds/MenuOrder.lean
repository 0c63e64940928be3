import Mathlib.Data.List.Nodup
import Mathlib.Data.List.Perm.Subperm
import Mathlib.Data.List.Range
import DiveCANHead.Lib.Grouped
import DiveCANHead.Lib.Indexed
import DiveCANHead.Uds.Settings

/-!
# The menu in its caller's buffer (`UDS_ComputeMenuOrder`)

The menu order is built in place, with counters of eight bits, and each slot is looked for in what
was already put there. Every access may fall outside of its array; here none does, and what is built
is the order `computeMenuOrder` gives.
-/

namespace DiveCANHead.Uds

open DiveCANHead.Lib

/-- The slots a caller passes, or a null pointer, with their number. -/
structure MenuSlots where
  cfg : Option (List Int16)
  cfgLen : UInt8
  whole : ∀ cells, cfg = some cells → cfgLen.toNat ≤ cells.length

/-- `out` and `n`. -/
structure MenuBuffer where
  out : List UInt8
  n : UInt8
  deriving DecidableEq, Repr

/-- Whether one of the first `n` cells is `s`. -/
def MenuBuffer.has (b : MenuBuffer) (s : UInt8) : Option Bool :=
  scan 0 b.n.toNat (fun dup k => (b.out[k]?).map fun cell => dup || cell == s) false

/-- `out[n++] = s`. -/
def MenuBuffer.push (b : MenuBuffer) (s : UInt8) : Option MenuBuffer :=
  if b.n.toNat < b.out.length then some ⟨b.out.set b.n.toNat s, b.n + 1⟩ else none

/-- `s` behind the others, where it is not among them. -/
def MenuBuffer.pushNew (b : MenuBuffer) (s : UInt8) : Option MenuBuffer := do
  if ← b.has s then some b else b.push s

/-- A turn of the first pass. -/
def curatedTurn (cells : List Int16) (count : UInt8) (b : MenuBuffer) (i : ℕ) :
    Option MenuBuffer := do
  let s ← cells[i]?
  if s.toInt < 0 ∨ (count.toNat : ℤ) ≤ s.toInt then some b
  else b.pushNew (UInt8.ofNat s.toInt.toNat)

/-- The first pass; without slots there is nothing to do. -/
def curatedPass (slots : MenuSlots) (out : List UInt8) (count : UInt8) : Option MenuBuffer :=
  match slots.cfg with
  | none => some ⟨out, 0⟩
  | some cells => scan 0 slots.cfgLen.toNat (curatedTurn cells count) ⟨out, 0⟩

/-- `UDS_ComputeMenuOrder`: the buffer, with the count it returns. -/
def udsComputeMenuOrder (slots : MenuSlots) (out : List UInt8) (count : UInt8) :
    Option MenuBuffer := do
  let curated ← curatedPass slots out count
  scan 0 count.toNat (fun b s => b.pushNew (UInt8.ofNat s)) curated

/-! ## What the buffer holds -/

/-- The indices that were put into the buffer, and the rest of it as it was. -/
structure MenuBuffer.Holds (b : MenuBuffer) (out : List UInt8) (count : ℕ) (done : List ℕ) :
    Prop where
  nodup : done.Nodup
  inRange : ∀ s ∈ done, s < count
  cells : b.out = done.map UInt8.ofNat ++ out.drop done.length
  n : b.n.toNat = done.length

section Holds

variable {b : MenuBuffer} {out : List UInt8} {count : ℕ} {done : List ℕ}

theorem MenuBuffer.Holds.length_le (h : b.Holds out count done) : done.length ≤ count := by
  have hsub : done.Subperm (List.range count) :=
    List.subperm_of_subset h.nodup fun s hs => List.mem_range.mpr (h.inRange s hs)
  simpa only [List.length_range] using hsub.length_le

theorem ofNat_eq_iff {r s : ℕ} (hr : r < 256) (hs : s < 256) :
    UInt8.ofNat r = UInt8.ofNat s ↔ r = s := by
  rw [← UInt8.toNat_inj, UInt8.toNat_ofNat_of_lt' hr, UInt8.toNat_ofNat_of_lt' hs]

theorem MenuBuffer.holds_start (out : List UInt8) (count : ℕ) :
    MenuBuffer.Holds ⟨out, 0⟩ out count [] where
  nodup := List.nodup_nil
  inRange _ h := absurd h List.not_mem_nil
  cells := rfl
  n := rfl

/-- The search finds what was put there. -/
theorem MenuBuffer.Holds.has (h : b.Holds out count done) (hcount : count < 256) {s : ℕ}
    (hs : s < count) : b.has (UInt8.ofNat s) = some (decide (s ∈ done)) := by
  have hcell : ∀ k, (hk : k < done.length) → b.out[k]? = some (UInt8.ofNat done[k]) := by
    intro k hk
    rw [h.cells, List.getElem?_append_left (by rwa [List.length_map]), List.getElem?_map,
      List.getElem?_eq_getElem hk, Option.map_some]
  obtain ⟨dup, hdup, hfound⟩ := scan_inv (I := fun k dup => dup = decide (s ∈ done.take k))
    (f := fun dup k => (b.out[k]?).map fun cell => dup || cell == UInt8.ofNat s) (s := false)
    (Nat.zero_le b.n.toNat) (by
      rintro k dup - hk rfl
      rw [h.n] at hk
      have hlt : done[k] < count := h.inRange _ (List.getElem_mem hk)
      have hmem : s ∈ done.take (k + 1) ↔ s ∈ done.take k ∨ done[k] = s := by
        rw [List.take_succ_eq_append_getElem hk, List.mem_append, List.mem_singleton, eq_comm]
      have heq : (UInt8.ofNat done[k] == UInt8.ofNat s) = decide (done[k] = s) := by
        rw [Bool.beq_eq_decide_eq]
        exact decide_eq_decide.mpr
          (ofNat_eq_iff (Nat.lt_trans hlt hcount) (Nat.lt_trans hs hcount))
      refine ⟨_, by rw [hcell k hk, Option.map_some], ?_⟩
      rw [heq, decide_eq_decide.mpr hmem, Bool.decide_or])
    rfl
  rw [MenuBuffer.has, hdup, hfound, h.n, List.take_length]

/-- A new index goes behind the others. -/
theorem MenuBuffer.Holds.push (h : b.Holds out count done) (hcount : count < 256)
    (hout : count ≤ out.length) {s : ℕ} (hs : s < count) (hnew : s ∉ done) :
    ∃ t, b.push (UInt8.ofNat s) = some t ∧ t.Holds out count (done ++ [s]) := by
  have hnodup : (done ++ [s]).Nodup := List.nodup_append.mpr
    ⟨h.nodup, List.nodup_singleton s, fun a ha c hc => by
      rw [List.mem_singleton.mp hc]
      rintro rfl
      exact hnew ha⟩
  have hrange : ∀ r ∈ done ++ [s], r < count := by
    intro r hr
    rcases List.mem_append.mp hr with hr | hr
    · exact h.inRange r hr
    · rwa [List.mem_singleton.mp hr]
  have hroom : done.length < count := by
    have hsub : (done ++ [s]).Subperm (List.range count) :=
      List.subperm_of_subset hnodup fun r hr => List.mem_range.mpr (hrange r hr)
    have hle := hsub.length_le
    rwa [List.length_append, List.length_singleton, List.length_range] at hle
  have hlen : b.n.toNat < b.out.length := by
    rw [h.n, h.cells, List.length_append, List.length_map, List.length_drop]
    omega
  refine ⟨_, if_pos hlen, hnodup, hrange, ?_, ?_⟩
  · have hset : (out.drop done.length).set 0 (UInt8.ofNat s) =
        UInt8.ofNat s :: out.drop (done.length + 1) := by
      rw [List.drop_eq_getElem_cons (by omega), List.set_cons_zero]
    rw [h.cells, h.n, List.set_append_right _ _ (by rw [List.length_map]), List.length_map,
      Nat.sub_self, hset, List.map_append, List.append_assoc, List.length_append]
    rfl
  · have hn : (b.n + 1).toNat = b.n.toNat + 1 := by
      rw [UInt8.toNat_add, UInt8.toNat_one, h.n]
      omega
    rw [hn, h.n, List.length_append, List.length_singleton]

/-- An index is put there once. -/
theorem MenuBuffer.Holds.pushNew (h : b.Holds out count done) (hcount : count < 256)
    (hout : count ≤ out.length) {s : ℕ} (hs : s < count) :
    ∃ t, b.pushNew (UInt8.ofNat s) = some t ∧
      t.Holds out count (if s ∈ done then done else done ++ [s]) := by
  rw [MenuBuffer.pushNew, h.has hcount hs]
  by_cases hold : s ∈ done
  · rw [if_pos hold, decide_eq_true hold]
    exact ⟨b, rfl, h⟩
  · rw [if_neg hold, decide_eq_false hold]
    exact h.push hcount hout hs hold

end Holds

/-! ## The passes -/

/-- The slots that name a setting, in the order in which they first do. -/
def curatedOrder (count : ℕ) (cells : List Int16) : List ℕ :=
  ((cells.filter fun s => 0 ≤ s.toInt ∧ s.toInt < (count : ℤ)).map fun s => s.toInt.toNat).eraseDups

/-- One more slot. -/
theorem curatedOrder_append (count : ℕ) (cells : List Int16) (s : Int16) :
    curatedOrder count (cells ++ [s]) =
      if s.toInt < 0 ∨ (count : ℤ) ≤ s.toInt ∨ s.toInt.toNat ∈ curatedOrder count cells then
        curatedOrder count cells
      else curatedOrder count cells ++ [s.toInt.toNat] := by
  rw [curatedOrder, List.filter_append, List.map_append]
  by_cases hrange : 0 ≤ s.toInt ∧ s.toInt < (count : ℤ)
  · rw [List.filter_cons_of_pos (by simpa using hrange), List.filter_nil, List.map_singleton,
      eraseDups_concat, ← curatedOrder]
    by_cases hold : s.toInt.toNat ∈ curatedOrder count cells
    · rw [if_pos hold, if_pos (.inr (.inr hold))]
    · rw [if_neg hold, if_neg fun h => h.elim (by omega) fun h => h.elim (by omega) hold]
  · rw [List.filter_cons_of_neg (by simpa using hrange), List.filter_nil, List.map_nil,
      List.append_nil, ← curatedOrder, if_pos]
    omega

/-- The order `UDS_ComputeMenuOrder` gives: the curated slots and then the remaining settings. -/
def menuOrder (slots : MenuSlots) (count : ℕ) : List ℕ :=
  let curated := curatedOrder count ((slots.cfg.getD []).take slots.cfgLen.toNat)
  curated ++ (List.range count).filter fun s => s ∉ curated

/-- Settings that are named, and then the others, are all of them. -/
theorem perm_append_remaining {count : ℕ} {done : List ℕ} (hnodup : done.Nodup)
    (hrange : ∀ s ∈ done, s < count) :
    (done ++ (List.range count).filter fun s => s ∉ done).Perm (List.range count) := by
  have hrest : ((List.range count).filter fun s => s ∉ done).Nodup := List.nodup_range.filter _
  refine (List.perm_ext_iff_of_nodup ?_ List.nodup_range).mpr fun s => ?_
  · refine List.nodup_append.mpr ⟨hnodup, hrest, fun a ha c hc => ?_⟩
    rintro rfl
    exact of_decide_eq_true (List.mem_filter.mp hc).2 ha
  · rw [List.mem_append, List.mem_filter, List.mem_range, decide_eq_true_eq]
    by_cases hs : s ∈ done
    · simp [hs, hrange s hs]
    · simp [hs]

section Passes

variable {out : List UInt8} {count : UInt8}

/-- The first pass puts the curated slots into the buffer. -/
theorem curatedPass_holds (slots : MenuSlots) (hout : count.toNat ≤ out.length) :
    ∃ b, curatedPass slots out count = some b ∧ b.Holds out count.toNat
      (curatedOrder count.toNat ((slots.cfg.getD []).take slots.cfgLen.toNat)) := by
  unfold curatedPass
  cases hcfg : slots.cfg with
  | none =>
    have hnone : curatedOrder count.toNat ((Option.getD none []).take slots.cfgLen.toNat) = [] := by
      rw [Option.getD_none, List.take_nil]
      rfl
    rw [hnone]
    exact ⟨_, rfl, MenuBuffer.holds_start out count.toNat⟩
  | some cells =>
    have hwhole := slots.whole cells hcfg
    refine scan_inv (I := fun i b => MenuBuffer.Holds b out count.toNat
      (curatedOrder count.toNat (cells.take i))) (Nat.zero_le _) ?_
        (MenuBuffer.holds_start out count.toNat)
    intro i b _ hi hb
    have hcell : cells[i]? = some cells[i] := List.getElem?_eq_getElem (by omega)
    rw [curatedTurn, hcell, List.take_succ_eq_append_getElem (by omega), curatedOrder_append]
    by_cases habsent : cells[i].toInt < 0 ∨ (count.toNat : ℤ) ≤ cells[i].toInt
    · rw [if_pos (or_assoc.mp (.inl habsent))]
      exact ⟨b, if_pos habsent, hb⟩
    · obtain ⟨t, ht, htb⟩ := hb.pushNew (s := cells[i].toInt.toNat) count.toNat_lt hout (by omega)
      refine ⟨t, (if_neg habsent).trans ht, ?_⟩
      simpa only [← or_assoc, habsent, false_or] using htb

/-- The second pass puts the remaining settings behind them. -/
theorem remainingPass_holds {curated : MenuBuffer} {done : List ℕ}
    (hcurated : curated.Holds out count.toNat done) (hout : count.toNat ≤ out.length) :
    ∃ b, scan 0 count.toNat (fun b s => b.pushNew (UInt8.ofNat s)) curated = some b ∧
      b.Holds out count.toNat (done ++ (List.range count.toNat).filter fun s => s ∉ done) := by
  refine scan_inv (I := fun i b => MenuBuffer.Holds b out count.toNat
    (done ++ (List.range i).filter fun s => s ∉ done)) (Nat.zero_le _) ?_ ?_
  · intro s b _ hs hb
    obtain ⟨t, ht, htb⟩ := hb.pushNew count.toNat_lt hout hs
    refine ⟨t, ht, ?_⟩
    rw [List.range_succ, List.filter_append]
    by_cases hold : s ∈ done
    · rw [if_pos (List.mem_append_left _ hold)] at htb
      simpa [hold] using htb
    · have hnew : s ∉ done ++ (List.range s).filter fun r => r ∉ done := by
        simp [hold]
      rw [if_neg hnew, List.append_assoc] at htb
      simpa [hold] using htb
  · simpa using hcurated

/-- The buffer ends with the menu order in its first cells and the others untouched; the order has
every setting once. -/
theorem udsComputeMenuOrder_eq (slots : MenuSlots) (hout : count.toNat ≤ out.length) :
    udsComputeMenuOrder slots out count =
        some ⟨(menuOrder slots count.toNat).map UInt8.ofNat ++ out.drop count.toNat, count⟩ ∧
      (menuOrder slots count.toNat).Perm (List.range count.toNat) := by
  obtain ⟨curated, hcurated, hholds⟩ := curatedPass_holds slots hout
  obtain ⟨b, hb, hdone⟩ := remainingPass_holds hholds hout
  have hperm := perm_append_remaining hholds.nodup hholds.inRange
  have hlen : (menuOrder slots count.toNat).length = count.toNat := by
    rw [menuOrder, hperm.length_eq, List.length_range]
  refine ⟨?_, hperm⟩
  have hcells : b.out = (menuOrder slots count.toNat).map UInt8.ofNat ++ out.drop count.toNat :=
    hdone.cells.trans (by rw [← menuOrder, hlen])
  have hn : b.n = count := UInt8.toNat_inj.mp (hdone.n.trans hlen)
  have hresult : some b = some ⟨(menuOrder slots count.toNat).map UInt8.ofNat ++
      out.drop count.toNat, count⟩ := by
    rw [← hcells, ← hn]
  rw [udsComputeMenuOrder, hcurated]
  exact hb.trans hresult

end Passes

/-- Slots with one setting twice, an empty one and one out of range. -/
def variantSlots : MenuSlots where
  cfg := some [3, -1, 1, 3, 200]
  cfgLen := 5
  whole := by
    rintro cells ⟨⟩
    exact Nat.le_refl 5

theorem udsComputeMenuOrder_variant :
    udsComputeMenuOrder variantSlots (List.replicate 6 0xAA) 4 =
        some ⟨(menuOrder variantSlots 4).map UInt8.ofNat ++ [0xAA, 0xAA], 4⟩ ∧
      (menuOrder variantSlots 4).Perm (List.range 4) :=
  udsComputeMenuOrder_eq variantSlots (by decide)

/-! ## The menu of the variant -/

theorem menuSlots_concat (count : ℕ) (out : List ℕ) (cfg : List ℤ) (s : ℤ) :
    menuSlots count out (cfg ++ [s]) =
      if s < 0 ∨ (count : ℤ) ≤ s ∨ s.toNat ∈ menuSlots count out cfg then menuSlots count out cfg
      else menuSlots count out cfg ++ [s.toNat] := by
  induction cfg generalizing out with
  | nil => rfl
  | cons r cfg ih =>
    rw [List.cons_append, menuSlots, menuSlots]
    split
    · exact ih out
    · exact ih (out ++ [r.toNat])

/-- The handset's menu is what the buffer holds. -/
theorem menuOrder_eq (slots : MenuSlots) (count : ℕ) :
    menuOrder slots count =
      computeMenuOrder (((slots.cfg.getD []).take slots.cfgLen.toNat).map Int16.toInt) count := by
  have hcurated : ∀ cells : List Int16,
      curatedOrder count cells = menuSlots count [] (cells.map Int16.toInt) := by
    intro cells
    induction cells using List.reverseRecOn with
    | nil => rfl
    | append_singleton cells s ih =>
      rw [curatedOrder_append, List.map_append, List.map_singleton, menuSlots_concat, ih]
  rw [menuOrder, computeMenuOrder, hcurated]

theorem menuSlots_nodup (count : ℕ) (cfg : List ℤ) :
    ∀ {out : List ℕ}, out.Nodup → (∀ s ∈ out, s < count) →
      (menuSlots count out cfg).Nodup ∧ ∀ s ∈ menuSlots count out cfg, s < count := by
  induction cfg with
  | nil => exact fun hnodup hrange => ⟨hnodup, hrange⟩
  | cons s cfg ih =>
    intro out hnodup hrange
    rw [menuSlots]
    split
    · exact ih hnodup hrange
    · rename_i hs
      push Not at hs
      refine ih (List.nodup_append.mpr ⟨hnodup, List.nodup_singleton _, ?_⟩) ?_
      · intro a ha c hc
        rw [List.mem_singleton.mp hc]
        exact fun h => hs.2.2 (h ▸ ha)
      · intro a ha
        rcases List.mem_append.mp ha with ha | ha
        · exact hrange a ha
        · rw [List.mem_singleton.mp ha]
          omega

/-- Every setting has one place in the menu. -/
theorem computeMenuOrder_perm (cfg : List ℤ) (count : ℕ) :
    (computeMenuOrder cfg count).Perm (List.range count) := by
  obtain ⟨hnodup, hrange⟩ := menuSlots_nodup count cfg List.nodup_nil
    fun s hs => absurd hs List.not_mem_nil
  exact perm_append_remaining hnodup hrange

theorem menuToStorage_inj {cfg : List ℤ} {i j storage : ℕ}
    (hi : menuToStorage cfg i = some storage) (hj : menuToStorage cfg j = some storage) :
    i = j := by
  have hnodup : (computeMenuOrder cfg settingCount).Nodup :=
    (computeMenuOrder_perm cfg settingCount).nodup_iff.mpr List.nodup_range
  obtain ⟨hlt, hi'⟩ := List.getElem?_eq_some_iff.mp hi
  exact (List.getElem?_inj hlt hnodup).mp (hi.trans hj.symm)

end DiveCANHead.Uds
