import DiveCANHead.FlashLog.Reader

/-!
# Where a selected range begins and how far it reaches

The sectors of a ring are compared by their physical number, the entries of a log
by the order they were appended in. `reaches_iff` relates the two for a range
that begins at one sector and stops at the least sector behind it with some
property.
-/

namespace DiveCANHead.FlashLog

open DiveCANHead.Lib

/-- `o` is the least number from `a` on with `P`. -/
def LeastFrom (P : ℕ → Prop) (a : ℕ) : Option ℕ → Prop
  | none => ∀ i, a ≤ i → ¬ P i
  | some e => a ≤ e ∧ P e ∧ ∀ i, a ≤ i → i < e → ¬ P i

theorem LeastFrom.eq_some {P : ℕ → Prop} {a n : ℕ} {e : Option ℕ} (h : LeastFrom P a e)
    (hle : a ≤ n) (hn : P n) (hleast : ∀ i, a ≤ i → i < n → ¬ P i) : e = some n := by
  cases e with
  | none => exact absurd hn (h n hle)
  | some e =>
    rcases Nat.lt_trichotomy e n with hlt | rfl | hlt
    · exact absurd h.2.1 (hleast e h.1 hlt)
    · rfl
    · exact absurd hn (h.2.2 n hle hlt)

theorem LeastFrom.eq_none {P : ℕ → Prop} {a : ℕ} {e : Option ℕ} (h : LeastFrom P a e)
    (hnone : ∀ i, a ≤ i → ¬ P i) : e = none := by
  cases e with
  | none => rfl
  | some e => exact absurd h.2.1 (hnone e h.1)

/-- A sector in the index whose row has `stop`. -/
def RowHas (f : Fcb) (stop : FlashLogIndexEntry → Bool) (i : ℕ) : Prop :=
  i < f.sectorCnt ∧ stop (sectorRow (f.sector i)) = true

variable {f : Fcb}

/-! ## Scans of the index -/

theorem endScan_least (stop : FlashLogIndexEntry → Bool) (a : ℕ) :
    LeastFrom (RowHas f stop) a (endScan stop a (buildIndex f)) := by
  have hrow : ∀ k, ((buildIndex f).drop a)[k]? =
      if a + k < f.sectorCnt then some (sectorRow (f.sector (a + k))) else none := by
    intro k
    rw [List.getElem?_drop]
    split
    · next h => exact buildIndex_row f h
    · next h => exact List.getElem?_eq_none (by rw [length_buildIndex]; exact not_lt.mp h)
  unfold endScan
  cases hfind : ((buildIndex f).drop a).findIdx? stop with
  | none =>
    intro i hi hhas
    have hmem := List.mem_of_getElem? ((hrow (i - a)).trans (if_pos (by
      rw [Nat.add_sub_cancel' hi]
      exact hhas.1)))
    have hno := List.findIdx?_eq_none_iff.mp hfind _ hmem
    rw [Nat.add_sub_cancel' hi, hhas.2] at hno
    cases hno
  | some k =>
    obtain ⟨hk, hstop, hbefore⟩ := List.findIdx?_eq_some_iff_getElem.mp hfind
    have hat := hrow k
    rw [List.getElem?_eq_getElem hk] at hat
    split at hat
    · next hlt =>
      rw [Option.some.inj hat] at hstop
      refine ⟨Nat.le_add_right _ _, ⟨hlt, hstop⟩, ?_⟩
      intro i hi hik hhas
      have hj : i - a < k := by
        change i < a + k at hik
        omega
      have hat' := hrow (i - a)
      rw [List.getElem?_eq_getElem (hj.trans hk), Nat.add_sub_cancel' hi, if_pos hhas.1] at hat'
      have hno := hbefore (i - a) hj
      rw [Option.some.inj hat', hhas.2] at hno
      exact hno rfl
    · cases hat

theorem findIdx?_least (key : FlashLogIndexEntry → Bool) :
    LeastFrom (RowHas f key) 0 ((buildIndex f).findIdx? key) := by
  have h := endScan_least (f := f) key 0
  simpa [endScan] using h

/-- A selector begins at the least keyed sector. -/
theorem beginSector_keyed {key : FlashLogIndexEntry → Bool} {isMarker : Entry → Bool} {a : ℕ}
    (ha : RowHas f key a) (hleast : ∀ i, i < a → ¬ RowHas f key i) :
    beginSector f key isMarker = some a := by
  have h := findIdx?_least (f := f) key
  unfold beginSector
  cases hfind : (buildIndex f).findIdx? key with
  | none =>
    rw [hfind] at h
    exact absurd ha (h a (Nat.zero_le a))
  | some e =>
    rw [hfind] at h
    obtain ⟨-, he, hbefore⟩ := h
    rcases Nat.lt_trichotomy e a with hlt | rfl | hgt
    · exact absurd he (hleast e hlt)
    · rfl
    · exact absurd ha (hbefore a (Nat.zero_le a) hgt)

/-! ## Markers that are resident once -/

section Once

variable {p : Entry → Bool} {e e' : Entry} {i j : ℕ}

/-- A marker that is resident once is in one sector. -/
theorem sector_unique (honce : f.log.countP p = 1) (he : e ∈ f.sector i) (hp : p e = true)
    (he' : e' ∈ f.sector j) (hp' : p e' = true) : i = j := by
  by_contra hne
  obtain ⟨u, w, hring⟩ := List.append_of_mem (Fcb.mem_ring_of_mem_sector he)
  have hj : j ∈ u ++ w := by
    have := Fcb.mem_ring_of_mem_sector he'
    rw [hring] at this
    rcases List.mem_append.mp this with h | h
    · exact List.mem_append_left _ h
    · exact List.mem_append_right _ ((List.mem_cons.mp h).resolve_left (Ne.symm hne))
  have hi := List.countP_pos_iff.mpr ⟨e, he, hp⟩
  have hrest : 0 < ((u ++ w).flatMap f.sector).countP p :=
    List.countP_pos_iff.mpr ⟨e', List.mem_flatMap.mpr ⟨j, hj, he'⟩, hp'⟩
  rw [Fcb.log, hring] at honce
  simp only [List.flatMap_append, List.flatMap_cons, List.countP_append] at honce hrest
  omega

/-- A range that covers the sectors `l` streams the marker when its sector is
among them. -/
theorem mem_flatMap_sector (honce : f.log.countP p = 1) (he : e ∈ f.sector i) (hp : p e = true)
    (l : List ℕ) : e ∈ l.flatMap f.sector ↔ i ∈ l := by
  constructor
  · intro h
    obtain ⟨j, hj, hej⟩ := List.mem_flatMap.mp h
    rwa [sector_unique honce he hp hej hp]
  · exact fun h => List.mem_flatMap.mpr ⟨i, h, he⟩

theorem notMem_of_once {pre post : List Entry} (h : f.log = pre ++ e :: post)
    (honce : f.log.countP p = 1) (hp : p e = true) : e ∉ pre ∧ e ∉ post := by
  rw [h, List.countP_append, List.countP_cons_of_pos hp] at honce
  refine ⟨fun hm => ?_, fun hm => ?_⟩
  · have := List.countP_pos_iff.mpr ⟨e, hm, hp⟩
    omega
  · have := List.countP_pos_iff.mpr ⟨e, hm, hp⟩
    omega

/-- The scan for a marker finds its sector. -/
theorem scanForMarker_eq (honce : f.log.countP p = 1) (he : e ∈ f.sector i) (hp : p e = true) :
    scanForMarker f p = some i := by
  unfold scanForMarker
  rw [Fcb.walk_eq]
  cases hfind : (tagged f.sector f.ring).find? fun x => p x.2 with
  | none =>
    have hmem : (i, e) ∈ tagged f.sector f.ring :=
      mem_tagged.mpr ⟨Fcb.mem_ring_of_mem_sector he, he⟩
    exact absurd hp (List.find?_eq_none.mp hfind _ hmem)
  | some x =>
    have hx := mem_tagged.mp (List.mem_of_find?_eq_some hfind)
    have hpx : p x.2 = true := List.find?_some (p := fun y : ℕ × Entry => p y.2) hfind
    rw [Option.map_some, sector_unique honce he hp hx.2 hpx]

/-- An unkeyed marker is found by the scan. -/
theorem beginSector_scan {key : FlashLogIndexEntry → Bool} (hno : ∀ i, ¬ RowHas f key i)
    (honce : f.log.countP p = 1) (he : e ∈ f.sector i) (hp : p e = true) :
    beginSector f key p = some i := by
  have h := findIdx?_least (f := f) key
  unfold beginSector
  cases hfind : (buildIndex f).findIdx? key with
  | none => exact scanForMarker_eq honce he hp
  | some a =>
    rw [hfind] at h
    exact absurd h.2.1 (hno a)

end Once

/-! ## How far a range reaches -/

section Reach

variable {P : ℕ → Prop} {a b : ℕ} {u v w : List ℕ} {endSector : Option ℕ}

/-- The numbers of the sectors between two sectors in use. -/
theorem between_sectors (h : f.ring = u ++ a :: (v ++ b :: w)) :
    (a < b ∧ ∀ x, x ∈ v ↔ a < x ∧ x < b) ∨
      (b < a ∧ ∀ x, x ∈ v ↔ (a < x ∧ x < f.sectorCnt) ∨ x < b) := by
  have hlen : (f.active + f.sectorCnt - f.oldest) % f.sectorCnt + 1 ≤ f.sectorCnt :=
    Nat.mod_lt _ Fcb.sectorCnt_pos
  exact mem_between hlen h

/-- The entries before, inside and behind a range. -/
theorem log_split (h : f.ring = u ++ a :: w) (endSector : Option ℕ) :
    f.log = u.flatMap f.sector ++ (covered endSector (a :: w)).flatMap f.sector ++
      ((a :: w).dropWhile fun s => endSector ≠ some s).flatMap f.sector := by
  rw [List.append_assoc, ← List.flatMap_append, covered, List.takeWhile_append_dropWhile, Fcb.log,
    h, List.flatMap_append]

/-- A range covers the sector it begins at. -/
theorem begin_mem_covered (hend : LeastFrom P (a + 1) endSector) :
    a ∈ covered endSector (a :: w) := by
  unfold covered
  have hne : endSector ≠ some a := by
    rintro rfl
    exact absurd hend.1 (Nat.not_succ_le_self a)
  rw [List.takeWhile_cons_of_pos (by simpa using hne)]
  exact List.mem_cons_self

/-- A later sector is covered when no sector that the walk meets up to it ends the
range: none with a number in between, or, past the wrap, none with a higher one. -/
theorem reaches_iff (hring : f.ring = u ++ a :: (v ++ b :: w))
    (hP : ∀ i, P i → i < f.sectorCnt) (hend : LeastFrom P (a + 1) endSector) :
    b ∈ covered endSector (a :: (v ++ b :: w)) ↔
      (a < b ∧ ∀ i, a < i → i ≤ b → ¬ P i) ∨ (b < a ∧ ∀ i, a < i → ¬ P i) := by
  have hnodup := f.nodup_ring
  rw [hring] at hnodup
  have hb : b ∉ a :: v := by
    have h := (List.nodup_append.mp hnodup).2.1
    rw [← List.cons_append] at h
    exact fun hm => (List.nodup_append.mp h).2.2 b hm b List.mem_cons_self rfl
  have hmeets : b ∈ covered endSector (a :: (v ++ b :: w)) ↔
      ∀ x ∈ (a :: v) ++ [b], endSector ≠ some x := by
    have h := mem_takeWhile (p := fun s => decide (endSector ≠ some s)) (v := w) hb
    simpa [covered] using h
  rw [hmeets]
  cases endSector with
  | none =>
    have hnone : ∀ i, a < i → ¬ P i := hend
    refine iff_of_true (fun x _ => nofun) ?_
    rcases between_sectors hring with ⟨hlt, -⟩ | ⟨hlt, -⟩
    · exact .inl ⟨hlt, fun i hi _ => hnone i hi⟩
    · exact .inr ⟨hlt, hnone⟩
  | some e =>
    obtain ⟨hae, hPe, hbefore⟩ := hend
    have hcnt := hP e hPe
    have hmem : (∀ x ∈ (a :: v) ++ [b], some e ≠ some x) ↔ e ∉ v ∧ e ≠ b := by
      have hea : e ≠ a := by omega
      constructor
      · intro h
        exact ⟨fun hv => h e (by simp [hv]) rfl, fun heb => h e (by simp [heb]) rfl⟩
      · rintro ⟨hv, heb⟩ x hx hxe
        obtain rfl := Option.some.inj hxe
        simp [hea, hv, heb] at hx
    rw [hmem]
    rcases between_sectors hring with ⟨hlt, hv⟩ | ⟨hlt, hv⟩
    · rw [hv]
      constructor
      · rintro ⟨hout, hne⟩
        refine .inl ⟨hlt, fun i hi hib => hbefore i hi (by omega)⟩
      · rintro (⟨-, hno⟩ | ⟨hgt, -⟩)
        · have hgt : b < e := by
            by_contra hle
            exact hno e hae (not_lt.mp hle) hPe
          exact ⟨by omega, by omega⟩
        · exact absurd hgt (by omega)
    · refine iff_of_false (fun h => h.1 ((hv e).mpr (.inl ⟨hae, hcnt⟩))) ?_
      rintro (⟨hgt, -⟩ | ⟨-, hno⟩)
      · exact absurd hgt (by omega)
      · exact hno e hae hPe

theorem notMem_behind (hring : f.ring = u ++ a :: w) : a ∉ w := by
  have hnodup := f.nodup_ring
  rw [hring] at hnodup
  exact (List.nodup_cons.mp (List.nodup_append.mp hnodup).2.1).1

theorem ne_of_in_ring (hring : f.ring = u ++ a :: (v ++ b :: w)) : a ≠ b := by
  rintro rfl
  exact notMem_behind hring (List.mem_append_right _ List.mem_cons_self)

/-- A sector before the beginning of the range is not covered. -/
theorem notMem_covered (hring : f.ring = u ++ a :: (v ++ b :: w)) (endSector : Option ℕ) :
    a ∉ covered endSector (b :: w) := by
  intro hm
  exact notMem_behind hring
    (List.mem_append_right _ ((List.takeWhile_sublist _).subset hm))

end Reach

end DiveCANHead.FlashLog
