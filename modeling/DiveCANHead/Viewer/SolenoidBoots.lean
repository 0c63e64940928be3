import DiveCANHead.Viewer.Solenoids

/-!
# Solenoid spans within a boot

The end the viewer pairs with a start belongs to it if it is of the same boot. A start without an
end of its boot takes its requested duration, and may then reach into the next boot.
-/

namespace DiveCANHead.Viewer

open DiveCANHead.Lib DiveCANHead.FlashLog DiveCANHead.LogClient

/-- The records of a log are in the order of their boots, each at a time of its own boot. -/
structure FiresPlaced (axis : List EpochAxis) (rs : List Fire) : Prop where
  sorted : rs.Pairwise fun q r => q.epoch ≤ r.epoch
  before : ∀ q ∈ rs, ∀ i a, axis[i]? = some a → q.epoch < i → q.t < a.startS
  after : ∀ q ∈ rs, ∃ a, axis[q.epoch]? = some a ∧ a.startS ≤ q.t
  places : (rs.map Fire.off).Nodup

theorem FiresPlaced.tail {axis : List EpochAxis} {r : Fire} {rs : List Fire}
    (h : FiresPlaced axis (r :: rs)) : FiresPlaced axis rs where
  sorted := (List.pairwise_cons.mp h.sorted).2
  before := fun q hq => h.before q (.tail _ hq)
  after := fun q hq => h.after q (.tail _ hq)
  places := (List.nodup_cons.mp h.places).2

/-! ## Ends -/

theorem pairedEnd_eq_some {family : UInt8} {rs : List Fire} {q : Fire}
    (h : pairedEnd family rs = some q) : q ∈ rs ∧ q.family = family ∧ ¬q.isOpen = true := by
  obtain ⟨hnext, hstop⟩ := Option.filter_eq_some_iff.mp h
  refine ⟨List.mem_of_find?_eq_some hnext, ?_, ?_⟩
  · exact beq_iff_eq.mp (List.find?_some (p := fun q : Fire => q.family == family) hnext)
  · rw [Bool.not_eq_true, ← Bool.not_eq_true']
    exact hstop

theorem closer_cons (r x : Fire) (rs : List Fire) :
    closer r (x :: rs) =
      if x.isOpen && x.family == r.family then none
      else if !x.isOpen && x.family == r.family && x.epoch == r.epoch then some x
      else closer r rs := by
  rw [closer, List.takeWhile_cons]
  cases hstart : x.isOpen && x.family == r.family
  · rw [Bool.not_false, if_pos rfl, List.find?_cons, if_neg Bool.false_ne_true]
    cases !x.isOpen && x.family == r.family && x.epoch == r.epoch <;> rfl
  · rfl

/-- What belongs to a start is the next end of its family, if it is of the same boot. -/
theorem closer_eq {r : Fire} {rs : List Fire}
    (hsorted : (r :: rs).Pairwise fun q r => q.epoch ≤ r.epoch) :
    closer r rs = (pairedEnd r.family rs).filter fun q => q.epoch == r.epoch := by
  induction rs with
  | nil => rfl
  | cons x rs ih =>
    obtain ⟨hr, hrest⟩ := List.pairwise_cons.mp hsorted
    have hskip : (r :: rs).Pairwise fun q r => q.epoch ≤ r.epoch :=
      List.pairwise_cons.mpr ⟨fun q hq => hr q (.tail _ hq), (List.pairwise_cons.mp hrest).2⟩
    rw [closer_cons]
    by_cases hfamily : x.family = r.family
    · rw [hfamily, beq_self_eq_true, Bool.and_true, Bool.and_true, ← hfamily, pairedEnd_cons_self]
      cases x.isOpen with
      | true => rfl
      | false =>
        rw [if_neg Bool.false_ne_true, if_neg Bool.false_ne_true, Bool.not_false, Bool.true_and,
          Option.filter_some]
        by_cases hepoch : x.epoch = r.epoch
        · rw [hepoch, beq_self_eq_true, if_pos rfl, if_pos rfl]
        · have hfalse : (x.epoch == r.epoch) = false := beq_eq_false_iff_ne.mpr hepoch
          have hlater : ∀ q ∈ rs, q.epoch ≠ r.epoch := fun q hq heq => by
            have hle := (List.pairwise_cons.mp hrest).1 q hq
            have hrx := hr x List.mem_cons_self
            omega
          rw [hfalse, if_neg Bool.false_ne_true, if_neg Bool.false_ne_true, ih hskip]
          refine Option.filter_eq_none_iff.mpr fun q hq => ?_
          rw [beq_iff_eq]
          exact hlater q (pairedEnd_eq_some hq).1
    · have hfalse : (x.family == r.family) = false := beq_eq_false_iff_ne.mpr hfamily
      rw [hfalse, Bool.and_false, Bool.and_false, Bool.false_and, if_neg Bool.false_ne_true,
        if_neg Bool.false_ne_true, pairedEnd_cons_of_ne hfamily]
      exact ih hskip

theorem closer_eq_some {r q : Fire} {rs : List Fire}
    (hsorted : (r :: rs).Pairwise fun q r => q.epoch ≤ r.epoch) (h : closer r rs = some q) :
    q ∈ rs ∧ q.family = r.family := by
  rw [closer_eq hsorted] at h
  obtain ⟨hmem, hfamily, -⟩ := pairedEnd_eq_some (Option.filter_eq_some_iff.mp h).1
  exact ⟨hmem, hfamily⟩

/-- The ends that are paired are records of the list. -/
theorem mem_of_pairs {axis : List EpochAxis} {rs : List Fire} (h : FiresPlaced axis rs)
    {p : Fire × Option Fire} (hp : p ∈ pairs rs) {q : Fire} (hq : q ∈ p.2) : q ∈ rs := by
  induction rs with
  | nil => cases hp
  | cons x rs ih =>
    rw [pairs] at hp
    split at hp
    · rcases List.mem_cons.mp hp with rfl | hp
      · exact .tail _ (closer_eq_some h.sorted hq).1
      · exact .tail _ (ih h.tail hp)
    · exact .tail _ (ih h.tail hp)

/-- The end that is next in a family belongs to no start behind it. -/
theorem pairedEnd_fresh {axis : List EpochAxis} {family : UInt8} {rs : List Fire} {q : Fire}
    (h : FiresPlaced axis rs) (hq : pairedEnd family rs = some q) :
    ∀ p ∈ pairs rs, ∀ q' ∈ p.2, q.off ≠ q'.off := by
  induction rs with
  | nil => exact fun p hp => absurd hp List.not_mem_nil
  | cons x rs ih =>
    obtain ⟨hx, -⟩ := List.nodup_cons.mp h.places
    rw [pairs]
    by_cases hfamily : x.family = family
    · subst hfamily
      rw [pairedEnd_cons_self] at hq
      split at hq
      · cases hq
      · rename_i hstop
        obtain rfl := Option.some.inj hq
        rw [if_neg hstop]
        intro p hp q' hq' hoff
        exact hx (List.mem_map.mpr ⟨q', mem_of_pairs h.tail hp hq', hoff.symm⟩)
    · rw [pairedEnd_cons_of_ne hfamily] at hq
      have hrest := ih h.tail hq
      split
      · intro p hp
        rcases List.mem_cons.mp hp with rfl | hp
        · intro q' hq' hoff
          obtain ⟨hmem, hsame⟩ := closer_eq_some h.sorted hq'
          obtain ⟨hqmem, hqfamily, -⟩ := pairedEnd_eq_some hq
          have heq : q = q' := List.inj_on_of_nodup_map h.tail.places hqmem hmem hoff
          exact hfamily (hsame.symm.trans (heq ▸ hqfamily))
        · exact hrest p hp
      · exact hrest

/-- No end is paired twice. -/
theorem nodup_ends {axis : List EpochAxis} {rs : List Fire} (h : FiresPlaced axis rs) :
    ((pairs rs).filterMap fun p => p.2.map Fire.off).Nodup := by
  induction rs with
  | nil => exact List.nodup_nil
  | cons x rs ih =>
    rw [pairs]
    split
    · cases hq : closer x rs with
      | none => exact ih h.tail
      | some q =>
        refine List.nodup_cons.mpr ⟨fun hmem => ?_, ih h.tail⟩
        obtain ⟨p, hp, hoff⟩ := List.mem_filterMap.mp hmem
        obtain ⟨q', hq', hoff⟩ := Option.map_eq_some_iff.mp hoff
        rw [closer_eq h.sorted] at hq
        exact pairedEnd_fresh h.tail (Option.filter_eq_some_iff.mp hq).1 p hp q' hq' hoff.symm
    · exact ih h.tail

/-! ## The records of a log -/

/-- A record is over before the epochs behind its own begin. -/
theorem epochTime_before {bytes : List UInt8} {vs : List Visit} {p : Visit × ℕ}
    (hp : p ∈ withEpochs Visit.type vs) {i : ℕ} {a : EpochAxis}
    (ha : (epochAxis bytes vs)[i]? = some a) (h : p.2 < i) :
    epochTime (epochAxis bytes vs) p.2 p.1.tsUs < a.startS := by
  obtain ⟨b, hb, -, hend⟩ := epochTime_within bytes hp
  have hgap := epochAxis_apart hb ha h
  have hpos : (0 : ℚ) < epochGapS := by rw [epochGapS]; norm_num
  linarith

theorem fires_placed (bytes : List UInt8) :
    FiresPlaced (epochAxis bytes (visits bytes)) (fires bytes) := by
  have hof : ∀ {p : Visit × ℕ} {r}, fireOf bytes (epochAxis bytes (visits bytes)) p = some r →
      r.t = epochTime (epochAxis bytes (visits bytes)) p.2 p.1.tsUs ∧ r.epoch = p.2 ∧
        r.off = p.1.off := fun {p r} hr => by
    unfold fireOf at hr
    split at hr
    · obtain rfl := Option.some.inj hr
      exact ⟨rfl, rfl, rfl⟩
    · cases hr
  have hplaces : (withEpochs Visit.type (visits bytes)).Pairwise fun p q => p.1.off < q.1.off := by
    have hvisits := pairwise_visits bytes
    rw [← map_fst_withEpochs Visit.type (visits bytes), List.pairwise_map] at hvisits
    exact hvisits
  refine ⟨?_, fun q hq i a ha hlt => ?_, fun q hq => ?_, ?_⟩
  · refine List.Pairwise.filterMap _ (fun p q hpq r hr s hs => ?_)
      (pairwise_withEpochs (visits bytes))
    rw [(hof hr).2.1, (hof hs).2.1]
    exact hpq
  · obtain ⟨p, hp, hq⟩ := List.mem_filterMap.mp hq
    rw [(hof hq).1]
    exact epochTime_before hp ha ((hof hq).2.1 ▸ hlt)
  · obtain ⟨p, hp, hq⟩ := List.mem_filterMap.mp hq
    obtain ⟨a, ha, hstart, -⟩ := epochTime_within bytes hp
    rw [(hof hq).1, (hof hq).2.1]
    exact ⟨a, ha, hstart⟩
  · refine List.pairwise_map.mpr ?_
    refine List.Pairwise.filterMap _ (fun p q hpq r hr s hs => ?_) hplaces
    rw [(hof hr).2.2, (hof hs).2.2]
    exact Nat.ne_of_lt hpq

/-! ## Paired within a boot -/

/-- A span is over before the boots behind its own begin. -/
def Within (axis : List EpochAxis) (p : Fire × Option Fire) : Prop :=
  ∀ i a, axis[i]? = some a → p.1.epoch < i → (spanOf p).t1 < a.startS

/-- The spans of the model are those of the starts and the ends that belong to them. -/
structure SpansPaired (bytes : List UInt8) : Prop where
  spans : solenoidSpans bytes = (pairs (fires bytes)).map spanOf
  within : ∀ p ∈ pairs (fires bytes), Within (epochAxis bytes (visits bytes)) p
  once : ((pairs (fires bytes)).filterMap fun p => p.2.map Fire.off).Nodup

/-- The next record of a start's family is an end of its boot; or it is no end, and the requested
duration is over before the next boot. -/
def Fire.Kept (axis : List EpochAxis) (r : Fire) (rs : List Fire) : Prop :=
  match pairedEnd r.family rs with
  | some q => q.epoch = r.epoch
  | none => ∀ i a, axis[i]? = some a → r.epoch < i → r.t + r.requestedS < a.startS

/-- Every start is kept within its boot. -/
def StartsKept (axis : List EpochAxis) : List Fire → Prop
  | [] => True
  | r :: rs => (r.isOpen = true → r.Kept axis rs) ∧ StartsKept axis rs

theorem kept_iff {axis : List EpochAxis} {r : Fire} {rs : List Fire}
    (h : FiresPlaced axis (r :: rs)) :
    spanOf (r, pairedEnd r.family rs) = spanOf (r, closer r rs) ∧ Within axis (r, closer r rs) ↔
      r.Kept axis rs := by
  rw [closer_eq h.sorted, Fire.Kept]
  cases hq : pairedEnd r.family rs with
  | none =>
    rw [Option.filter_none]
    exact ⟨fun hand => hand.2, fun hkept => ⟨rfl, hkept⟩⟩
  | some q =>
    have hmem := (pairedEnd_eq_some hq).1
    rw [Option.filter_some]
    dsimp only
    by_cases hepoch : q.epoch = r.epoch
    · rw [if_pos (beq_iff_eq.mpr hepoch)]
      refine ⟨fun _ => hepoch, fun _ => ⟨rfl, fun i a ha hlt => ?_⟩⟩
      exact h.before q (.tail _ hmem) i a ha (hepoch.symm ▸ hlt)
    · rw [if_neg (by rwa [beq_iff_eq])]
      refine ⟨fun ⟨hspan, hwithin⟩ => ?_, fun heq => absurd heq hepoch⟩
      obtain ⟨a, ha, hstart⟩ := h.after q (.tail _ hmem)
      have hle := (List.pairwise_cons.mp h.sorted).1 q hmem
      have hlt : q.t < a.startS := by
        have hend := hwithin q.epoch a ha (Nat.lt_of_le_of_ne hle (Ne.symm hepoch))
        rw [← hspan] at hend
        exact hend
      exact absurd hstart (not_le_of_gt hlt)

/-- Over a list: the pairs of the viewer are right where every start is kept within its boot. -/
theorem startsKept_iff {axis : List EpochAxis} {rs : List Fire} (h : FiresPlaced axis rs) :
    (viewerPairs rs).map spanOf = (pairs rs).map spanOf ∧ (∀ p ∈ pairs rs, Within axis p) ↔
      StartsKept axis rs := by
  induction rs with
  | nil => exact ⟨fun _ => trivial, fun _ => ⟨rfl, fun p hp => absurd hp List.not_mem_nil⟩⟩
  | cons r rs ih =>
    rw [viewerPairs, pairs, StartsKept]
    by_cases hr : r.isOpen = true
    · rw [if_pos hr, if_pos hr, List.map_cons, List.map_cons, List.cons.injEq,
        List.forall_mem_cons, ← ih h.tail, ← kept_iff h]
      constructor
      · rintro ⟨⟨hspan, hspans⟩, hwithin, hwithins⟩
        exact ⟨fun _ => ⟨hspan, hwithin⟩, hspans, hwithins⟩
      · rintro ⟨hkept, hspans, hwithins⟩
        exact ⟨⟨(hkept hr).1, hspans⟩, (hkept hr).2, hwithins⟩
    · rw [if_neg hr, if_neg hr, ih h.tail]
      exact ⟨fun hkept => ⟨fun hopen => absurd hopen hr, hkept⟩, fun hkept => hkept.2⟩

/-- The spans are paired within a boot exactly where the end that comes next in a start's family is
of its boot, and where a start without one has its requested duration over before the next. -/
theorem solenoidSpans_paired_iff (bytes : List UInt8) :
    SpansPaired bytes ↔ StartsKept (epochAxis bytes (visits bytes)) (fires bytes) := by
  have hplaced := fires_placed bytes
  rw [← startsKept_iff hplaced, ← solenoidSpans_eq]
  exact ⟨fun h => ⟨h.spans, h.within⟩, fun h => ⟨h.1, h.2, nodup_ends hplaced⟩⟩

/-- An injection of half a second starts, the head reboots, and an injection ends whose start was
lost. -/
def rebootMidFire : List UInt8 :=
  [0x12, 0, 9, 0, 0, 0, 0, 0, 0, 0, 0, 0, 0, 0x20, 0xA1, 0x07, 0, 0, 0, 0, 0,
    0x01, 0, 0, 0, 0, 0, 0, 0, 0, 0, 0, 0,
    0x12, 0, 9, 0, 0, 0, 0, 0, 0, 0, 0, 0, 1, 0x20, 0xA1, 0x07, 0, 0, 0, 0, 0]

theorem visits_rebootMidFire :
    visits rebootMidFire = [⟨0x12, 0, 0, 12, 9⟩, ⟨0x01, 0, 0, 33, 0⟩, ⟨0x12, 0, 0, 45, 9⟩] := by
  have hstart : bodyStart rebootMidFire = 0 := by decide
  rw [visits, hstart, walkStream, walkLoop, dif_neg (by decide), if_neg (by decide),
    if_neg (by decide), walkLoop, dif_neg (by decide), if_neg (by decide), if_neg (by decide),
    walkLoop, dif_neg (by decide), if_neg (by decide), if_neg (by decide), walkLoop,
    dif_pos (by decide), walkLoop]
  rfl

/-- The span reaches over the reboot, to the end of the other injection. -/
theorem rebootMidFire_crosses : ¬SpansPaired rebootMidFire := by
  intro h
  have hspans := h.spans
  rw [solenoidSpans, fires, visits_rebootMidFire] at hspans
  revert hspans
  decide +kernel

end DiveCANHead.Viewer
