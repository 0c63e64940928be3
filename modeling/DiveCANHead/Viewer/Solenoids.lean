import DiveCANHead.Viewer.Faithful

/-!
# Solenoid spans (`buildSolenoidSpans` of `TelemetryBuilder.js`)

The viewer collects the solenoid records of a whole log and pairs each start with the end that comes
next in its family. It does not look at the boot markers: an end is paired with a start before a
reboot, if the end that belongs to it was lost.
-/

namespace DiveCANHead.Viewer

open DiveCANHead.Lib DiveCANHead.FlashLog DiveCANHead.LogClient

/-- An entry of `solRaw`. -/
structure SolRaw where
  t : ℚ
  kind : UInt8
  requestedOnUs : ℤ
  deriving DecidableEq

/-- `isOpen`: an injection or a flush starts. -/
def SolRaw.isOpen (r : SolRaw) : Bool := r.kind == 0 || r.kind == 2

/-- 0 for injections, 1 for flushes. -/
def SolRaw.family (r : SolRaw) : UInt8 := r.kind >>> 1

def SolRaw.requestedS (r : SolRaw) : ℚ := r.requestedOnUs / usPerS

/-- A span while the records are paired; `t1` is `NaN` until it is closed. -/
structure OpenSpan where
  t0 : ℚ
  t1 : Option ℚ
  kind : UInt8
  requestedS : ℚ
  deriving DecidableEq

/-- The spans so far, and which of them waits for the end of its family. -/
structure Pairing where
  spans : List OpenSpan
  openIdx : UInt8 → Option ℕ

/-- What `buildSolenoidSpans` does with a record. -/
def Pairing.record (p : Pairing) (r : SolRaw) : Pairing :=
  if r.isOpen then
    { spans := p.spans ++ [⟨r.t, none, r.kind, r.requestedS⟩]
      openIdx := Function.update p.openIdx r.family (some p.spans.length) }
  else
    match p.openIdx r.family with
    | none => p
    | some k =>
      { spans := p.spans.modify k fun s => { s with t1 := some r.t }
        openIdx := Function.update p.openIdx r.family none }

structure SolenoidSpan where
  t0 : ℚ
  t1 : ℚ
  kind : UInt8
  requestedS : ℚ
  deriving DecidableEq

/-- A span that was not closed takes its requested duration. -/
def OpenSpan.close (s : OpenSpan) : SolenoidSpan :=
  ⟨s.t0, s.t1.getD (s.t0 + s.requestedS), s.kind, s.requestedS⟩

def buildSolenoidSpans (raw : List SolRaw) : List SolenoidSpan :=
  (raw.foldl Pairing.record ⟨[], fun _ => none⟩).spans.map OpenSpan.close

/-- A solenoid record with its place in the stream and its boot epoch. -/
structure Fire extends SolRaw where
  off : ℕ
  epoch : ℕ
  deriving DecidableEq

/-- The record of a visit. -/
def fireOf (bytes : List UInt8) (axis : List EpochAxis) (p : Visit × ℕ) : Option Fire :=
  if p.1.type = flTypeSolenoidFire then
    some
      { t := epochTime axis p.2 p.1.tsUs
        kind := byteAt bytes p.1.off
        requestedOnUs := readU32LE bytes (p.1.off + 1)
        off := p.1.off
        epoch := p.2 }
  else none

/-- The solenoid records of a log. -/
def fires (bytes : List UInt8) : List Fire :=
  (withEpochs Visit.type (visits bytes)).filterMap
    (fireOf bytes (epochAxis bytes (visits bytes)))

/-- `solenoid` of the model. -/
def solenoidSpans (bytes : List UInt8) : List SolenoidSpan :=
  buildSolenoidSpans ((fires bytes).map Fire.toSolRaw)

/-! ## Which end belongs to a start -/

/-- The next record of a family. -/
def nextOf (family : UInt8) (rs : List Fire) : Option Fire := rs.find? fun q => q.family == family

/-- The first end of a start's family in its boot epoch, before the family's next start. -/
def closer (r : Fire) (rs : List Fire) : Option Fire :=
  (rs.takeWhile fun q => !(q.isOpen && q.family == r.family)).find? fun q =>
    !q.isOpen && q.family == r.family && q.epoch == r.epoch

/-- The starts with their ends. -/
def pairs : List Fire → List (Fire × Option Fire)
  | [] => []
  | r :: rs => if r.isOpen then (r, closer r rs) :: pairs rs else pairs rs

/-- The span of a start and the end that belongs to it. -/
def spanOf (p : Fire × Option Fire) : SolenoidSpan :=
  ⟨p.1.t, (p.2.map fun q => q.t).getD (p.1.t + p.1.requestedS), p.1.kind, p.1.requestedS⟩

/-! ## What the viewer pairs -/

/-- The end that comes next in a family, whichever epoch it is in. -/
def pairedEnd (family : UInt8) (rs : List Fire) : Option Fire :=
  (nextOf family rs).filter fun q => !q.isOpen

/-- The starts with the ends the viewer pairs them with. -/
def viewerPairs : List Fire → List (Fire × Option Fire)
  | [] => []
  | r :: rs => if r.isOpen then (r, pairedEnd r.family rs) :: viewerPairs rs else viewerPairs rs

theorem pairedEnd_cons_of_ne {family : UInt8} {r : Fire} (h : r.family ≠ family)
    (rs : List Fire) : pairedEnd family (r :: rs) = pairedEnd family rs := by
  rw [pairedEnd, nextOf, List.find?_cons_of_neg (by rwa [beq_iff_eq]), pairedEnd, nextOf]

theorem pairedEnd_cons_self (r : Fire) (rs : List Fire) :
    pairedEnd r.family (r :: rs) = if r.isOpen then none else some r := by
  have hnext : nextOf r.family (r :: rs) = some r :=
    List.find?_cons_of_pos (p := fun q : Fire => q.family == r.family) (beq_self_eq_true _)
  rw [pairedEnd, hnext]
  cases h : r.isOpen
  · rw [Option.filter_some_pos (by rw [h]; rfl)]
    rfl
  · rw [Option.filter_some_neg (by rw [h]; rfl)]
    rfl

/-- A span that waits is closed by the end that comes next in its family. -/
def Pairing.patch (p : Pairing) (rs : List Fire) (k : ℕ) (s : OpenSpan) : OpenSpan :=
  if p.openIdx (s.kind >>> 1) = some k then
    { s with t1 := (pairedEnd (s.kind >>> 1) rs).map fun q => q.t }
  else s

/-- The spans that wait are there, of their families, and not closed. -/
def Pairing.Valid (p : Pairing) : Prop :=
  ∀ family k, p.openIdx family = some k →
    ∃ s, p.spans[k]? = some s ∧ s.t1 = none ∧ s.kind >>> 1 = family

section Record

variable {p : Pairing} {r : SolRaw} {k : ℕ}

theorem record_start (hr : r.isOpen = true) :
    p.record r =
      ⟨p.spans ++ [⟨r.t, none, r.kind, r.requestedS⟩],
        Function.update p.openIdx r.family (some p.spans.length)⟩ := if_pos hr

theorem record_stray (hr : ¬r.isOpen = true) (hopen : p.openIdx r.family = none) :
    p.record r = p := by
  rw [Pairing.record, if_neg hr, hopen]

theorem record_stop (hr : ¬r.isOpen = true) (hopen : p.openIdx r.family = some k) :
    p.record r =
      ⟨p.spans.modify k fun s => { s with t1 := some r.t },
        Function.update p.openIdx r.family none⟩ := by
  rw [Pairing.record, if_neg hr, hopen]

theorem Pairing.Valid.start (hp : p.Valid) (hr : r.isOpen = true) : (p.record r).Valid := by
  intro family k hk
  rw [record_start hr] at hk ⊢
  dsimp only at hk ⊢
  by_cases hfamily : family = r.family
  · rw [hfamily, Function.update_self] at hk
    obtain rfl := Option.some.inj hk
    exact ⟨_, List.getElem?_concat_length, rfl, hfamily.symm⟩
  · rw [Function.update_of_ne hfamily] at hk
    obtain ⟨s, hs, hopen⟩ := hp family k hk
    exact ⟨s, getElem?_concat_eq_some.mpr (.inl hs), hopen⟩

/-- Two families do not wait for the same span. -/
theorem Pairing.Valid.ne (hp : p.Valid) {f g : UInt8} {j : ℕ} (hfg : f ≠ g)
    (hf : p.openIdx f = some k) (hg : p.openIdx g = some j) : j ≠ k := by
  rintro rfl
  obtain ⟨s, hs, -, hs'⟩ := hp f j hf
  obtain ⟨s0, hs0, -, hs0'⟩ := hp g j hg
  obtain rfl := Option.some.inj (hs.symm.trans hs0)
  exact hfg (hs'.symm.trans hs0')

theorem Pairing.Valid.stop (hp : p.Valid) (hr : ¬r.isOpen = true)
    (hopen : p.openIdx r.family = some k) : (p.record r).Valid := by
  intro family j hj
  rw [record_stop hr hopen] at hj ⊢
  dsimp only at hj ⊢
  have hfamily : r.family ≠ family := by
    rintro rfl
    rw [Function.update_self] at hj
    cases hj
  rw [Function.update_of_ne hfamily.symm] at hj
  obtain ⟨s, hs, hs'⟩ := hp family j hj
  refine ⟨s, ?_, hs'⟩
  rw [List.getElem?_modify_ne _ _ (hp.ne hfamily hopen hj).symm, hs]

theorem patch_wait {rs : List Fire} {s : OpenSpan} (h : p.openIdx (s.kind >>> 1) = some k) :
    p.patch rs k s = { s with t1 := (pairedEnd (s.kind >>> 1) rs).map fun q => q.t } := if_pos h

theorem patch_other {rs : List Fire} {s : OpenSpan} (h : p.openIdx (s.kind >>> 1) ≠ some k) :
    p.patch rs k s = s := if_neg h

end Record

/-- The span of a start while the records are paired. -/
def openSpanOf (p : Fire × Option Fire) : OpenSpan :=
  ⟨p.1.t, p.2.map fun q => q.t, p.1.kind, p.1.requestedS⟩

theorem close_openSpanOf (p : Fire × Option Fire) : (openSpanOf p).close = spanOf p := rfl

theorem patch_nil {p : Pairing} (hp : p.Valid) : p.spans.mapIdx (p.patch []) = p.spans := by
  refine List.ext_getElem? fun k => ?_
  rw [List.getElem?_mapIdx]
  cases hs : p.spans[k]? with
  | none => rfl
  | some s =>
    refine congrArg some ?_
    unfold Pairing.patch
    split
    · rename_i hopen
      obtain ⟨s', hs', hnone, -⟩ := hp _ k hopen
      obtain rfl := Option.some.inj (hs.symm.trans hs')
      obtain ⟨t0, t1, kind, requestedS⟩ := s
      obtain rfl : t1 = none := hnone
      rfl
    · rfl

/-- A start leaves the spans before it to the records behind it. -/
theorem patch_start {p : Pairing} (hp : p.Valid) {r : Fire} (hr : r.isOpen = true)
    (rs : List Fire) {k : ℕ} {s : OpenSpan} (hs : p.spans[k]? = some s) :
    (p.record r.toSolRaw).patch rs k s = p.patch (r :: rs) k s := by
  have hopen : (p.record r.toSolRaw).openIdx =
      Function.update p.openIdx r.family (some p.spans.length) := by rw [record_start hr]
  unfold Pairing.patch
  rw [hopen]
  by_cases hfamily : s.kind >>> 1 = r.family
  · have hlt : k < p.spans.length := (List.getElem?_eq_some_iff.mp hs).1
    rw [hfamily, Function.update_self,
      if_neg fun heq => (Nat.ne_of_gt hlt) (Option.some.inj heq), pairedEnd_cons_self, if_pos hr]
    split
    · rename_i hwait
      obtain ⟨s', hs', hnone, -⟩ := hp _ k hwait
      obtain rfl := Option.some.inj (hs.symm.trans hs')
      obtain ⟨t0, t1, kind, requestedS⟩ := s
      obtain rfl : t1 = none := hnone
      rfl
    · rfl
  · rw [Function.update_of_ne hfamily, pairedEnd_cons_of_ne (Ne.symm hfamily)]

/-- An end no start of its family waits for is not used. -/
theorem patch_stray {p : Pairing} {r : Fire} (hopen : p.openIdx r.family = none)
    (rs : List Fire) : p.spans.mapIdx (p.patch rs) = p.spans.mapIdx (p.patch (r :: rs)) := by
  refine List.mapIdx_eq_mapIdx_iff.mpr fun k _ => ?_
  by_cases hwait : p.openIdx ((p.spans[k]).kind >>> 1) = some k
  · have hfamily : r.family ≠ (p.spans[k]).kind >>> 1 := fun heq => by
      cases hopen.symm.trans (heq ▸ hwait)
    rw [patch_wait hwait, patch_wait hwait, pairedEnd_cons_of_ne hfamily]
  · rw [patch_other hwait, patch_other hwait]

/-- An end closes the span that waits for it. -/
theorem patch_stop {p : Pairing} (hp : p.Valid) {r : Fire} (hr : ¬r.isOpen = true) {k : ℕ}
    (hopen : p.openIdx r.family = some k) (rs : List Fire) :
    (p.record r.toSolRaw).spans.mapIdx ((p.record r.toSolRaw).patch rs) =
      p.spans.mapIdx (p.patch (r :: rs)) := by
  have hspans : (p.record r.toSolRaw).spans =
      p.spans.modify k fun s => { s with t1 := some r.t } := by rw [record_stop hr hopen]
  have hidx : (p.record r.toSolRaw).openIdx = Function.update p.openIdx r.family none := by
    rw [record_stop hr hopen]
  refine List.ext_getElem? fun j => ?_
  rw [List.getElem?_mapIdx, List.getElem?_mapIdx, hspans]
  cases hs : p.spans[j]? with
  | none =>
    have hnone : (p.spans.modify k fun s => { s with t1 := some r.t })[j]? = none := by
      rw [List.getElem?_eq_none_iff, List.length_modify, ← List.getElem?_eq_none_iff, hs]
    rw [hnone]
    rfl
  | some s =>
    by_cases hj : k = j
    · subst hj
      obtain ⟨s', hs', -, hfamily⟩ := hp _ k hopen
      obtain rfl := Option.some.inj (hs.symm.trans hs')
      have hclosed : (p.record r.toSolRaw).openIdx
          (({ s with t1 := some r.t } : OpenSpan).kind >>> 1) ≠ some k := by
        rw [hidx, hfamily, Function.update_self]
        exact (Option.some_ne_none _).symm
      rw [List.getElem?_modify_eq, hs, Option.map_eq_map, Option.map_some, Option.map_some,
        Option.map_some, patch_other hclosed, patch_wait (hfamily.symm ▸ hopen), hfamily,
        pairedEnd_cons_self, if_neg hr]
      rfl
    · rw [List.getElem?_modify_ne _ _ hj, hs, Option.map_some, Option.map_some]
      refine congrArg some ?_
      by_cases hfamily : s.kind >>> 1 = r.family
      · have hnow : (p.record r.toSolRaw).openIdx (s.kind >>> 1) ≠ some j := by
          rw [hidx, hfamily, Function.update_self]
          exact (Option.some_ne_none _).symm
        have hbefore : p.openIdx (s.kind >>> 1) ≠ some j := fun hwait => by
          rw [hfamily, hopen] at hwait
          exact hj (Option.some.inj hwait)
        rw [patch_other hnow, patch_other hbefore]
      · have hsame : (p.record r.toSolRaw).openIdx (s.kind >>> 1) = p.openIdx (s.kind >>> 1) := by
          rw [hidx, Function.update_of_ne hfamily]
        by_cases hwait : p.openIdx (s.kind >>> 1) = some j
        · rw [patch_wait (hsame.trans hwait), patch_wait hwait,
            pairedEnd_cons_of_ne (Ne.symm hfamily)]
        · rw [patch_other (hsame.symm ▸ hwait), patch_other hwait]

/-- The loop pairs every start with the end that comes next in its family. -/
theorem foldl_record (rs : List Fire) {p : Pairing} (hp : p.Valid) :
    ((rs.map Fire.toSolRaw).foldl Pairing.record p).spans =
      p.spans.mapIdx (p.patch rs) ++ (viewerPairs rs).map openSpanOf := by
  induction rs generalizing p with
  | nil =>
    rw [patch_nil hp]
    exact (List.append_nil _).symm
  | cons r rs ih =>
    rw [List.map_cons, List.foldl_cons, viewerPairs]
    by_cases hr : r.isOpen = true
    · have hspans : (p.record r.toSolRaw).spans =
          p.spans ++ [⟨r.t, none, r.kind, r.requestedS⟩] := by rw [record_start hr]
      have hnew : (p.record r.toSolRaw).patch rs p.spans.length
          ⟨r.t, none, r.kind, r.requestedS⟩ = openSpanOf (r, pairedEnd r.family rs) := by
        have hopen : (p.record r.toSolRaw).openIdx (r.kind >>> 1) = some p.spans.length := by
          rw [record_start hr]
          exact Function.update_self _ _ _
        unfold Pairing.patch
        rw [if_pos hopen]
        rfl
      have hold : p.spans.mapIdx ((p.record r.toSolRaw).patch rs) =
          p.spans.mapIdx (p.patch (r :: rs)) :=
        List.mapIdx_eq_mapIdx_iff.mpr fun k hk =>
          patch_start hp hr rs (List.getElem?_eq_getElem hk)
      rw [ih (hp.start hr), hspans, List.mapIdx_concat, hnew, hold, if_pos hr, List.map_cons,
        List.append_assoc]
      rfl
    · rw [if_neg hr]
      cases hopen : p.openIdx r.family with
      | none =>
        rw [record_stray hr hopen, ih hp, patch_stray hopen]
      | some k =>
        rw [ih (hp.stop hr hopen), patch_stop hp hr hopen]

/-- The spans of the viewer are those of its pairs. -/
theorem solenoidSpans_eq (bytes : List UInt8) :
    solenoidSpans bytes = (viewerPairs (fires bytes)).map spanOf := by
  have hvalid : (⟨[], fun _ => none⟩ : Pairing).Valid := fun _ _ h => by cases h
  rw [solenoidSpans, buildSolenoidSpans, foldl_record _ hvalid, List.mapIdx_nil, List.nil_append,
    List.map_map]
  exact List.map_congr_left fun p _ => close_openSpanOf p

end DiveCANHead.Viewer
