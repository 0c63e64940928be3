import Mathlib.Algebra.Order.Field.Rat
import Mathlib.Tactic.Linarith
import DiveCANHead.Lib.Columns
import DiveCANHead.Viewer.Stream

/-!
# Boot epochs (`scanStream` and `assignEpochOffsets` of `TelemetryBuilder.js`)

The clock starts at zero with every boot, so the records up to the next boot marker are an epoch.
The epochs are put behind one another on one axis, a gap apart. Times are exact here.
-/

namespace DiveCANHead.Viewer

open DiveCANHead.Lib DiveCANHead.FlashLog DiveCANHead.LogClient

/-- `EPOCH_GAP_S`. -/
def epochGapS : ℚ := 30

/-- `US_PER_S`. -/
def usPerS : ℚ := 1000000

/-- An epoch: `minUs` and `maxUs`, once it has a record, and its boot marker. -/
structure BootEpoch where
  span : Option (ℕ × ℕ)
  boot : Option BootMarkerData
  deriving DecidableEq, Repr

/-- The epochs found so far; the last one is open. -/
structure Epochs where
  closed : List BootEpoch
  epoch : BootEpoch
  deriving DecidableEq, Repr

/-- `epochs`. -/
def Epochs.all (s : Epochs) : List BootEpoch := s.closed ++ [s.epoch]

def Epochs.init : Epochs := ⟨[], ⟨none, none⟩⟩

/-- The span with one more time stamp. -/
def widen (tsUs : ℕ) : Option (ℕ × ℕ) → Option (ℕ × ℕ)
  | none => some (tsUs, tsUs)
  | some (minUs, maxUs) => some (min minUs tsUs, max maxUs tsUs)

/-- A boot marker opens a new epoch, unless the one that is open is still empty. -/
def Epochs.mark (s : Epochs) (boot : Option BootMarkerData) : Epochs :=
  if s.epoch.span.isSome then ⟨s.all, ⟨none, boot⟩⟩
  else { s with epoch := { s.epoch with boot := boot } }

/-- What `scanStream` does with the epochs at a record. -/
def Epochs.scan (bytes : List UInt8) (s : Epochs) (v : Visit) : Epochs :=
  let opened :=
    if v.type = flTypeBootMarker then s.mark (decodeBootMarker (slice bytes v.off v.next)) else s
  { opened with epoch := { opened.epoch with span := widen v.tsUs opened.epoch.span } }

def scanEpochs (bytes : List UInt8) (vs : List Visit) : Epochs :=
  vs.foldl (Epochs.scan bytes) Epochs.init

/-- An epoch on the axis. -/
structure EpochAxis where
  startS : ℚ
  spanS : ℚ
  offsetS : ℚ
  deriving DecidableEq, Repr

/-- The loop of `assignEpochOffsets`; an empty epoch has the span 0 to 0. -/
def assignEpochOffsets : ℚ → List BootEpoch → List EpochAxis
  | _, [] => []
  | cursor, e :: epochs =>
    let span := e.span.getD (0, 0)
    let spanS := ((span.2 : ℚ) - span.1) / usPerS
    ⟨cursor, spanS, cursor - span.1 / usPerS⟩ ::
      assignEpochOffsets (cursor + (spanS + epochGapS)) epochs

/-- The epochs of the records on the axis. -/
def epochAxis (bytes : List UInt8) (vs : List Visit) : List EpochAxis :=
  assignEpochOffsets 0 (scanEpochs bytes vs).all

/-- The time on the axis of a time stamp of an epoch. -/
def epochTime (axis : List EpochAxis) (epochIdx tsUs : ℕ) : ℚ :=
  tsUs / usPerS + (axis.map EpochAxis.offsetS).getD (min epochIdx (axis.length - 1)) 0

/-! ## The epoch of a record -/

/-- The epoch that is open after records of these types: the markers behind the first record are
counted. -/
def openEpoch (types : List UInt8) : ℕ := types.tail.count flTypeBootMarker

/-- The records with the epochs they are in. -/
def withEpochs {ρ : Type} (type : ρ → UInt8) (rs : List ρ) : List (ρ × ℕ) :=
  rs.mapIdx fun i r => (r, openEpoch ((rs.take (i + 1)).map type))

theorem isEmpty_concat {α : Type} {l : List α} {a : α} : (l ++ [a]).isEmpty = false := by
  cases l <;> rfl

theorem openEpoch_concat {types : List UInt8} (h : types ≠ []) (type : UInt8) :
    openEpoch (types ++ [type]) =
      openEpoch types + if type = flTypeBootMarker then 1 else 0 := by
  have hcount : [type].count flTypeBootMarker = if type = flTypeBootMarker then 1 else 0 := by
    rw [List.count_singleton]
    simp only [beq_iff_eq]
  rw [openEpoch, List.tail_append_of_ne_nil h, List.count_append, hcount, openEpoch]

theorem openEpoch_singleton (type : UInt8) : openEpoch [type] = 0 := rfl

/-- Epochs only go up. -/
theorem openEpoch_mono {types more : List UInt8} (h : types <+: more) :
    openEpoch types ≤ openEpoch more := h.sublist.tail.count_le _

section Labels

variable {ρ σ : Type} {type : ρ → UInt8}

@[simp] theorem withEpochs_nil : withEpochs type [] = [] := rfl

theorem withEpochs_concat (rs : List ρ) (r : ρ) :
    withEpochs type (rs ++ [r]) =
      withEpochs type rs ++ [(r, openEpoch ((rs ++ [r]).map type))] := by
  have hlast : (rs ++ [r]).take (rs.length + 1) = rs ++ [r] :=
    List.take_of_length_le (Nat.le_of_eq (by rw [List.length_append, List.length_singleton]))
  have hbefore : rs.mapIdx (fun i x => (x, openEpoch (((rs ++ [r]).take (i + 1)).map type))) =
      withEpochs type rs :=
    List.mapIdx_eq_mapIdx_iff.mpr fun i hi => by rw [List.take_append_of_le_length hi]
  rw [withEpochs, List.mapIdx_concat, hbefore, hlast]

/-- The epochs of other data with the same types. -/
theorem withEpochs_map (f : σ → ρ) (rs : List σ) :
    withEpochs type (rs.map f) = (withEpochs (fun s => type (f s)) rs).map (Prod.map f id) := by
  induction rs using List.reverseRecOn with
  | nil => rfl
  | append_singleton rs s ih =>
    have htypes : (rs.map f ++ [f s]).map type = (rs ++ [s]).map fun s => type (f s) := by
      rw [List.map_append, List.map_append, List.map_map]
      rfl
    rw [List.map_append, List.map_singleton, withEpochs_concat, ih, htypes, withEpochs_concat]
    have hlast : ∀ n : ℕ, [(f s, n)] = [(s, n)].map (Prod.map f id) := fun _ => rfl
    rw [hlast, ← List.map_append]

variable (type) in
theorem map_fst_withEpochs (rs : List ρ) : (withEpochs type rs).map Prod.fst = rs := by
  induction rs using List.reverseRecOn with
  | nil => rfl
  | append_singleton rs r ih => rw [withEpochs_concat, List.map_append, ih]; rfl

/-- No record is in an epoch behind the one that is open. -/
theorem le_openEpoch {rs : List ρ} {p : ρ × ℕ} (h : p ∈ withEpochs type rs) :
    p.2 ≤ openEpoch (rs.map type) := by
  induction rs using List.reverseRecOn with
  | nil => cases h
  | append_singleton rs r ih =>
    rw [withEpochs_concat, List.mem_append, List.mem_singleton] at h
    rcases h with h | rfl
    · refine Nat.le_trans (ih h) (openEpoch_mono ?_)
      rw [List.map_append]
      exact List.prefix_append _ _
    · exact Nat.le_refl _

theorem pairwise_withEpochs (rs : List ρ) :
    (withEpochs type rs).Pairwise fun p q => p.2 ≤ q.2 := by
  induction rs using List.reverseRecOn with
  | nil => exact List.Pairwise.nil
  | append_singleton rs r ih =>
    rw [withEpochs_concat]
    refine List.pairwise_append.mpr ⟨ih, List.pairwise_singleton _ _, fun p hp q hq => ?_⟩
    obtain rfl := List.mem_singleton.mp hq
    refine Nat.le_trans (le_openEpoch hp) (openEpoch_mono ?_)
    rw [List.map_append]
    exact List.prefix_append _ _

end Labels

/-! ## The epochs that are found -/

/-- The data of the last boot marker among the records. -/
def lastBoot (bytes : List UInt8) (vs : List Visit) : Option BootMarkerData :=
  ((vs.filter fun v => v.type == flTypeBootMarker).getLast?).bind fun v =>
    decodeBootMarker (slice bytes v.off v.next)

theorem lastBoot_concat (bytes : List UInt8) (vs : List Visit) (v : Visit) :
    lastBoot bytes (vs ++ [v]) =
      if v.type = flTypeBootMarker then decodeBootMarker (slice bytes v.off v.next)
      else lastBoot bytes vs := by
  unfold lastBoot
  rw [List.filter_append]
  by_cases h : v.type = flTypeBootMarker
  · have hone : [v].filter (fun v => v.type == flTypeBootMarker) = [v] :=
      List.filter_eq_self.mpr fun w hw => by rw [List.mem_singleton.mp hw, h]; rfl
    rw [if_pos h, hone, List.getLast?_concat]
    rfl
  · have hnone : [v].filter (fun v => v.type == flTypeBootMarker) = [] :=
      List.filter_eq_nil_iff.mpr fun w hw => by rwa [List.mem_singleton.mp hw, beq_iff_eq]
    rw [if_neg h, hnone, List.append_nil]

/-- What the scan knows of the records it has seen. -/
structure EpochsFound (bytes : List UInt8) (vs : List Visit) (s : Epochs) : Prop where
  count : s.closed.length = openEpoch (vs.map Visit.type)
  filled : s.epoch.span.isSome = !vs.isEmpty
  ordered : ∀ e ∈ s.all, ∀ span, e.span = some span → span.1 ≤ span.2
  inside : ∀ p ∈ withEpochs Visit.type vs, ∃ e span,
    s.all[p.2]? = some e ∧ e.span = some span ∧ span.1 ≤ p.1.tsUs ∧
      p.1.tsUs ≤ span.2
  current : s.epoch.boot = lastBoot bytes vs
  boot : ∀ us, us ≠ [] → us <+: vs → ∃ e,
    s.all[openEpoch (us.map Visit.type)]? = some e ∧ e.boot = lastBoot bytes us

theorem scan_opens {bytes : List UInt8} {s : Epochs} {v : Visit} (htype : v.type = flTypeBootMarker)
    (hsome : s.epoch.span.isSome = true) :
    s.scan bytes v =
      ⟨s.all, ⟨some (v.tsUs, v.tsUs), decodeBootMarker (slice bytes v.off v.next)⟩⟩ := by
  rw [Epochs.scan, if_pos htype, Epochs.mark, if_pos hsome]
  rfl

theorem scan_widens (bytes : List UInt8) {s : Epochs} {v : Visit}
    (h : ¬(v.type = flTypeBootMarker ∧ s.epoch.span.isSome = true)) :
    s.scan bytes v =
      ⟨s.closed, ⟨widen v.tsUs s.epoch.span,
        if v.type = flTypeBootMarker then decodeBootMarker (slice bytes v.off v.next)
        else s.epoch.boot⟩⟩ := by
  rw [Epochs.scan]
  by_cases htype : v.type = flTypeBootMarker
  · rw [if_pos htype, if_pos htype, Epochs.mark, if_neg fun hsome => h ⟨htype, hsome⟩]
  · rw [if_neg htype, if_neg htype]

theorem EpochsFound.init (bytes : List UInt8) : EpochsFound bytes [] Epochs.init where
  count := rfl
  filled := rfl
  ordered := fun e he span hspan => by
    obtain rfl := List.mem_singleton.mp he
    cases hspan
  inside := nofun
  current := rfl
  boot := fun us hne hus => absurd (List.prefix_nil.mp hus) hne

section Step

variable {bytes : List UInt8} {vs : List Visit} {s : Epochs} {v : Visit}

/-- A boot marker behind other records is in an epoch of its own. -/
theorem EpochsFound.opens (h : EpochsFound bytes vs s) (htype : v.type = flTypeBootMarker)
    (hne : vs ≠ []) : EpochsFound bytes (vs ++ [v]) (s.scan bytes v) := by
  have hsome : s.epoch.span.isSome = true := by
    rw [h.filled, List.isEmpty_eq_false_iff.mpr hne]
    rfl
  have hlen : s.all.length = s.closed.length + 1 := by
    rw [Epochs.all, List.length_append, List.length_singleton]
  have hopen : openEpoch ((vs ++ [v]).map Visit.type) = s.all.length := by
    rw [List.map_append, List.map_singleton,
      openEpoch_concat (fun hnil => hne (List.map_eq_nil_iff.mp hnil)), if_pos htype, hlen, h.count]
  have hold : ∀ {k e}, s.all[k]? = some e → (s.scan bytes v).all[k]? = some e := fun he => by
    rw [scan_opens htype hsome]
    exact (List.getElem?_append_left (List.getElem?_eq_some_iff.mp he).1).trans he
  have hnew : (s.scan bytes v).all[s.all.length]? =
      some ⟨some (v.tsUs, v.tsUs), decodeBootMarker (slice bytes v.off v.next)⟩ := by
    rw [scan_opens htype hsome]
    exact List.getElem?_concat_length
  have hboot : lastBoot bytes (vs ++ [v]) = decodeBootMarker (slice bytes v.off v.next) := by
    rw [lastBoot_concat, if_pos htype]
  refine ⟨?_, ?_, fun e he span hspan => ?_, fun p hp => ?_, ?_, fun us husne hus => ?_⟩
  · rw [hopen, scan_opens htype hsome]
  · rw [scan_opens htype hsome, isEmpty_concat]
    rfl
  · rw [scan_opens htype hsome] at he
    rcases List.mem_append.mp he with he | he
    · exact h.ordered e he span hspan
    · obtain rfl := List.mem_singleton.mp he
      obtain rfl := Option.some.inj hspan
      exact Nat.le_refl _
  · rw [withEpochs_concat, List.mem_append, List.mem_singleton] at hp
    rcases hp with hp | rfl
    · obtain ⟨e, span, he, hspan⟩ := h.inside p hp
      exact ⟨e, span, hold he, hspan⟩
    · exact ⟨_, (v.tsUs, v.tsUs), (congrArg (fun k => (s.scan bytes v).all[k]?) hopen).trans hnew,
        rfl, Nat.le_refl _, Nat.le_refl _⟩
  · rw [hboot, scan_opens htype hsome]
  · rcases List.prefix_concat_iff.mp hus with rfl | hus
    · exact ⟨_, (congrArg (fun k => (s.scan bytes v).all[k]?) hopen).trans hnew, hboot.symm⟩
    · obtain ⟨e, he, heboot⟩ := h.boot us husne hus
      exact ⟨e, hold he, heboot⟩

theorem widen_spec {span : Option (ℕ × ℕ)} (h : ∀ old, span = some old → old.1 ≤ old.2)
    (tsUs : ℕ) : ∃ new, widen tsUs span = some new ∧ new.1 ≤ tsUs ∧ tsUs ≤ new.2 ∧
      ∀ old, span = some old → new.1 ≤ old.1 ∧ old.2 ≤ new.2 := by
  cases span with
  | none => exact ⟨_, rfl, Nat.le_refl _, Nat.le_refl _, nofun⟩
  | some old =>
    refine ⟨_, rfl, Nat.min_le_right _ _, Nat.le_max_right _ _, fun _ hold => ?_⟩
    obtain rfl := Option.some.inj hold
    exact ⟨Nat.min_le_left _ _, Nat.le_max_left _ _⟩

/-- Any other record is in the epoch that is open. -/
theorem EpochsFound.widens (h : EpochsFound bytes vs s)
    (hstay : ¬(v.type = flTypeBootMarker ∧ vs ≠ [])) :
    EpochsFound bytes (vs ++ [v]) (s.scan bytes v) := by
  have hscan := scan_widens bytes (s := s) (v := v) fun hv => hstay ⟨hv.1, by
    rintro rfl
    exact absurd (h.filled.symm.trans hv.2) nofun⟩
  have hordered : ∀ old, s.epoch.span = some old → old.1 ≤ old.2 :=
    h.ordered s.epoch (List.mem_append_right _ List.mem_cons_self)
  obtain ⟨span, hwiden, hlow, hhigh, hgrows⟩ := widen_spec hordered v.tsUs
  have hopen : openEpoch ((vs ++ [v]).map Visit.type) = s.closed.length := by
    cases vs with
    | nil => exact h.count.symm
    | cons w ws =>
      have hne : (w :: ws).map Visit.type ≠ [] := List.cons_ne_nil _ _
      rw [List.map_append, List.map_singleton, openEpoch_concat hne,
        if_neg fun htype => hstay ⟨htype, List.cons_ne_nil _ _⟩, h.count]
      rfl
  have hboot : lastBoot bytes (vs ++ [v]) = (s.scan bytes v).epoch.boot := by
    rw [lastBoot_concat, hscan, h.current]
  have hspan : (s.scan bytes v).epoch.span = some span := by
    rw [hscan]
    exact hwiden
  have hall : (s.scan bytes v).all = s.closed ++ [(s.scan bytes v).epoch] := by
    rw [Epochs.all, hscan]
  refine ⟨?_, ?_, fun e he old hold => ?_, fun p hp => ?_, hboot.symm, fun us husne hus => ?_⟩
  · rw [hopen, hscan]
  · rw [hspan, isEmpty_concat]
    rfl
  · rw [hall, List.mem_append, List.mem_singleton] at he
    rcases he with he | rfl
    · exact h.ordered e (List.mem_append_left _ he) old hold
    · obtain rfl := Option.some.inj (hspan.symm.trans hold)
      exact Nat.le_trans hlow hhigh
  · rw [withEpochs_concat, List.mem_append, List.mem_singleton] at hp
    rcases hp with hp | rfl
    · obtain ⟨e, old, he, hold, hin⟩ := h.inside p hp
      rcases getElem?_concat_eq_some.mp he with he | ⟨hk, rfl⟩
      · exact ⟨e, old, hall ▸ getElem?_concat_eq_some.mpr (.inl he), hold, hin⟩
      · obtain ⟨hmin, hmax⟩ := hgrows old hold
        exact ⟨_, span, hall ▸ getElem?_concat_eq_some.mpr (.inr ⟨hk, rfl⟩), hspan,
          Nat.le_trans hmin hin.1, Nat.le_trans hin.2 hmax⟩
    · exact ⟨_, span, hall ▸ getElem?_concat_eq_some.mpr (.inr ⟨hopen, rfl⟩), hspan, hlow, hhigh⟩
  · rcases List.prefix_concat_iff.mp hus with rfl | hus
    · exact ⟨_, hall ▸ getElem?_concat_eq_some.mpr (.inr ⟨hopen, rfl⟩), hboot.symm⟩
    · have hne : vs ≠ [] := by
        rintro rfl
        exact husne (List.prefix_nil.mp hus)
      obtain ⟨e, he, heboot⟩ := h.boot us husne hus
      rcases getElem?_concat_eq_some.mp he with he | ⟨hk, rfl⟩
      · exact ⟨e, hall ▸ getElem?_concat_eq_some.mpr (.inl he), heboot⟩
      · refine ⟨_, hall ▸ getElem?_concat_eq_some.mpr (.inr ⟨hk, rfl⟩), ?_⟩
        rw [← heboot, hscan]
        exact if_neg fun htype => hstay ⟨htype, hne⟩

end Step

/-- The scan finds the epochs of all records. -/
theorem epochsFound (bytes : List UInt8) (vs : List Visit) :
    EpochsFound bytes vs (scanEpochs bytes vs) := by
  induction vs using List.reverseRecOn with
  | nil => exact .init bytes
  | append_singleton vs v ih =>
    rw [scanEpochs, List.foldl_concat]
    by_cases hopens : v.type = flTypeBootMarker ∧ vs ≠ []
    · exact ih.opens hopens.1 hopens.2
    · exact ih.widens hopens

/-! ## The axis -/

section Axis

variable {epochs : List BootEpoch} {cursor : ℚ}

@[simp] theorem length_assignEpochOffsets :
    (assignEpochOffsets cursor epochs).length = epochs.length := by
  induction epochs generalizing cursor with
  | nil => rfl
  | cons e epochs ih => rw [assignEpochOffsets, List.length_cons, List.length_cons, ih]

variable (cursor) in
/-- Where an epoch lies. -/
theorem assignEpochOffsets_get {k : ℕ} {e : BootEpoch} (h : epochs[k]? = some e) :
    ∃ a, (assignEpochOffsets cursor epochs)[k]? = some a ∧
      a.spanS = (((e.span.getD (0, 0)).2 : ℚ) - (e.span.getD (0, 0)).1) / usPerS ∧
      a.offsetS = a.startS - (e.span.getD (0, 0)).1 / usPerS := by
  induction epochs generalizing cursor k with
  | nil => cases h
  | cons e' epochs ih =>
    cases k with
    | zero =>
      obtain rfl := Option.some.inj h
      exact ⟨_, rfl, rfl, rfl⟩
    | succ k => exact ih _ h

variable (cursor) in
/-- The epochs are a gap apart. -/
theorem assignEpochOffsets_apart
    (hordered : ∀ e ∈ epochs, (e.span.getD (0, 0)).1 ≤ (e.span.getD (0, 0)).2) :
    (∀ a ∈ assignEpochOffsets cursor epochs, cursor ≤ a.startS) ∧
      (assignEpochOffsets cursor epochs).Pairwise fun a b =>
        a.startS + a.spanS + epochGapS ≤ b.startS := by
  induction epochs generalizing cursor with
  | nil => exact ⟨nofun, List.Pairwise.nil⟩
  | cons e epochs ih =>
    have hspan : 0 ≤ (((e.span.getD (0, 0)).2 : ℚ) - (e.span.getD (0, 0)).1) / usPerS :=
      div_nonneg (sub_nonneg.mpr (Nat.cast_le.mpr (hordered e List.mem_cons_self)))
        (by rw [usPerS]; norm_num)
    have hgap : 0 ≤ epochGapS := by rw [epochGapS]; norm_num
    obtain ⟨hfrom, hapart⟩ := ih (cursor +
      ((((e.span.getD (0, 0)).2 : ℚ) - (e.span.getD (0, 0)).1) / usPerS + epochGapS))
      fun e' he' => hordered e' (.tail _ he')
    refine ⟨fun a ha => ?_, List.pairwise_cons.mpr ⟨fun b hb => ?_, hapart⟩⟩
    · rcases List.mem_cons.mp ha with rfl | ha
      · exact le_refl cursor
      · exact le_trans (le_add_of_nonneg_right (add_nonneg hspan hgap)) (hfrom a ha)
    · have hb' := hfrom b hb
      dsimp only
      linarith

end Axis

section Times

variable {bytes : List UInt8} {vs : List Visit} {p q : Visit × ℕ}

variable (bytes) in
/-- A record lies within its epoch on the axis. -/
theorem epochTime_within (hp : p ∈ withEpochs Visit.type vs) :
    ∃ a, (epochAxis bytes vs)[p.2]? = some a ∧
      a.startS ≤ epochTime (epochAxis bytes vs) p.2 p.1.tsUs ∧
      epochTime (epochAxis bytes vs) p.2 p.1.tsUs ≤ a.startS + a.spanS := by
  obtain ⟨e, span, he, hspan, hlow, hhigh⟩ := (epochsFound bytes vs).inside p hp
  obtain ⟨a, ha, haspan, haoffset⟩ := assignEpochOffsets_get 0 he
  have hpos : (0 : ℚ) < usPerS := by rw [usPerS]; norm_num
  have hclamp : min p.2 ((epochAxis bytes vs).length - 1) = p.2 := by
    have hlt := (List.getElem?_eq_some_iff.mp ha).1
    exact Nat.min_eq_left (Nat.le_sub_one_of_lt hlt)
  have hoffset : ((epochAxis bytes vs).map EpochAxis.offsetS).getD p.2 0 = a.offsetS := by
    rw [List.getD_eq_getElem?_getD, List.getElem?_map, epochAxis, ha]
    rfl
  have htime : epochTime (epochAxis bytes vs) p.2 p.1.tsUs = p.1.tsUs / usPerS + a.offsetS := by
    rw [epochTime, hclamp, hoffset]
  have hmin : (span.1 : ℚ) / usPerS ≤ p.1.tsUs / usPerS :=
    div_le_div_of_nonneg_right (Nat.cast_le.mpr hlow) hpos.le
  have hmax : (p.1.tsUs : ℚ) / usPerS ≤ span.2 / usPerS :=
    div_le_div_of_nonneg_right (Nat.cast_le.mpr hhigh) hpos.le
  rw [hspan, Option.getD_some, sub_div] at haspan
  rw [hspan, Option.getD_some] at haoffset
  refine ⟨a, ha, ?_, ?_⟩
  · rw [htime, haoffset]
    linarith
  · rw [htime, haoffset, haspan]
    linarith

/-- An epoch is over a gap before the later ones begin. -/
theorem epochAxis_apart {i j : ℕ} {a b : EpochAxis} (ha : (epochAxis bytes vs)[i]? = some a)
    (hb : (epochAxis bytes vs)[j]? = some b) (h : i < j) :
    a.startS + a.spanS + epochGapS ≤ b.startS := by
  have hordered : ∀ e ∈ (scanEpochs bytes vs).all,
      (e.span.getD (0, 0)).1 ≤ (e.span.getD (0, 0)).2 := fun e he => by
    cases hspan : e.span with
    | none => exact Nat.le_refl _
    | some span => exact (epochsFound bytes vs).ordered e he span hspan
  have hapart := (assignEpochOffsets_apart 0 hordered).2
  obtain ⟨hi, ha⟩ := List.getElem?_eq_some_iff.mp ha
  obtain ⟨hj, hb⟩ := List.getElem?_eq_some_iff.mp hb
  exact ha ▸ hb ▸ List.pairwise_iff_getElem.mp hapart i j hi hj h

/-- A record of a later epoch has a later time. -/
theorem epochTime_lt (hp : p ∈ withEpochs Visit.type vs) (hq : q ∈ withEpochs Visit.type vs)
    (h : p.2 < q.2) :
    epochTime (epochAxis bytes vs) p.2 p.1.tsUs < epochTime (epochAxis bytes vs) q.2 q.1.tsUs := by
  obtain ⟨a, ha, -, hpend⟩ := epochTime_within bytes hp
  obtain ⟨b, hb, hqstart, -⟩ := epochTime_within bytes hq
  have hbetween := epochAxis_apart ha hb h
  have hpos : (0 : ℚ) < epochGapS := by rw [epochGapS]; norm_num
  linarith

end Times

end DiveCANHead.Viewer
