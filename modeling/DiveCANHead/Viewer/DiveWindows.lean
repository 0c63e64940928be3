import Mathlib.Algebra.Ring.Int.Defs
import Mathlib.Data.List.Forall2
import Mathlib.Data.List.ReduceOption
import Mathlib.Order.Interval.Set.LinearOrder
import DiveCANHead.Lib.Grouped

/-!
# Dive windows (`buildDiveWindows` of `TelemetryBuilder.js`)

Some logs have their dive markers the wrong way round. A dive with both markers tells which way it
is, and the dives that do vote for those that do not.
-/

namespace DiveCANHead.Viewer

open DiveCANHead.Lib

/-- `kind`. -/
inductive MarkerKind where
  | boot
  | diveStart
  | diveEnd
  deriving DecidableEq, Repr

/-- `markerOrder`. -/
inductive MarkerOrder where
  | normal
  | reversed
  deriving DecidableEq, Repr

/-- `invertDiveMarkerKind`. -/
def invertDiveMarkerKind (kind : MarkerKind) : MarkerKind :=
  if kind = .diveStart then .diveEnd else .diveStart

def MarkerOrder.flip : MarkerOrder → MarkerOrder
  | .normal => .reversed
  | .reversed => .normal

section Windows

variable {K : Type}

/-- A marker; a time that is not finite, and the number of a dive that was not decoded, are
missing. -/
structure Marker (K : Type) where
  kind : MarkerKind
  t : Option K
  diveNumber : Option ℕ
  deriving DecidableEq, Repr

/-- A marker in the group of its dive. -/
structure DiveMarker (K : Type) where
  kind : MarkerKind
  t : K
  diveNumber : ℕ
  deriving DecidableEq, Repr

/-- The markers that go into a group. -/
def Marker.dive? (m : Marker K) : Option (DiveMarker K) :=
  if m.kind ≠ .diveStart ∧ m.kind ≠ .diveEnd then none
  else do
    let diveNumber ← m.diveNumber
    let t ← m.t
    some ⟨m.kind, t, diveNumber⟩

/-- `complete`: the group has both kinds. -/
def isComplete (group : List (DiveMarker K)) : Bool :=
  group.any (fun m => m.kind = .diveStart) && group.any fun m => m.kind = .diveEnd

/-- `byDive`. -/
def byDive (markers : List (Marker K)) : List (ℕ × List (DiveMarker K)) :=
  groupsOf DiveMarker.diveNumber (markers.filterMap Marker.dive?)

/-! ## The other way round -/

/-- A recorded kind and its opposite. -/
def MarkerKind.swap : MarkerKind → MarkerKind
  | .boot => .boot
  | .diveStart => .diveEnd
  | .diveEnd => .diveStart

/-- A marker recorded as the opposite kind. -/
def Marker.swap (m : Marker K) : Marker K := { m with kind := m.kind.swap }

def DiveMarker.swap (m : DiveMarker K) : DiveMarker K := { m with kind := m.kind.swap }

theorem MarkerKind.swap_eq_start {kind : MarkerKind} :
    kind.swap = .diveStart ↔ kind = .diveEnd := by
  cases kind <;> decide

theorem MarkerKind.swap_eq_end {kind : MarkerKind} : kind.swap = .diveEnd ↔ kind = .diveStart := by
  cases kind <;> decide

theorem Marker.kind_of_dive {m : Marker K} {d : DiveMarker K} (h : m.dive? = some d) :
    d.kind ≠ .boot ∧ m.t = some d.t := by
  unfold Marker.dive? at h
  split at h
  · cases h
  · rename_i hkind
    obtain ⟨n, -, h⟩ := Option.bind_eq_some_iff.mp h
    obtain ⟨t, ht, h⟩ := Option.bind_eq_some_iff.mp h
    obtain rfl := Option.some.inj h
    refine ⟨fun hboot => hkind ?_, ht⟩
    rw [show m.kind = .boot from hboot]
    decide

theorem Marker.dive_swap (m : Marker K) : m.swap.dive? = m.dive?.map DiveMarker.swap := by
  obtain ⟨kind, t, diveNumber⟩ := m
  cases kind <;> cases t <;> cases diveNumber <;> rfl

theorem byDive_swap (markers : List (Marker K)) :
    byDive (markers.map Marker.swap) =
      (byDive markers).map fun group => (group.1, group.2.map DiveMarker.swap) := by
  have hdives : (markers.map Marker.swap).filterMap Marker.dive? =
      (markers.filterMap Marker.dive?).map DiveMarker.swap := by
    rw [List.filterMap_map, List.map_filterMap]
    exact List.filterMap_congr fun m _ => m.dive_swap
  rw [byDive, hdives, groupsOf_map]
  rfl

/-- The markers of a group are markers of the list. -/
theorem mem_byDive {markers : List (Marker K)} {n : ℕ} {group : List (DiveMarker K)}
    (h : (n, group) ∈ byDive markers) {d : DiveMarker K} (hd : d ∈ group) :
    d ∈ markers.filterMap Marker.dive? := by
  rw [group_eq_filter h] at hd
  exact List.mem_of_mem_filter hd

/-- Markers of one time are one marker. -/
def Distinct (group : List (DiveMarker K)) : Prop :=
  ∀ a ∈ group, ∀ b ∈ group, a.t = b.t → a = b

/-- Both kinds are there after the swap where they were before. -/
theorem isComplete_swap (group : List (DiveMarker K)) :
    isComplete (group.map DiveMarker.swap) = isComplete group := by
  rw [isComplete, isComplete, List.any_map, List.any_map, Bool.and_comm]
  congr 2
  · exact funext fun m => decide_eq_decide.mpr MarkerKind.swap_eq_end
  · exact funext fun m => decide_eq_decide.mpr MarkerKind.swap_eq_start

/-- No two markers with a time have the same. -/
def DistinctTimes (markers : List (Marker K)) : Prop := (markers.filterMap Marker.t).Nodup

theorem DistinctTimes.distinct {markers : List (Marker K)} (h : DistinctTimes markers) {n : ℕ}
    {group : List (DiveMarker K)} (hgroup : (n, group) ∈ byDive markers) : Distinct group := by
  have htimes : ((markers.filterMap Marker.dive?).map DiveMarker.t).Nodup := by
    refine List.Nodup.sublist ?_ h
    rw [List.map_filterMap]
    clear h hgroup
    induction markers with
    | nil => exact List.Sublist.refl []
    | cons m markers ih =>
      cases hdive : m.dive? with
      | none =>
        rw [List.filterMap_cons_none (by rw [hdive]; rfl)]
        cases ht : m.t with
        | none => rwa [List.filterMap_cons_none ht]
        | some t =>
          rw [List.filterMap_cons_some ht]
          exact ih.cons t
      | some d =>
        have ht := (Marker.kind_of_dive hdive).2
        rw [List.filterMap_cons_some (b := d.t) (by rw [hdive]; rfl), List.filterMap_cons_some ht]
        exact ih.cons_cons d.t
  exact fun a ha b hb =>
    List.inj_on_of_nodup_map htimes (mem_byDive hgroup ha) (mem_byDive hgroup hb)

theorem kind_of_byDive {markers : List (Marker K)} {n : ℕ} {group : List (DiveMarker K)}
    (hgroup : (n, group) ∈ byDive markers) : ∀ m ∈ group, m.kind ≠ .boot := by
  intro m hm
  obtain ⟨marker, -, hdive⟩ := List.mem_filterMap.mp (mem_byDive hgroup hm)
  exact (Marker.kind_of_dive hdive).1

/-! ## The order of the markers -/

variable [LinearOrder K]

/-- `sort((a, b) => a.t - b.t)`. -/
def sortByTime (group : List (DiveMarker K)) : List (DiveMarker K) :=
  group.mergeSort fun a b => a.t ≤ b.t

/-- The order of a dive that has both kinds of marker. -/
def pairOrder (group : List (DiveMarker K)) : Option MarkerOrder :=
  let starts := sortByTime (group.filter fun m => m.kind = .diveStart)
  let ends := sortByTime (group.filter fun m => m.kind = .diveEnd)
  match starts, ends with
  | s :: _, e :: _ => some (if s.t ≤ e.t then .normal else .reversed)
  | _, _ => none

/-- `inferredOrder`: the order of most of the dives that have one. -/
def inferredOrder (groups : List (ℕ × List (DiveMarker K))) : Option MarkerOrder :=
  let orders := groups.filterMap fun group => pairOrder group.2
  let normalPairs := orders.count .normal
  let reversedPairs := orders.count .reversed
  if reversedPairs < normalPairs then some .normal
  else if normalPairs < reversedPairs then some .reversed
  else none

/-- `markerOrder` of a group. -/
def markerOrder (inferred : Option MarkerOrder) (group : List (DiveMarker K)) :
    Option MarkerOrder := (pairOrder group).or inferred

/-- `semanticKind`. -/
def semanticKind (order : MarkerOrder) (kind : MarkerKind) : MarkerKind :=
  if order = .reversed then invertDiveMarkerKind kind else kind

/-- What a marker is annotated with, in the order of the markers; one that is in no group, or whose
dive has no order, stays as it is. -/
def annotations (markers : List (Marker K)) : List (Option (MarkerKind × MarkerOrder × Bool)) :=
  let groups := byDive markers
  markers.map fun m => do
    let d ← m.dive?
    let group ← groups.find? fun group => group.1 = d.diveNumber
    let order ← markerOrder (inferredOrder groups) group.2
    let complete := isComplete group.2
    some (semanticKind order d.kind, order, !complete)

/-- Two inversions leave the meaning as it is. -/
theorem semanticKind_flip (order : MarkerOrder) {kind : MarkerKind} (h : kind ≠ .boot) :
    semanticKind order.flip kind.swap = semanticKind order kind := by
  cases order <;> cases kind <;> first | rfl | exact absurd rfl h

theorem sortByTime_swap (group : List (DiveMarker K)) :
    sortByTime (group.map DiveMarker.swap) = (sortByTime group).map DiveMarker.swap :=
  (List.map_mergeSort (f := DiveMarker.swap) (r := fun a b : DiveMarker K => a.t ≤ b.t)
    (s := fun a b : DiveMarker K => a.t ≤ b.t) fun _ _ _ _ => rfl).symm

/-- Where no two markers come together, swapped pairs have the opposite order. -/
theorem pairOrder_swap {group : List (DiveMarker K)} (hdistinct : Distinct group) :
    pairOrder (group.map DiveMarker.swap) = (pairOrder group).map MarkerOrder.flip := by
  have hstarts : sortByTime ((group.map DiveMarker.swap).filter fun m => m.kind = .diveStart) =
      (sortByTime (group.filter fun m => m.kind = .diveEnd)).map DiveMarker.swap := by
    rw [← sortByTime_swap, List.filter_map]
    congr 2
    refine List.filter_congr fun m _ => ?_
    exact decide_eq_decide.mpr MarkerKind.swap_eq_start
  have hends : sortByTime ((group.map DiveMarker.swap).filter fun m => m.kind = .diveEnd) =
      (sortByTime (group.filter fun m => m.kind = .diveStart)).map DiveMarker.swap := by
    rw [← sortByTime_swap, List.filter_map]
    congr 2
    refine List.filter_congr fun m _ => ?_
    exact decide_eq_decide.mpr MarkerKind.swap_eq_end
  rw [pairOrder, pairOrder, hstarts, hends]
  have hmem : ∀ kind, ∀ m ∈ sortByTime (group.filter fun m => m.kind = kind),
      m ∈ group ∧ m.kind = kind := fun kind m hm => by
    obtain ⟨hin, hkind⟩ := List.mem_filter.mp (List.mem_mergeSort.mp hm)
    exact ⟨hin, of_decide_eq_true hkind⟩
  have hs := hmem .diveStart
  have he := hmem .diveEnd
  revert hs he
  generalize sortByTime (group.filter fun m => m.kind = .diveStart) = starts
  generalize sortByTime (group.filter fun m => m.kind = .diveEnd) = ends
  intro hs he
  cases starts with
  | nil => cases ends <;> rfl
  | cons s starts =>
    cases ends with
    | nil => rfl
    | cons e ends =>
      obtain ⟨hsin, hskind⟩ := hs s List.mem_cons_self
      obtain ⟨hein, hekind⟩ := he e List.mem_cons_self
      have hne : s.t ≠ e.t := fun h => by
        rw [hdistinct s hsin e hein h, hekind] at hskind
        cases hskind
      change some (if e.t ≤ s.t then MarkerOrder.normal else .reversed) =
        some (if s.t ≤ e.t then MarkerOrder.normal else .reversed).flip
      rcases lt_or_gt_of_ne hne with hlt | hgt
      · rw [if_neg (not_le.mpr hlt), if_pos hlt.le]
        rfl
      · rw [if_pos hgt.le, if_neg (not_le.mpr hgt)]
        rfl

/-- The dives vote the other way. -/
theorem inferredOrder_swap {groups : List (ℕ × List (DiveMarker K))}
    (hdistinct : ∀ group ∈ groups, Distinct group.2) :
    inferredOrder (groups.map fun group => (group.1, group.2.map DiveMarker.swap)) =
      (inferredOrder groups).map MarkerOrder.flip := by
  have horders : (groups.map fun group => (group.1, group.2.map DiveMarker.swap)).filterMap
      (fun group => pairOrder group.2) =
        (groups.filterMap fun group => pairOrder group.2).map MarkerOrder.flip := by
    rw [List.filterMap_map, List.map_filterMap]
    exact List.filterMap_congr fun group hgroup => pairOrder_swap (hdistinct group hgroup)
  have hcount : ∀ (orders : List MarkerOrder) (order : MarkerOrder),
      (orders.map MarkerOrder.flip).count order = orders.count order.flip := by
    intro orders order
    induction orders with
    | nil => rfl
    | cons o orders ih =>
      rw [List.map_cons, List.count_cons, List.count_cons, ih]
      cases o <;> cases order <;> rfl
  have hnormal : ∀ orders : List MarkerOrder,
      (orders.map MarkerOrder.flip).count .normal = orders.count .reversed :=
    fun orders => hcount orders .normal
  have hreversed : ∀ orders : List MarkerOrder,
      (orders.map MarkerOrder.flip).count .reversed = orders.count .normal :=
    fun orders => hcount orders .reversed
  rw [inferredOrder, inferredOrder, horders, hnormal, hreversed]
  rcases lt_trichotomy ((groups.filterMap fun group => pairOrder group.2).count .normal)
    ((groups.filterMap fun group => pairOrder group.2).count .reversed) with h | h | h
  · rw [if_pos h, if_neg (Nat.lt_asymm h), if_pos h]
    rfl
  · rw [h, if_neg (Nat.lt_irrefl _), if_neg (Nat.lt_irrefl _)]
    rfl
  · rw [if_neg (Nat.lt_asymm h), if_pos h, if_pos h]
    rfl

theorem markerOrder_swap {group : List (DiveMarker K)} (hdistinct : Distinct group)
    (inferred : Option MarkerOrder) :
    markerOrder (inferred.map MarkerOrder.flip) (group.map DiveMarker.swap) =
      (markerOrder inferred group).map MarkerOrder.flip := by
  rw [markerOrder, markerOrder, pairOrder_swap hdistinct]
  cases pairOrder group <;> rfl

theorem inferredOrder_byDive_swap {markers : List (Marker K)} (h : DistinctTimes markers) :
    inferredOrder (byDive (markers.map Marker.swap)) =
      (inferredOrder (byDive markers)).map MarkerOrder.flip := by
  rw [byDive_swap]
  exact inferredOrder_swap fun group hgroup => h.distinct hgroup

/-- The swapped markers mean the same. -/
theorem annotations_swap {markers : List (Marker K)} (h : DistinctTimes markers) :
    annotations (markers.map Marker.swap) = (annotations markers).map
      (Option.map fun a => (a.1, a.2.1.flip, a.2.2)) := by
  rw [annotations, annotations, inferredOrder_byDive_swap h, byDive_swap, List.map_map,
    List.map_map]
  refine List.map_congr_left fun m _ => ?_
  dsimp only [Function.comp_apply]
  rw [Marker.dive_swap]
  cases hdive : m.dive? with
  | none => rfl
  | some d =>
    have hkind := (Marker.kind_of_dive hdive).1
    simp only [Option.map_some, Option.bind_eq_bind, Option.bind_some, List.find?_map]
    change ((Option.map _ ((byDive markers).find? fun group => group.1 = d.diveNumber)).bind _) = _
    cases hgroup : (byDive markers).find? fun group => group.1 = d.diveNumber with
    | none => rfl
    | some group =>
      have hdistinct := h.distinct (List.mem_of_find?_eq_some hgroup)
      rw [Option.map_some, Option.bind_some, Option.bind_some, markerOrder_swap hdistinct,
        isComplete_swap]
      cases markerOrder (inferredOrder (byDive markers)) group.2 with
      | none => rfl
      | some order =>
        simp only [Option.map_some, Option.bind_some, DiveMarker.swap,
          semanticKind_flip order hkind]

/-! ## Windows -/

/-- An epoch on the global axis; `bootId` is missing where it has no boot marker. -/
structure Epoch (K : Type) where
  index : ℕ
  startS : K
  spanS : K
  bootId : Option ℕ
  deriving DecidableEq, Repr

structure BootWindow (K : Type) where
  epochIndex : ℕ
  bootId : Option ℕ
  t0 : K
  t1 : K
  deriving DecidableEq, Repr

structure DiveWindow (K : Type) where
  diveNumber : ℕ
  t0 : K
  t1 : K
  complete : Bool
  markerOrder : MarkerOrder
  markerCount : ℕ
  boots : List (BootWindow K)
  deriving DecidableEq, Repr

variable [Zero K] [Add K]

/-- A time kept between zero and the duration. -/
def clampTime (durationS t : K) : K := max 0 (min durationS t)

/-- What an epoch has of a window. -/
def bootWindow (t0 t1 : K) (epoch : Epoch K) : Option (BootWindow K) :=
  let bootStart := max t0 epoch.startS
  let bootEnd := min t1 (epoch.startS + epoch.spanS)
  if bootStart < bootEnd then some ⟨epoch.index, epoch.bootId, bootStart, bootEnd⟩ else none

/-- From where to where a dive goes: between its markers, or from or to its lone ones. -/
def diveSpan (complete : Bool) (order : MarkerOrder) (durationS : K) (first last : DiveMarker K) :
    K × K :=
  if complete then (first.t, last.t)
  else if semanticKind order first.kind = .diveStart then (first.t, durationS)
  else (0, last.t)

/-- The window of a dive, where it has an order and is not empty. -/
def diveWindow (inferred : Option MarkerOrder) (epochs : List (Epoch K)) (durationS : K)
    (diveNumber : ℕ) (unsorted : List (DiveMarker K)) : Option (DiveWindow K) := do
  let group := sortByTime unsorted
  let complete := isComplete group
  let order ← markerOrder inferred unsorted
  let first ← group.head?
  let last ← group.getLast?
  let span := diveSpan complete order durationS first last
  let t0 := clampTime durationS span.1
  let t1 := clampTime durationS span.2
  if t0 < t1 then
    some ⟨diveNumber, t0, t1, complete, order, group.length, epochs.filterMap (bootWindow t0 t1)⟩
  else none

/-- `a.t0 - b.t0 || a.diveNumber - b.diveNumber`. -/
def DiveWindow.before (a b : DiveWindow K) : Bool :=
  a.t0 < b.t0 || (a.t0 = b.t0 && a.diveNumber ≤ b.diveNumber)

/-- `buildDiveWindows`. -/
def buildDiveWindows (markers : List (Marker K)) (epochs : List (Epoch K)) (durationS : K) :
    List (DiveWindow K) :=
  let groups := byDive markers
  let dives := groups.filterMap fun group =>
    diveWindow (inferredOrder groups) epochs durationS group.1 group.2
  dives.mergeSort DiveWindow.before

/-! ## The windows the other way round -/

/-- A window with its order the other way round. -/
def DiveWindow.flip (w : DiveWindow K) : DiveWindow K :=
  { w with markerOrder := w.markerOrder.flip }

theorem diveWindow_swap {group : List (DiveMarker K)} (hdistinct : Distinct group)
    (hkind : ∀ m ∈ group, m.kind ≠ .boot) (inferred : Option MarkerOrder)
    (epochs : List (Epoch K)) (durationS : K) (diveNumber : ℕ) :
    diveWindow (inferred.map MarkerOrder.flip) epochs durationS diveNumber
        (group.map DiveMarker.swap) =
      (diveWindow inferred epochs durationS diveNumber group).map DiveWindow.flip := by
  rw [diveWindow, diveWindow, markerOrder_swap hdistinct, sortByTime_swap, isComplete_swap,
    List.head?_map, List.getLast?_map, List.length_map]
  cases markerOrder inferred group with
  | none => rfl
  | some order =>
    cases hfirst : (sortByTime group).head? with
    | none => rfl
    | some first =>
      have hmem : first ∈ group := List.mem_mergeSort.mp (List.mem_of_mem_head? hfirst)
      cases (sortByTime group).getLast? with
      | none => rfl
      | some last =>
        have hspan : ∀ complete, diveSpan complete order.flip durationS first.swap last.swap =
            diveSpan complete order durationS first last := fun complete => by
          rw [diveSpan, diveSpan, DiveMarker.swap, DiveMarker.swap,
            semanticKind_flip order (hkind first hmem)]
        simp only [Option.map_some, Option.bind_eq_bind, Option.bind_some, hspan]
        split <;> rfl

/-- The windows of the swapped markers are the windows, with their order the other way round. -/
theorem buildDiveWindows_swap {markers : List (Marker K)} (h : DistinctTimes markers)
    (epochs : List (Epoch K)) (durationS : K) :
    buildDiveWindows (markers.map Marker.swap) epochs durationS =
      (buildDiveWindows markers epochs durationS).map DiveWindow.flip := by
  have hdives : (byDive (markers.map Marker.swap)).filterMap (fun group =>
      diveWindow (inferredOrder (byDive (markers.map Marker.swap))) epochs durationS group.1
        group.2) =
      ((byDive markers).filterMap fun group =>
        diveWindow (inferredOrder (byDive markers)) epochs durationS group.1 group.2).map
          DiveWindow.flip := by
    rw [inferredOrder_byDive_swap h, byDive_swap, List.filterMap_map, List.map_filterMap]
    exact List.filterMap_congr fun group hgroup =>
      diveWindow_swap (h.distinct hgroup) (kind_of_byDive hgroup) _ epochs durationS group.1
  rw [buildDiveWindows, buildDiveWindows, hdives]
  exact (List.map_mergeSort (f := DiveWindow.flip) (r := DiveWindow.before)
    (s := DiveWindow.before) fun _ _ _ _ => rfl).symm

/-! ## Every window -/

/-- What an epoch has of a time range, as sets: nothing, or a range of its own. -/
def IsIntersection (t0 t1 : K) (epoch : Epoch K) : Option (BootWindow K) → Prop
  | none => Set.Ioo t0 t1 ∩ Set.Ioo epoch.startS (epoch.startS + epoch.spanS) = ∅
  | some boot => boot.t0 < boot.t1 ∧
      Set.Icc boot.t0 boot.t1 =
        Set.Icc t0 t1 ∩ Set.Icc epoch.startS (epoch.startS + epoch.spanS) ∧
      boot.epochIndex = epoch.index ∧ boot.bootId = epoch.bootId

omit [Zero K] in
theorem isIntersection_bootWindow (t0 t1 : K) (epoch : Epoch K) :
    IsIntersection t0 t1 epoch (bootWindow t0 t1 epoch) := by
  unfold bootWindow
  dsimp only
  split
  · rename_i hlt
    exact ⟨hlt, Set.Icc_inter_Icc.symm, rfl, rfl⟩
  · rename_i hempty
    change Set.Ioo t0 t1 ∩ Set.Ioo epoch.startS (epoch.startS + epoch.spanS) = ∅
    rw [Set.Ioo_inter_Ioo]
    exact Set.Ioo_eq_empty hempty

omit [Add K] in
theorem clampTime_nonneg (durationS t : K) : 0 ≤ clampTime durationS t := le_max_left _ _

omit [Add K] in
/-- A time kept above another one is within the duration. -/
theorem clampTime_le {durationS s t : K} (h : clampTime durationS s < clampTime durationS t) :
    clampTime durationS t ≤ durationS := by
  have hpos : 0 < clampTime durationS t := (clampTime_nonneg durationS s).trans_lt h
  rw [clampTime] at hpos ⊢
  rcases le_total (min durationS t) 0 with hle | hle
  · rw [max_eq_left hle] at hpos
    exact absurd hpos (lt_irrefl 0)
  · rw [max_eq_right hle]
    exact min_le_left _ _

/-- A window lies within the log, and its boots are the parts the epochs have of it. -/
structure DiveWindow.Sound (epochs : List (Epoch K)) (durationS : K) (w : DiveWindow K) : Prop where
  nonneg : 0 ≤ w.t0
  nonempty : w.t0 < w.t1
  within : w.t1 ≤ durationS
  boots : ∃ parts : List (Option (BootWindow K)),
    List.Forall₂ (IsIntersection w.t0 w.t1) epochs parts ∧ w.boots = parts.reduceOption

theorem diveWindow_sound {inferred : Option MarkerOrder} {epochs : List (Epoch K)} {durationS : K}
    {n : ℕ} {group : List (DiveMarker K)} {w : DiveWindow K}
    (h : diveWindow inferred epochs durationS n group = some w) :
    w.diveNumber = n ∧ w.Sound epochs durationS := by
  unfold diveWindow at h
  obtain ⟨order, -, h⟩ := Option.bind_eq_some_iff.mp h
  obtain ⟨first, -, h⟩ := Option.bind_eq_some_iff.mp h
  obtain ⟨last, -, h⟩ := Option.bind_eq_some_iff.mp h
  dsimp only at h
  split at h
  · rename_i hlt
    obtain rfl := Option.some.inj h
    exact ⟨rfl,
      { nonneg := clampTime_nonneg _ _
        nonempty := hlt
        within := clampTime_le hlt
        boots := ⟨epochs.map (bootWindow _ _),
          List.forall₂_map_right_iff.mpr (List.forall₂_same.mpr fun epoch _ =>
            isIntersection_bootWindow _ _ epoch),
          by rw [List.reduceOption, List.filterMap_map]; rfl⟩ }⟩
  · cases h

/-- Every window is sound, and no dive has two. -/
theorem buildDiveWindows_sound (markers : List (Marker K)) (epochs : List (Epoch K))
    (durationS : K) :
    (∀ w ∈ buildDiveWindows markers epochs durationS, w.Sound epochs durationS) ∧
      ((buildDiveWindows markers epochs durationS).map DiveWindow.diveNumber).Nodup := by
  constructor
  · intro w hw
    obtain ⟨group, -, hwindow⟩ := List.mem_filterMap.mp (List.mem_mergeSort.mp hw)
    exact (diveWindow_sound hwindow).2
  · refine (((List.mergeSort_perm _ _).map DiveWindow.diveNumber).nodup_iff).mpr ?_
    have hkeys : (byDive markers).Pairwise fun a b => a.1 ≠ b.1 :=
      List.pairwise_map.mp (nodup_keys_groupsOf _ _)
    refine List.pairwise_map.mpr (hkeys.filterMap _ fun a b hne v hv w hw => ?_)
    rw [(diveWindow_sound hv).1, (diveWindow_sound hw).1]
    exact hne

/-- Whatever epochs and duration, where no two markers have the same time: with every dive marker
recorded as its opposite, the windows are the same but for their order, and every marker means the
same. Every window is sound, and no dive has two. -/
theorem diveWindows_polarity {markers : List (Marker K)} (h : DistinctTimes markers)
    (epochs : List (Epoch K)) (durationS : K) :
    buildDiveWindows (markers.map Marker.swap) epochs durationS =
        (buildDiveWindows markers epochs durationS).map DiveWindow.flip ∧
      annotations (markers.map Marker.swap) = (annotations markers).map
        (Option.map fun a => (a.1, a.2.1.flip, a.2.2)) ∧
      (∀ w ∈ buildDiveWindows markers epochs durationS, w.Sound epochs durationS) ∧
      ((buildDiveWindows markers epochs durationS).map DiveWindow.diveNumber).Nodup := by
  obtain ⟨hsound, hnodup⟩ := buildDiveWindows_sound markers epochs durationS
  exact ⟨buildDiveWindows_swap h epochs durationS, annotations_swap h, hsound, hnodup⟩

end Windows

/-- A reversed dive over a reboot, and a lone marker of another one. -/
def reversedLog : List (Marker ℤ) :=
  [⟨.diveEnd, some 10, some 35⟩, ⟨.boot, some 50, none⟩, ⟨.diveStart, some 65, some 35⟩,
    ⟨.diveEnd, some 70, some 36⟩]

/-- The two epochs of that log. -/
def rebootEpochs : List (Epoch ℤ) := [⟨0, 0, 20, none⟩, ⟨1, 50, 40, some 184⟩]

theorem diveWindows_polarity_reversedLog :
    buildDiveWindows (reversedLog.map Marker.swap) rebootEpochs 90 =
        (buildDiveWindows reversedLog rebootEpochs 90).map DiveWindow.flip ∧
      annotations (reversedLog.map Marker.swap) = (annotations reversedLog).map
        (Option.map fun a => (a.1, a.2.1.flip, a.2.2)) ∧
      (∀ w ∈ buildDiveWindows reversedLog rebootEpochs 90, w.Sound rebootEpochs 90) ∧
      ((buildDiveWindows reversedLog rebootEpochs 90).map DiveWindow.diveNumber).Nodup :=
  diveWindows_polarity (show (reversedLog.filterMap Marker.t).Nodup by decide) _ 90

end DiveCANHead.Viewer
