import DiveCANHead.Viewer.Filled

/-!
# The tables against the parser's records

A table has room for every record of its name, however short, and only the long ones are written: a
record that is too short leaves a row of zeros. Sorting keeps the epochs apart, so the column of the
epochs needs no sorting.
-/

namespace DiveCANHead.Viewer

open DiveCANHead.Lib DiveCANHead.FlashLog DiveCANHead.LogClient

/-! ## The rooms of a table -/

/-- A record is shorter than the layout of its type. -/
def Visit.IsShort (v : Visit) : Prop := ∃ decl ∈ tableForType v.type, v.len < decl.payloadLen

theorem scanCounts_concat (bytes : List UInt8) (vs : List Visit) (v : Visit) (id : TableId) :
    scanCounts bytes (vs ++ [v]) id =
      scanCounts bytes vs id + if v.tableId bytes = some id then 1 else 0 := by
  rw [scanCounts, List.foldl_concat]
  change countRecord bytes (scanCounts bytes vs) v id = _
  unfold countRecord
  cases v.tableId bytes with
  | none => rfl
  | some id' =>
    dsimp only
    by_cases hid : id' = id
    · subst hid
      rw [Function.update_self, if_pos rfl]
    · rw [Function.update_of_ne (Ne.symm hid), if_neg fun heq => hid (Option.some.inj heq),
        Nat.add_zero]

theorem visitSample_isSome (bytes : List UInt8) (axis : List EpochAxis) (id : TableId)
    (p : Visit × ℕ) :
    (visitSample bytes axis id p).isSome ↔
      p.1.tableId bytes = some id ∧ ¬p.1.IsShort := by
  unfold visitSample Visit.tableId Visit.IsShort
  cases hdecl : tableForType p.1.type with
  | none => simp
  | some decl =>
    rw [Option.bind_some, Option.map_some, Option.some.injEq]
    simp only [Option.mem_some_iff, exists_eq_left', Nat.not_lt]
    split
    · rename_i hand
      exact ⟨fun _ => ⟨hand.2, hand.1⟩, fun _ => rfl⟩
    · rename_i hand
      exact ⟨fun h => absurd h Bool.false_ne_true, fun h => absurd ⟨h.2, h.1⟩ hand⟩

/-- There is a room for every record, and a sample for every long one. -/
theorem length_written_le (bytes : List UInt8) (axis : List EpochAxis) (vs : List Visit)
    (id : TableId) :
    (written bytes axis vs id).length ≤ scanCounts bytes vs id ∧
      ((written bytes axis vs id).length = scanCounts bytes vs id ↔
        ∀ v ∈ vs, v.IsShort → v.tableId bytes ≠ some id) := by
  induction vs using List.reverseRecOn with
  | nil => exact ⟨Nat.le_refl _, fun _ => nofun, fun _ => rfl⟩
  | append_singleton vs v ih =>
    obtain ⟨hle, hiff⟩ := ih
    have hroom : (visitSample bytes axis id
        (v, openEpoch ((vs ++ [v]).map Visit.type))).toList.length ≤
          (if v.tableId bytes = some id then 1 else 0) ∧
        ((visitSample bytes axis id
          (v, openEpoch ((vs ++ [v]).map Visit.type))).toList.length =
            (if v.tableId bytes = some id then 1 else 0) ↔
          (v.IsShort → v.tableId bytes ≠ some id)) := by
      have hsome := visitSample_isSome bytes axis id
        (v, openEpoch ((vs ++ [v]).map Visit.type))
      cases hsample : visitSample bytes axis id (v, openEpoch ((vs ++ [v]).map Visit.type)) with
      | none =>
        rw [hsample] at hsome
        by_cases htable : v.tableId bytes = some id
        · have hshort : v.IsShort := not_not.mp fun hlong =>
            Bool.false_ne_true (hsome.mpr ⟨htable, hlong⟩)
          rw [if_pos htable]
          exact ⟨Nat.zero_le _, fun h => absurd h (by decide), fun h => absurd htable (h hshort)⟩
        · rw [if_neg htable]
          exact ⟨Nat.le_refl _, fun _ _ => htable, fun _ => rfl⟩
      | some sample =>
        rw [hsample] at hsome
        obtain ⟨htable, hlong⟩ := hsome.mp rfl
        rw [if_pos htable]
        exact ⟨Nat.le_refl _, fun _ hshort => absurd hshort hlong, fun _ => rfl⟩
    rw [written_concat, List.length_append, scanCounts_concat]
    refine ⟨Nat.add_le_add hle hroom.1, ?_⟩
    have hsplit : (∀ w ∈ vs ++ [v], w.IsShort → w.tableId bytes ≠ some id) ↔
        (∀ w ∈ vs, w.IsShort → w.tableId bytes ≠ some id) ∧
          (v.IsShort → v.tableId bytes ≠ some id) := by
      simp only [List.mem_append, List.mem_singleton, or_imp, forall_and, forall_eq]
    rw [hsplit, ← hiff, ← hroom.2]
    omega

/-! ## Sorting -/

section Sorted

variable {t : Table}

theorem isOrdered_le (h : t.isOrdered = true) {i j : ℕ} (hij : i ≤ j) (hj : j < t.n) :
    t.time i ≤ t.time j := by
  induction j, hij using Nat.le_induction with
  | base => exact le_refl _
  | succ j _ ih =>
    have hmem : j ∈ List.range (t.n - 1) := List.mem_range.mpr (Nat.lt_sub_of_add_lt hj)
    have hstep := List.all_eq_true.mp h j hmem
    rw [Bool.not_eq_true', decide_eq_false_iff_not, not_lt] at hstep
    exact le_trans (ih (Nat.lt_of_succ_lt hj)) hstep

theorem length_order : (sortBy t.time (List.range t.n)).length = t.n := by
  rw [(sortBy_perm _ _).length_eq, List.length_range]

/-- After the sort the times do not decrease. -/
theorem sortTableByTime_times (t : Table) :
    (sortTableByTime t).samples.Pairwise fun a b => a.time ≤ b.time := by
  unfold sortTableByTime
  split
  · rename_i hordered
    refine List.pairwise_map.mpr ?_
    refine List.pairwise_lt_range.imp_of_mem fun {i j} _ hj hlt => ?_
    exact isOrdered_le hordered hlt.le (List.mem_range.mp hj)
  · refine List.pairwise_map.mpr ?_
    refine List.pairwise_lt_range.imp_of_mem fun {i j} hi hj hlt => ?_
    have hi' : i < (sortBy t.time (List.range t.n)).length :=
      length_order.symm ▸ List.mem_range.mp hi
    have hj' : j < (sortBy t.time (List.range t.n)).length :=
      length_order.symm ▸ List.mem_range.mp hj
    have hle := List.pairwise_iff_getElem.mp (pairwise_sortBy t.time (List.range t.n)) i j hi' hj'
      hlt
    change permute _ t.time i ≤ permute _ t.time j
    rw [permute_of_getElem (List.getElem?_eq_getElem hi'),
      permute_of_getElem (List.getElem?_eq_getElem hj')]
    exact hle

/-- The epoch of a row, before it is cut to a byte. -/
def groupAt (ws : List Sample) (i : ℕ) : ℕ := ((ws[i]?).map Sample.epoch).getD 0

/-- A table whose epochs go up, with their times apart, keeps its rows in the sort. -/
theorem sortTableByTime_perm {ws : List Sample} (h : t.samples = ws.map Sample.stored)
    (hgroups : ws.Pairwise fun a b => a.epoch ≤ b.epoch)
    (hkeys : ∀ a ∈ ws, ∀ b ∈ ws, a.epoch < b.epoch → a.time < b.time) :
    (sortTableByTime t).samples.Perm (ws.map Sample.stored) := by
  unfold sortTableByTime
  split
  · rw [h]
  · have hlen : ws.length = t.n := by
      have hlength := congrArg List.length h
      rw [Table.samples, List.length_map, List.length_range, List.length_map] at hlength
      exact hlength.symm
    have hrow : ∀ i (hi : i < t.n), t.sample i = (ws.get ⟨i, hlen ▸ hi⟩).stored := fun i hi => by
      have hget := congrArg (fun l => l[i]?) h
      have hw : i < ws.length := hlen ▸ hi
      rw [Table.samples, List.getElem?_map, List.getElem?_range hi, List.getElem?_map,
        List.getElem?_eq_getElem hw] at hget
      exact Option.some.inj hget
    have hgroup : ∀ i (hi : i < t.n), groupAt ws i = (ws.get ⟨i, hlen ▸ hi⟩).epoch :=
      fun i hi => by
        have hw : i < ws.length := hlen ▸ hi
        rw [groupAt, List.getElem?_eq_getElem hw]
        rfl
    have htime : ∀ i (hi : i < t.n), t.time i = (ws.get ⟨i, hlen ▸ hi⟩).time := fun i hi =>
      congrArg Sample.time (hrow i hi)
    have hepoch : ∀ i < t.n, t.epoch i = groupAt ws i % 256 := fun i hi => by
      rw [hgroup i hi]
      exact congrArg Sample.epoch (hrow i hi)
    have hsame : (sortBy t.time (List.range t.n)).map (groupAt ws) =
        (List.range t.n).map (groupAt ws) := by
      refine map_sortBy (List.pairwise_lt_range.imp_of_mem fun {i j} hi hj hlt => ?_)
        fun i hi j hj hlt => ?_
      · rw [hgroup i (List.mem_range.mp hi), hgroup j (List.mem_range.mp hj)]
        exact List.pairwise_iff_getElem.mp hgroups i j _ _ hlt
      · rw [hgroup i (List.mem_range.mp hi), hgroup j (List.mem_range.mp hj)] at hlt
        rw [htime i (List.mem_range.mp hi), htime j (List.mem_range.mp hj)]
        exact hkeys _ (List.get_mem ws _) _ (List.get_mem ws _) hlt
    rw [← h]
    refine List.Perm.trans (List.Perm.of_eq ?_)
      ((sortBy_perm t.time (List.range t.n)).map t.sample)
    refine List.ext_getElem ?_ fun i hi hi' => ?_
    · rw [Table.samples, List.length_map, List.length_range, List.length_map, length_order]
    · rw [List.length_map] at hi'
      have hin : i < t.n := by rwa [length_order] at hi'
      have hat := List.getElem?_eq_getElem hi'
      have hmem : (sortBy t.time (List.range t.n))[i] < t.n :=
        List.mem_range.mp ((sortBy_perm _ _).mem_iff.mp (List.getElem_mem hi'))
      have hgroups' := congrArg (fun l => l[i]?) hsame
      rw [List.getElem?_map, List.getElem?_map, List.getElem?_eq_getElem hi',
        List.getElem?_range hin] at hgroups'
      have hepochs : t.epoch i = t.epoch (sortBy t.time (List.range t.n))[i] := by
        rw [hepoch i hin, hepoch _ hmem]
        exact congrArg (· % 256) (Option.some.inj hgroups').symm
      simp only [Table.samples, List.getElem_map, List.getElem_range, Table.sample,
        permute_of_getElem hat, hepochs, List.map_map, Function.comp_def]

end Sorted

/-! ## What the parser's records give -/

/-- The sample of a record of the parser for a table, if it is one of the table's and long
enough. -/
def recordSample (axis : List EpochAxis) (id : TableId) (p : LogRecord × ℕ) : Option Sample :=
  (tableForType p.1.type).bind fun decl =>
    if decl.payloadLen ≤ p.1.payload.length ∧ tableIdAt decl p.1.payload 0 = id then
      some ⟨epochTime axis p.2 p.1.tsUs.toNat, p.1.tsUs.toNat / usPerS, p.2,
        decl.fields.map fun f => (f.key, channelValue decl p.1.payload 0 f)⟩
    else none

/-- The samples the records of the parser give for a table. -/
def parsedSamples (bytes : List UInt8) (id : TableId) : List Sample :=
  (withEpochs LogRecord.type (parseLogStream bytes)).filterMap
    (recordSample (epochAxis bytes (visits bytes)) id)

theorem recordSample_record {bytes : List UInt8} {v : Visit} (hv : v ∈ placed bytes)
    (axis : List EpochAxis) (id : TableId) (epochIdx : ℕ) :
    recordSample axis id (v.record bytes, epochIdx) = visitSample bytes axis id (v, epochIdx) := by
  obtain ⟨hnext, hts⟩ := mem_placed hv
  have hsize : v.next - v.off = v.len := Nat.add_sub_cancel_left _ _
  have hlen : (slice bytes v.off v.next).length = v.len := (length_slice hnext).trans hsize
  have htime : (UInt64.ofNat v.tsUs).toNat = v.tsUs := UInt64.toNat_ofNat_of_lt' hts
  unfold recordSample visitSample Visit.record
  dsimp only
  rw [hlen, htime]
  cases hdecl : tableForType v.type with
  | none => rfl
  | some decl =>
    obtain ⟨hmem, -⟩ := mem_tables hdecl
    rw [Option.bind_some, Option.bind_some]
    by_cases hlong : decl.payloadLen ≤ v.len
    · have hfits : decl.payloadLen ≤ v.next - v.off := hsize.symm ▸ hlong
      have hvalues : decl.fields.map (fun f =>
          (f.key, channelValue decl (slice bytes v.off v.next) 0 f)) =
          decl.fields.map fun f => (f.key, channelValue decl bytes v.off f) :=
        List.map_congr_left fun f hf => by rw [channelValue_slice hmem hfits hf]
      rw [tableIdAt_slice hmem hfits, hvalues]
    · rw [if_neg fun hand => hlong hand.1, if_neg fun hand => hlong hand.1]

/-- Where all records are visited, what is written is what the parser's records give. -/
theorem parsedSamples_eq {bytes : List UInt8} (h : EndsLast bytes) (id : TableId) :
    parsedSamples bytes id =
      written bytes (epochAxis bytes (visits bytes)) (visits bytes) id := by
  rw [parsedSamples, ← placed_record, withEpochs_map, List.filterMap_map, written,
    visits_eq_placed h]
  refine List.filterMap_congr fun p hp => ?_
  have hmem : p.1 ∈ placed bytes := by
    rw [← map_fst_withEpochs Visit.type (placed bytes)]
    exact List.mem_map_of_mem hp
  exact recordSample_record hmem _ id p.2

/-- The samples of a table have their epochs in order, and the times of the epochs apart. -/
theorem written_apart (bytes : List UInt8) (vs : List Visit) (id : TableId) :
    ((written bytes (epochAxis bytes vs) vs id).Pairwise fun a b => a.epoch ≤ b.epoch) ∧
      ∀ a ∈ written bytes (epochAxis bytes vs) vs id,
        ∀ b ∈ written bytes (epochAxis bytes vs) vs id, a.epoch < b.epoch → a.time < b.time := by
  have hof : ∀ {p : Visit × ℕ} {s}, visitSample bytes (epochAxis bytes vs) id p = some s →
      s.epoch = p.2 ∧ s.time = epochTime (epochAxis bytes vs) p.2 p.1.tsUs := fun {p s} hs => by
    obtain ⟨decl, -, hs⟩ := Option.bind_eq_some_iff.mp hs
    split at hs
    · obtain rfl := Option.some.inj hs
      exact ⟨rfl, rfl⟩
    · cases hs
  constructor
  · refine List.Pairwise.filterMap _ (fun p q hpq s hs t ht => ?_) (pairwise_withEpochs vs)
    rw [(hof hs).1, (hof ht).1]
    exact hpq
  · intro a ha b hb hlt
    obtain ⟨p, hp, ha⟩ := List.mem_filterMap.mp ha
    obtain ⟨q, hq, hb⟩ := List.mem_filterMap.mp hb
    rw [(hof ha).1, (hof hb).1] at hlt
    rw [(hof ha).2, (hof hb).2]
    exact epochTime_lt hp hq hlt

/-! ## The tables -/

section Built

variable {bytes : List UInt8} {d : TelemetryTable × TableId}

theorem filled_tables (bytes : List UInt8) :
    RowsWritten bytes (epochAxis bytes (visits bytes)) (scanCounts bytes (visits bytes))
      (visits bytes) (fillTables bytes) := filled_foldl _ _ _ _

theorem allocate_isSome (hd : d ∈ tableIds) (counts : TableId → ℕ) :
    (allocate counts d.2).isSome ↔ counts d.2 ≠ 0 := by
  have hfind : (tableIds.find? fun e => e.2 == d.2).isSome :=
    List.find?_isSome.mpr ⟨d, hd, beq_self_eq_true _⟩
  obtain ⟨e, he⟩ := Option.isSome_iff_exists.mp hfind
  rw [allocate, he, Option.bind_some]
  split
  · rename_i hzero
    exact ⟨fun h => absurd h Bool.false_ne_true, fun h => absurd hzero h⟩
  · rename_i hcount
    exact ⟨fun _ => hcount, fun _ => rfl⟩

theorem sortTableByTime_n (t : Table) : (sortTableByTime t).n = t.n := by
  unfold sortTableByTime
  split <;> rfl

variable (bytes) in
/-- A table has a row for every record of its name. -/
theorem length_tableSamples (hd : d ∈ tableIds) :
    (tableSamples bytes d.2).length = scanCounts bytes (visits bytes) d.2 := by
  have hthere := (filled_tables bytes).there d.2
  unfold tableSamples buildTelemetry
  cases ht : (fillTables bytes).tables d.2 with
  | none =>
    have hnone : ¬(allocate (scanCounts bytes (visits bytes)) d.2).isSome := by
      rw [← hthere, ht]
      exact Bool.false_ne_true
    exact (not_not.mp fun hcount => hnone ((allocate_isSome hd _).mpr hcount)).symm
  | some t =>
    have hn := ((filled_tables bytes).table d.2 t ht).1
    rw [Option.map_some, Option.map_some, Option.getD_some, Table.samples, List.length_map,
      List.length_range, sortTableByTime_n, hn]

/-- A table that is full holds what is written. -/
theorem tableSamples_perm (hd : d ∈ tableIds)
    (hfull : (written bytes (epochAxis bytes (visits bytes)) (visits bytes) d.2).length =
      scanCounts bytes (visits bytes) d.2) :
    (tableSamples bytes d.2).Perm
      ((written bytes (epochAxis bytes (visits bytes)) (visits bytes) d.2).map Sample.stored) := by
  have hlength := length_tableSamples bytes hd
  cases ht : (fillTables bytes).tables d.2 with
  | none =>
    have hempty : tableSamples bytes d.2 = [] := by
      rw [tableSamples, buildTelemetry, ht]
      rfl
    rw [hempty, List.length_nil] at hlength
    rw [hempty, List.length_eq_zero_iff.mp (hfull.trans hlength.symm)]
    exact List.Perm.nil
  | some t =>
    obtain ⟨hn, -, hrows⟩ := (filled_tables bytes).table d.2 t ht
    have hfill : t.fill = t.n := by
      have hlen := congrArg List.length hrows
      rw [List.length_map, List.length_range, List.length_map, hfull, ← hn] at hlen
      exact hlen
    have hsorted : tableSamples bytes d.2 = (sortTableByTime t).samples := by
      rw [tableSamples, buildTelemetry, ht]
      rfl
    obtain ⟨hgroups, hkeys⟩ := written_apart bytes (visits bytes) d.2
    rw [hfill] at hrows
    rw [hsorted]
    exact sortTableByTime_perm hrows hgroups hkeys

end Built

/-! ## Faithful -/

/-- The data of the last boot marker among the parser's records. -/
def lastBootOf (rs : List LogRecord) : Option BootMarkerData :=
  ((rs.filter fun r => r.type == flTypeBootMarker).getLast?).bind fun r =>
    decodeBootMarker r.payload

/-- The viewer's model is faithful to the parser. -/
structure Faithful (bytes : List UInt8) : Prop where
  /-- The records visited are those parsed. -/
  visited : (visits bytes).map (Visit.record bytes) = parseLogStream bytes
  /-- A table holds a sample for each record of its name that is long enough, and no other; its
  channels are sorted with its times. -/
  samples : ∀ d ∈ tableIds,
    (tableSamples bytes d.2).Perm ((parsedSamples bytes d.2).map Sample.stored)
  /-- Of up to 256 epochs each sample has the number of its own. -/
  epochs : (scanEpochs bytes (visits bytes)).all.length ≤ 256 → ∀ d ∈ tableIds,
    (tableSamples bytes d.2).Perm (parsedSamples bytes d.2)
  /-- The epoch of a record is the one of the last boot marker. -/
  boots : ∀ rs, rs ≠ [] → rs <+: parseLogStream bytes → ∃ e,
    (scanEpochs bytes (visits bytes)).all[openEpoch (rs.map LogRecord.type)]? = some e ∧
      e.boot = lastBootOf rs
  /-- The times of a table do not decrease. -/
  ordered : ∀ id, (tableSamples bytes id).Pairwise fun a b => a.time ≤ b.time

/-- No record that is too short for its layout has a table. -/
def NoneShort (bytes : List UInt8) : Prop :=
  ∀ v ∈ placed bytes, v.IsShort → ∀ d ∈ tableIds, v.tableId bytes ≠ some d.2

theorem ordered_tableSamples (bytes : List UInt8) (id : TableId) :
    (tableSamples bytes id).Pairwise fun a b => a.time ≤ b.time := by
  unfold tableSamples buildTelemetry
  cases (fillTables bytes).tables id with
  | none => exact List.Pairwise.nil
  | some t => exact sortTableByTime_times t

theorem lastBootOf_record (bytes : List UInt8) (vs : List Visit) :
    lastBootOf (vs.map (Visit.record bytes)) = lastBoot bytes vs := by
  rw [lastBootOf, List.filter_map, List.getLast?_map, lastBoot, Option.bind_map]
  rfl

theorem parsed_boots {bytes : List UInt8} (h : EndsLast bytes) (rs : List LogRecord)
    (hne : rs ≠ []) (hrs : rs <+: parseLogStream bytes) :
    ∃ e, (scanEpochs bytes (visits bytes)).all[openEpoch (rs.map LogRecord.type)]? = some e ∧
      e.boot = lastBootOf rs := by
  have hvisits := (visits_iff bytes).mpr h
  have hfront : rs = ((visits bytes).take rs.length).map (Visit.record bytes) := by
    rw [List.map_take, hvisits]
    exact List.prefix_iff_eq_take.mp hrs
  have husne : (visits bytes).take rs.length ≠ [] := fun hnil => hne (by
    rw [hfront, hnil]
    rfl)
  obtain ⟨e, he, hboot⟩ := (epochsFound bytes (visits bytes)).boot _ husne (List.take_prefix _ _)
  refine ⟨e, ?_, ?_⟩
  · rw [hfront, List.map_map]
    exact he
  · rw [hfront, lastBootOf_record]
    exact hboot

/-- Up to 256 epochs have numbers that fit a byte. -/
theorem stored_written {bytes : List UInt8}
    (h : (scanEpochs bytes (visits bytes)).all.length ≤ 256) (axis : List EpochAxis)
    (id : TableId) :
    (written bytes axis (visits bytes) id).map Sample.stored =
      written bytes axis (visits bytes) id := by
  refine (List.map_congr_left fun s hs => ?_).trans (List.map_id _)
  obtain ⟨p, hp, hs⟩ := List.mem_filterMap.mp hs
  obtain ⟨decl, -, hs⟩ := Option.bind_eq_some_iff.mp hs
  obtain ⟨e, -, he, -⟩ := (epochsFound bytes (visits bytes)).inside p hp
  have hlt : p.2 < 256 := Nat.lt_of_lt_of_le (List.getElem?_eq_some_iff.mp he).1 h
  split at hs
  · obtain rfl := Option.some.inj hs
    rw [Sample.stored, Nat.mod_eq_of_lt hlt]
    rfl
  · cases hs

/-- The model is faithful exactly where no record comes after the end of a stream and none that is
too short has a table. -/
theorem telemetry_faithful_iff (bytes : List UInt8) :
    Faithful bytes ↔ EndsLast bytes ∧ NoneShort bytes := by
  have hfull : ∀ d, (written bytes (epochAxis bytes (visits bytes)) (visits bytes) d).length =
      scanCounts bytes (visits bytes) d ↔
        ∀ v ∈ visits bytes, v.IsShort → v.tableId bytes ≠ some d := fun d =>
    (length_written_le bytes _ (visits bytes) d).2
  constructor
  · intro h
    have hends := (visits_iff bytes).mp h.visited
    refine ⟨hends, fun v hv hshort d hd => ?_⟩
    have hlength := (h.samples d hd).length_eq
    rw [length_tableSamples _ hd, List.length_map, parsedSamples_eq hends] at hlength
    exact (hfull d.2).mp hlength.symm v (visits_eq_placed hends ▸ hv) hshort
  · rintro ⟨hends, hshort⟩
    have hperm : ∀ d ∈ tableIds, (tableSamples bytes d.2).Perm
        ((parsedSamples bytes d.2).map Sample.stored) := fun d hd => by
      rw [parsedSamples_eq hends]
      refine tableSamples_perm hd ((hfull d.2).mpr fun v hv hs => ?_)
      exact hshort v (visits_eq_placed hends ▸ hv) hs d hd
    refine ⟨(visits_iff bytes).mpr hends, hperm, fun hfew d hd => ?_, parsed_boots hends,
      ordered_tableSamples bytes⟩
    have hexact := hperm d hd
    rw [parsedSamples_eq hends, stored_written hfew] at hexact
    rw [parsedSamples_eq hends]
    exact hexact

/-- A log of one consensus record without a payload. -/
def emptyConsensus : List UInt8 := [0x10, 0, 0, 0, 0, 0, 0, 0, 0, 0, 0, 0]

theorem visits_emptyConsensus : visits emptyConsensus = [⟨0x10, 0, 0, 12, 0⟩] := by
  have hstart : bodyStart emptyConsensus = 0 := by decide
  rw [visits, hstart, walkStream, walkLoop, dif_neg (by decide), if_neg (by decide),
    if_neg (by decide), walkLoop, dif_pos (by decide), walkLoop]
  rfl

/-- It leaves a row of zeros in the table. -/
theorem emptyConsensus_phantom : ¬Faithful emptyConsensus := by
  intro h
  have hd : ((⟨flTypeConsensus, 14, consensusFields, none, none⟩ : TelemetryTable),
      TableId.whole flTypeConsensus) ∈ tableIds := by decide
  have hrows := (h.samples _ hd).length_eq
  rw [length_tableSamples _ hd, parsedSamples, ← h.visited, visits_emptyConsensus] at hrows
  revert hrows
  decide

end DiveCANHead.Viewer
