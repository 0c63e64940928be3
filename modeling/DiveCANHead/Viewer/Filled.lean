import DiveCANHead.Viewer.Tables

/-!
# What the second walk writes

A row is written for each record that is long enough, in order, with the values of its payload and
its epoch.
-/

namespace DiveCANHead.Viewer

open DiveCANHead.Lib DiveCANHead.FlashLog DiveCANHead.LogClient

/-! ## Values of a payload -/

section Values

variable {p : List UInt8} {n o : ℕ}

theorem byteAt_take (h : o < n) : byteAt (p.take n) o = byteAt p o := by
  rw [byteAt, byteAt, List.getD_eq_getElem?_getD, List.getD_eq_getElem?_getD,
    List.getElem?_take_of_lt h]

theorem read_take (r : Reader) (h : o + r.type.size ≤ n) : r.read (p.take n) o = r.read p o := by
  have hword : o + 4 ≤ n → wordAt (p.take n) o = wordAt p o := fun hfour => by
    rw [wordAt, wordAt, byteAt_take (by omega), byteAt_take (by omega), byteAt_take (by omega),
      byteAt_take (by omega)]
  cases r with
  | u8 => rw [Reader.read, Reader.read, readU8, readU8, byteAt_take h]
  | u16 =>
    have htwo : o + 2 ≤ n := h
    rw [Reader.read, Reader.read, readU16LE, readU16LE, byteAt_take (by omega),
      byteAt_take (by omega)]
  | i32 => rw [Reader.read, Reader.read, readI32LE, readI32LE, hword h]
  | u32 => rw [Reader.read, Reader.read, readU32LE, readU32LE, hword h]
  | f32 => rw [Reader.read, Reader.read, readF32LE, readF32LE, hword h]

theorem raw_take (f : TelemetryField) (h : f.off + f.read.type.size ≤ n) :
    f.raw (p.take n) = f.raw p := by
  unfold TelemetryField.raw
  rw [read_take f.read h]

/-- All that is read of a payload lies within the length its table asks for. -/
theorem table_within {decl : TelemetryTable} (h : decl ∈ tables) :
    (∀ f ∈ decl.fields, f.off + f.read.type.size ≤ decl.payloadLen) ∧
      (∀ o ∈ decl.cellOff, o < decl.payloadLen) ∧ ∀ o ∈ decl.flagsOff, o < decl.payloadLen := by
  have hall : ∀ decl ∈ tables,
      (∀ f ∈ decl.fields, f.off + f.read.type.size ≤ decl.payloadLen) ∧
        (∀ o ∈ decl.cellOff, o < decl.payloadLen) ∧ ∀ o ∈ decl.flagsOff, o < decl.payloadLen := by
    decide
  exact hall decl h

theorem mem_tables {type : UInt8} {decl : TelemetryTable} (h : tableForType type = some decl) :
    decl ∈ tables ∧ decl.type = type := by
  have htype := List.find?_some (p := fun t : TelemetryTable => t.type == type) h
  exact ⟨List.mem_of_find?_eq_some h, beq_iff_eq.mp htype⟩

/-- The payload alone has the values. -/
theorem channelValue_slice {decl : TelemetryTable} (hdecl : decl ∈ tables) {off next : ℕ}
    (hlen : decl.payloadLen ≤ next - off) {f : TelemetryField} (hf : f ∈ decl.fields) :
    channelValue decl (slice p off next) 0 f = channelValue decl p off f := by
  obtain ⟨hfields, -, hflags⟩ := table_within hdecl
  have hraw : f.raw ((p.drop off).take (next - off)) = f.raw (p.drop off) :=
    raw_take f (Nat.le_trans (hfields f hf) hlen)
  have hflag : ∀ o ∈ decl.flagsOff,
      byteAt ((p.drop off).take (next - off)) o = byteAt (p.drop off) o := fun o ho =>
    byteAt_take (Nat.lt_of_lt_of_le (hflags o ho) hlen)
  unfold channelValue
  rw [List.drop_zero, slice, hraw]
  cases hflagsOff : decl.flagsOff with
  | none => cases validBit f.key <;> rfl
  | some o =>
    cases validBit f.key with
    | none => rfl
    | some bit =>
      dsimp only
      rw [hflag o hflagsOff]

/-- The payload alone tells the table. -/
theorem tableIdAt_slice {decl : TelemetryTable} (hdecl : decl ∈ tables) {off next : ℕ}
    (hlen : decl.payloadLen ≤ next - off) :
    tableIdAt decl (slice p off next) 0 = tableIdAt decl p off := by
  obtain ⟨-, hcell, -⟩ := table_within hdecl
  unfold tableIdAt
  cases hcellOff : decl.cellOff with
  | none => rfl
  | some o =>
    have hlt : 0 + o < next - off := by
      rw [Nat.zero_add]
      exact Nat.lt_of_lt_of_le (hcell o hcellOff) hlen
    dsimp only
    rw [slice, List.getElem?_take_of_lt hlt, List.getElem?_drop, Nat.zero_add]

end Values

/-! ## What is written -/

/-- The sample of a record for a table, if it is one of the table's and long enough. -/
def visitSample (bytes : List UInt8) (axis : List EpochAxis) (id : TableId) (p : Visit × ℕ) :
    Option Sample :=
  (tableForType p.1.type).bind fun decl =>
    if decl.payloadLen ≤ p.1.len ∧ tableIdAt decl bytes p.1.off = id then
      some ⟨epochTime axis p.2 p.1.tsUs, p.1.tsUs / usPerS, p.2,
        decl.fields.map fun f => (f.key, channelValue decl bytes p.1.off f)⟩
    else none

/-- The samples of the records for a table, in order. -/
def written (bytes : List UInt8) (axis : List EpochAxis) (vs : List Visit) (id : TableId) :
    List Sample :=
  (withEpochs Visit.type vs).filterMap (visitSample bytes axis id)

/-- A sample as it is stored. -/
def Sample.stored (s : Sample) : Sample := { s with epoch := s.epoch % 256 }

theorem written_concat (bytes : List UInt8) (axis : List EpochAxis) (vs : List Visit) (v : Visit)
    (id : TableId) :
    written bytes axis (vs ++ [v]) id = written bytes axis vs id ++
      (visitSample bytes axis id (v, openEpoch ((vs ++ [v]).map Visit.type))).toList := by
  rw [written, withEpochs_concat, List.filterMap_append, written]
  refine congrArg (_ ++ ·) ?_
  cases h : visitSample bytes axis id (v, openEpoch ((vs ++ [v]).map Visit.type)) with
  | none => rw [List.filterMap_cons_none h]; rfl
  | some s => rw [List.filterMap_cons_some h]; rfl

/-- A row is written behind those that are there. -/
theorem push_samples {t : Table} {decl : TelemetryTable}
    (hfields : t.channels.map Prod.fst = decl.fields) (time bootTime : ℚ) (epochIdx : ℕ)
    (value : TelemetryField → Option Datum) :
    (List.range (t.push time bootTime epochIdx value).fill).map
        (t.push time bootTime epochIdx value).sample =
      (List.range t.fill).map t.sample ++
        [Sample.stored ⟨time, bootTime, epochIdx, decl.fields.map fun f => (f.key, value f)⟩] := by
  have hbefore : ∀ i < t.fill, (t.push time bootTime epochIdx value).sample i = t.sample i := by
    intro i hi
    have hne : i ≠ t.fill := Nat.ne_of_lt hi
    simp only [Table.sample, Table.push, Function.update_of_ne hne, List.map_map]
    refine congrArg _ (List.map_congr_left fun ch _ => ?_)
    simp only [Function.comp_apply, Function.update_of_ne hne]
  have hnew : (t.push time bootTime epochIdx value).sample t.fill =
      Sample.stored ⟨time, bootTime, epochIdx, decl.fields.map fun f => (f.key, value f)⟩ := by
    simp only [Table.sample, Table.push, Function.update_self, List.map_map, Sample.stored,
      ← hfields]
    refine congrArg _ (List.map_congr_left fun ch _ => ?_)
    simp only [Function.comp_apply, Function.update_self]
  have hfill : (t.push time bootTime epochIdx value).fill = t.fill + 1 := rfl
  rw [hfill, map_range_succ hbefore, hnew]

/-- The tables hold what is written of the records so far. -/
structure RowsWritten (bytes : List UInt8) (axis : List EpochAxis) (counts : TableId → ℕ)
    (vs : List Visit) (b : Fill) : Prop where
  epochIdx : b.epochIdx = openEpoch (vs.map Visit.type)
  seenFirst : b.seenFirst = !vs.isEmpty
  there : ∀ id, (b.tables id).isSome = (allocate counts id).isSome
  table : ∀ id t, b.tables id = some t → t.n = counts id ∧
    (∃ decl, (decl, id) ∈ tableIds ∧ t.channels.map Prod.fst = decl.fields) ∧
    (List.range t.fill).map t.sample = (written bytes axis vs id).map Sample.stored

theorem allocate_eq_some {counts : TableId → ℕ} {id : TableId} {t : Table}
    (h : allocate counts id = some t) :
    ∃ decl, (decl, id) ∈ tableIds ∧ counts id ≠ 0 ∧ t = Table.new decl (counts id) := by
  obtain ⟨d, hfind, hd⟩ := Option.bind_eq_some_iff.mp h
  have hid : d.2 = id := beq_iff_eq.mp (List.find?_some
    (p := fun d : TelemetryTable × TableId => d.2 == id) hfind)
  split at hd
  · cases hd
  · rename_i hcount
    exact ⟨d.1, hid ▸ List.mem_of_find?_eq_some hfind, hcount, (Option.some.inj hd).symm⟩

theorem RowsWritten.init (bytes : List UInt8) (axis : List EpochAxis) (counts : TableId → ℕ) :
    RowsWritten bytes axis counts [] ⟨0, false, allocate counts⟩ where
  epochIdx := rfl
  seenFirst := rfl
  there := fun _ => rfl
  table := fun id t ht => by
    obtain ⟨decl, hdecl, -, rfl⟩ := allocate_eq_some ht
    refine ⟨rfl, ⟨decl, hdecl, ?_⟩, rfl⟩
    rw [Table.new, List.map_map]
    exact List.map_id _

/-- A table is of the type its name says. -/
theorem tableIds_decl {v : Visit} {decl d : TelemetryTable} {bytes : List UInt8} {off : ℕ}
    (hdecl : tableForType v.type = some decl) (hd : (d, tableIdAt decl bytes off) ∈ tableIds) :
    d = decl := by
  have hnamed : ∀ d ∈ tableIds, tableForType d.2.type = some d.1 := by decide
  have hsame := hnamed _ hd
  have htype : tableForType decl.type = some decl := by rw [(mem_tables hdecl).2, hdecl]
  unfold tableIdAt at hsame
  split at hsame
  · exact Option.some.inj (hsame.symm.trans htype)
  · exact Option.some.inj (hsame.symm.trans htype)

section Walk

variable {bytes : List UInt8} {axis : List EpochAxis} {counts : TableId → ℕ} {vs : List Visit}
  {b : Fill} {v : Visit}

theorem RowsWritten.nextEpoch (h : RowsWritten bytes axis counts vs b) :
    b.nextEpoch v = openEpoch ((vs ++ [v]).map Visit.type) := by
  rw [Fill.nextEpoch, h.seenFirst, h.epochIdx]
  cases vs with
  | nil => exact if_neg fun hand => Bool.false_ne_true hand.2
  | cons w ws =>
    have hne : (w :: ws).map Visit.type ≠ [] := List.cons_ne_nil _ _
    rw [List.map_append, List.map_singleton, openEpoch_concat hne]
    by_cases htype : v.type = flTypeBootMarker
    · rw [if_pos htype, if_pos ⟨htype, rfl⟩]
    · rw [if_neg htype, if_neg fun hand => htype hand.1, Nat.add_zero]

/-- A table no sample is for keeps its rows. -/
theorem RowsWritten.same (h : RowsWritten bytes axis counts vs b) {id : TableId}
    (hnone : visitSample bytes axis id (v, openEpoch ((vs ++ [v]).map Visit.type)) = none)
    {t : Table} (ht : b.tables id = some t) :
    t.n = counts id ∧ (∃ decl, (decl, id) ∈ tableIds ∧ t.channels.map Prod.fst = decl.fields) ∧
      (List.range t.fill).map t.sample = (written bytes axis (vs ++ [v]) id).map Sample.stored := by
  rw [written_concat, hnone, Option.toList_none, List.append_nil]
  exact h.table id t ht

/-- One record further every table holds what is written of the records. -/
theorem RowsWritten.visit (h : RowsWritten bytes axis counts vs b) :
    RowsWritten bytes axis counts (vs ++ [v]) (b.visit bytes axis v) := by
  have hsample : ∀ id, visitSample bytes axis id (v, openEpoch ((vs ++ [v]).map Visit.type)) =
      (tableForType v.type).bind fun decl =>
        if decl.payloadLen ≤ v.len ∧ tableIdAt decl bytes v.off = id then
          some ⟨epochTime axis (b.nextEpoch v) v.tsUs, v.tsUs / usPerS, b.nextEpoch v,
            decl.fields.map fun f => (f.key, channelValue decl bytes v.off f)⟩
        else none := fun id => by rw [h.nextEpoch]; rfl
  have hkeeps : (∀ id, visitSample bytes axis id
      (v, openEpoch ((vs ++ [v]).map Visit.type)) = none ∨ b.tables id = none) →
      b.write bytes axis v = b.tables → RowsWritten bytes axis counts (vs ++ [v])
        (b.visit bytes axis v) := fun hnone hwrite =>
    { epochIdx := h.nextEpoch
      seenFirst := by rw [isEmpty_concat]; rfl
      there := fun id => (congrArg (fun tables => (tables id).isSome) hwrite).trans (h.there id)
      table := fun id t ht => by
        have ht' : b.tables id = some t := (congrFun hwrite id).symm.trans ht
        exact h.same ((hnone id).resolve_right fun hno => by cases hno.symm.trans ht') ht' }
  cases hdecl : tableForType v.type with
  | none =>
    refine hkeeps (fun id => .inl ?_) ?_
    · rw [hsample, hdecl, Option.bind_none]
    · rw [Fill.write, hdecl]
  | some decl =>
    by_cases hlen : decl.payloadLen ≤ v.len
    · cases htable : b.tables (tableIdAt decl bytes v.off) with
      | none =>
        refine hkeeps (fun id => ?_) ?_
        · by_cases hid : tableIdAt decl bytes v.off = id
          · exact .inr (hid ▸ htable)
          · refine .inl ?_
            rw [hsample, hdecl, Option.bind_some, if_neg fun hand => hid hand.2]
        · rw [Fill.write, hdecl]
          dsimp only
          rw [if_pos hlen, htable]
      | some t =>
        have hwrite : b.write bytes axis v = Function.update b.tables
            (tableIdAt decl bytes v.off) (some (t.push (epochTime axis (b.nextEpoch v) v.tsUs)
              (v.tsUs / usPerS) (b.nextEpoch v) (channelValue decl bytes v.off))) := by
          rw [Fill.write, hdecl]
          dsimp only
          rw [if_pos hlen, htable]
        refine ⟨h.nextEpoch, by rw [isEmpty_concat]; rfl, fun id => ?_, fun id t' ht' => ?_⟩
        · have hsome : (b.tables id).isSome = (b.write bytes axis v id).isSome := by
            rw [hwrite]
            by_cases hid : id = tableIdAt decl bytes v.off
            · rw [hid, Function.update_self, htable]
              rfl
            · rw [Function.update_of_ne hid]
          exact hsome.symm.trans (h.there id)
        · replace ht' : b.write bytes axis v id = some t' := ht'
          rw [hwrite] at ht'
          by_cases hid : id = tableIdAt decl bytes v.off
          · subst hid
            rw [Function.update_self] at ht'
            obtain rfl := Option.some.inj ht'
            obtain ⟨hn, ⟨d, hd, hfields⟩, hrows⟩ := h.table _ t htable
            obtain rfl := tableIds_decl hdecl hd
            refine ⟨hn, ⟨d, hd, ?_⟩, ?_⟩
            · rw [Table.push, List.map_map]
              exact hfields
            · rw [push_samples hfields, hrows, written_concat, List.map_append, hsample, hdecl,
                Option.bind_some, if_pos ⟨hlen, rfl⟩]
              rfl
          · rw [Function.update_of_ne hid] at ht'
            refine h.same ?_ ht'
            rw [hsample, hdecl, Option.bind_some, if_neg fun hand => hid hand.2.symm]
    · refine hkeeps (fun id => .inl ?_) ?_
      · rw [hsample, hdecl, Option.bind_some, if_neg fun hand => hlen hand.1]
      · rw [Fill.write, hdecl]
        dsimp only
        rw [if_neg hlen]

theorem filled_foldl (bytes : List UInt8) (axis : List EpochAxis) (counts : TableId → ℕ)
    (vs : List Visit) :
    RowsWritten bytes axis counts vs
      (vs.foldl (Fill.visit bytes axis) ⟨0, false, allocate counts⟩) := by
  induction vs using List.reverseRecOn with
  | nil => exact .init bytes axis counts
  | append_singleton vs v ih =>
    rw [List.foldl_concat]
    exact ih.visit

end Walk

end DiveCANHead.Viewer
