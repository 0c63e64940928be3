import DiveCANHead.LogWriter.Flush

/-!
# What a flush stores (`flash_log.c`)

The records that are in a ring, those that are staged for it, and what a flush adds: the single
entries first, then the telemetry of the container.
-/

namespace DiveCANHead.LogWriter

open DiveCANHead.Lib DiveCANHead.FlashLog DiveCANHead.LogDownload

/-! ## Stored and staged records -/

/-- The record is for this ring; markers are for both. -/
def BatchRecord.isFor (dest : FlashLogDest) (r : BatchRecord) : Bool :=
  r.dest == some dest || isMarkerType r.type

/-- The records of a ring besides the drop markers, out of their containers. -/
def Ring.stored (r : Ring) : List LogRecord :=
  (r.entries.flatMap LogRecord.contents).filter fun e => e.flags = 0

/-- The staged records for a ring. -/
def Writer.pending (w : Writer) (dest : FlashLogDest) : List LogRecord :=
  ((batchRecords w.batch).filter (BatchRecord.isFor dest)).map BatchRecord.entry

/-! ## What a flush stores -/

/-- The records of entries besides the drop markers. -/
def storedOf (entries : List LogRecord) : List LogRecord :=
  (entries.flatMap LogRecord.contents).filter fun e => e.flags = 0

theorem Ring.stored_eq (r : Ring) : r.stored = storedOf r.entries := rfl

theorem storedOf_append (es es' : List LogRecord) :
    storedOf (es ++ es') = storedOf es ++ storedOf es' := by
  rw [storedOf, List.flatMap_append, List.filter_append]
  rfl

theorem storedOf_single {e : LogRecord} (htype : e.type ≠ flTypeBatch) :
    storedOf [e] = if e.flags = 0 then [e] else [] := by
  simp only [storedOf, List.flatMap_singleton, LogRecord.contents, if_neg htype,
    List.filter_singleton, cond_eq_ite, decide_eq_true_eq]

/-- Records of slots: they have a ring, they are no containers, and they are short. -/
def BatchRecord.Proper (r : BatchRecord) : Prop :=
  (∃ dest, r.dest = some dest) ∧ r.type ≠ flTypeBatch ∧ r.entry.Fits

theorem Slot.proper (s : Slot) : s.record.Proper :=
  ⟨⟨s.dest, rfl⟩, s.notBatch, Nat.lt_of_le_of_lt s.fits (by decide)⟩

theorem storedOf_container {subs : List BatchRecord} (h : ∀ r ∈ subs, r.Proper) (ts : UInt64) :
    storedOf [Writer.container subs ts] = subs.map BatchRecord.entry := by
  have hpayload : (Writer.container subs ts).payload =
      (subs.map BatchRecord.entry).flatMap LogRecord.bytes := by
    rw [List.flatMap_map]
    rfl
  have hrecords : flatRecords (Writer.container subs ts).payload = subs.map BatchRecord.entry := by
    rw [hpayload]
    apply flatRecords_flatMap
    intro e he
    obtain ⟨r, hr, rfl⟩ := List.mem_map.mp he
    exact (h r hr).2.2
  have htype : (Writer.container subs ts).type = flTypeBatch := rfl
  rw [storedOf, List.flatMap_singleton, LogRecord.contents, if_pos htype, hrecords,
    List.filter_eq_self]
  intro e he
  obtain ⟨r, -, rfl⟩ := List.mem_map.mp he
  rfl

/-- What a flush stores of these records in a ring: the single entries, then the telemetry. -/
def storedBy (dest : FlashLogDest) (records : List BatchRecord) : List LogRecord :=
  ((records.filter fun r => r.isSingle && r.isFor dest) ++
    if dest = .telemetry then records.filter BatchRecord.isTelemetryData else []).map
      BatchRecord.entry

theorem storedOf_singlePlan {r : BatchRecord} (h : r.Proper) (hsingle : r.isSingle = true)
    (dest : FlashLogDest) :
    storedOf (((Writer.singlePlan r).filter fun p => p.dest = dest).map PlannedWrite.entry) =
      if r.isFor dest then [r.entry] else [] := by
  obtain ⟨⟨own, hown⟩, htype, -⟩ := h
  have hentry : storedOf [r.entry] = [r.entry] := storedOf_single htype
  have hnil : storedOf [] = [] := rfl
  unfold Writer.singlePlan mirrorDest BatchRecord.isFor
  rw [BatchRecord.isSingle, hown] at hsingle
  rw [hown]
  cases hmarker : isMarkerType r.type <;> cases own <;> cases dest <;>
    simp_all [PlannedWrite.single]

theorem storedOf_singles {records : List BatchRecord} (h : ∀ r ∈ records, r.Proper)
    (dest : FlashLogDest) :
    storedOf ((((records.filter BatchRecord.isSingle).flatMap Writer.singlePlan).filter
      fun p => p.dest = dest).map PlannedWrite.entry) =
        (records.filter fun r => r.isSingle && r.isFor dest).map BatchRecord.entry := by
  induction records with
  | nil => rfl
  | cons r records ih =>
    have hrest := ih fun r hr => h r (.tail _ hr)
    cases hsingle : r.isSingle with
    | false => simpa [hsingle] using hrest
    | true =>
      have hhead := storedOf_singlePlan (h r List.mem_cons_self) hsingle dest
      rw [List.filter_cons_of_pos hsingle, List.flatMap_cons, List.filter_append,
        List.map_append, storedOf_append, hrest, hhead]
      cases hfor : r.isFor dest <;> simp [hsingle, hfor]

theorem storedOf_dropPlan (w : Writer) (d dest : FlashLogDest) (now : UInt64) :
    storedOf (((w.dropPlan d now).filter fun p => p.dest = dest).map PlannedWrite.entry) = [] := by
  unfold Writer.dropPlan
  split
  · rfl
  · cases d <;> cases dest <;> rfl

theorem storedOf_containerPlan {subs : List BatchRecord} (h : ∀ r ∈ subs, r.Proper)
    (dest : FlashLogDest) :
    storedOf (((Writer.containerPlan subs).filter fun p => p.dest = dest).map
      PlannedWrite.entry) = if dest = .telemetry then subs.map BatchRecord.entry else [] := by
  cases subs with
  | nil => cases dest <;> rfl
  | cons first rest =>
    cases dest
    · exact storedOf_container h first.tsUs
    · rfl

namespace Writer

/-- The writes of the next flush; there are none when nothing is staged. -/
def planned (w : Writer) (now : FlashLogDest → UInt64) : List PlannedWrite :=
  if w.batch = [] then [] else w.flushPlan now (batchRecords w.batch)

variable {w : Writer}

theorem entries_batchFlush (now : FlashLogDest → UInt64) (dest : FlashLogDest) :
    ((w.batchFlush now).ring dest).entries = (w.ring dest).entries ++
      ((landed (w.planned now) w.script).filter fun p => p.dest = dest).map PlannedWrite.entry := by
  unfold planned
  split
  · next hempty =>
    rw [batchFlush, if_pos hempty]
    exact (List.append_nil _).symm
  · next hempty =>
    have hperform := entries_perform (w := { w with drops := fun _ => 0 })
      (w.flushPlan now (batchRecords w.batch)) dest
    rw [batchFlush_eq hempty]
    cases dest <;> exact hperform

theorem batch_batchFlush (now : FlashLogDest → UInt64) : (w.batchFlush now).batch = [] := by
  unfold batchFlush
  split
  · next h => exact h
  · rfl

theorem pending_eq (slots : List Slot) (h : w.batch = slots.flatMap Slot.pack)
    (dest : FlashLogDest) :
    w.pending dest =
      ((slots.map Slot.record).filter (BatchRecord.isFor dest)).map BatchRecord.entry := by
  rw [pending, h, batchRecords_pack]

theorem pending_of_empty (h : w.batch = []) (dest : FlashLogDest) : w.pending dest = [] :=
  pending_eq [] h dest

/-- The records in the writes of a flush. -/
theorem storedOf_planned {slots : List Slot} (hbatch : w.batch = slots.flatMap Slot.pack)
    (now : FlashLogDest → UInt64) (dest : FlashLogDest) :
    storedOf (((w.planned now).filter fun p => p.dest = dest).map PlannedWrite.entry) =
      storedBy dest (slots.map Slot.record) := by
  have hproper : ∀ r ∈ slots.map Slot.record, r.Proper := by
    intro r hr
    obtain ⟨s, -, rfl⟩ := List.mem_map.mp hr
    exact s.proper
  have hrecords : batchRecords w.batch = slots.map Slot.record := hbatch ▸ batchRecords_pack slots
  unfold planned
  split
  · next hempty =>
    have hnone : slots.map Slot.record = [] := by
      rw [← hrecords, hempty]
      exact congrArg (List.map _) (frames_short (by decide))
    rw [hnone]
    cases dest <;> rfl
  · rw [hrecords, flushPlan]
    simp only [List.filter_append, List.map_append, storedOf_append, storedOf_dropPlan,
      List.nil_append, storedOf_singles hproper]
    rw [storedOf_containerPlan fun r hr => hproper r (List.mem_of_mem_filter hr), storedBy]
    cases dest <;> simp

/-- What a flush stores when all of its writes are finished. -/
theorem stored_batchFlush {slots : List Slot} (hbatch : w.batch = slots.flatMap Slot.pack)
    {now : FlashLogDest → UInt64} (h : landsAll (w.planned now) w.script = true)
    (dest : FlashLogDest) :
    ((w.batchFlush now).ring dest).stored =
      (w.ring dest).stored ++ storedBy dest (slots.map Slot.record) := by
  rw [Ring.stored_eq, entries_batchFlush, storedOf_append, landed_of_landsAll h,
    storedOf_planned hbatch]
  rfl

end Writer

end DiveCANHead.LogWriter
