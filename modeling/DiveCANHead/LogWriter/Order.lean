import DiveCANHead.Lib.Runs
import DiveCANHead.LogWriter.Stored

/-!
# The order of the log (`fl_writer_thread`)

The writer takes slots from the ingest queue, stages them and flushes when the buffer is full,
when a marker comes and when the window is over. A ring has what was taken in that order as long
as no marker comes while telemetry is staged: the first pass writes the marker, and the
telemetry from before it follows in the second.
-/

namespace DiveCANHead.LogWriter

open DiveCANHead.Lib DiveCANHead.FlashLog DiveCANHead.LogDownload

/-! ## Events -/

/-- What a flush meets: the times of its drop markers and the answers of the flash. -/
structure FlushInput where
  now : FlashLogDest → UInt64 := fun _ => 0
  script : List WriteOutcome := []

/-- Nothing fails. -/
def FlushInput.Succeeds (i : FlushInput) : Prop := ∀ o ∈ i.script, o.succeeds = true

instance decidableSucceeds (i : FlushInput) : Decidable i.Succeeds :=
  inferInstanceAs (Decidable (∀ o ∈ i.script, o.succeeds = true))

/-- A turn of the thread: paused, or a wait for a slot, with `due` the flush at the end of the
window if it is over; and a producer that finds the queue full. -/
inductive WriterEvent where
  | paused
  | take (slot : Slot) (onFull onMarker : FlushInput) (due : Option FlushInput)
  | wait (due : Option FlushInput)
  | drop (dest : FlashLogDest) (type : UInt8)

/-- All flushes of the turn succeed. -/
def WriterEvent.Succeeds : WriterEvent → Prop
  | paused | drop _ _ => True
  | take _ onFull onMarker due => onFull.Succeeds ∧ onMarker.Succeeds ∧ ∀ i ∈ due, i.Succeeds
  | wait due => ∀ i ∈ due, i.Succeeds

instance decidableEventSucceeds : ∀ e : WriterEvent, Decidable e.Succeeds
  | .paused | .drop _ _ => isTrue trivial
  | .take _ onFull onMarker due =>
    inferInstanceAs (Decidable (onFull.Succeeds ∧ onMarker.Succeeds ∧ ∀ i ∈ due, i.Succeeds))
  | .wait due => inferInstanceAs (Decidable (∀ i ∈ due, i.Succeeds))

namespace Writer

def flush (w : Writer) (i : FlushInput) : Writer := { w with script := i.script }.batchFlush i.now

/-- Stage a slot, after a flush when the buffer is full. -/
def stage (w : Writer) (slot : Slot) (onFull : FlushInput) : Writer :=
  match batchAppend w.batch slot with
  | some batch => { w with batch }
  | none =>
    let flushed := w.flush onFull
    { flushed with batch := (batchAppend flushed.batch slot).getD flushed.batch }

/-- The turn for a slot: markers are flushed at once. -/
def takeSlot (w : Writer) (slot : Slot) (onFull onMarker : FlushInput) : Writer :=
  if isMarkerType slot.type then (w.stage slot onFull).flush onMarker else w.stage slot onFull

/-- The flush when the window is over. -/
def flushDue (w : Writer) (due : Option FlushInput) : Writer := due.elim w w.flush

/-- A full queue: `fl_enqueue` counts the slot that it drops. -/
def countDrop (w : Writer) (dest : FlashLogDest) (type : UInt8) : Writer :=
  { w with
    drops := Function.update w.drops dest (w.drops dest + 1)
    lastDropType := Function.update w.lastDropType dest type }

end Writer

/-- The writer with all that it has taken from the queue. -/
structure LogRun where
  writer : Writer := {}
  taken : List Slot := []

/-- `fl_writer_thread`, one turn. -/
def logStep (r : LogRun) : WriterEvent → Option LogRun
  | .paused => some r
  | .take slot onFull onMarker due =>
    some ⟨(r.writer.takeSlot slot onFull onMarker).flushDue due, r.taken ++ [slot]⟩
  | .wait due => some { r with writer := r.writer.flushDue due }
  | .drop dest type => some { r with writer := r.writer.countDrop dest type }

/-- The turns of a writer whose flash works. -/
def soundStep (r : LogRun) (e : WriterEvent) : Option LogRun :=
  if e.Succeeds then logStep r e else none

/-! ## Order -/

/-- What was taken for a ring. -/
def LogRun.takenFor (r : LogRun) (dest : FlashLogDest) : List LogRecord :=
  ((r.taken.map Slot.record).filter (BatchRecord.isFor dest)).map BatchRecord.entry

/-- What was taken for a ring is stored in it in the order in which it was taken, up to what is
still staged. -/
def InOrder (r : LogRun) : Prop :=
  ∀ dest, (r.writer.ring dest).stored ++ r.writer.pending dest = r.takenFor dest

/-- A marker that finds room in the buffer finds no telemetry there. -/
def MarkerFirst (r : LogRun) : WriterEvent → Prop
  | .take slot _ _ _ =>
    isMarkerType slot.type = true → (batchAppend r.writer.batch slot).isSome = true →
      ∀ staged ∈ batchRecords r.writer.batch, staged.isTelemetryData = false
  | .paused | .wait _ | .drop _ _ => True

/-! ## Runs -/

/-- Records that a flush stores in the order in which they were staged. -/
theorem storedBy_ordered {records : List BatchRecord}
    (hclean : (∀ r ∈ records, isMarkerType r.type = false) ∨
      ∀ r ∈ records, r.isTelemetryData = false) (dest : FlashLogDest) :
    storedBy dest records = (records.filter (BatchRecord.isFor dest)).map BatchRecord.entry := by
  unfold storedBy
  congr 1
  cases dest with
  | text =>
    rw [if_neg (by decide), List.append_nil]
    refine List.filter_congr fun r _ => ?_
    rw [BatchRecord.isSingle, BatchRecord.isFor]
    cases isMarkerType r.type <;> simp
  | telemetry =>
    rw [if_pos rfl]
    rcases hclean with hplain | hnone
    · have hsingles : (records.filter fun r => r.isSingle && r.isFor .telemetry) = [] := by
        refine List.filter_eq_nil_iff.mpr fun r hr => ?_
        rw [BatchRecord.isSingle, BatchRecord.isFor, hplain r hr]
        cases r.dest with
        | none => simp
        | some own => cases own <;> simp
      rw [hsingles, List.nil_append]
      refine List.filter_congr fun r hr => ?_
      rw [BatchRecord.isTelemetryData, BatchRecord.isFor, hplain r hr, Bool.not_false,
        Bool.and_true, Bool.or_false]
    · rw [List.filter_eq_nil_iff.mpr fun r hr => Bool.eq_false_iff.mp (hnone r hr),
        List.append_nil]
      refine List.filter_congr fun r hr => ?_
      have hdata := hnone r hr
      rw [BatchRecord.isTelemetryData] at hdata
      rw [BatchRecord.isSingle, BatchRecord.isFor]
      cases hmarker : isMarkerType r.type <;> simp_all

/-- The staged slots have no marker, and with them all that was taken is in order. -/
structure Staged (r : LogRun) (slots : List Slot) : Prop where
  batch : r.writer.batch = slots.flatMap Slot.pack
  plain : ∀ s ∈ slots, isMarkerType s.type = false
  ordered : InOrder r

/-- Nothing fails, so all is written. -/
theorem stored_flush {w : Writer} (slots : List Slot) (hbatch : w.batch = slots.flatMap Slot.pack)
    {i : FlushInput} (hi : i.Succeeds) (dest : FlashLogDest) :
    ((w.flush i).ring dest).stored =
      (w.ring dest).stored ++ storedBy dest (slots.map Slot.record) := by
  have hall : landsAll (({ w with script := i.script } : Writer).planned i.now) i.script = true :=
    landsAll_of_succeeds hi _
  refine (Writer.stored_batchFlush (w := { w with script := i.script }) hbatch hall dest).trans ?_
  cases dest <;> rfl

theorem batch_flush (w : Writer) (i : FlushInput) : (w.flush i).batch = [] :=
  Writer.batch_batchFlush i.now

/-- A flush without a marker keeps the order. -/
theorem Staged.flush {r : LogRun} {slots : List Slot} (h : Staged r slots) {i : FlushInput}
    (hi : i.Succeeds) : Staged { r with writer := r.writer.flush i } [] where
  batch := batch_flush r.writer i
  plain := fun s hs => absurd hs List.not_mem_nil
  ordered := by
    intro dest
    have hplain : ∀ r ∈ slots.map Slot.record, isMarkerType r.type = false := by
      intro r hr
      obtain ⟨s, hs, rfl⟩ := List.mem_map.mp hr
      exact h.plain s hs
    have hbefore := h.ordered dest
    have hpending : (r.writer.flush i).pending dest = [] :=
      Writer.pending_eq [] (batch_flush r.writer i) dest
    rw [Writer.pending_eq _ h.batch] at hbefore
    change ((r.writer.flush i).ring dest).stored ++ (r.writer.flush i).pending dest = _
    rw [hpending, List.append_nil, stored_flush _ h.batch hi,
      storedBy_ordered (.inl hplain), hbefore]
    rfl

theorem takenFor_append (w : Writer) (taken : List Slot) (slot : Slot) (dest : FlashLogDest) :
    LogRun.takenFor ⟨w, taken ++ [slot]⟩ dest = LogRun.takenFor ⟨w, taken⟩ dest ++
      (([slot.record].filter (BatchRecord.isFor dest)).map BatchRecord.entry) := by
  rw [LogRun.takenFor, List.map_append, List.filter_append, List.map_append]
  rfl

/-- Staging a slot: behind what is staged, or alone after a flush. -/
theorem Staged.stage {r : LogRun} {slots : List Slot} (h : Staged r slots) {onFull : FlushInput}
    (hfull : onFull.Succeeds) (slot : Slot) :
    ∃ v before, Staged { r with writer := v } before ∧
      r.writer.stage slot onFull = { v with batch := (before ++ [slot]).flatMap Slot.pack } ∧
      ((batchAppend r.writer.batch slot).isSome = true → before = slots) ∧
      (batchAppend r.writer.batch slot = none → before = []) := by
  have hjoin : ∀ before : List Slot, (before ++ [slot]).flatMap Slot.pack =
      before.flatMap Slot.pack ++ slot.pack := by
    intro before
    rw [List.flatMap_append, List.flatMap_singleton]
  unfold Writer.stage
  cases happend : batchAppend r.writer.batch slot with
  | some batch =>
    refine ⟨r.writer, slots, h, ?_, fun _ => rfl, fun hnone => absurd hnone (Option.some_ne_none _)⟩
    unfold batchAppend at happend
    split at happend
    · rw [hjoin, ← h.batch, Option.some.inj happend]
    · cases happend
  | none =>
    refine ⟨r.writer.flush onFull, [], h.flush hfull, ?_,
      fun hsome => absurd hsome Bool.false_ne_true, fun _ => rfl⟩
    have hempty := batch_flush r.writer onFull
    have hfits : batchHdrBytes + slot.payload.length ≤ batchBufBytes :=
      Nat.le_trans (Nat.add_le_add_left slot.fits _) (by decide)
    have hroom : batchAppend [] slot = some slot.pack := by
      rw [batchAppend, if_pos (by rwa [List.length_nil, Nat.zero_add]), List.nil_append]
    dsimp only
    rw [hempty, hroom, Option.getD_some, List.nil_append, List.flatMap_singleton]

/-- A slot that is no marker is staged in order. -/
theorem Staged.take_plain {r : LogRun} {slots : List Slot} (h : Staged r slots) {slot : Slot}
    (hslot : isMarkerType slot.type = false) {onFull : FlushInput}
    (hfull : onFull.Succeeds) (onMarker : FlushInput) :
    ∃ staged, Staged ⟨r.writer.takeSlot slot onFull onMarker, r.taken ++ [slot]⟩ staged := by
  obtain ⟨v, before, hbefore, hstage, -, -⟩ := h.stage hfull slot
  rw [Writer.takeSlot, hslot, if_neg Bool.false_ne_true, hstage]
  refine ⟨before ++ [slot], rfl, ?_, fun dest => ?_⟩
  · intro s hs
    rcases List.mem_append.mp hs with hs | hs
    · exact hbefore.plain s hs
    · rw [List.mem_singleton.mp hs]
      exact hslot
  · have hold := hbefore.ordered dest
    rw [Writer.pending_eq _ hbefore.batch] at hold
    change (v.ring dest).stored ++ _ = LogRun.takenFor ⟨v, r.taken ++ [slot]⟩ dest
    rw [Writer.pending_eq (before ++ [slot]) rfl, takenFor_append, List.map_append,
      List.filter_append, List.map_append, ← List.append_assoc, hold]
    rfl

/-- What a marker leaves: the single entries of the flush come before the telemetry. -/
theorem Staged.take_marker {r : LogRun} {slots : List Slot} (h : Staged r slots) {slot : Slot}
    (hslot : isMarkerType slot.type = true) {onFull onMarker : FlushInput}
    (hfull : onFull.Succeeds) (hmarker : onMarker.Succeeds) :
    ∃ v before, Staged { r with writer := v } before ∧
      (∀ dest, ((r.writer.takeSlot slot onFull onMarker).ring dest).stored =
        (v.ring dest).stored ++ storedBy dest ((before ++ [slot]).map Slot.record)) ∧
      (r.writer.takeSlot slot onFull onMarker).batch = [] ∧
      ((batchAppend r.writer.batch slot).isSome = true → before = slots) ∧
      (batchAppend r.writer.batch slot = none → before = []) := by
  obtain ⟨v, before, hbefore, hstage, hroom, hnone⟩ := h.stage hfull slot
  refine ⟨v, before, hbefore, fun dest => ?_, ?_, hroom, hnone⟩
  · rw [Writer.takeSlot, if_pos hslot, hstage]
    exact stored_flush (before ++ [slot]) rfl hmarker dest
  · rw [Writer.takeSlot, if_pos hslot]
    exact batch_flush _ _

theorem inOrder_of_empty {r : LogRun} (h : r.writer.batch = []) :
    InOrder r ↔ ∀ dest, (r.writer.ring dest).stored = r.takenFor dest := by
  refine forall_congr' fun dest => ?_
  rw [Writer.pending_eq [] h]
  simp

/-- After a marker all is in order exactly if no telemetry was staged before it. -/
theorem Staged.marker_iff {r : LogRun} {slots : List Slot} (h : Staged r slots) {slot : Slot}
    (hslot : isMarkerType slot.type = true) {onFull onMarker : FlushInput}
    (hfull : onFull.Succeeds) (hmarker : onMarker.Succeeds) :
    InOrder ⟨r.writer.takeSlot slot onFull onMarker, r.taken ++ [slot]⟩ ↔
      ((batchAppend r.writer.batch slot).isSome = true →
        ∀ staged ∈ batchRecords r.writer.batch, staged.isTelemetryData = false) := by
  obtain ⟨v, before, hbefore, hstored, hempty, hroom, hnone⟩ := h.take_marker hslot hfull hmarker
  have hrecord : slot.record.isTelemetryData = false := by
    rw [BatchRecord.isTelemetryData]
    change (_ && !isMarkerType slot.type) = false
    rw [hslot, Bool.not_true, Bool.and_false]
  have hfor : ∀ dest, [slot.record].filter (BatchRecord.isFor dest) = [slot.record] := by
    intro dest
    refine List.filter_eq_self.mpr fun s hs => ?_
    rw [List.mem_singleton.mp hs, BatchRecord.isFor]
    change (_ || isMarkerType slot.type) = true
    rw [hslot, Bool.or_true]
  rw [inOrder_of_empty hempty]
  have htaken : ∀ dest, LogRun.takenFor ⟨r.writer.takeSlot slot onFull onMarker,
      r.taken ++ [slot]⟩ dest = (v.ring dest).stored ++
        (((before ++ [slot]).map Slot.record).filter (BatchRecord.isFor dest)).map
          BatchRecord.entry := by
    intro dest
    have hold := hbefore.ordered dest
    rw [Writer.pending_eq _ hbefore.batch] at hold
    rw [takenFor_append, List.map_append, List.filter_append, List.map_append,
      ← List.append_assoc, hold]
    rfl
  constructor
  · intro hordered hsome staged hstaged
    have hbeforeSlots := hroom hsome
    rw [hbeforeSlots] at hstored htaken
    rw [h.batch, batchRecords_pack] at hstaged
    have hplain : ∀ r ∈ slots.map Slot.record, isMarkerType r.type = false := by
      intro r hr
      obtain ⟨s, hs, rfl⟩ := List.mem_map.mp hr
      exact h.plain s hs
    have htelemetry := hordered .telemetry
    rw [hstored, htaken] at htelemetry
    have hsame := List.append_cancel_left htelemetry
    have hsingles : ((slots ++ [slot]).map Slot.record).filter
        (fun r => r.isSingle && r.isFor .telemetry) = [slot.record] := by
      have hslots : (slots.map Slot.record).filter
          (fun r => r.isSingle && r.isFor .telemetry) = [] := by
        refine List.filter_eq_nil_iff.mpr fun r hr => ?_
        rw [BatchRecord.isSingle, BatchRecord.isFor, hplain r hr]
        cases r.dest with
        | none => simp
        | some own => cases own <;> simp
      have hown : (slot.record.isSingle && slot.record.isFor .telemetry) = true := by
        rw [BatchRecord.isSingle, BatchRecord.isFor]
        change ((isMarkerType slot.type || _) && (_ || isMarkerType slot.type)) = true
        rw [hslot, Bool.true_or, Bool.or_true, Bool.and_true]
      rw [List.map_append, List.filter_append, hslots, List.nil_append]
      exact List.filter_cons_of_pos hown
    -- the marker is the first that the flush stores, so nothing may have been staged before it
    have hall : ((slots ++ [slot]).map Slot.record).filter (BatchRecord.isFor .telemetry) =
        (slots.map Slot.record).filter (BatchRecord.isFor .telemetry) ++ [slot.record] := by
      rw [List.map_append, List.filter_append]
      exact congrArg _ (hfor .telemetry)
    rw [storedBy, hsingles, hall] at hsame
    by_contra hdata
    rw [Bool.not_eq_false] at hdata
    have hin : staged ∈ (slots.map Slot.record).filter (BatchRecord.isFor .telemetry) := by
      refine List.mem_filter.mpr ⟨hstaged, ?_⟩
      rw [BatchRecord.isTelemetryData, Bool.and_eq_true] at hdata
      rw [BatchRecord.isFor, hdata.1, Bool.true_or]
    obtain ⟨first, rest, hcons⟩ := List.exists_cons_of_ne_nil (List.ne_nil_of_mem hin)
    rw [hcons] at hsame
    have htype := congrArg LogRecord.type (List.cons.inj hsame).1
    have hfirst : first ∈ slots.map Slot.record :=
      List.mem_of_mem_filter (hcons ▸ List.mem_cons_self)
    have hmarkerType : isMarkerType first.type = true := by
      have heq : slot.type = first.type := htype
      rw [← heq]
      exact hslot
    rw [hplain first hfirst] at hmarkerType
    exact Bool.false_ne_true hmarkerType
  · intro hclean dest
    rw [hstored, htaken, storedBy_ordered (.inr ?_)]
    intro s hs
    rw [List.map_append] at hs
    rcases List.mem_append.mp hs with hs | hs
    · cases happend : batchAppend r.writer.batch slot with
      | none =>
        rw [hnone happend] at hs
        exact absurd hs List.not_mem_nil
      | some batch =>
        have hsome : (batchAppend r.writer.batch slot).isSome = true := by rw [happend]; rfl
        rw [hroom hsome] at hs
        refine hclean hsome s ?_
        rwa [h.batch, batchRecords_pack]
    · rw [List.mem_singleton.mp hs]
      exact hrecord


/-- The flush at the end of a window keeps the order; of an empty buffer it does nothing. -/
theorem Staged.flushDue {r : LogRun} {slots : List Slot} (h : Staged r slots)
    {due : Option FlushInput} (hdue : ∀ i ∈ due, i.Succeeds) :
    ∃ staged, Staged { r with writer := r.writer.flushDue due } staged := by
  cases due with
  | none => exact ⟨slots, h⟩
  | some i => exact ⟨[], h.flush (hdue i rfl)⟩

theorem inOrder_flushDue {r : LogRun} (h : r.writer.batch = []) (due : Option FlushInput) :
    InOrder { r with writer := r.writer.flushDue due } ↔ InOrder r := by
  cases due with
  | none => exact Iff.rfl
  | some i =>
    have hflush : r.writer.flush i = { r.writer with script := i.script } := if_pos h
    change InOrder { r with writer := r.writer.flush i } ↔ _
    rw [hflush]
    refine forall_congr' fun dest => ?_
    cases dest <;> exact Iff.rfl

theorem staged_step {r t : LogRun} {slots : List Slot} {e : WriterEvent} (h : Staged r slots)
    (hstep : soundStep r e = some t) :
    (InOrder t ↔ MarkerFirst r e) ∧ (MarkerFirst r e → ∃ staged, Staged t staged) := by
  unfold soundStep at hstep
  split at hstep
  case isFalse => cases hstep
  case isTrue hsucceeds =>
  cases e with
  | paused =>
    cases hstep
    exact ⟨iff_of_true h.ordered trivial, fun _ => ⟨slots, h⟩⟩
  | wait due =>
    cases hstep
    obtain ⟨staged, hstaged⟩ := h.flushDue hsucceeds
    exact ⟨iff_of_true hstaged.ordered trivial, fun _ => ⟨staged, hstaged⟩⟩
  | drop dest type =>
    cases hstep
    have hcounted : Staged { r with writer := r.writer.countDrop dest type } slots :=
      ⟨h.batch, h.plain, fun d => by
        have hd := h.ordered d
        cases d <;> exact hd⟩
    exact ⟨iff_of_true hcounted.ordered trivial, fun _ => ⟨slots, hcounted⟩⟩
  | take slot onFull onMarker due =>
    cases hstep
    obtain ⟨hfull, hmarker, hdue⟩ := hsucceeds
    cases hslot : isMarkerType slot.type with
    | false =>
      obtain ⟨staged, hstaged⟩ := h.take_plain hslot hfull onMarker
      obtain ⟨staged', hstaged'⟩ := hstaged.flushDue hdue
      refine ⟨iff_of_true hstaged'.ordered fun hm => ?_, fun _ => ⟨staged', hstaged'⟩⟩
      exact absurd (hslot.symm.trans hm) Bool.false_ne_true
    | true =>
      have hiff := h.marker_iff hslot hfull hmarker
      obtain ⟨-, -, -, -, hempty, -⟩ := h.take_marker hslot hfull hmarker
      have hordered : InOrder ⟨(r.writer.takeSlot slot onFull onMarker).flushDue due,
          r.taken ++ [slot]⟩ ↔ MarkerFirst r (.take slot onFull onMarker due) :=
        (inOrder_flushDue (r := ⟨r.writer.takeSlot slot onFull onMarker, r.taken ++ [slot]⟩)
          hempty due).trans (hiff.trans ⟨fun hm _ => hm, fun hm => hm hslot⟩)
      refine ⟨hordered, fun hclean => ?_⟩
      have hstaged : Staged ⟨r.writer.takeSlot slot onFull onMarker, r.taken ++ [slot]⟩ [] :=
        ⟨hempty, fun s hs => absurd hs List.not_mem_nil, hiff.mpr fun hroom => hclean hslot hroom⟩
      exact hstaged.flushDue hdue

/-- In a run whose flash works the rings have all that was taken in its order exactly if every
marker that finds room in the buffer finds no telemetry there. -/
theorem stored_inOrder_iff (es : List WriterEvent) :
    Steps soundStep (fun _ _ t => InOrder t) {} es ↔
      Steps soundStep (fun r e _ => MarkerFirst r e) {} es := by
  have hkeep : ∀ {r e t}, (∃ slots, Staged r slots) → soundStep r e = some t →
      (InOrder t ↔ MarkerFirst r e) ∧ (MarkerFirst r e → ∃ slots, Staged t slots) := by
    rintro r e t ⟨slots, h⟩ hstep
    exact staged_step h hstep
  have hempty : Staged {} [] :=
    ⟨rfl, fun s hs => absurd hs List.not_mem_nil, (inOrder_of_empty rfl).mpr fun dest => by
      cases dest <;> rfl⟩
  exact Steps.iff_of_inv hkeep ⟨[], hempty⟩

/-- The start of a dive. -/
def diveStart : Slot := ⟨.telemetry, flTypeDiveStart, 7, [1, 0, 0, 0, 0, 0], by decide, by decide⟩

/-- The sample from before the dive is stored behind the start of the dive. -/
theorem sample_afterDiveStart :
    ¬ Steps soundStep (fun _ _ t => InOrder t) {}
      [.take sample {} {} none, .take diveStart {} {} none] := by
  intro h
  have hfirst : soundStep {} (.take sample {} {} none) =
      some ⟨{ batch := [sample].flatMap Slot.pack }, [sample]⟩ := rfl
  have hstaged : Staged ⟨{ batch := [sample].flatMap Slot.pack }, [sample]⟩ [sample] := by
    refine ⟨rfl, fun s hs => List.mem_singleton.mp hs ▸ rfl, fun dest => ?_⟩
    rw [Writer.pending_eq [sample] rfl]
    cases dest <;> rfl
  obtain ⟨-, hsecond⟩ := (steps_cons_some hfirst).mp h
  have hmarker : soundStep ⟨{ batch := [sample].flatMap Slot.pack }, [sample]⟩
      (.take diveStart {} {} none) = some _ := if_pos (by decide)
  have hclean := (staged_step hstaged hmarker).1.mp ((steps_cons_some hmarker).mp hsecond).1
  have hmem : sample.record ∈ batchRecords ([sample].flatMap Slot.pack) := by
    rw [batchRecords_pack]
    exact List.mem_singleton.mpr rfl
  exact absurd (hclean rfl rfl sample.record hmem) (by decide)

end DiveCANHead.LogWriter
