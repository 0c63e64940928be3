import Mathlib.Algebra.Order.BigOperators.Group.List
import Mathlib.Data.List.Flatten
import Mathlib.Data.Nat.ModEq
import DiveCANHead.LogClient.Completed
import DiveCANHead.LogWriter.Container
import DiveCANHead.LogWriter.Loss
import DiveCANHead.LogWriter.Order

/-!
# The log from the producers to the parser

The writer puts records into a ring, the head streams a range of its entries, and the parser takes
the stream apart. Whatever the flash answered on the way, the parser finds whole records that were
taken from the queue, the samples in their order and the markers in theirs, none of them twice; what
the flash did not keep is missing, and nothing behind it is.
-/

namespace DiveCANHead.LogWriter

open DiveCANHead.Lib DiveCANHead.FlashLog DiveCANHead.LogDownload DiveCANHead.LogClient

/-! ## Entries that are read back -/

/-- An entry that the parser takes apart and goes on behind. -/
structure Readable (e : LogRecord) : Prop where
  fits : e.Fits
  goesOn : e.type ≠ flTypeEndOfStream
  container : e.type = flTypeBatch → walk e.payload = flatRecords e.payload

theorem walk_readable {entries : List LogRecord} (h : ∀ e ∈ entries, Readable e) :
    walk (entries.flatMap LogRecord.bytes) = entries.flatMap LogRecord.contents := by
  induction entries with
  | nil => exact walk_short (by decide)
  | cons e entries ih =>
    obtain ⟨hfits, hgoesOn, hcontainer⟩ := h e List.mem_cons_self
    rw [List.flatMap_cons, List.flatMap_cons, walk_append hfits hgoesOn,
      ih fun e he => h e (.tail _ he)]
    congr 1
    unfold LogRecord.contents
    split
    · next hbatch => exact hcontainer hbatch
    · rfl

/-- What the writer puts into a ring: a report of drops, a record that it took, or a container of
such records. -/
inductive Written (taken : List Slot) : LogRecord → Prop where
  | drops (count : UInt32) (lastType : UInt8) (now : UInt64) :
      Written taken (Writer.dropMarker count lastType now)
  | single (s : Slot) (hs : s ∈ taken) : Written taken s.record.entry
  | container (subs : List BatchRecord) (firstTs : UInt64)
      (hsubs : ∀ r ∈ subs, ∃ s ∈ taken, s.record = r)
      (hshort : (subs.flatMap fun r => r.entry.bytes).length < 65536) :
      Written taken (Writer.container subs firstTs)

namespace Written

variable {taken more : List Slot} {e : LogRecord}

theorem mono (h : Written taken e) (hsub : taken ⊆ more) : Written more e := by
  cases h with
  | drops count lastType now => exact .drops count lastType now
  | single s hs => exact .single s (hsub hs)
  | container subs firstTs hsubs hshort =>
    refine .container subs firstTs (fun r hr => ?_) hshort
    obtain ⟨s, hs, heq⟩ := hsubs r hr
    exact ⟨s, hsub hs, heq⟩

theorem proper {subs : List BatchRecord} (h : ∀ r ∈ subs, ∃ s ∈ taken, s.record = r) :
    ∀ r ∈ subs, r.Proper := by
  intro r hr
  obtain ⟨s, -, rfl⟩ := h r hr
  exact s.proper

theorem contents_container {subs : List BatchRecord}
    (hsubs : ∀ r ∈ subs, ∃ s ∈ taken, s.record = r) (firstTs : UInt64) :
    (Writer.container subs firstTs).contents = subs.map BatchRecord.entry := by
  have hfits : ∀ e ∈ subs.map BatchRecord.entry, e.Fits := by
    intro e he
    obtain ⟨r, hr, rfl⟩ := List.mem_map.mp he
    exact (proper hsubs r hr).2.2
  have hflat := flatRecords_flatMap hfits
  rwa [List.flatMap_map] at hflat

theorem walk_container {subs : List BatchRecord} (hsubs : ∀ r ∈ subs, ∃ s ∈ taken, s.record = r)
    (hend : ∀ s ∈ taken, s.type ≠ flTypeEndOfStream) (firstTs : UInt64) :
    walk (Writer.container subs firstTs).payload =
      flatRecords (Writer.container subs firstTs).payload := by
  have hpayload : (Writer.container subs firstTs).payload =
      (subs.map BatchRecord.entry).flatMap LogRecord.bytes := by
    rw [List.flatMap_map]
    rfl
  have hfits : ∀ e ∈ subs.map BatchRecord.entry, e.Fits := by
    intro e he
    obtain ⟨r, hr, rfl⟩ := List.mem_map.mp he
    exact (proper hsubs r hr).2.2
  have htype : ∀ e ∈ subs.map BatchRecord.entry,
      e.type ≠ flTypeEndOfStream ∧ e.type ≠ flTypeBatch := by
    intro e he
    obtain ⟨r, hr, rfl⟩ := List.mem_map.mp he
    obtain ⟨s, hs, rfl⟩ := hsubs r hr
    exact ⟨hend s hs, s.notBatch⟩
  rw [hpayload, walk_flatMap hfits htype, flatRecords_flatMap hfits]

theorem readable (h : Written taken e) (hend : ∀ s ∈ taken, s.type ≠ flTypeEndOfStream) :
    Readable e := by
  cases h with
  | drops count lastType now =>
    have hgoesOn : flTypeDropMarker ≠ flTypeEndOfStream := by decide
    exact ⟨show 5 < 65536 by decide, hgoesOn, nofun⟩
  | single s hs => exact ⟨s.proper.2.2, hend s hs, fun hbatch => absurd hbatch s.notBatch⟩
  | container subs firstTs hsubs hshort =>
    exact ⟨hshort, show flTypeBatch ≠ flTypeEndOfStream by decide,
      fun _ => walk_container hsubs hend firstTs⟩

/-- The records in an entry are the report of its drops, or have been taken. -/
theorem contents (h : Written taken e) :
    ∀ c ∈ e.contents, isDropMarker c = true ∨ ∃ s ∈ taken, c = s.record.entry := by
  intro c hc
  cases h with
  | drops count lastType now =>
    obtain rfl := List.mem_singleton.mp hc
    exact .inl rfl
  | single s hs =>
    rw [LogRecord.contents, if_neg (show s.record.entry.type ≠ flTypeBatch from s.notBatch)] at hc
    exact .inr ⟨s, hs, List.mem_singleton.mp hc⟩
  | container subs firstTs hsubs hshort =>
    rw [contents_container hsubs] at hc
    obtain ⟨r, hr, rfl⟩ := List.mem_map.mp hc
    obtain ⟨s, hs, rfl⟩ := hsubs r hr
    exact .inr ⟨s, hs, rfl⟩

theorem reportedIn_contents (h : Written taken e) : reportedIn e.contents = reportedIn [e] := by
  cases h with
  | drops count lastType now => rfl
  | single s hs => rw [LogRecord.contents, if_neg (show s.record.entry.type ≠ _ from s.notBatch)]
  | container subs firstTs hsubs hshort =>
    rw [contents_container hsubs, reportedIn_of_flags]
    · rfl
    · intro c hc
      obtain ⟨r, -, rfl⟩ := List.mem_map.mp hc
      rfl

end Written

theorem reportedIn_flatMap_contents {taken : List Slot} {entries : List LogRecord}
    (h : ∀ e ∈ entries, Written taken e) :
    reportedIn (entries.flatMap LogRecord.contents) = reportedIn entries := by
  induction entries with
  | nil => rfl
  | cons e entries ih =>
    rw [List.flatMap_cons, reportedIn_append, reportedIn_cons,
      (h e List.mem_cons_self).reportedIn_contents, ih fun e he => h e (.tail _ he)]

/-- Every write of a flush is of what was staged. -/
theorem written_planned {w : Writer} {slots : List Slot}
    (hbatch : w.batch = slots.flatMap Slot.pack) (hroom : w.batch.length ≤ batchBufBytes)
    (now : FlashLogDest → UInt64) : ∀ p ∈ w.planned now, Written slots p.entry := by
  have hrecords : batchRecords w.batch = slots.map Slot.record := hbatch ▸ batchRecords_pack slots
  have hdrop : ∀ dest, ∀ p ∈ w.dropPlan dest (now dest), Written slots p.entry := by
    intro dest p hp
    unfold Writer.dropPlan at hp
    split at hp
    · exact absurd hp List.not_mem_nil
    · rw [List.mem_singleton.mp hp]
      exact .drops _ _ _
  intro p hp
  unfold Writer.planned at hp
  split at hp
  · exact absurd hp List.not_mem_nil
  rw [hrecords] at hp
  simp only [Writer.flushPlan, List.mem_append, List.mem_flatMap, List.mem_filter] at hp
  rcases hp with ((hp | hp) | ⟨r, ⟨hr, -⟩, hp⟩) | hp
  · exact hdrop .telemetry p hp
  · exact hdrop .text p hp
  · obtain ⟨s, hs, rfl⟩ := List.mem_map.mp hr
    rw [entry_of_mem_singlePlan hp]
    exact .single s hs
  · have hshort : (subrecordBytes (slots.map Slot.record)).length < 65536 := by
      have hle := length_subrecordBytes_le slots
      rw [← hbatch] at hle
      exact Nat.lt_of_le_of_lt (hle.trans hroom) (by decide)
    have hsubs : ∀ r ∈ (slots.map Slot.record).filter BatchRecord.isTelemetryData,
        ∃ s ∈ slots, s.record = r := fun r hr =>
      List.mem_map.mp (List.mem_of_mem_filter hr)
    unfold subrecordBytes at hshort
    cases hselected : (slots.map Slot.record).filter BatchRecord.isTelemetryData with
    | nil => exact absurd (hselected ▸ hp) List.not_mem_nil
    | cons first rest =>
      rw [hselected] at hp hshort hsubs
      rw [List.mem_singleton.mp hp]
      exact .container _ _ hsubs hshort

/-! ## Markers and the other records -/

/-- The markers of a list, or the records besides. -/
def ofKind (marker : Bool) (es : List LogRecord) : List LogRecord :=
  es.filter fun e => isMarkerType e.type == marker

theorem ofKind_append (marker : Bool) (es es' : List LogRecord) :
    ofKind marker (es ++ es') = ofKind marker es ++ ofKind marker es' := List.filter_append ..

theorem ofKind_sublist {es es' : List LogRecord} (h : es.Sublist es') (marker : Bool) :
    (ofKind marker es).Sublist (ofKind marker es') := h.filter _

/-- Each kind by itself is stored in the order in which it was staged. -/
theorem ofKind_storedBy {records : List BatchRecord}
    (hown : ∀ r ∈ records, ∃ dest, r.dest = some dest) (marker : Bool) (dest : FlashLogDest) :
    ofKind marker (storedBy dest records) =
      ofKind marker ((records.filter (BatchRecord.isFor dest)).map BatchRecord.entry) := by
  have hkind : ∀ rs : List BatchRecord, ofKind marker (rs.map BatchRecord.entry) =
      (rs.filter fun r => isMarkerType r.type == marker).map BatchRecord.entry := fun rs =>
    List.filter_map
  rw [storedBy, hkind, hkind, List.filter_append, List.filter_filter, List.filter_filter]
  congr 1
  cases marker with
  | true =>
    -- only the first pass writes markers
    have hdata : (if dest = .telemetry then records.filter BatchRecord.isTelemetryData
        else []).filter (fun r => isMarkerType r.type == true) = [] := by
      refine List.filter_eq_nil_iff.mpr fun r hr => ?_
      split at hr
      · have hr := (List.mem_filter.mp hr).2
        rw [BatchRecord.isTelemetryData, Bool.and_eq_true, Bool.not_eq_true'] at hr
        rw [hr.2]
        decide
      · exact absurd hr List.not_mem_nil
    rw [hdata, List.append_nil]
    refine List.filter_congr fun r _ => ?_
    rw [BatchRecord.isSingle, BatchRecord.isFor]
    cases isMarkerType r.type <;> simp
  | false =>
    cases dest with
    | text =>
      rw [if_neg (by decide), List.filter_nil, List.append_nil]
      refine List.filter_congr fun r _ => ?_
      rw [BatchRecord.isSingle, BatchRecord.isFor]
      cases isMarkerType r.type <;> simp
    | telemetry =>
      have hsingles : (records.filter fun r =>
          (isMarkerType r.type == false) && (r.isSingle && r.isFor .telemetry)) = [] := by
        refine List.filter_eq_nil_iff.mpr fun r hr => ?_
        obtain ⟨own, hown⟩ := hown r hr
        rw [BatchRecord.isSingle, BatchRecord.isFor, hown]
        cases own <;> cases isMarkerType r.type <;> decide
      rw [hsingles, List.nil_append, if_pos rfl, List.filter_filter]
      refine List.filter_congr fun r hr => ?_
      obtain ⟨own, hown⟩ := hown r hr
      rw [BatchRecord.isTelemetryData, BatchRecord.isFor, hown]
      cases own <;> cases isMarkerType r.type <;> rfl

/-! ## Runs -/

section

variable {r : LogRun} {slots : List Slot} {sound : Prop}

/-- A flush stores part of what was staged, and all of it when nothing fails. -/
theorem stored_flush_part (w : Writer) (hbatch : w.batch = slots.flatMap Slot.pack)
    (i : FlushInput) (dest : FlashLogDest) :
    ∃ kept, ((w.flush i).ring dest).stored = (w.ring dest).stored ++ kept ∧
      kept.Sublist (storedBy dest (slots.map Slot.record)) ∧
      (i.Succeeds → kept = storedBy dest (slots.map Slot.record)) := by
  have hring : (({ w with script := i.script } : Writer).ring dest) = w.ring dest := by
    cases dest <;> rfl
  have hplanned := Writer.storedOf_planned (w := { w with script := i.script }) hbatch i.now dest
  refine ⟨storedOf (((landed (({ w with script := i.script } : Writer).planned i.now)
    i.script).filter fun p => p.dest = dest).map PlannedWrite.entry), ?_, ?_, fun hi => ?_⟩
  · rw [Writer.flush, Ring.stored_eq, Writer.entries_batchFlush, storedOf_append, hring]
    rfl
  · rw [← hplanned]
    exact (((landed_sublist _ _).filter _).map _).flatMap _ |>.filter _
  · rw [← hplanned, landed_of_landsAll (landsAll_of_succeeds hi _)]

/-- The staged slots have been taken and fit the buffer, the rings hold what was taken, and of each
kind a ring and the buffer have no record out of order or twice; if nothing failed, they have all.
-/
structure Held (sound : Prop) (r : LogRun) (slots : List Slot) : Prop where
  batch : r.writer.batch = slots.flatMap Slot.pack
  room : r.writer.batch.length ≤ batchBufBytes
  staged : slots ⊆ r.taken
  written : ∀ dest, ∀ e ∈ (r.writer.ring dest).entries, Written r.taken e
  ordered : ∀ marker dest, (ofKind marker ((r.writer.ring dest).stored ++
    r.writer.pending dest)).Sublist (ofKind marker (r.takenFor dest))
  complete : sound → ∀ marker dest, ofKind marker ((r.writer.ring dest).stored ++
    r.writer.pending dest) = ofKind marker (r.takenFor dest)

namespace Held

theorem empty : Held sound {} [] where
  batch := rfl
  room := Nat.zero_le _
  staged := List.nil_subset _
  written := fun dest e he => by cases dest <;> exact absurd he List.not_mem_nil
  ordered := fun marker dest => by
    rw [Writer.pending_of_empty rfl]
    cases dest <;> exact .slnil
  complete := fun _ marker dest => by
    rw [Writer.pending_of_empty rfl]
    cases dest <;> rfl

theorem flush (h : Held sound r slots) {i : FlushInput} (hi : sound → i.Succeeds) :
    Held sound { r with writer := r.writer.flush i } [] := by
  have hown : ∀ b ∈ slots.map Slot.record, ∃ dest, b.dest = some dest := by
    intro b hb
    obtain ⟨s, -, rfl⟩ := List.mem_map.mp hb
    exact ⟨s.dest, rfl⟩
  have hempty := batch_flush r.writer i
  have hpending : ∀ marker dest, ofKind marker (storedBy dest (slots.map Slot.record)) =
      ofKind marker (r.writer.pending dest) := by
    intro marker dest
    rw [Writer.pending_eq _ h.batch, ofKind_storedBy hown]
  refine ⟨hempty, ?_, List.nil_subset _, fun dest e he => ?_, fun marker dest => ?_,
    fun hsound marker dest => ?_⟩
  · show (r.writer.flush i).batch.length ≤ _
    rw [hempty]
    exact Nat.zero_le _
  · have hentries : ((r.writer.flush i).ring dest).entries = _ :=
      Writer.entries_batchFlush (w := { r.writer with script := i.script }) i.now dest
    have he : e ∈ ((r.writer.flush i).ring dest).entries := he
    rw [hentries] at he
    rcases List.mem_append.mp he with he | he
    · refine h.written dest e ?_
      cases dest <;> exact he
    · obtain ⟨p, hp, rfl⟩ := List.mem_map.mp he
      have hplanned := (landed_sublist _ _).subset (List.mem_of_mem_filter hp)
      exact (written_planned (w := { r.writer with script := i.script }) h.batch h.room i.now p
        hplanned).mono h.staged
  · obtain ⟨kept, hstored, hkept, -⟩ := stored_flush_part r.writer h.batch i dest
    have hbefore := h.ordered marker dest
    rw [ofKind_append, ← hpending] at hbefore
    show (ofKind marker (((r.writer.flush i).ring dest).stored ++
      (r.writer.flush i).pending dest)).Sublist _
    rw [Writer.pending_of_empty hempty, List.append_nil, hstored, ofKind_append]
    exact ((ofKind_sublist hkept marker).append_left _).trans hbefore
  · obtain ⟨kept, hstored, -, hall⟩ := stored_flush_part r.writer h.batch i dest
    have hbefore := h.complete hsound marker dest
    rw [ofKind_append, ← hpending] at hbefore
    show ofKind marker (((r.writer.flush i).ring dest).stored ++
      (r.writer.flush i).pending dest) = _
    rw [Writer.pending_of_empty hempty, List.append_nil, hstored, ofKind_append, hall (hi hsound),
      hbefore]
    rfl

/-- A slot is staged behind the others. -/
theorem push (h : Held sound r slots) (slot : Slot)
    (hroom : r.writer.batch.length + (batchHdrBytes + slot.payload.length) ≤ batchBufBytes) :
    Held sound ⟨{ r.writer with batch := r.writer.batch ++ slot.pack }, r.taken ++ [slot]⟩
      (slots ++ [slot]) := by
  have hjoin : r.writer.batch ++ slot.pack = (slots ++ [slot]).flatMap Slot.pack := by
    rw [List.flatMap_append, List.flatMap_singleton, h.batch]
  have hpending : ∀ dest, ({ r.writer with batch := r.writer.batch ++ slot.pack } :
      Writer).pending dest = r.writer.pending dest ++
        (([slot.record].filter (BatchRecord.isFor dest)).map BatchRecord.entry) := by
    intro dest
    rw [Writer.pending_eq (slots ++ [slot]) hjoin, Writer.pending_eq slots h.batch, List.map_append,
      List.filter_append, List.map_append]
    rfl
  have hring : ∀ dest, ({ r.writer with batch := r.writer.batch ++ slot.pack } :
      Writer).ring dest = r.writer.ring dest := fun dest => by cases dest <;> rfl
  have hhand : ∀ marker dest, ofKind marker ((r.writer.ring dest).stored ++
      (r.writer.pending dest ++
        ([slot.record].filter (BatchRecord.isFor dest)).map BatchRecord.entry)) =
          ofKind marker ((r.writer.ring dest).stored ++ r.writer.pending dest) ++
            ofKind marker (([slot.record].filter (BatchRecord.isFor dest)).map
              BatchRecord.entry) := by
    intro marker dest
    rw [← List.append_assoc, ofKind_append]
  have htaken : ∀ marker dest, ofKind marker (LogRun.takenFor
      ⟨{ r.writer with batch := r.writer.batch ++ slot.pack }, r.taken ++ [slot]⟩ dest) =
        ofKind marker (r.takenFor dest) ++
          ofKind marker (([slot.record].filter (BatchRecord.isFor dest)).map
            BatchRecord.entry) := by
    intro marker dest
    rw [takenFor_append, ofKind_append]
    rfl
  refine ⟨hjoin, ?_, ?_, fun dest e he => ?_, fun marker dest => ?_, fun hsound marker dest => ?_⟩
  · show (r.writer.batch ++ slot.pack).length ≤ _
    rw [List.length_append, slot.length_pack]
    exact hroom
  · exact List.append_subset.mpr ⟨List.subset_append_of_subset_left _ h.staged,
      List.subset_append_right _ _⟩
  · have he : e ∈ (r.writer.ring dest).entries := hring dest ▸ he
    exact (h.written dest e he).mono (List.subset_append_left _ _)
  · rw [hpending, hring, hhand, htaken]
    exact (h.ordered marker dest).append_right _
  · rw [hpending, hring, hhand, htaken, h.complete hsound marker dest]

/-- A slot is staged, after a flush when the buffer is full. -/
theorem stage (h : Held sound r slots) (slot : Slot) {onFull : FlushInput}
    (hfull : sound → onFull.Succeeds) :
    ∃ staged, Held sound ⟨r.writer.stage slot onFull, r.taken ++ [slot]⟩ staged := by
  unfold Writer.stage batchAppend
  split
  · next batch happend =>
    split at happend
    · next hroom =>
      obtain rfl := Option.some.inj happend
      exact ⟨_, h.push slot hroom⟩
    · cases happend
  · have hempty := batch_flush r.writer onFull
    have hroom : (r.writer.flush onFull).batch.length + (batchHdrBytes + slot.payload.length) ≤
        batchBufBytes := by
      rw [hempty, List.length_nil, Nat.zero_add]
      exact (Nat.add_le_add_left slot.fits _).trans (by decide)
    dsimp only
    rw [if_pos hroom, Option.getD_some]
    exact ⟨_, (h.flush hfull).push slot hroom⟩

theorem flushDue (h : Held sound r slots) {due : Option FlushInput}
    (hdue : sound → ∀ i ∈ due, i.Succeeds) :
    ∃ staged, Held sound { r with writer := r.writer.flushDue due } staged := by
  cases due with
  | none => exact ⟨slots, h⟩
  | some i => exact ⟨[], h.flush fun hsound => hdue hsound i rfl⟩

/-- One turn of the thread. -/
theorem step (h : Held sound r slots) {e : WriterEvent} (he : sound → e.Succeeds) {t : LogRun}
    (hstep : logStep r e = some t) : ∃ staged, Held sound t staged := by
  cases e with
  | paused => exact ⟨slots, Option.some.inj hstep ▸ h⟩
  | wait due =>
    obtain rfl := Option.some.inj hstep
    exact h.flushDue he
  | drop dest type =>
    obtain rfl := Option.some.inj hstep
    refine ⟨slots, h.batch, h.room, h.staged, fun d => ?_, fun marker d => ?_,
      fun hsound marker d => ?_⟩
    · have hd := h.written d
      cases d <;> exact hd
    · have hd := h.ordered marker d
      cases d <;> exact hd
    · have hd := h.complete hsound marker d
      cases d <;> exact hd
  | take slot onFull onMarker due =>
    obtain rfl := Option.some.inj hstep
    obtain ⟨staged, hstaged⟩ := h.stage slot fun hsound => (he hsound).1
    have hdue : sound → ∀ i ∈ due, i.Succeeds := fun hsound => (he hsound).2.2
    unfold Writer.takeSlot
    split
    · exact (hstaged.flush fun hsound => (he hsound).2.1).flushDue hdue
    · exact hstaged.flushDue hdue

end Held

/-! ## Counted drops -/

/-- The drops of an event for a ring. -/
def WriterEvent.dropsFor (dest : FlashLogDest) : WriterEvent → ℕ
  | .drop d _ => if d = dest then 1 else 0
  | .paused | .take .. | .wait _ => 0

/-- The drops of a run for a ring. -/
def dropsOf (dest : FlashLogDest) (es : List WriterEvent) : ℕ :=
  (es.map (WriterEvent.dropsFor dest)).sum

/-- The drops that are reported in a ring, and those that are counted and not yet reported. -/
def Writer.balance (w : Writer) (dest : FlashLogDest) : ℕ :=
  (w.ring dest).reported + (w.drops dest).toNat

theorem reportedIn_sublist {es es' : List LogRecord} (h : es.Sublist es') :
    reportedIn es ≤ reportedIn es' :=
  ((h.filter _).map _).sum_le_sum fun _ _ => Nat.zero_le _

/-- A flush reports what is counted, unless the report is lost. -/
theorem balance_flush (w : Writer) (i : FlushInput) (dest : FlashLogDest) :
    (w.flush i).balance dest ≤ w.balance dest ∧
      (i.Succeeds → (w.flush i).balance dest = w.balance dest) := by
  by_cases hempty : w.batch = []
  · have hflush : w.flush i = { w with script := i.script } := if_pos hempty
    have hsame : (w.flush i).balance dest = w.balance dest := by
      rw [hflush]
      cases dest <;> rfl
    exact ⟨hsame.le, fun _ => hsame⟩
  have hring : (({ w with script := i.script } : Writer).ring dest).reported =
      (w.ring dest).reported := by
    cases dest <;> rfl
  have hplanned := reportedIn_planned (w := { w with script := i.script }) hempty i.now dest
  have hreported := reported_batchFlush { w with script := i.script } i.now dest
  have hdrops : (w.flush i).drops dest = 0 :=
    drops_batchFlush (w := { w with script := i.script }) hempty i.now dest
  have hbalance : (w.flush i).balance dest = (w.ring dest).reported +
      reportedIn (((landed (({ w with script := i.script } : Writer).planned i.now)
        i.script).filter fun p => p.dest = dest).map PlannedWrite.entry) := by
    rw [hring] at hreported
    rw [Writer.balance, hdrops, UInt32.toNat_zero, Nat.add_zero]
    exact hreported
  refine ⟨?_, fun hi => ?_⟩
  · rw [hbalance, Writer.balance]
    apply Nat.add_le_add_left
    exact (reportedIn_sublist (((landed_sublist _ _).filter _).map _)).trans hplanned.le
  · rw [hbalance, Writer.balance, landed_of_landsAll (landsAll_of_succeeds hi _), hplanned]

theorem balance_stage (w : Writer) (slot : Slot) (onFull : FlushInput) (dest : FlashLogDest) :
    (w.stage slot onFull).balance dest ≤ w.balance dest ∧
      (onFull.Succeeds → (w.stage slot onFull).balance dest = w.balance dest) := by
  have hbatch : ∀ (v : Writer) (batch : List UInt8),
      ({ v with batch } : Writer).balance dest = v.balance dest := fun v batch => by
    cases dest <;> rfl
  unfold Writer.stage
  split
  · exact ⟨(hbatch w _).le, fun _ => hbatch w _⟩
  · dsimp only
    rw [hbatch]
    exact balance_flush w onFull dest

theorem balance_flushDue (w : Writer) (due : Option FlushInput) (dest : FlashLogDest) :
    (w.flushDue due).balance dest ≤ w.balance dest ∧
      ((∀ i ∈ due, i.Succeeds) → (w.flushDue due).balance dest = w.balance dest) := by
  cases due with
  | none => exact ⟨le_rfl, fun _ => rfl⟩
  | some i =>
    obtain ⟨hle, heq⟩ := balance_flush w i dest
    exact ⟨hle, fun hdue => heq (hdue i rfl)⟩

theorem balance_takeSlot (w : Writer) (slot : Slot) (onFull onMarker : FlushInput)
    (dest : FlashLogDest) :
    (w.takeSlot slot onFull onMarker).balance dest ≤ w.balance dest ∧
      (onFull.Succeeds → onMarker.Succeeds →
        (w.takeSlot slot onFull onMarker).balance dest = w.balance dest) := by
  obtain ⟨hle, heq⟩ := balance_stage w slot onFull dest
  unfold Writer.takeSlot
  split
  · obtain ⟨hle', heq'⟩ := balance_flush (w.stage slot onFull) onMarker dest
    exact ⟨hle'.trans hle, fun hfull hmarker => (heq' hmarker).trans (heq hfull)⟩
  · exact ⟨hle, fun hfull _ => heq hfull⟩

/-- A turn adds the slot that it drops; the counter has 32 bits. -/
theorem balance_step {t : LogRun} {e : WriterEvent} (hstep : logStep r e = some t)
    (dest : FlashLogDest) :
    t.writer.balance dest ≤ r.writer.balance dest + e.dropsFor dest ∧
      (e.Succeeds → t.writer.balance dest ≡ r.writer.balance dest + e.dropsFor dest
        [MOD UInt32.size]) := by
  cases e with
  | paused =>
    obtain rfl := Option.some.inj hstep
    exact ⟨le_rfl, fun _ => rfl⟩
  | wait due =>
    obtain rfl := Option.some.inj hstep
    obtain ⟨hle, heq⟩ := balance_flushDue r.writer due dest
    exact ⟨hle, fun he => congrArg (· % UInt32.size) (heq he)⟩
  | take slot onFull onMarker due =>
    obtain rfl := Option.some.inj hstep
    obtain ⟨hle, heq⟩ := balance_takeSlot r.writer slot onFull onMarker dest
    obtain ⟨hle', heq'⟩ := balance_flushDue (r.writer.takeSlot slot onFull onMarker) due dest
    refine ⟨hle'.trans hle, fun he => congrArg (· % UInt32.size) ?_⟩
    exact (heq' he.2.2).trans (heq he.1 he.2.1)
  | drop d type =>
    obtain rfl := Option.some.inj hstep
    have hring : (r.writer.countDrop d type).ring dest = r.writer.ring dest := by
      cases dest <;> rfl
    show (r.writer.countDrop d type).balance dest ≤ _ ∧ (_ → (r.writer.countDrop d type).balance
      dest ≡ _ [MOD UInt32.size])
    rw [Writer.balance, hring, WriterEvent.dropsFor]
    by_cases hd : d = dest
    · subst hd
      have hcount : (r.writer.countDrop d type).drops d = r.writer.drops d + 1 :=
        Function.update_self ..
      rw [hcount, if_pos rfl, Writer.balance, UInt32.toNat_add, Nat.add_assoc]
      refine ⟨Nat.add_le_add_left (Nat.mod_le _ _) _, fun _ => ?_⟩
      exact Nat.ModEq.add_left _ (Nat.mod_modEq _ _)
    · have hcount : (r.writer.countDrop d type).drops dest = r.writer.drops dest :=
        Function.update_of_ne (Ne.symm hd) ..
      rw [hcount, if_neg hd]
      exact ⟨le_rfl, fun _ => rfl⟩

/-- No run reports more than was dropped, and one in which nothing fails reports all of it up to
what is still counted. -/
theorem balance_exec {t : LogRun} {es : List WriterEvent} (hrun : exec logStep r es = some t)
    (dest : FlashLogDest) :
    t.writer.balance dest ≤ r.writer.balance dest + dropsOf dest es ∧
      ((∀ e ∈ es, e.Succeeds) → t.writer.balance dest ≡ r.writer.balance dest + dropsOf dest es
        [MOD UInt32.size]) := by
  induction es generalizing r with
  | nil =>
    obtain rfl := Option.some.inj hrun
    exact ⟨le_rfl, fun _ => rfl⟩
  | cons e es ih =>
    obtain ⟨u, hu, hrest⟩ := Option.bind_eq_some_iff.mp hrun
    obtain ⟨hle, heq⟩ := balance_step hu dest
    obtain ⟨hle', heq'⟩ := ih hrest
    have hsum : dropsOf dest (e :: es) = e.dropsFor dest + dropsOf dest es := List.sum_cons
    rw [hsum, ← Nat.add_assoc]
    refine ⟨hle'.trans (Nat.add_le_add_right hle _), fun hall => ?_⟩
    exact (heq' fun e he => hall e (.tail _ he)).trans
      ((heq (hall e List.mem_cons_self)).add_right _)

end

/-! ## What the client has -/

/-- However the flash answered, a stream of entries of a ring is taken apart into whole records:
reports of drops, which together claim no more than was dropped, and records that were taken for the
ring, the markers in their order and the others in theirs, none of them twice. If nothing failed and
the stream is of the whole ring, all that was taken is there but for what is still staged, and all
that was dropped is reported but for what is still counted. -/
theorem log_readsBack {es : List WriterEvent} {r : LogRun} (hrun : exec logStep {} es = some r)
    (hend : ∀ s ∈ r.taken, s.type ≠ flTypeEndOfStream) {log : FlashLogDest → Fcb}
    {range : LogRange} {read : List LogRecord}
    (hread : read <:+: (r.writer.ring range.dest).entries)
    (hlog : (rangeEntries (log range.dest) range.range).map Entry.data =
      read.map LogRecord.bytes) :
    let parsed := parseLogStream (selectedStream log range)
    let records := parsed.filter fun e => e.flags = 0
    parsed = read.flatMap LogRecord.contents ∧
      (∀ e ∈ parsed, isDropMarker e = true ∨ e.flags = 0 ∧ e ∈ r.takenFor range.dest) ∧
      (∀ marker, (ofKind marker records).Sublist (ofKind marker (r.takenFor range.dest))) ∧
      reportedIn parsed ≤ dropsOf range.dest es ∧
      ((∀ e ∈ es, e.Succeeds) → read = (r.writer.ring range.dest).entries →
        (∀ marker, ofKind marker (records ++ r.writer.pending range.dest) =
          ofKind marker (r.takenFor range.dest)) ∧
        (dropsOf range.dest es < UInt32.size →
          reportedIn parsed + (r.writer.drops range.dest).toNat = dropsOf range.dest es)) := by
  intro parsed records
  have hkeep : ∀ {r : LogRun} {e t}, (∃ slots, Held (∀ e ∈ es, e.Succeeds) r slots) →
      ((∀ e ∈ es, e.Succeeds) → e.Succeeds) → logStep r e = some t →
      ∃ slots, Held (∀ e ∈ es, e.Succeeds) t slots := by
    rintro r e t ⟨slots, h⟩ he hstep
    exact h.step he hstep
  have hclean : Steps logStep (fun _ e _ => (∀ e ∈ es, e.Succeeds) → e.Succeeds) {} es :=
    Steps.of_mem fun e he hall => hall e he
  obtain ⟨slots, hheld⟩ := Steps.inv_exec hkeep ⟨[], Held.empty⟩ hclean hrun
  have hwritten : ∀ e ∈ read, Written r.taken e := fun e he =>
    hheld.written range.dest e (hread.sublist.subset he)
  have hparsed : parsed = read.flatMap LogRecord.contents := by
    have hbytes : (rangeEntries (log range.dest) range.range).flatMap Entry.data =
        read.flatMap LogRecord.bytes := by
      rw [List.flatMap_def, hlog, ← List.flatMap_def]
    show parseLogStream (selectedStream log range) = _
    rw [parseLogStream_selectedStream, hbytes,
      walk_readable fun e he => (hwritten e he).readable hend]
  have hrecords : records = storedOf read := congrArg (List.filter _) hparsed
  have hreported : reportedIn parsed = reportedIn read := by
    rw [hparsed, reportedIn_flatMap_contents hwritten]
  have hsublist : ∀ marker, (ofKind marker records).Sublist
      (ofKind marker (r.takenFor range.dest)) := by
    intro marker
    have hstored : records.Sublist (r.writer.ring range.dest).stored := by
      rw [hrecords]
      exact (hread.sublist.flatMap _).filter _
    have hall := hheld.ordered marker range.dest
    exact (ofKind_sublist (hstored.trans (List.sublist_append_left _ _)) marker).trans hall
  obtain ⟨hle, hmod⟩ := balance_exec hrun range.dest
  have hstart : ({} : LogRun).writer.balance range.dest = 0 := by
    cases range.dest <;> rfl
  rw [hstart, Nat.zero_add] at hle hmod
  refine ⟨hparsed, fun e he => ?_, hsublist, ?_, fun hall hwhole => ⟨fun marker => ?_, ?_⟩⟩
  · rw [hparsed] at he
    obtain ⟨entry, hentry, hin⟩ := List.mem_flatMap.mp he
    rcases (hwritten entry hentry).contents e hin with hdrop | ⟨s, -, rfl⟩
    · exact .inl hdrop
    · have hmem : s.record.entry ∈ records := by
        refine List.mem_filter.mpr ⟨?_, rfl⟩
        rw [hparsed]
        exact he
      have hkind : s.record.entry ∈ ofKind (isMarkerType s.type) records :=
        List.mem_filter.mpr ⟨hmem, beq_self_eq_true _⟩
      exact .inr ⟨rfl, List.mem_of_mem_filter ((hsublist _).subset hkind)⟩
  · rw [hreported]
    refine (reportedIn_sublist hread.sublist).trans ?_
    exact (Nat.le_add_right _ _).trans hle
  · have hcomplete := hheld.complete hall marker range.dest
    rwa [Ring.stored_eq, ← hwhole, ← hrecords] at hcomplete
  · intro hfew
    have hbalance : (r.writer.ring range.dest).reported + (r.writer.drops range.dest).toNat =
        dropsOf range.dest es :=
      Nat.ModEq.eq_of_lt_of_lt (hmod hall) (hle.trans_lt hfew) hfew
    rw [hreported, hwhole]
    exact hbalance

/-- A sample is dropped, another one is taken, and the window is over. -/
def oneFlush : List WriterEvent := [.drop .telemetry 0x10, .take sample {} {} (some {})]

/-- The writer after that. -/
def flushedRun : LogRun :=
  ⟨((({} : Writer).countDrop .telemetry 0x10).takeSlot sample {} {}).flushDue (some {}), [sample]⟩

/-- What it has written. -/
def flushedEntries : List LogRecord :=
  [Writer.dropMarker 1 0x10 0, Writer.container [sample.record] 5]

theorem entries_flushedRun : (flushedRun.writer.ring .telemetry).entries = flushedEntries := by
  have hrecords : batchRecords sample.pack = [sample.record] := by
    have hpack := batchRecords_pack [sample]
    rwa [List.flatMap_singleton] at hpack
  let before : Writer := { ({} : Writer).countDrop .telemetry 0x10 with batch := sample.pack }
  have hplanned : before.planned (fun _ => 0) = before.flushPlan (fun _ => 0) [sample.record] := by
    rw [Writer.planned, if_neg (by decide)]
    exact congrArg (before.flushPlan fun _ => 0) hrecords
  have hentries := Writer.entries_batchFlush (w := before) (fun _ => 0) .telemetry
  rw [hplanned] at hentries
  exact hentries

/-- A telemetry ring with these entries. -/
def flushedLog (_ : FlashLogDest) : Fcb where
  sectors := [[⟨(Writer.dropMarker 1 0x10 0).bytes, by decide⟩,
    ⟨(Writer.container [sample.record] 5).bytes, by decide⟩]]
  oldest := 0
  active := 0
  oldest_lt := Nat.zero_lt_one
  active_lt := Nat.zero_lt_one
  unused i hi hout := by
    obtain rfl : i = 0 := Nat.lt_one_iff.mp hi
    exact absurd (show 0 ∈ ringSlots 1 0 0 by decide) hout

theorem log_readsBack_oneFlush :
    parseLogStream (selectedStream flushedLog ⟨.telemetry, resolveAll⟩) =
      flushedEntries.flatMap LogRecord.contents := by
  have hread : flushedEntries <:+: (flushedRun.writer.ring .telemetry).entries :=
    entries_flushedRun ▸ List.infix_rfl
  exact (@log_readsBack oneFlush flushedRun rfl (by decide) flushedLog ⟨.telemetry, resolveAll⟩
    flushedEntries hread rfl).1

end DiveCANHead.LogWriter
