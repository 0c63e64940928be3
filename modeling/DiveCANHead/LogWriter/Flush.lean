import DiveCANHead.LogWriter.Batch

/-!
# Flushing the staging buffer (`flash_log.c`)

A flush writes the drop counts, then markers and texts one entry each, then all telemetry as
one container. An entry is in its ring once it is finished; what the flash answers on the way
is a script, one outcome for each entry.
-/

namespace DiveCANHead.LogWriter

open DiveCANHead.Lib DiveCANHead.FlashLog DiveCANHead.LogDownload

/-! ## Writing an entry -/

/-- `-ENOSPC`. -/
def enospc : ℤ := -28

/-- What the flash answers while one entry is written: `rotated` counts the entries of the
sector that a rotation erases, and `writes` are the results of the single writes. -/
structure WriteOutcome where
  acquire : ℤ := 0
  append : ℤ := 0
  rotate : ℤ := 0
  rotated : ℕ := 0
  appendAgain : ℤ := 0
  writes : List ℤ := []
  finish : ℤ := 0
  deriving DecidableEq

/-- A ring: all entries that were finished, of which the oldest are erased by now. -/
structure Ring where
  entries : List LogRecord := []
  erased : ℕ := 0
  deriving DecidableEq

/-- `fcb_append`, once more after a rotation when the ring is full. -/
def WriteOutcome.reserveRc (o : WriteOutcome) : ℤ :=
  if o.append = enospc then if o.rotate = 0 then o.appendAgain else o.rotate else o.append

/-- The ring after that. -/
def Ring.reserve (r : Ring) (o : WriteOutcome) : Ring :=
  if o.append = enospc ∧ o.rotate = 0 then { r with erased := r.erased + o.rotated } else r

/-- The result of `n` writes, which stop at the first error. -/
def WriteOutcome.programRc (o : WriteOutcome) (n : ℕ) : ℤ :=
  ((o.writes.take n).find? fun rc => rc ≠ 0).getD 0

/-- Acquire the flash, reserve an entry, write it in `n` pieces and finish it. -/
def Ring.write (r : Ring) (o : WriteOutcome) (n : ℕ) (e : LogRecord) : Ring :=
  if o.acquire ≠ 0 then r
  else if o.reserveRc ≠ 0 then r.reserve o
  else if o.programRc n ≠ 0 then r.reserve o
  else if o.finish ≠ 0 then r.reserve o
  else { r.reserve o with entries := r.entries ++ [e] }

/-- The entry is finished. -/
def WriteOutcome.lands (o : WriteOutcome) (n : ℕ) : Bool :=
  o.acquire = 0 ∧ o.reserveRc = 0 ∧ o.programRc n = 0 ∧ o.finish = 0

/-- Nothing fails, however many pieces there are. -/
def WriteOutcome.succeeds (o : WriteOutcome) : Bool :=
  o.acquire = 0 ∧ o.reserveRc = 0 ∧ (∀ rc ∈ o.writes, rc = 0) ∧ o.finish = 0

theorem entries_reserve (r : Ring) (o : WriteOutcome) : (r.reserve o).entries = r.entries := by
  unfold Ring.reserve
  split <;> rfl

theorem entries_write (r : Ring) (o : WriteOutcome) (n : ℕ) (e : LogRecord) :
    (r.write o n e).entries = if o.lands n then r.entries ++ [e] else r.entries := by
  simp only [Ring.write, WriteOutcome.lands, decide_eq_true_eq]
  split_ifs <;> simp_all [entries_reserve]

theorem lands_of_succeeds {o : WriteOutcome} (h : o.succeeds = true) (n : ℕ) :
    o.lands n = true := by
  simp only [WriteOutcome.succeeds, decide_eq_true_eq] at h
  obtain ⟨hacquire, hreserve, hwrites, hfinish⟩ := h
  have hprogram : o.programRc n = 0 := by
    have hnone : ((o.writes.take n).find? fun rc => rc ≠ 0) = none := by
      rw [List.find?_eq_none]
      intro rc hrc
      simp [hwrites rc (List.mem_of_mem_take hrc)]
    rw [WriteOutcome.programRc, hnone, Option.getD_none]
  simp only [WriteOutcome.lands, decide_eq_true_eq]
  exact ⟨hacquire, hreserve, hprogram, hfinish⟩

/-! ## The writer -/

/-- The buffer, the rings, the counters of the producers, and the outcomes to come; a script
that has run out goes on without failures. -/
structure Writer where
  batch : List UInt8 := []
  telemetry : Ring := {}
  text : Ring := {}
  drops : FlashLogDest → UInt32 := fun _ => 0
  lastDropType : FlashLogDest → UInt8 := fun _ => 0
  script : List WriteOutcome := []

namespace Writer

/-- `fl_get_fcb`. -/
def ring (w : Writer) : FlashLogDest → Ring
  | .telemetry => w.telemetry
  | .text => w.text

def setRing (w : Writer) (r : Ring) : FlashLogDest → Writer
  | .telemetry => { w with telemetry := r }
  | .text => { w with text := r }

/-- One entry goes to a ring, in `n` writes. -/
def writeEntry (w : Writer) (dest : FlashLogDest) (n : ℕ) (e : LogRecord) : Writer :=
  { w.setRing ((w.ring dest).write (w.script.headD {}) n e) dest with script := w.script.tail }

/-- The size of `fl_writer_scratch`. -/
def scratchSize : ℕ := flEntryHdrSize + maxEntryBytes

/-- Header and payload in one write if they fit the scratch buffer: `fl_program_entry`,
`fl_write_batch_subrecord`. -/
def entryWrites (length : ℕ) : ℕ := if flEntryHdrSize + length ≤ scratchSize then 1 else 2

/-- `fl_write_entry_to_fcb`. -/
def writeEntryToFcb (w : Writer) (dest : FlashLogDest) (e : LogRecord) : Writer :=
  w.writeEntry dest (entryWrites e.payload.length) e

/-- The payload of a drop marker. -/
def dropMarker (count : UInt32) (lastType : UInt8) (now : UInt64) : LogRecord :=
  ⟨flTypeDropMarker, flEntryFlagDropPreceded, now, leBytes 4 count.toNat ++ [lastType]⟩

/-- `fl_emit_drop_marker_if_any`; the counter is cleared before the marker is written. -/
def emitDropMarkerIfAny (w : Writer) (dest : FlashLogDest) (now : UInt64) : Writer :=
  let cleared := { w with drops := Function.update w.drops dest 0 }
  if w.drops dest = 0 then cleared
  else cleared.writeEntryToFcb dest (dropMarker (w.drops dest) (w.lastDropType dest) now)

end Writer

/-- A staged record as an entry. -/
def BatchRecord.entry (r : BatchRecord) : LogRecord := ⟨r.type, 0, r.tsUs, r.payload⟩

/-- The record goes into the container. -/
def BatchRecord.isTelemetryData (r : BatchRecord) : Bool :=
  r.dest == some .telemetry && !isMarkerType r.type

/-- The record is an entry of its own. -/
def BatchRecord.isSingle (r : BatchRecord) : Bool :=
  isMarkerType r.type || r.dest == some .text

/-- The ring that a marker is mirrored to. -/
def mirrorDest (dest : Option FlashLogDest) : FlashLogDest :=
  if dest = some .telemetry then .text else .telemetry

namespace Writer

/-- `fl_flush_marker_or_text`. -/
def flushMarkerOrText (w : Writer) (r : BatchRecord) : Writer :=
  let primary := r.dest.elim w fun dest => w.writeEntryToFcb dest r.entry
  if isMarkerType r.type then primary.writeEntryToFcb (mirrorDest r.dest) r.entry else primary

/-- The first pass of `fl_batch_flush`. -/
def flushSingles (w : Writer) (records : List BatchRecord) : Writer :=
  records.foldl (fun w r => if r.isSingle then w.flushMarkerOrText r else w) w

/-- The container of telemetry records, with the time of the first. -/
def container (subs : List BatchRecord) (firstTs : UInt64) : LogRecord :=
  ⟨flTypeBatch, 0, firstTs, subs.flatMap fun r => r.entry.bytes⟩

/-- The writes of a container: its header and its records. -/
def containerWrites (subs : List BatchRecord) : ℕ :=
  1 + (subs.map fun r => entryWrites r.payload.length).sum

/-- `fl_write_telemetry_batch` with `fl_batch_write_container`. -/
def writeTelemetryBatch (w : Writer) (records : List BatchRecord) : Writer :=
  match records.filter BatchRecord.isTelemetryData with
  | [] => w
  | first :: rest =>
    w.writeEntry .telemetry (containerWrites (first :: rest))
      (container (first :: rest) first.tsUs)

/-- `fl_batch_flush`, with the times of the drop markers; the buffer is empty afterwards. -/
def batchFlush (w : Writer) (now : FlashLogDest → UInt64) : Writer :=
  if w.batch = [] then w
  else
    let dropsEmitted :=
      (w.emitDropMarkerIfAny .telemetry (now .telemetry)).emitDropMarkerIfAny .text (now .text)
    let singles := dropsEmitted.flushSingles (batchRecords w.batch)
    { singles.writeTelemetryBatch (batchRecords w.batch) with batch := [] }

end Writer

/-! ## The writes of a flush -/

/-- An entry that is to be written. -/
structure PlannedWrite where
  dest : FlashLogDest
  writes : ℕ
  entry : LogRecord
  deriving DecidableEq

/-- An entry of its own. -/
def PlannedWrite.single (dest : FlashLogDest) (e : LogRecord) : PlannedWrite :=
  ⟨dest, Writer.entryWrites e.payload.length, e⟩

namespace Writer

/-- Writes one after the other. -/
def perform (w : Writer) (plan : List PlannedWrite) : Writer :=
  plan.foldl (fun w p => w.writeEntry p.dest p.writes p.entry) w

def dropPlan (w : Writer) (dest : FlashLogDest) (now : UInt64) : List PlannedWrite :=
  if w.drops dest = 0 then []
  else [.single dest (dropMarker (w.drops dest) (w.lastDropType dest) now)]

/-- The writes for a record of the first pass. -/
def singlePlan (r : BatchRecord) : List PlannedWrite :=
  (r.dest.toList.map fun dest => .single dest r.entry) ++
    if isMarkerType r.type then [.single (mirrorDest r.dest) r.entry] else []

/-- The write of the second pass. -/
def containerPlan : List BatchRecord → List PlannedWrite
  | [] => []
  | first :: rest =>
    [⟨.telemetry, containerWrites (first :: rest), container (first :: rest) first.tsUs⟩]

/-- What a flush of these records writes, in its order. -/
def flushPlan (w : Writer) (now : FlashLogDest → UInt64) (records : List BatchRecord) :
    List PlannedWrite :=
  w.dropPlan .telemetry (now .telemetry) ++ w.dropPlan .text (now .text) ++
    (records.filter BatchRecord.isSingle).flatMap singlePlan ++
      containerPlan (records.filter BatchRecord.isTelemetryData)

end Writer

/-- The writes of a plan that are finished under a script. -/
def landed : List PlannedWrite → List WriteOutcome → List PlannedWrite
  | [], _ => []
  | p :: plan, script =>
    if (script.headD {}).lands p.writes then p :: landed plan script.tail
    else landed plan script.tail

/-- All of them are. -/
def landsAll : List PlannedWrite → List WriteOutcome → Bool
  | [], _ => true
  | p :: plan, script => (script.headD {}).lands p.writes && landsAll plan script.tail

theorem landed_of_landsAll {plan : List PlannedWrite} {script : List WriteOutcome}
    (h : landsAll plan script = true) : landed plan script = plan := by
  induction plan generalizing script with
  | nil => rfl
  | cons p plan ih =>
    obtain ⟨hp, hplan⟩ := Bool.and_eq_true_iff.mp h
    rw [landed, if_pos hp, ih hplan]

theorem landed_sublist (plan : List PlannedWrite) (script : List WriteOutcome) :
    (landed plan script).Sublist plan := by
  induction plan generalizing script with
  | nil => exact .slnil
  | cons p plan ih =>
    rw [landed]
    split
    · exact (ih _).cons_cons p
    · exact (ih _).cons p

theorem landsAll_of_length {plan : List PlannedWrite} {script : List WriteOutcome}
    (h : (landed plan script).length = plan.length) : landsAll plan script = true := by
  induction plan generalizing script with
  | nil => rfl
  | cons p plan ih =>
    have hle := (landed_sublist plan script.tail).length_le
    rw [landed] at h
    rw [landsAll, Bool.and_eq_true]
    split at h
    · next hp => exact ⟨hp, ih (Nat.succ.inj h)⟩
    · rw [List.length_cons] at h
      omega

theorem landsAll_of_succeeds {script : List WriteOutcome} (h : ∀ o ∈ script, o.succeeds = true)
    (plan : List PlannedWrite) : landsAll plan script = true := by
  induction plan generalizing script with
  | nil => rfl
  | cons p plan ih =>
    rw [landsAll, ih fun o ho => h o (List.mem_of_mem_tail ho), Bool.and_true]
    apply lands_of_succeeds
    cases script with
    | nil => decide
    | cons o script => exact h o List.mem_cons_self

namespace Writer

variable {w : Writer}

theorem ring_setRing (r : Ring) (dest dest' : FlashLogDest) :
    (w.setRing r dest).ring dest' = if dest' = dest then r else w.ring dest' := by
  cases dest <;> cases dest' <;> rfl

theorem perform_append (plan plan' : List PlannedWrite) :
    w.perform (plan ++ plan') = (w.perform plan).perform plan' := List.foldl_append

/-- What a plan leaves in a ring. -/
theorem entries_perform (plan : List PlannedWrite) (dest : FlashLogDest) :
    ((w.perform plan).ring dest).entries = (w.ring dest).entries ++
      ((landed plan w.script).filter fun p => p.dest = dest).map PlannedWrite.entry := by
  induction plan generalizing w with
  | nil => exact (List.append_nil _).symm
  | cons p plan ih =>
    have hring : ((w.writeEntry p.dest p.writes p.entry).ring dest).entries =
        (w.ring dest).entries ++
          if (w.script.headD {}).lands p.writes ∧ p.dest = dest then [p.entry] else [] := by
      have hset := congrArg Ring.entries (ring_setRing (w := w)
        ((w.ring p.dest).write (w.script.headD {}) p.writes p.entry) p.dest dest)
      refine hset.trans ?_
      by_cases hdest : dest = p.dest
      · subst hdest
        rw [if_pos rfl, entries_write]
        split <;> simp_all
      · rw [if_neg hdest, if_neg fun h => hdest h.2.symm, List.append_nil]
    have hrest := ih (w := w.writeEntry p.dest p.writes p.entry)
    change ((w.writeEntry p.dest p.writes p.entry).perform plan |>.ring dest).entries = _
    rw [hrest, hring, landed, List.append_assoc]
    change _ ++ (_ ++ ((landed plan w.script.tail).filter _).map _) = _
    generalize (w.script.headD {}).lands p.writes = b
    cases b <;> by_cases hdest : p.dest = dest <;> simp [hdest]

/-- Writing leaves the counters alone. -/
theorem perform_with_drops (plan : List PlannedWrite) (drops : FlashLogDest → UInt32) :
    { w.perform plan with drops } = { w with drops }.perform plan := by
  induction plan generalizing w with
  | nil => rfl
  | cons p plan ih =>
    refine (ih (w := w.writeEntry p.dest p.writes p.entry)).trans ?_
    unfold perform
    rw [List.foldl_cons]
    congr 1
    cases p.dest <;> rfl

theorem perform_drops (plan : List PlannedWrite) :
    (w.perform plan).drops = w.drops ∧ (w.perform plan).lastDropType = w.lastDropType ∧
      (w.perform plan).batch = w.batch := by
  induction plan generalizing w with
  | nil => exact ⟨rfl, rfl, rfl⟩
  | cons p plan ih =>
    have hwrite : (w.writeEntry p.dest p.writes p.entry).drops = w.drops ∧
        (w.writeEntry p.dest p.writes p.entry).lastDropType = w.lastDropType ∧
        (w.writeEntry p.dest p.writes p.entry).batch = w.batch := by
      cases p.dest <;> exact ⟨rfl, rfl, rfl⟩
    obtain ⟨hdrops, hlast, hbatch⟩ := ih (w := w.writeEntry p.dest p.writes p.entry)
    exact ⟨hdrops.trans hwrite.1, hlast.trans hwrite.2.1, hbatch.trans hwrite.2.2⟩

theorem dropPlan_congr {v : Writer} {dest : FlashLogDest} {now : UInt64}
    (hdrops : v.drops dest = w.drops dest) (hlast : v.lastDropType dest = w.lastDropType dest) :
    v.dropPlan dest now = w.dropPlan dest now := by
  rw [dropPlan, dropPlan, hdrops, hlast]

theorem emitDropMarkerIfAny_eq (dest : FlashLogDest) (now : UInt64) :
    w.emitDropMarkerIfAny dest now =
      { w with drops := Function.update w.drops dest 0 }.perform (w.dropPlan dest now) := by
  unfold emitDropMarkerIfAny dropPlan
  split <;> rfl

theorem flushMarkerOrText_eq (r : BatchRecord) :
    w.flushMarkerOrText r = w.perform (singlePlan r) := by
  unfold flushMarkerOrText singlePlan
  cases r.dest <;> split <;> rfl

theorem flushSingles_eq (records : List BatchRecord) :
    w.flushSingles records =
      w.perform ((records.filter BatchRecord.isSingle).flatMap singlePlan) := by
  induction records generalizing w with
  | nil => rfl
  | cons r records ih =>
    refine (ih (w := if r.isSingle then w.flushMarkerOrText r else w)).trans ?_
    cases hr : r.isSingle with
    | true =>
      rw [if_pos rfl, List.filter_cons_of_pos hr, List.flatMap_cons, perform_append,
        flushMarkerOrText_eq]
    | false =>
      rw [if_neg Bool.false_ne_true, List.filter_cons_of_neg (Bool.eq_false_iff.mp hr)]

theorem writeTelemetryBatch_eq (records : List BatchRecord) :
    w.writeTelemetryBatch records =
      w.perform (containerPlan (records.filter BatchRecord.isTelemetryData)) := by
  unfold writeTelemetryBatch
  generalize records.filter BatchRecord.isTelemetryData = subs
  cases subs <;> rfl

/-- A flush makes the writes of its plan, with the counters and the buffer cleared. -/
theorem batchFlush_eq (h : w.batch ≠ []) (now : FlashLogDest → UInt64) :
    w.batchFlush now =
      { { w with drops := fun _ => 0 }.perform (w.flushPlan now (batchRecords w.batch)) with
        batch := [] } := by
  have hdrops : Function.update (Function.update w.drops .telemetry 0) .text 0 = fun _ => 0 := by
    funext dest
    cases dest <;> rfl
  have hemit : (w.emitDropMarkerIfAny .telemetry (now .telemetry)).emitDropMarkerIfAny .text
      (now .text) = { w with drops := fun _ => 0 }.perform
        (w.dropPlan .telemetry (now .telemetry) ++ w.dropPlan .text (now .text)) := by
    rw [emitDropMarkerIfAny_eq, emitDropMarkerIfAny_eq, perform_append]
    obtain ⟨hcleared, hlast, -⟩ := perform_drops
      (w := { w with drops := Function.update w.drops .telemetry 0 })
      (w.dropPlan .telemetry (now .telemetry))
    have hplan : ({ w with drops := Function.update w.drops .telemetry 0 }.perform
        (w.dropPlan .telemetry (now .telemetry))).dropPlan .text (now .text) =
          w.dropPlan .text (now .text) :=
      dropPlan_congr (congrFun hcleared .text) (congrFun hlast .text)
    rw [perform_with_drops, hplan, hcleared, hdrops]
  rw [batchFlush, if_neg h]
  dsimp only
  simp only [hemit, flushSingles_eq, writeTelemetryBatch_eq, flushPlan, perform_append]

end Writer

end DiveCANHead.LogWriter
