import DiveCANHead.Lib.Bytes
import DiveCANHead.LogClient.Parse
import DiveCANHead.LogWriter.Flush

/-!
# The container of a batch (`flash_log.c`)

Two passes go over the staging buffer: one measures the telemetry records, and one writes them
behind a header that declares what was measured. They take the buffer apart on their own; both come
to the same records, and the client reads those back.
-/

namespace DiveCANHead.LogWriter

open DiveCANHead.Lib DiveCANHead.FlashLog DiveCANHead.LogDownload DiveCANHead.LogClient

/-! ## The measuring pass -/

/-- The locals of `fl_write_telemetry_batch`. -/
structure Measured where
  total : ℕ := 0
  firstTs : UInt64 := 0
  found : Bool := false
  deriving DecidableEq

/-- A record that goes into the container is measured. -/
def Measured.count (m : Measured) (r : BatchRecord) : Measured :=
  if r.dest = some .telemetry ∧ isMarkerType r.type = false then
    { total := m.total + (flEntryHdrSize + r.payload.length)
      firstTs := if m.found then m.firstTs else r.tsUs
      found := true }
  else m

/-- The loop of the first pass, over what is left of the buffer. -/
def measurePass (m : Measured) (rest : List UInt8) : Measured :=
  if _h : rest.length < batchHdrBytes ∨
      rest.length < batchHdrBytes + decodeLength (rest.take batchHdrBytes) then m
  else
    let length := decodeLength (rest.take batchHdrBytes)
    measurePass
      (m.count (decodeRecord (rest.take batchHdrBytes) ((rest.drop batchHdrBytes).take length)))
      (rest.drop (batchHdrBytes + length))
  termination_by rest.length
  decreasing_by
    have hpos : 0 < batchHdrBytes := by decide
    rw [List.length_drop]
    omega

/-! ## The writing pass -/

/-- An entry that was reserved in the ring, where the next write goes, the first error, and what the
flash calls to come return. -/
structure Reserved where
  data : List UInt8
  woff : ℕ := 0
  rc : ℤ := 0
  script : List ℤ
  deriving DecidableEq

/-- `flash_area_write` inside the entry; a write that fails leaves it unfinished. -/
def Reserved.write (e : Reserved) (off : ℕ) (bytes : List UInt8) : Reserved :=
  { e with
    data := overlay e.data off bytes
    rc := e.script.headD 0
    script := e.script.tail }

/-- `fl_write_batch_subrecord`: one write if header and payload fit the scratch buffer. -/
def writeBatchSubrecord (e : Reserved) (r : BatchRecord) : Reserved :=
  let sh := r.entry.header
  let wlen := flEntryHdrSize + r.payload.length
  let written :=
    if wlen ≤ Writer.scratchSize then e.write e.woff (sh ++ r.payload)
    else
      let head := e.write e.woff sh
      if head.rc = 0 ∧ 0 < r.payload.length then head.write (e.woff + flEntryHdrSize) r.payload
      else head
  { written with woff := e.woff + wlen }

/-- `fl_batch_write_subrecords`, over what is left of the buffer. -/
def writePass (e : Reserved) (rest : List UInt8) : Reserved :=
  if _h : e.rc ≠ 0 ∨ rest.length < batchHdrBytes ∨
      rest.length < batchHdrBytes + decodeLength (rest.take batchHdrBytes) then e
  else
    let length := decodeLength (rest.take batchHdrBytes)
    let r := decodeRecord (rest.take batchHdrBytes) ((rest.drop batchHdrBytes).take length)
    writePass
      (if r.dest = some .telemetry ∧ isMarkerType r.type = false then
        writeBatchSubrecord e r else e)
      (rest.drop (batchHdrBytes + length))
  termination_by rest.length
  decreasing_by
    have hpos : 0 < batchHdrBytes := by decide
    rw [List.length_drop]
    omega

/-! ## The container -/

/-- The header of the container; the length field has 16 bits. -/
def containerHeader (total : ℕ) (firstTs : UInt64) : List UInt8 :=
  [flTypeBatch, 0] ++ leBytes 2 total ++ leBytes 8 firstTs.toNat

/-- The reserved entry with its header written. The ring reserves as many bytes as the 16 bits of
its argument say. -/
def headedEntry (m : Measured) (writes : List ℤ) : Reserved :=
  let reserved : Reserved :=
    { data := List.replicate ((flEntryHdrSize + m.total) % 65536) 0xFF, script := writes }
  { reserved.write 0 (containerHeader m.total m.firstTs) with woff := flEntryHdrSize }

/-- `fl_batch_write_container`: the entry that is finished, if any. -/
def batchWriteContainer (o : WriteOutcome) (batch : List UInt8) (m : Measured) :
    Option (List UInt8) :=
  if o.acquire ≠ 0 ∨ o.reserveRc ≠ 0 then none
  else
    let filled := writePass (headedEntry m o.writes) batch
    if filled.rc = 0 then some filled.data else none

/-- `fl_write_telemetry_batch`: the container that is finished, if any. -/
def writeTelemetryContainer (o : WriteOutcome) (batch : List UInt8) : Option (List UInt8) :=
  let m := measurePass {} batch
  if m.found then batchWriteContainer o batch m else none

/-! ## The records of a pass -/

theorem isTelemetryData_iff (r : BatchRecord) :
    r.isTelemetryData = true ↔ r.dest = some .telemetry ∧ isMarkerType r.type = false := by
  simp [BatchRecord.isTelemetryData]

theorem batchRecords_short {rest : List UInt8} (h : rest.length < batchHdrBytes ∨
    rest.length < batchHdrBytes + decodeLength (rest.take batchHdrBytes)) :
    batchRecords rest = [] := by
  have hstop : batchHdrBytes = 0 ∨
      rest.length < batchHdrBytes + decodeLength (rest.take batchHdrBytes) :=
    .inr (h.elim (fun hshort => Nat.lt_add_right _ hshort) id)
  rw [batchRecords, frames, dif_pos hstop]
  rfl

theorem batchRecords_next {rest : List UInt8} (h : ¬(rest.length < batchHdrBytes ∨
    rest.length < batchHdrBytes + decodeLength (rest.take batchHdrBytes))) :
    batchRecords rest =
      decodeRecord (rest.take batchHdrBytes)
          ((rest.drop batchHdrBytes).take (decodeLength (rest.take batchHdrBytes))) ::
        batchRecords (rest.drop (batchHdrBytes + decodeLength (rest.take batchHdrBytes))) := by
  have hgoes : ¬(batchHdrBytes = 0 ∨
      rest.length < batchHdrBytes + decodeLength (rest.take batchHdrBytes)) := by
    rintro (hzero | hcut)
    · exact absurd hzero (by decide)
    · exact h (.inr hcut)
  rw [batchRecords, frames, dif_neg hgoes]
  rfl

/-- The measuring pass goes over the records of the buffer. -/
theorem measurePass_eq (m : Measured) (rest : List UInt8) :
    measurePass m rest = (batchRecords rest).foldl Measured.count m := by
  fun_induction measurePass m rest with
  | case1 m rest hstop => rw [batchRecords_short hstop, List.foldl_nil]
  | case2 m rest hgoes length ih => rw [ih, batchRecords_next hgoes, List.foldl_cons]

/-- A record in the writing pass. -/
def Reserved.subrecord (e : Reserved) (r : BatchRecord) : Reserved :=
  if e.rc = 0 ∧ r.isTelemetryData = true then writeBatchSubrecord e r else e

theorem foldl_subrecord_failed {e : Reserved} (h : e.rc ≠ 0) (records : List BatchRecord) :
    records.foldl Reserved.subrecord e = e := by
  induction records with
  | nil => rfl
  | cons r records ih =>
    have hstays : e.subrecord r = e := if_neg fun hgoes => h hgoes.1
    rw [List.foldl_cons, hstays, ih]

/-- So does the writing pass. -/
theorem writePass_eq (e : Reserved) (rest : List UInt8) :
    writePass e rest = (batchRecords rest).foldl Reserved.subrecord e := by
  fun_induction writePass e rest with
  | case1 e rest hstop =>
    rcases hstop with hfailed | hshort
    · exact (foldl_subrecord_failed hfailed _).symm
    · rw [batchRecords_short hshort, List.foldl_nil]
  | case2 e rest hgoes length r ih =>
    obtain ⟨hrc, hwhole⟩ := not_or.mp hgoes
    have hnext : e.subrecord r =
        if r.dest = some .telemetry ∧ isMarkerType r.type = false then writeBatchSubrecord e r
        else e := by
      unfold Reserved.subrecord
      by_cases hdata : r.isTelemetryData = true
      · rw [if_pos ⟨not_not.mp hrc, hdata⟩, if_pos ((isTelemetryData_iff r).mp hdata)]
      · rw [if_neg fun h => hdata h.2, if_neg fun h => hdata ((isTelemetryData_iff r).mpr h)]
    simp only [dite_eq_ite] at ih
    rw [ih, batchRecords_next hwhole, List.foldl_cons, ← hnext]

/-! ## What is measured and what is written -/

/-- The bytes of the records in a container. -/
def subrecordBytes (records : List BatchRecord) : List UInt8 :=
  (records.filter BatchRecord.isTelemetryData).flatMap fun r => r.entry.bytes

theorem length_entry_bytes (r : BatchRecord) :
    r.entry.bytes.length = flEntryHdrSize + r.payload.length := by
  rw [LogRecord.bytes, List.length_append, LogRecord.length_header, BatchRecord.entry]

theorem Measured.count_of_data (m : Measured) {r : BatchRecord} (h : r.isTelemetryData = true) :
    m.count r = { total := m.total + r.entry.bytes.length
                  firstTs := if m.found then m.firstTs else r.tsUs
                  found := true } := by
  rw [Measured.count, if_pos ((isTelemetryData_iff r).mp h), length_entry_bytes]

theorem Measured.count_of_not (m : Measured) {r : BatchRecord} (h : ¬r.isTelemetryData = true) :
    m.count r = m := if_neg fun hdata => h ((isTelemetryData_iff r).mpr hdata)

/-- The measured length is that of the bytes to be written. -/
theorem foldl_count (m : Measured) (records : List BatchRecord) :
    (records.foldl Measured.count m).total = m.total + (subrecordBytes records).length ∧
      (records.foldl Measured.count m).found =
        (m.found || !(records.filter BatchRecord.isTelemetryData).isEmpty) := by
  induction records generalizing m with
  | nil => exact ⟨rfl, (Bool.or_false _).symm⟩
  | cons r records ih =>
    obtain ⟨htotal, hfound⟩ := ih (m.count r)
    rw [List.foldl_cons, htotal, hfound, subrecordBytes, subrecordBytes, List.filter_cons]
    by_cases hdata : r.isTelemetryData = true
    · rw [m.count_of_data hdata, if_pos hdata, List.flatMap_cons, List.length_append,
        Nat.add_assoc, List.isEmpty_cons, Bool.true_or, Bool.not_false, Bool.or_true]
      exact ⟨rfl, rfl⟩
    · rw [m.count_of_not hdata, if_neg hdata]
      exact ⟨rfl, rfl⟩

/-- The time of the container is that of the first record it holds. -/
theorem foldl_count_firstTs (m : Measured) (records : List BatchRecord) :
    (records.foldl Measured.count m).firstTs =
      if m.found then m.firstTs
      else ((records.filter BatchRecord.isTelemetryData).head?.map BatchRecord.tsUs).getD
        m.firstTs := by
  induction records generalizing m with
  | nil =>
    rw [List.foldl_nil, List.filter_nil, List.head?_nil, Option.map_none, Option.getD_none,
      ite_self]
  | cons r records ih =>
    rw [List.foldl_cons, ih, List.filter_cons]
    by_cases hdata : r.isTelemetryData = true
    · rw [m.count_of_data hdata, if_pos hdata, List.head?_cons, Option.map_some, Option.getD_some,
        if_pos rfl]
    · rw [m.count_of_not hdata, if_neg hdata]

/-- What a reserved entry holds so far, without an error. -/
structure Holds (e : Reserved) (size : ℕ) (written : List UInt8) : Prop where
  size : e.data.length = size
  woff : e.woff = written.length
  front : e.data.take e.woff = written

theorem write_front {e : Reserved} {off : ℕ} (bytes : List UInt8)
    (hoff : off ≤ e.data.length) :
    (e.write off bytes).data.take (off + bytes.length) = e.data.take off ++ bytes := by
  have hfront : (e.data.take off ++ bytes).length = off + bytes.length := by
    rw [List.length_append, List.length_take, Nat.min_eq_left hoff]
  exact (take_overlay hoff (Nat.le_refl _)).trans (List.take_of_length_le (Nat.le_of_eq hfront))

theorem length_write {e : Reserved} {off : ℕ} {bytes : List UInt8}
    (h : off + bytes.length ≤ e.data.length) : (e.write off bytes).data.length = e.data.length :=
  length_overlay h

/-- A record that is written without an error stands behind the ones before it. -/
theorem Holds.subrecord {e : Reserved} {size : ℕ} {written : List UInt8} (h : Holds e size written)
    {r : BatchRecord} (hroom : written.length + r.entry.bytes.length ≤ size)
    (hok : (writeBatchSubrecord e r).rc = 0) :
    Holds (writeBatchSubrecord e r) size (written ++ r.entry.bytes) := by
  have hlen := length_entry_bytes r
  have hheader : r.entry.header.length = flEntryHdrSize := r.entry.length_header
  have hbytes : r.entry.bytes = r.entry.header ++ r.payload := rfl
  have hinside : e.woff + r.entry.bytes.length ≤ e.data.length := by
    rw [h.woff, h.size]
    exact hroom
  have hstart : e.woff ≤ e.data.length := Nat.le_trans (Nat.le_add_right _ _) hinside
  have hwoff : e.woff + (flEntryHdrSize + r.payload.length) =
      (written ++ r.entry.bytes).length := by
    rw [List.length_append, hlen, h.woff]
  unfold writeBatchSubrecord at hok ⊢
  dsimp only at hok ⊢
  by_cases hscratch : flEntryHdrSize + r.payload.length ≤ Writer.scratchSize
  · rw [if_pos hscratch, ← hbytes]
    refine ⟨(length_write hinside).trans h.size, hwoff, ?_⟩
    dsimp only
    rw [← hlen, write_front r.entry.bytes hstart, h.front]
  · rw [if_neg hscratch] at hok ⊢
    have hhead : e.woff + r.entry.header.length ≤ e.data.length := by omega
    have hfront := write_front r.entry.header hstart
    have hsize := length_write hhead
    by_cases hgoes : (e.write e.woff r.entry.header).rc = 0 ∧ 0 < r.payload.length
    · rw [if_pos hgoes]
      have hpayload : e.woff + flEntryHdrSize + r.payload.length ≤
          (e.write e.woff r.entry.header).data.length := by omega
      refine ⟨((length_write hpayload).trans hsize).trans h.size, hwoff, ?_⟩
      dsimp only
      rw [← Nat.add_assoc, write_front r.payload (by omega), ← hheader, hfront, h.front, hbytes,
        List.append_assoc]
    · rw [if_neg hgoes] at hok ⊢
      have hempty : r.payload = [] := by
        refine List.length_eq_zero_iff.mp (Nat.eq_zero_of_not_pos fun hpos => hgoes ⟨hok, hpos⟩)
      refine ⟨hsize.trans h.size, hwoff, ?_⟩
      dsimp only
      rw [hempty, List.length_nil, Nat.add_zero, ← hheader, hfront, h.front, hbytes, hempty,
        List.append_nil]

/-- The writing pass fills the entry with the bytes that were measured. -/
theorem Holds.foldl_subrecord {e : Reserved} {size : ℕ} {written : List UInt8}
    (h : Holds e size written) (records : List BatchRecord)
    (hroom : written.length + (subrecordBytes records).length ≤ size)
    (hok : (records.foldl Reserved.subrecord e).rc = 0) :
    Holds (records.foldl Reserved.subrecord e) size (written ++ subrecordBytes records) := by
  induction records generalizing e written with
  | nil =>
    rw [subrecordBytes, List.filter_nil, List.flatMap_nil, List.append_nil]
    exact h
  | cons r records ih =>
    have hrc : (e.subrecord r).rc = 0 := by
      by_contra hfailed
      rw [List.foldl_cons, foldl_subrecord_failed hfailed] at hok
      exact hfailed hok
    rw [List.foldl_cons] at hok ⊢
    by_cases hdata : r.isTelemetryData = true
    · have hbytes : subrecordBytes (r :: records) = r.entry.bytes ++ subrecordBytes records := by
        rw [subrecordBytes, List.filter_cons_of_pos hdata, List.flatMap_cons, subrecordBytes]
      rw [hbytes, List.length_append] at hroom
      rw [hbytes, ← List.append_assoc]
      by_cases hgoes : e.rc = 0
      · have hwritten : e.subrecord r = writeBatchSubrecord e r := if_pos ⟨hgoes, hdata⟩
        rw [hwritten] at hok hrc ⊢
        refine ih (h.subrecord (by omega) hrc) ?_ hok
        rw [List.length_append]
        omega
      · have hstays : e.subrecord r = e := if_neg fun hall => hgoes hall.1
        rw [hstays] at hrc
        exact absurd hrc hgoes
    · have hbytes : subrecordBytes (r :: records) = subrecordBytes records := by
        rw [subrecordBytes, List.filter_cons_of_neg hdata, subrecordBytes]
      have hstays : e.subrecord r = e := if_neg fun hall => hdata hall.2
      rw [hbytes] at hroom ⊢
      rw [hstays] at hok ⊢
      exact ih h hroom hok

/-! ## What the client makes of it -/

theorem length_batch_of_foldlM {slots : List Slot} {start batch : List UInt8}
    (hstart : start.length ≤ batchBufBytes) (h : slots.foldlM batchAppend start = some batch) :
    batch.length ≤ batchBufBytes := by
  induction slots generalizing start with
  | nil => exact Option.some.inj h ▸ hstart
  | cons s slots ih =>
    obtain ⟨next, hnext, hrest⟩ := Option.bind_eq_some_iff.mp h
    refine ih ?_ hrest
    unfold batchAppend at hnext
    split at hnext
    · next hroom =>
      rw [← Option.some.inj hnext, List.length_append, s.length_pack]
      exact hroom
    · cases hnext

/-- What goes into the container is no longer than the buffer it comes from. -/
theorem length_subrecordBytes_le (slots : List Slot) :
    (subrecordBytes (slots.map Slot.record)).length ≤ (slots.flatMap Slot.pack).length := by
  induction slots with
  | nil => exact Nat.le_refl _
  | cons s slots ih =>
    have hentry : s.record.entry.bytes.length = s.pack.length := by
      rw [length_entry_bytes, s.length_pack]
      rfl
    rw [List.map_cons, List.flatMap_cons, List.length_append]
    by_cases hdata : s.record.isTelemetryData = true
    · rw [subrecordBytes, List.filter_cons_of_pos hdata, List.flatMap_cons, List.length_append,
        hentry]
      exact Nat.add_le_add_left ih _
    · rw [subrecordBytes, List.filter_cons_of_neg hdata]
      exact Nat.le_trans ih (Nat.le_add_left _ _)

/-- The header and the records are the container entry of the flush. -/
theorem container_bytes (records : List BatchRecord) (firstTs : UInt64) :
    containerHeader (subrecordBytes records).length firstTs ++ subrecordBytes records =
      (Writer.container (records.filter BatchRecord.isTelemetryData) firstTs).bytes :=
  rfl

/-- The client takes a container apart into the records it holds. -/
theorem parseLogStream_container {subs : List BatchRecord} (firstTs : UInt64)
    (hshort : (subs.flatMap fun r => r.entry.bytes).length < 65536)
    (hfits : ∀ r ∈ subs, r.payload.length < 65536)
    (htype : ∀ r ∈ subs, r.type ≠ flTypeEndOfStream ∧ r.type ≠ flTypeBatch) :
    parseLogStream (Writer.container subs firstTs).bytes = subs.map BatchRecord.entry := by
  have hplain : hasDclgHeader (Writer.container subs firstTs).bytes = false := by
    have hne : flTypeBatch ≠ 0x44 := by decide
    have hfirst : (Writer.container subs firstTs).bytes.take 4 ≠ logDownloadMagic := fun h =>
      hne (List.cons.inj h).1
    rw [hasDclgHeader, beq_false_of_ne hfirst, Bool.and_false]
  have hrecords : (subs.flatMap fun r => r.entry.bytes) =
      (subs.map BatchRecord.entry).flatMap LogRecord.bytes := by
    rw [List.flatMap_map]
  have hinner : walk (Writer.container subs firstTs).payload = subs.map BatchRecord.entry := by
    refine (congrArg walk hrecords).trans (walk_flatMap ?_ ?_)
    · intro e he
      obtain ⟨r, hr, rfl⟩ := List.mem_map.mp he
      exact hfits r hr
    · intro e he
      obtain ⟨r, hr, rfl⟩ := List.mem_map.mp he
      exact htype r hr
  have hbatch : (Writer.container subs firstTs).type = flTypeBatch := rfl
  have hend : (Writer.container subs firstTs).type ≠ flTypeEndOfStream := by
    rw [hbatch]
    decide
  have hempty : walk [] = [] := walk_short (by decide)
  have hwalk := walk_append (r := Writer.container subs firstTs) hshort hend []
  rw [if_pos hbatch, hinner, hempty, List.append_nil, List.append_nil] at hwalk
  rw [parseLogStream, hplain]
  exact hwalk

/-! ## The container of a staged batch -/

/-- Nothing has failed, and nothing will. -/
def Reserved.Clean (e : Reserved) : Prop := e.rc = 0 ∧ ∀ rc ∈ e.script, rc = 0

theorem Reserved.Clean.write {e : Reserved} (h : e.Clean) (off : ℕ) (bytes : List UInt8) :
    (e.write off bytes).Clean := by
  refine ⟨?_, fun rc hrc => h.2 rc (List.mem_of_mem_tail hrc)⟩
  have hhead : ∀ script : List ℤ, (∀ rc ∈ script, rc = 0) → script.headD 0 = 0 := by
    intro script hzero
    cases script with
    | nil => rfl
    | cons rc script => exact hzero rc List.mem_cons_self
  exact hhead e.script h.2

theorem Reserved.Clean.at {e : Reserved} (h : e.Clean) (woff : ℕ) :
    Reserved.Clean { e with woff := woff } :=
  h

theorem Reserved.Clean.subrecord {e : Reserved} (h : e.Clean) (r : BatchRecord) :
    (e.subrecord r).Clean := by
  unfold Reserved.subrecord
  split
  · unfold writeBatchSubrecord
    dsimp only
    refine Reserved.Clean.at ?_ _
    split
    · exact h.write _ _
    · split
      · exact (h.write _ _).write _ _
      · exact h.write _ _
  · exact h

theorem Reserved.Clean.foldl_subrecord {e : Reserved} (h : e.Clean) (records : List BatchRecord) :
    (records.foldl Reserved.subrecord e).Clean := by
  induction records generalizing e with
  | nil => exact h
  | cons r records ih => exact ih (h.subrecord r)

/-- The header stands at the front of the entry, for a length that the 16 bits hold. -/
theorem holds_headedEntry {m : Measured} (hshort : flEntryHdrSize + m.total < 65536)
    (writes : List ℤ) :
    Holds (headedEntry m writes) (flEntryHdrSize + m.total)
      (containerHeader m.total m.firstTs) := by
  have hheader : (containerHeader m.total m.firstTs).length = flEntryHdrSize := by
    simp [containerHeader, flEntryHdrSize]
  let reserved : Reserved :=
    { data := List.replicate ((flEntryHdrSize + m.total) % 65536) 0xFF, script := writes }
  have hsize : reserved.data.length = flEntryHdrSize + m.total := by
    rw [List.length_replicate, Nat.mod_eq_of_lt hshort]
  have hfront := write_front (e := reserved) (containerHeader m.total m.firstTs) (Nat.zero_le _)
  rw [hheader, Nat.zero_add, List.take_zero, List.nil_append] at hfront
  have hroom : 0 + (containerHeader m.total m.firstTs).length ≤ reserved.data.length := by omega
  exact ⟨(length_write hroom).trans hsize, hheader.symm, hfront⟩

theorem clean_headedEntry (m : Measured) {writes : List ℤ} (h : ∀ rc ∈ writes, rc = 0) :
    (headedEntry m writes).Clean := by
  have hreserved : Reserved.Clean
      { data := List.replicate ((flEntryHdrSize + m.total) % 65536) 0xFF, script := writes } :=
    ⟨rfl, h⟩
  exact (hreserved.write 0 (containerHeader m.total m.firstTs)).at flEntryHdrSize

/-- The container that is written is the header and the measured records. -/
theorem batchWriteContainer_eq {o : WriteOutcome} {records : List BatchRecord}
    {batch data : List UInt8} (hbatch : batchRecords batch = records) {m : Measured}
    (htotal : m.total = (subrecordBytes records).length)
    (hshort : flEntryHdrSize + m.total < 65536) (h : batchWriteContainer o batch m = some data) :
    data = containerHeader m.total m.firstTs ++ subrecordBytes records := by
  have hholds := holds_headedEntry hshort o.writes
  have hfull : (containerHeader m.total m.firstTs ++ subrecordBytes records).length =
      flEntryHdrSize + m.total := by
    rw [List.length_append, ← htotal, ← hholds.woff]
    rfl
  unfold batchWriteContainer at h
  dsimp only at h
  rw [writePass_eq, hbatch] at h
  split at h
  · cases h
  · split at h
    · next hok =>
      have hroom : (containerHeader m.total m.firstTs).length + (subrecordBytes records).length ≤
          flEntryHdrSize + m.total := by
        rw [← hfull, List.length_append]
      obtain ⟨hsize, hwoff, hfront⟩ := hholds.foldl_subrecord records hroom hok
      rw [← Option.some.inj h, ← hfront, hwoff, hfull, ← hsize]
      exact (List.take_of_length_le (Nat.le_refl _)).symm
    · cases h

/-- Without a failed call a container is written. -/
theorem batchWriteContainer_some {o : WriteOutcome} (h : o.succeeds = true) (batch : List UInt8)
    (m : Measured) : ∃ data, batchWriteContainer o batch m = some data := by
  simp only [WriteOutcome.succeeds, decide_eq_true_eq] at h
  obtain ⟨hacquire, hreserve, hwrites, -⟩ := h
  have hfilled := (clean_headedEntry m hwrites).foldl_subrecord (batchRecords batch)
  rw [batchWriteContainer, if_neg (not_or.mpr ⟨not_not.mpr hacquire, not_not.mpr hreserve⟩)]
  dsimp only
  rw [writePass_eq, if_pos hfilled.1]
  exact ⟨_, rfl⟩

/-- The container of the two passes is the entry that a flush puts in the telemetry ring. -/
theorem writeTelemetryContainer_entry {o : WriteOutcome} {batch data : List UInt8}
    {first : BatchRecord} {rest : List BatchRecord}
    (hselected : (batchRecords batch).filter BatchRecord.isTelemetryData = first :: rest)
    (hshort : flEntryHdrSize + (subrecordBytes (batchRecords batch)).length < 65536)
    (h : writeTelemetryContainer o batch = some data) :
    data = (Writer.container (first :: rest) first.tsUs).bytes := by
  obtain ⟨htotal, hfound⟩ := foldl_count {} (batchRecords batch)
  have hts := foldl_count_firstTs {} (batchRecords batch)
  rw [← measurePass_eq] at htotal hfound hts
  have htotal' : (measurePass {} batch).total = (subrecordBytes (batchRecords batch)).length :=
    htotal.trans (Nat.zero_add _)
  have hfirst : (measurePass {} batch).firstTs = first.tsUs := by
    rw [hts, hselected]
    rfl
  have hfound' : (measurePass {} batch).found = true := by
    rw [hfound, hselected]
    rfl
  unfold writeTelemetryContainer at h
  dsimp only at h
  rw [if_pos hfound'] at h
  have hdata := batchWriteContainer_eq rfl htotal' (htotal' ▸ hshort) h
  rw [hdata, htotal', hfirst, container_bytes, hselected]

/-- The two passes over a staged batch agree: what the first measures is what the second writes, in
the staged order, and its length fits the field; the client reads back the records that were
selected. -/
theorem container_agreement {slots : List Slot} {batch : List UInt8}
    (hstaged : slots.foldlM batchAppend [] = some batch)
    (htype : ∀ s ∈ slots, s.type ≠ flTypeEndOfStream) (o : WriteOutcome) :
    let m := measurePass {} batch
    let selected := (slots.map Slot.record).filter BatchRecord.isTelemetryData
    m.total = (selected.flatMap fun r => r.entry.bytes).length ∧ m.total < 65536 ∧
      (m.found = true ↔ selected ≠ []) ∧
      (∀ data, writeTelemetryContainer o batch = some data →
        data = containerHeader m.total m.firstTs ++ selected.flatMap (fun r => r.entry.bytes) ∧
        LogRecord.lengthField (data.take flEntryHdrSize) = m.total ∧
        parseLogStream data = selected.map BatchRecord.entry) ∧
      (o.succeeds = true → selected ≠ [] →
        ∃ data, writeTelemetryContainer o batch = some data) := by
  intro m selected
  have hbatch : batchRecords batch = slots.map Slot.record := by
    rw [batch_of_foldlM hstaged, batchRecords_pack]
  have hm : m = (slots.map Slot.record).foldl Measured.count {} := by
    rw [← hbatch]
    exact measurePass_eq {} batch
  obtain ⟨htotal, hfound⟩ := foldl_count {} (slots.map Slot.record)
  rw [← hm] at htotal hfound
  have htotal' : m.total = (subrecordBytes (slots.map Slot.record)).length :=
    htotal.trans (Nat.zero_add _)
  have hbound : m.total ≤ batchBufBytes := by
    rw [htotal']
    refine Nat.le_trans (length_subrecordBytes_le slots) ?_
    rw [← batch_of_foldlM hstaged]
    exact length_batch_of_foldlM (Nat.zero_le _) hstaged
  have hbuf : flEntryHdrSize + batchBufBytes < 65536 := by decide
  have hfoundIff : m.found = true ↔ selected ≠ [] := by
    rw [hfound, Bool.false_or, Bool.not_eq_true', List.isEmpty_eq_false_iff]
  have hroom : flEntryHdrSize + m.total < 65536 := by omega
  have hshort : (selected.flatMap fun r => r.entry.bytes).length < 65536 := by
    refine Nat.lt_of_le_of_lt (Nat.le_of_eq htotal'.symm) ?_
    omega
  refine ⟨htotal', by omega, hfoundIff, fun data hdata => ?_, fun hsucceeds hsome => ?_⟩
  · unfold writeTelemetryContainer at hdata
    dsimp only at hdata
    split at hdata
    · have hcontainer := batchWriteContainer_eq hbatch htotal' hroom hdata
      have hentry : data = (Writer.container selected m.firstTs).bytes := by
        rw [hcontainer, htotal']
        exact container_bytes (slots.map Slot.record) m.firstTs
      refine ⟨hcontainer, ?_, ?_⟩
      · rw [hentry, LogRecord.bytes, ← LogRecord.length_header, List.take_left]
        have hfits : (Writer.container selected m.firstTs).Fits := hshort
        exact (LogRecord.lengthField_header hfits).trans htotal'.symm
      · rw [hentry]
        refine parseLogStream_container m.firstTs hshort ?_ ?_
        · intro r hr
          obtain ⟨s, -, rfl⟩ := List.mem_map.mp (List.mem_of_mem_filter hr)
          exact Nat.lt_of_le_of_lt s.fits (by decide)
        · intro r hr
          obtain ⟨s, hs, rfl⟩ := List.mem_map.mp (List.mem_of_mem_filter hr)
          exact ⟨htype s hs, s.notBatch⟩
    · cases hdata
  · unfold writeTelemetryContainer
    dsimp only
    rw [if_pos (hfoundIff.mpr hsome)]
    exact batchWriteContainer_some hsucceeds batch m

theorem container_agreement_sample :
    let m := measurePass {} sample.pack
    let selected := ([sample].map Slot.record).filter BatchRecord.isTelemetryData
    m.total = (selected.flatMap fun r => r.entry.bytes).length ∧ m.total < 65536 ∧
      (m.found = true ↔ selected ≠ []) ∧
      (∀ data, writeTelemetryContainer {} sample.pack = some data →
        data = containerHeader m.total m.firstTs ++ selected.flatMap (fun r => r.entry.bytes) ∧
        LogRecord.lengthField (data.take flEntryHdrSize) = m.total ∧
        parseLogStream data = selected.map BatchRecord.entry) ∧
      (({} : WriteOutcome).succeeds = true → selected ≠ [] →
        ∃ data, writeTelemetryContainer {} sample.pack = some data) :=
  @container_agreement [sample] _ (by decide) (by decide) {}

end DiveCANHead.LogWriter
