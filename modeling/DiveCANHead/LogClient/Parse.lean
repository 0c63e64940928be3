import DiveCANHead.FlashLog.Record
import DiveCANHead.LogClient.Replay

/-!
# Taking a log apart (`LogParser.js`)

A stream is a download header, where there is one, and records behind one another. A container is
replaced by the records in its payload; the record that ends a stream, and a record cut short, end
the walk.
-/

namespace DiveCANHead.LogClient

open DiveCANHead.Lib DiveCANHead.FlashLog

/-- `LOG_DOWNLOAD_MAGIC` and the length decide whether `parseDclgHeader` finds a header. -/
def hasDclgHeader (bytes : List UInt8) : Bool :=
  logDclgHeaderLen ≤ bytes.length && bytes.take 4 == logDownloadMagic

/-- `walk`, the loop of `parseLogStream`; `records` are pushed in order. -/
def walk (buf : List UInt8) : List LogRecord :=
  if _h : buf.length < flEntryHdrSize ∨
      buf.length < flEntryHdrSize + LogRecord.lengthField (buf.take flEntryHdrSize) then []
  else
    let length := LogRecord.lengthField (buf.take flEntryHdrSize)
    let payload := (buf.drop flEntryHdrSize).take length
    let r := LogRecord.ofParts (buf.take flEntryHdrSize) payload
    if r.type = flTypeEndOfStream then []
    else
      (if r.type = flTypeBatch then walk payload else [r]) ++
        walk (buf.drop (flEntryHdrSize + length))
  termination_by buf.length
  decreasing_by
    · have hpos : 0 < flEntryHdrSize := by decide
      rw [List.length_take, List.length_drop]
      omega
    · have hpos : 0 < flEntryHdrSize := by decide
      rw [List.length_drop]
      omega

/-- `parseLogStream`. -/
def parseLogStream (input : List UInt8) : List LogRecord :=
  walk (if hasDclgHeader input then input.drop logDclgHeaderLen else input)

theorem walk_short {buf : List UInt8} (h : buf.length < flEntryHdrSize) : walk buf = [] := by
  rw [walk, dif_pos (.inl h)]

/-- A whole record at the front of a stream. -/
theorem walk_append {r : LogRecord} (hfits : r.Fits) (hend : r.type ≠ flTypeEndOfStream)
    (rest : List UInt8) :
    walk (r.bytes ++ rest) =
      (if r.type = flTypeBatch then walk r.payload else [r]) ++ walk rest := by
  have hsize : flEntryHdrSize = r.header.length := r.length_header.symm
  have htake : (r.bytes ++ rest).take flEntryHdrSize = r.header := by
    rw [LogRecord.bytes, List.append_assoc, hsize, List.take_left]
  have hdrop : (r.bytes ++ rest).drop flEntryHdrSize = r.payload ++ rest := by
    rw [LogRecord.bytes, List.append_assoc, hsize, List.drop_left]
  have hlen : LogRecord.lengthField r.header = r.payload.length :=
    LogRecord.lengthField_header hfits
  have hpart : LogRecord.ofParts r.header r.payload = r := r.ofParts_header
  have hlong : ¬((r.bytes ++ rest).length < flEntryHdrSize ∨
      (r.bytes ++ rest).length < flEntryHdrSize + r.payload.length) := by
    rw [LogRecord.bytes, List.length_append, List.length_append, ← hsize]
    omega
  rw [walk, htake, hlen, dif_neg hlong]
  dsimp only
  rw [hdrop, List.take_left, hpart, if_neg hend, ← List.drop_drop, hdrop, List.drop_left]

/-- Records that are no containers are read back. -/
theorem walk_flatMap {records : List LogRecord} (hfits : ∀ r ∈ records, r.Fits)
    (htype : ∀ r ∈ records, r.type ≠ flTypeEndOfStream ∧ r.type ≠ flTypeBatch) :
    walk (records.flatMap LogRecord.bytes) = records := by
  induction records with
  | nil => exact walk_short (by decide)
  | cons r records ih =>
    obtain ⟨hend, hbatch⟩ := htype r List.mem_cons_self
    rw [List.flatMap_cons, walk_append (hfits r List.mem_cons_self) hend, if_neg hbatch,
      ih (fun r hr => hfits r (.tail _ hr)) fun r hr => htype r (.tail _ hr)]
    rfl

/-! ## The front of a buffer -/

/-- The whole record at the front of a buffer, and what follows it. -/
def frontRecord (buf : List UInt8) : Option (LogRecord × List UInt8) :=
  let header := buf.take flEntryHdrSize
  let length := LogRecord.lengthField header
  if buf.length < flEntryHdrSize ∨ buf.length < flEntryHdrSize + length then none
  else some (.ofParts header ((buf.drop flEntryHdrSize).take length),
    buf.drop (flEntryHdrSize + length))

/-- The rest begins behind the payload. -/
theorem frontRecord_rest {buf rest : List UInt8} {r : LogRecord}
    (h : frontRecord buf = some (r, rest)) :
    rest = buf.drop (flEntryHdrSize + r.payload.length) ∧
      flEntryHdrSize + r.payload.length ≤ buf.length := by
  unfold frontRecord at h
  dsimp only at h
  split at h
  · cases h
  · rename_i hwhole
    obtain ⟨rfl, rfl⟩ := Prod.mk.inj (Option.some.inj h)
    have hlen : ((buf.drop flEntryHdrSize).take
        (LogRecord.lengthField (buf.take flEntryHdrSize))).length =
        LogRecord.lengthField (buf.take flEntryHdrSize) := by
      rw [List.length_take, List.length_drop]
      omega
    rw [LogRecord.ofParts, hlen]
    exact ⟨rfl, by omega⟩

/-- Both parts of a buffer are shorter than the buffer. -/
theorem frontRecord_shorter {buf rest : List UInt8} {r : LogRecord}
    (h : frontRecord buf = some (r, rest)) :
    r.payload.length < buf.length ∧ rest.length < buf.length := by
  have hpos : 0 < flEntryHdrSize := by decide
  obtain ⟨rfl, hwhole⟩ := frontRecord_rest h
  rw [List.length_drop]
  omega

/-- A whole record stays where it is when the buffer grows. -/
theorem frontRecord_append {buf rest : List UInt8} {r : LogRecord}
    (h : frontRecord buf = some (r, rest)) (more : List UInt8) :
    frontRecord (buf ++ more) = some (r, rest ++ more) := by
  unfold frontRecord at h ⊢
  dsimp only at h ⊢
  split at h
  · cases h
  · rename_i hwhole
    obtain ⟨hheader, hpayload⟩ := not_or.mp hwhole
    have htake : (buf ++ more).take flEntryHdrSize = buf.take flEntryHdrSize :=
      List.take_append_of_le_length (Nat.le_of_not_lt hheader)
    obtain ⟨rfl, rfl⟩ := Prod.mk.inj (Option.some.inj h)
    rw [htake, List.length_append, if_neg (by omega), List.drop_append_of_le_length (by omega),
      List.drop_append_of_le_length (by omega), List.take_append_of_le_length (by
        rw [List.length_drop]
        omega)]

theorem walk_eq (buf : List UInt8) :
    walk buf =
      match frontRecord buf with
      | none => []
      | some (r, rest) =>
        if r.type = flTypeEndOfStream then []
        else (if r.type = flTypeBatch then walk r.payload else [r]) ++ walk rest := by
  rw [walk, frontRecord]
  dsimp only
  split <;> rfl

/-- Where the parser begins. -/
def bodyStart (input : List UInt8) : ℕ := if hasDclgHeader input then logDclgHeaderLen else 0

theorem bodyStart_le (input : List UInt8) : bodyStart input ≤ logDclgHeaderLen := by
  unfold bodyStart
  split
  · exact Nat.le_refl _
  · exact Nat.zero_le _

theorem parseLogStream_eq (input : List UInt8) :
    parseLogStream input = walk (input.drop (bodyStart input)) := by
  unfold parseLogStream bodyStart
  split <;> rfl

/-- From its length on, the header of a buffer stays what it is. -/
theorem bodyStart_append {fed : List UInt8} (h : logDclgHeaderLen ≤ fed.length)
    (more : List UInt8) : bodyStart (fed ++ more) = bodyStart fed := by
  have hmagic : (fed ++ more).take 4 = fed.take 4 :=
    List.take_append_of_le_length (Nat.le_trans (by decide) h)
  have hlen : logDclgHeaderLen ≤ (fed ++ more).length := by
    rw [List.length_append]
    exact Nat.le_add_right_of_le h
  rw [bodyStart, bodyStart, hasDclgHeader, hasDclgHeader, hmagic, decide_eq_true h,
    decide_eq_true hlen]

end DiveCANHead.LogClient
