import DiveCANHead.Lib.Csv
import DiveCANHead.Lib.Digits
import DiveCANHead.LogClient.Parse
import DiveCANHead.Slcan.Codec

/-!
# The CSV export and its two importers (`LogExport.js`, `CsvSource.js`, `telemetry_log.py`)

A parsed log is exported with a row for each record. The viewer turns the text back into a stream
chunk by chunk; it takes a line only at the line feed behind it, and the export ends its last line
without one, so the last record is lost. The script reads rows, and loses none.
-/

namespace DiveCANHead.LogClient

open DiveCANHead.Lib DiveCANHead.FlashLog

open DiveCANHead.Slcan (toUint8)

/-! ## The export -/

/-- The texts of a record that no importer reads: `typeName` and `summarise(decoded)`. -/
structure RecordTexts where
  typeName : LogRecord → List ℕ
  summary : LogRecord → List ℕ

def codeUnits (cs : List Char) : List ℕ := cs.map Char.toNat

def colIndex : List ℕ := codeUnits ['i', 'n', 'd', 'e', 'x']

def colType : List ℕ := codeUnits ['t', 'y', 'p', 'e']

def colTypeName : List ℕ := codeUnits ['t', 'y', 'p', 'e', '_', 'n', 'a', 'm', 'e']

def colTsUs : List ℕ := codeUnits ['t', 's', '_', 'u', 's']

def colFlags : List ℕ := codeUnits ['f', 'l', 'a', 'g', 's']

def colSummary : List ℕ := codeUnits ['s', 'u', 'm', 'm', 'a', 'r', 'y']

def colPayloadHex : List ℕ :=
  codeUnits ['p', 'a', 'y', 'l', 'o', 'a', 'd', '_', 'h', 'e', 'x']

def csvHeader : List (List ℕ) :=
  [colIndex, colType, colTypeName, colTsUs, colFlags, colSummary, colPayloadHex]

/-- The type of a record, with `0x` in front. -/
def typeText (type : UInt8) : List ℕ := 48 :: 120 :: byteHex type

/-- The fields of a row of `buildExportRows`. -/
def exportRow (texts : RecordTexts) (r : LogRecord) (index : ℕ) : List (List ℕ) :=
  [toDecimal index, typeText r.type, texts.typeName r, toDecimal r.tsUs.toNat,
    toDecimal r.flags.toNat, texts.summary r, bytesHex r.payload]

def exportRows (texts : RecordTexts) (records : List LogRecord) : List (List (List ℕ)) :=
  csvHeader :: records.mapIdx fun i r => exportRow texts r i

/-- `toCSV`. -/
def toCSV (texts : RecordTexts) (records : List LogRecord) : List ℕ :=
  [10].intercalate ((exportRows texts records).map csvRow)

/-! ## The import of the viewer -/

/-- What JavaScript makes of the numbers in a row: `Number` for an element of a byte array, and
`BigInt` for a `BigUint64`, which may throw. Of all the texts they take, only decimal numerals come
from the export. -/
structure JsNumbers where
  byte : List ℕ → UInt8
  word : List ℕ → Option UInt64
  byte_decimal : ∀ b : UInt8, byte (toDecimal b.toNat) = b
  word_decimal : ∀ w : UInt64, word (toDecimal w.toNat) = some w

/-- `writeHex`: the bytes it writes. -/
def writeHex (hex : List ℕ) : List UInt8 :=
  (List.range (hex.length / 2)).map fun i =>
    toUint8 (parseInt16 (Slcan.slice hex (i * 2) (i * 2 + 2)))

/-- Where the import is between two lines. -/
structure CsvSink where
  headerSeen : Bool := false
  body : List UInt8 := []
  records : ℕ := 0
  deriving DecidableEq

/-- A line of the text. -/
def csvLine (js : JsNumbers) (sink : CsvSink) (line : List ℕ) : Option CsvSink :=
  if sink.headerSeen = false then some { sink with headerSeen := true }
  else if line = [] then some sink
  else
    let cells := splitRow line
    match cells[6]? with
    | none => some sink
    | some hex =>
      let type := toUint8 (parseInt16 (cells.getD 1 []))
      let flags := js.byte (cells.getD 4 [])
      (js.word (cells.getD 3 [])).map fun tsUs =>
        { sink with
          body := sink.body ++ ([type, flags] ++ leBytes 2 (hex.length / 2) ++
            leBytes 8 tsUs.toNat ++ writeHex hex)
          records := sink.records + 1 }

/-- Between two chunks: the part of a line that waits for its end. -/
structure CsvImport where
  carry : List ℕ := []
  sink : CsvSink := {}
  deriving DecidableEq

/-- A chunk of the text. -/
def csvChunk (js : JsNumbers) (st : CsvImport) (text : List ℕ) : Option CsvImport :=
  let lines := splits (fun c => c == 10) (st.carry ++ text)
  (lines.dropLast.foldlM (csvLine js) st.sink).map fun sink => ⟨lines.getLastD [], sink⟩

/-- The download header, with what the two last fields count. -/
def dclgHeader (totalBytes entryCount : ℕ) : List UInt8 :=
  logDownloadMagic ++ [1, 0, 0, 0] ++ leBytes 4 totalBytes ++ leBytes 4 entryCount

/-- `csvToStream` over the chunks of a text. -/
def csvToStream (js : JsNumbers) (chunks : List (List ℕ)) : Option (List UInt8) :=
  (chunks.foldlM (csvChunk js) {}).map fun st =>
    dclgHeader st.sink.body.length st.sink.records ++ st.sink.body

/-! ## The import of the script -/

/-- What Python's `int` makes of a text to a base, which may raise. Of all the texts it takes, only
decimal numerals and the types come from the export. -/
structure PyNumbers where
  int : ℕ → List ℕ → Option ℤ
  int_decimal : ∀ n : ℕ, int 10 (toDecimal n) = some (n : ℤ)
  int_type : ∀ b : UInt8, int 16 (typeText b) = some (b.toNat : ℤ)

/-- The white space that `bytes.fromhex` skips between two bytes. -/
def isHexSpace (c : ℕ) : Bool := c == 32 || (9 ≤ c && c ≤ 13)

/-- `bytes.fromhex`. -/
def fromHex : List ℕ → Option (List UInt8)
  | [] => some []
  | [c] => if isHexSpace c = true then some [] else none
  | c :: d :: cs =>
    if isHexSpace c = true then fromHex (d :: cs)
    else (hexValue c).bind fun x => (hexValue d).bind fun y =>
      (fromHex cs).map fun bytes => UInt8.ofNat (16 * x + y) :: bytes

/-- `row[name]` of a `csv.DictReader`: of columns with one name it is the last, and one that the
row is too short for is `None`. -/
def dictCell (names row : List (List ℕ)) (name : List ℕ) : Option (List ℕ) :=
  ((names.zip (row.map some ++ List.replicate (names.length - row.length) none)).reverse.lookup
    name).join

/-- `_HDR.pack`. -/
def packHdr (type flags : ℤ) (length : ℕ) (tsUs : ℤ) : Option (List UInt8) :=
  if (0 ≤ type ∧ type < 256) ∧ (0 ≤ flags ∧ flags < 256) ∧ length < 65536 ∧
      0 ≤ tsUs ∧ tsUs < UInt64.size then
    some ([UInt8.ofNat type.toNat, UInt8.ofNat flags.toNat] ++ leBytes 2 length ++
      leBytes 8 tsUs.toNat)
  else none

/-- The bytes of a row. -/
def tobinRow (py : PyNumbers) (names row : List (List ℕ)) : Option (List UInt8) :=
  ((dictCell names row colPayloadHex).bind fromHex).bind fun payload =>
    ((dictCell names row colType).bind (py.int 16)).bind fun type =>
      ((dictCell names row colFlags).bind (py.int 10)).bind fun flags =>
        ((dictCell names row colTsUs).bind (py.int 10)).bind fun tsUs =>
          (packHdr type flags payload.length tsUs).map fun header => header ++ payload

/-- `csv.field_size_limit`. -/
def fieldSizeLimit : ℕ := 16777216

/-- `cmd_tobin`: what it writes; `none` if it raises. -/
def tobin (py : PyNumbers) (text : List ℕ) : Option (List UInt8) :=
  let rows := readRows text
  if rows.any (fun row => row.any fun field => decide (fieldSizeLimit < field.length)) = true then
    none
  else
    ((rows.tail.filter fun row => decide (row ≠ [])).mapM (tobinRow py (rows.headD []))).bind
      fun records =>
        if records.flatten.length < UInt32.size ∧ records.length < UInt32.size then
          some (dclgHeader records.flatten.length records.length ++ records.flatten)
        else none

/-! ## What the parser gives -/

/-- A record that the parser gives: no container, and no end of a stream. -/
structure Parsed (r : LogRecord) : Prop where
  fits : r.Fits
  plain : r.type ≠ flTypeEndOfStream ∧ r.type ≠ flTypeBatch

theorem frontRecord_fits {buf rest : List UInt8} {r : LogRecord}
    (h : frontRecord buf = some (r, rest)) : r.Fits := by
  unfold frontRecord at h
  dsimp only at h
  split at h
  · cases h
  · obtain ⟨rfl, -⟩ := Prod.mk.inj (Option.some.inj h)
    have hfield := leNat_lt (((buf.take flEntryHdrSize).drop 2).take 2)
    have hwidth : 256 ^ (((buf.take flEntryHdrSize).drop 2).take 2).length ≤ 256 ^ 2 :=
      Nat.pow_le_pow_right (by decide) (List.length_take_le _ _)
    have hlen : ((buf.drop flEntryHdrSize).take
        (LogRecord.lengthField (buf.take flEntryHdrSize))).length ≤
          LogRecord.lengthField (buf.take flEntryHdrSize) := List.length_take_le _ _
    exact Nat.lt_of_le_of_lt hlen (Nat.lt_of_lt_of_le hfield hwidth)

theorem length_recordBytes (r : LogRecord) :
    r.bytes.length = flEntryHdrSize + r.payload.length := by
  rw [LogRecord.bytes, List.length_append, LogRecord.length_header]

/-- The records of a buffer are plain, and together no longer than the buffer. -/
theorem walk_parsed (buf : List UInt8) :
    (∀ r ∈ walk buf, Parsed r) ∧ ((walk buf).flatMap LogRecord.bytes).length ≤ buf.length := by
  induction hn : buf.length using Nat.strong_induction_on generalizing buf with
  | _ n ih =>
    subst hn
    have hnone : (∀ r ∈ ([] : List LogRecord), Parsed r) ∧
        (([] : List LogRecord).flatMap LogRecord.bytes).length ≤ buf.length :=
      ⟨nofun, Nat.zero_le _⟩
    rw [walk_eq]
    cases hfront : frontRecord buf with
    | none => exact hnone
    | some front =>
      obtain ⟨r, rest⟩ := front
      obtain ⟨hpayload, hshorter⟩ := frontRecord_shorter hfront
      obtain ⟨hrest, hwhole⟩ := frontRecord_rest hfront
      have hleft : flEntryHdrSize + r.payload.length + rest.length = buf.length := by
        rw [hrest, List.length_drop]
        omega
      obtain ⟨hplain, hlen⟩ := ih rest.length hshorter rest rfl
      dsimp only
      by_cases hend : r.type = flTypeEndOfStream
      · rw [if_pos hend]
        exact hnone
      rw [if_neg hend]
      by_cases hbatch : r.type = flTypeBatch
      · obtain ⟨hinner, hinside⟩ := ih r.payload.length hpayload r.payload rfl
        rw [if_pos hbatch]
        refine ⟨fun s hs => (List.mem_append.mp hs).elim (hinner s) (hplain s), ?_⟩
        rw [List.flatMap_append, List.length_append]
        omega
      · rw [if_neg hbatch]
        refine ⟨fun s hs => ?_, ?_⟩
        · rcases List.mem_cons.mp hs with rfl | hs
          · exact ⟨frontRecord_fits hfront, hend, hbatch⟩
          · exact hplain s hs
        · show (r.bytes ++ (walk rest).flatMap LogRecord.bytes).length ≤ _
          rw [List.length_append, length_recordBytes]
          omega

theorem parseLogStream_parsed (input : List UInt8) :
    (∀ r ∈ parseLogStream input, Parsed r) ∧
      ((parseLogStream input).flatMap LogRecord.bytes).length ≤ input.length := by
  rw [parseLogStream_eq]
  obtain ⟨hplain, hlen⟩ := walk_parsed (input.drop (bodyStart input))
  rw [List.length_drop] at hlen
  exact ⟨hplain, hlen.trans (Nat.sub_le _ _)⟩

/-- A stream of plain records behind a header is parsed into them. -/
theorem parseLogStream_dclg {records : List LogRecord} (h : ∀ r ∈ records, Parsed r)
    (totalBytes entryCount : ℕ) :
    parseLogStream (dclgHeader totalBytes entryCount ++ records.flatMap LogRecord.bytes) =
      records := by
  have hlen : (dclgHeader totalBytes entryCount).length = logDclgHeaderLen := by
    rw [dclgHeader, List.length_append, List.length_append, length_leBytes, length_leBytes]
    rfl
  have hheader : hasDclgHeader
      (dclgHeader totalBytes entryCount ++ records.flatMap LogRecord.bytes) = true := by
    have hmagic : (dclgHeader totalBytes entryCount ++
        records.flatMap LogRecord.bytes).take 4 = logDownloadMagic := rfl
    rw [hasDclgHeader, hmagic, List.length_append, hlen, Bool.and_eq_true, decide_eq_true_eq]
    exact ⟨Nat.le_add_right _ _, beq_self_eq_true _⟩
  rw [parseLogStream, if_pos hheader, ← hlen, List.drop_left]
  exact walk_flatMap (fun r hr => (h r hr).fits) fun r hr => (h r hr).plain

/-! ## The import of an export -/

theorem parseInt16_typeText (type : UInt8) :
    parseInt16 (typeText type) = some (type.toNat : ℤ) := by
  have hall : (byteHex type).takeWhile isHex = byteHex type :=
    List.takeWhile_eq_self_iff.mpr fun c hc => isHex_of_mem_lowerHex hc
  have hne : byteHex type ≠ [] := List.ne_nil_of_length_pos (by
    rw [length_byteHex]
    decide)
  have hstart : numberStart (typeText type) = byteHex type := rfl
  have hsign : (typeText type).dropWhile isBlank = typeText type := rfl
  unfold parseInt16
  dsimp only
  rw [hstart, hall, if_neg hne, hsign, byteHex, ofHex_lowerHex]
  rfl

theorem toUint8_toNat (b : UInt8) : toUint8 (some (b.toNat : ℤ)) = b := by
  have hlt := b.toNat_lt
  have hmod : ((b.toNat : ℤ) % 256).toNat = b.toNat := by omega
  show UInt8.ofNat ((b.toNat : ℤ) % 256).toNat = b
  rw [hmod, UInt8.ofNat_toNat]

theorem writeHex_bytesHex (bytes : List UInt8) : writeHex (bytesHex bytes) = bytes := by
  unfold writeHex
  rw [length_bytesHex, Nat.mul_div_cancel_left _ (by decide)]
  induction bytes with
  | nil => rfl
  | cons b bytes ih =>
    have hcons : bytesHex (b :: bytes) = byteHex b ++ bytesHex bytes := rfl
    have htwo := length_byteHex b
    have hfirst : Slcan.slice (byteHex b ++ bytesHex bytes) (0 * 2) (0 * 2 + 2) = byteHex b := by
      show (byteHex b ++ bytesHex bytes).take 2 = byteHex b
      rw [← htwo, List.take_left]
    have hnext : ∀ i, Slcan.slice (byteHex b ++ bytesHex bytes) ((i + 1) * 2) ((i + 1) * 2 + 2) =
        Slcan.slice (bytesHex bytes) (i * 2) (i * 2 + 2) := by
      intro i
      have hdrop : (byteHex b ++ bytesHex bytes).drop ((i + 1) * 2) =
          (bytesHex bytes).drop (i * 2) := by
        rw [Nat.succ_mul, Nat.add_comm, ← List.drop_drop, ← htwo, List.drop_left]
      unfold Slcan.slice
      rw [hdrop]
      congr 1
      omega
    rw [List.length_cons, List.range_succ_eq_map, List.map_cons, List.map_map, hcons, hfirst,
      parseInt16_byteHex, toUint8_toNat]
    refine congrArg (b :: ·) (Eq.trans (List.map_congr_left fun i _ => ?_) ih)
    show toUint8 (parseInt16 (Slcan.slice (byteHex b ++ bytesHex bytes) ((i + 1) * 2)
      ((i + 1) * 2 + 2))) = _
    rw [hnext]

section

variable {js : JsNumbers} {texts : RecordTexts}

theorem csvRow_ne_nil (field next : List ℕ) (fields : List (List ℕ)) :
    csvRow (field :: next :: fields) ≠ [] := by
  rw [csvRow_cons]
  exact List.append_ne_nil_of_right_ne_nil _ (List.cons_ne_nil _ _)

/-- A row of the export puts its record at the end. -/
theorem csvLine_exportRow {sink : CsvSink} (hseen : sink.headerSeen = true) (r : LogRecord)
    (i : ℕ) : csvLine js sink (csvRow (exportRow texts r i)) =
      some { sink with body := sink.body ++ r.bytes, records := sink.records + 1 } := by
  have hcells : splitRow (csvRow (exportRow texts r i)) = exportRow texts r i :=
    splitRow_csvRow (List.cons_ne_nil _ _)
  have hline : csvRow (exportRow texts r i) ≠ [] := csvRow_ne_nil _ _ _
  unfold csvLine
  rw [if_neg (by rw [hseen]; decide), if_neg hline, hcells]
  have hbytes : [toUint8 (parseInt16 (typeText r.type)), js.byte (toDecimal r.flags.toNat)] ++
      leBytes 2 ((bytesHex r.payload).length / 2) ++ leBytes 8 r.tsUs.toNat ++
        writeHex (bytesHex r.payload) = r.bytes := by
    rw [parseInt16_typeText, toUint8_toNat, js.byte_decimal, length_bytesHex,
      Nat.mul_div_cancel_left _ (by decide), writeHex_bytesHex]
    rfl
  show (js.word (toDecimal r.tsUs.toNat)).map _ = _
  rw [js.word_decimal]
  exact congrArg (fun bytes => some { sink with
    body := sink.body ++ bytes
    records := sink.records + 1 }) hbytes

/-- The rows of an export put their records behind one another. -/
theorem foldlM_exportRows (records : List LogRecord) (number : ℕ → ℕ) (sink : CsvSink)
    (hseen : sink.headerSeen = true) :
    (records.mapIdx fun i r => csvRow (exportRow texts r (number i))).foldlM (csvLine js) sink =
      some { sink with
        body := sink.body ++ records.flatMap LogRecord.bytes
        records := sink.records + records.length } := by
  induction records generalizing number sink with
  | nil =>
    show some sink = some { sink with body := sink.body ++ [] }
    rw [List.append_nil]
  | cons r records ih =>
    rw [List.mapIdx_cons, List.foldlM_cons, csvLine_exportRow hseen, Option.bind_eq_bind,
      Option.bind_some,
      ih (fun i => number (i + 1))
        { sink with body := sink.body ++ r.bytes, records := sink.records + 1 } hseen,
      List.flatMap_cons, List.append_assoc, List.length_cons, Nat.add_assoc, Nat.add_comm 1]

/-- However the text is cut into chunks, all of its lines but the last are taken. -/
theorem foldlM_csvChunk (chunks : List (List ℕ)) :
    chunks.foldlM (csvChunk js) {} =
      ((splits (fun c => c == 10) chunks.flatten).dropLast.foldlM (csvLine js) {}).map
        fun sink => ⟨(splits (fun c => c == 10) chunks.flatten).getLastD [], sink⟩ := by
  induction chunks using List.reverseRecOn with
  | nil => rfl
  | append_singleton chunks text ih =>
    have hne : splits (fun c => c == 10)
        ((splits (fun c => c == 10) chunks.flatten).getLastD [] ++ text) ≠ [] := splits_ne_nil _
    have hlast : ((splits (fun c => c == 10) chunks.flatten).dropLast ++
        splits (fun c => c == 10)
          ((splits (fun c => c == 10) chunks.flatten).getLastD [] ++ text)).getLastD [] =
        (splits (fun c => c == 10)
          ((splits (fun c => c == 10) chunks.flatten).getLastD [] ++ text)).getLastD [] := by
      rw [List.getLastD_eq_getLast?, List.getLast?_append_of_ne_nil _ hne,
        ← List.getLastD_eq_getLast?]
    rw [List.foldlM_append, ih, List.flatten_append, List.flatten_singleton, splits_append,
      List.dropLast_append_of_ne_nil hne, List.foldlM_append, hlast]
    cases (splits (fun c => c == 10) chunks.flatten).dropLast.foldlM (csvLine js) {} with
    | none => rfl
    | some sink =>
      show (csvChunk js ⟨(splits (fun c => c == 10) chunks.flatten).getLastD [], sink⟩ text >>=
        fun st => [].foldlM (csvChunk js) st) = _
      exact bind_pure _

/-- Only the two texts of a record can have line feeds. -/
theorem exportRow_line {r : LogRecord} (hname : 10 ∉ texts.typeName r)
    (hsummary : 10 ∉ texts.summary r) (i : ℕ) : ∀ field ∈ exportRow texts r i, 10 ∉ field := by
  have hdecimal : ∀ n, 10 ∉ toDecimal n := fun n h => by
    have hrange := range_of_mem_toDecimal h
    omega
  have hhex : ∀ cs : List ℕ, (∀ c ∈ cs, isHex c = true) → 10 ∉ cs := fun cs hcs h =>
    absurd (hcs 10 h) (by decide)
  have htype : 10 ∉ typeText r.type := by
    have hdigits := hhex (byteHex r.type) fun c hc => isHex_of_mem_lowerHex hc
    simp [typeText, hdigits]
  have hpayload := hhex (bytesHex r.payload) fun c hc => isHex_of_mem_bytesHex hc
  simp [exportRow, hdecimal, htype, hname, hsummary, hpayload]

theorem dropLast_mapIdx {α β : Type} (f : ℕ → α → β) (l : List α) :
    (l.mapIdx f).dropLast = l.dropLast.mapIdx f := by
  apply List.ext_getElem?
  intro i
  rw [List.getElem?_dropLast, List.getElem?_mapIdx, List.getElem?_mapIdx, List.getElem?_dropLast,
    List.length_mapIdx]
  split <;> rfl

/-- The lines of an export that have a line feed behind them. -/
theorem dropLast_lines {records : List LogRecord} (hne : records ≠ [])
    (hlines : ∀ r ∈ records, 10 ∉ texts.typeName r ∧ 10 ∉ texts.summary r) :
    (splits (fun c => c == 10) (toCSV texts records)).dropLast =
      csvRow csvHeader :: records.dropLast.mapIdx fun i r => csvRow (exportRow texts r i) := by
  have hmap : (exportRows texts records).map csvRow =
      csvRow csvHeader :: records.mapIdx fun i r => csvRow (exportRow texts r i) := by
    rw [exportRows, List.map_cons, List.mapIdx_eq_zipIdx_map, List.mapIdx_eq_zipIdx_map,
      List.map_map]
    rfl
  have hrest : (records.mapIdx fun i r => csvRow (exportRow texts r i)) ≠ [] := fun h =>
    hne (List.mapIdx_eq_nil_iff.mp h)
  rw [toCSV, splits_intercalate (by decide) (by rw [hmap]; exact List.cons_ne_nil _ _), hmap,
    List.dropLast_cons_of_ne_nil hrest, dropLast_mapIdx]
  intro row hrow c hc
  obtain ⟨fields, hfields, rfl⟩ := List.mem_map.mp hrow
  have hline : ∀ field ∈ fields, ∀ c ∈ field, c ≠ 10 := by
    rcases List.mem_cons.mp hfields with rfl | hfields
    · decide
    · obtain ⟨i, hi, rfl⟩ := List.mem_mapIdx.mp hfields
      obtain ⟨hname, hsummary⟩ := hlines _ (List.getElem_mem hi)
      exact fun field hfield c hc h => exportRow_line hname hsummary i field hfield (h ▸ hc)
  exact beq_eq_false_iff_ne.mpr (csvRow_line hline c hc)

/-- However the text of an export is cut into chunks, if no text in it has a line feed, the viewer
makes a stream of all of its records but the last, under a header that counts them. -/
theorem csv_imports_allButLast (js : JsNumbers) {texts : RecordTexts} {input : List UInt8}
    (hlines : ∀ r ∈ parseLogStream input, 10 ∉ texts.typeName r ∧ 10 ∉ texts.summary r)
    {chunks : List (List ℕ)} (hchunks : chunks.flatten = toCSV texts (parseLogStream input)) :
    let kept := (parseLogStream input).dropLast
    let body := kept.flatMap LogRecord.bytes
    csvToStream js chunks = some (dclgHeader body.length kept.length ++ body) ∧
      parseLogStream (dclgHeader body.length kept.length ++ body) = kept := by
  intro kept body
  refine ⟨?_, parseLogStream_dclg (fun r hr =>
    (parseLogStream_parsed input).1 r (List.mem_of_mem_dropLast hr)) _ _⟩
  unfold csvToStream
  rw [foldlM_csvChunk, hchunks]
  by_cases hne : parseLogStream input = []
  · have hkept : kept = [] := by
      show (parseLogStream input).dropLast = []
      rw [hne]
      rfl
    have hbody : body = [] := by
      show kept.flatMap LogRecord.bytes = []
      rw [hkept]
      rfl
    rw [hne, hkept, hbody]
    rfl
  · rw [dropLast_lines hne hlines, List.foldlM_cons]
    have hheader : csvLine js {} (csvRow csvHeader) = some { headerSeen := true } := rfl
    have hrows : ((parseLogStream input).dropLast.mapIdx fun i r =>
        csvRow (exportRow texts r i)).foldlM (csvLine js) { headerSeen := true } =
          some ⟨true, [] ++ body, 0 + kept.length⟩ :=
      foldlM_exportRows kept (fun i => i) { headerSeen := true } rfl
    rw [hheader, Option.bind_eq_bind, Option.bind_some, hrows, List.nil_append, Nat.zero_add]
    rfl

end

/-- Conversions that take every text for a decimal numeral. -/
def JsNumbers.decimal : JsNumbers where
  byte cs := UInt8.ofNat (ofDecimal cs)
  word cs := some (UInt64.ofNat (ofDecimal cs))
  byte_decimal b := by rw [ofDecimal_toDecimal, UInt8.ofNat_toNat]
  word_decimal w := by rw [ofDecimal_toDecimal, UInt64.ofNat_toNat]

def firstText : LogRecord := ⟨0x40, 0, 7, [0x61]⟩

def secondText : LogRecord := ⟨0x40, 1, 9, [0x62, 0x63]⟩

def twoTexts : List UInt8 := dclgHeader 27 2 ++ [firstText, secondText].flatMap LogRecord.bytes

/-- Texts that have to be put in quotes. -/
def quotedTexts : RecordTexts := ⟨fun _ => [84], fun _ => [44, 34]⟩

theorem parseLogStream_twoTexts : parseLogStream twoTexts = [firstText, secondText] := by
  have hfirst : Parsed firstText := ⟨show 1 < 65536 by decide, by decide⟩
  have hsecond : Parsed secondText := ⟨show 2 < 65536 by decide, by decide⟩
  refine parseLogStream_dclg (fun r hr => ?_) 27 2
  rcases List.mem_cons.mp hr with rfl | hr
  · exact hfirst
  · rw [List.mem_singleton.mp hr]
    exact hsecond

/-- Of two records the viewer takes one, though the text comes in two chunks. -/
theorem csv_imports_allButLast_twoTexts :
    csvToStream .decimal [(toCSV quotedTexts [firstText, secondText]).take 80,
      (toCSV quotedTexts [firstText, secondText]).drop 80] =
        some (dclgHeader 13 1 ++ firstText.bytes) := by
  have hlines : ∀ r ∈ parseLogStream twoTexts,
      10 ∉ quotedTexts.typeName r ∧ 10 ∉ quotedTexts.summary r := fun _ _ =>
    ⟨show 10 ∉ [84] by decide, show 10 ∉ [44, 34] by decide⟩
  have hchunks : [(toCSV quotedTexts (parseLogStream twoTexts)).take 80,
      (toCSV quotedTexts (parseLogStream twoTexts)).drop 80].flatten =
        toCSV quotedTexts (parseLogStream twoTexts) := by
    rw [List.flatten_cons, List.flatten_singleton, List.take_append_drop]
  have himport := csv_imports_allButLast .decimal hlines hchunks
  rw [parseLogStream_twoTexts] at himport
  exact himport.1

/-! ## The script's import of an export -/

section

variable {py : PyNumbers} {texts : RecordTexts} {records : List LogRecord}

theorem fromHex_bytesHex (bytes : List UInt8) : fromHex (bytesHex bytes) = some bytes := by
  induction bytes with
  | nil => rfl
  | cons b bytes ih =>
    obtain ⟨c, d, hpair, hc, hd, hvalue⟩ := byteHex_eq b
    obtain ⟨x, hx⟩ := hexValue_of_isHex hc
    obtain ⟨y, hy⟩ := hexValue_of_isHex hd
    have hcons : bytesHex (b :: bytes) = c :: d :: bytesHex bytes := by
      show byteHex b ++ bytesHex bytes = _
      rw [hpair]
      rfl
    have hspace : ¬isHexSpace c = true := by
      have hrange := range_of_isHex hc
      simp only [isHexSpace, Bool.or_eq_true, beq_iff_eq, Bool.and_eq_true, decide_eq_true_eq]
      omega
    rw [hx, hy, Option.getD_some, Option.getD_some] at hvalue
    rw [hcons, fromHex, if_neg hspace, hx, hy, ih, Option.bind_some, Option.bind_some, hvalue,
      UInt8.ofNat_toNat]
    rfl

theorem packHdr_record {r : LogRecord} (h : r.Fits) :
    packHdr r.type.toNat r.flags.toNat r.payload.length r.tsUs.toNat = some r.header := by
  have htype := r.type.toNat_lt
  have hflags := r.flags.toNat_lt
  have hts := r.tsUs.toNat_lt
  have hfits : r.payload.length < 65536 := h
  have hsize : UInt64.size = 18446744073709551616 := rfl
  unfold packHdr
  rw [if_pos (by omega), Int.toNat_natCast, Int.toNat_natCast, Int.toNat_natCast,
    UInt8.ofNat_toNat, UInt8.ofNat_toNat]
  rfl

/-- A row of the export gives the bytes of its record. -/
theorem tobinRow_exportRow {r : LogRecord} (h : r.Fits) (i : ℕ) :
    tobinRow py csvHeader (exportRow texts r i) = some r.bytes := by
  have hpayload : dictCell csvHeader (exportRow texts r i) colPayloadHex =
      some (bytesHex r.payload) := rfl
  have htype : dictCell csvHeader (exportRow texts r i) colType = some (typeText r.type) := rfl
  have hflags : dictCell csvHeader (exportRow texts r i) colFlags =
      some (toDecimal r.flags.toNat) := rfl
  have hts : dictCell csvHeader (exportRow texts r i) colTsUs =
      some (toDecimal r.tsUs.toNat) := rfl
  unfold tobinRow
  rw [hpayload, htype, hflags, hts, Option.bind_some, Option.bind_some, Option.bind_some,
    Option.bind_some, fromHex_bytesHex, py.int_type, py.int_decimal, py.int_decimal,
    Option.bind_some, Option.bind_some, Option.bind_some, Option.bind_some, packHdr_record h]
  rfl

theorem mapM_exportRows (hfits : ∀ r ∈ records, r.Fits) (number : ℕ → ℕ) :
    (records.mapIdx fun i r => exportRow texts r (number i)).mapM (tobinRow py csvHeader) =
      some (records.map LogRecord.bytes) := by
  induction records generalizing number with
  | nil => rfl
  | cons r records ih =>
    rw [List.mapIdx_cons, List.mapM_cons, tobinRow_exportRow (hfits r List.mem_cons_self),
      Option.bind_eq_bind, Option.bind_some,
      ih (fun s hs => hfits s (.tail _ hs)) fun i => number (i + 1)]
    rfl

/-- The texts of a record can be read back by rows. -/
structure RecordTexts.Readable (texts : RecordTexts) (r : LogRecord) : Prop where
  typeName : Legible (texts.typeName r) ∧ (texts.typeName r).length ≤ fieldSizeLimit
  summary : Legible (texts.summary r) ∧ (texts.summary r).length ≤ fieldSizeLimit

/-- Every field of a row can be read back. -/
theorem exportRow_readable {r : LogRecord} (htexts : texts.Readable r) (hfits : r.Fits) {i : ℕ}
    (hi : i < UInt32.size) :
    ∀ field ∈ exportRow texts r i, Legible field ∧ field.length ≤ fieldSizeLimit := by
  have hdecimal : ∀ n, n < UInt64.size →
      Legible (toDecimal n) ∧ (toDecimal n).length ≤ fieldSizeLimit := by
    intro n hn
    have hlen : (toDecimal n).length ≤ 19 + 1 :=
      length_toDecimal_le (Nat.lt_of_lt_of_le hn (by decide))
    refine ⟨.inr fun h => ?_, hlen.trans (by decide)⟩
    have hrange := range_of_mem_toDecimal h
    omega
  have hhex : ∀ cs : List ℕ, (∀ c ∈ cs, isHex c = true) → Legible cs := fun cs hcs =>
    .inr fun h => absurd (hcs 13 h) (by decide)
  have htype : Legible (typeText r.type) ∧ (typeText r.type).length ≤ fieldSizeLimit := by
    have hdigits : 13 ∉ byteHex r.type := fun h => absurd (isHex_of_mem_lowerHex h) (by decide)
    refine ⟨.inr (by simp [typeText, hdigits]), ?_⟩
    rw [typeText, List.length_cons, List.length_cons, length_byteHex]
    decide
  have hpayload : Legible (bytesHex r.payload) ∧
      (bytesHex r.payload).length ≤ fieldSizeLimit := by
    have hlen : r.payload.length < 65536 := hfits
    refine ⟨hhex _ fun c hc => isHex_of_mem_bytesHex hc, ?_⟩
    rw [length_bytesHex, fieldSizeLimit]
    omega
  have hindex := hdecimal i (hi.trans (by decide))
  have hts := hdecimal r.tsUs.toNat r.tsUs.toNat_lt
  have hflags := hdecimal r.flags.toNat (r.flags.toNat_lt.trans (by decide))
  intro field hfield
  simp only [exportRow, List.mem_cons, List.not_mem_nil, or_false] at hfield
  rcases hfield with rfl | rfl | rfl | rfl | rfl | rfl | rfl
  · exact hindex
  · exact htype
  · exact htexts.typeName
  · exact hts
  · exact hflags
  · exact htexts.summary
  · exact hpayload

theorem length_le_flatMap_bytes (records : List LogRecord) :
    records.length ≤ (records.flatMap LogRecord.bytes).length := by
  induction records with
  | nil => exact Nat.le_refl _
  | cons r records ih =>
    have hpos : 0 < flEntryHdrSize := by decide
    rw [List.flatMap_cons, List.length_append, length_recordBytes, List.length_cons]
    omega

/-- The script makes a stream of all records of an export, under a header that counts them, if its
texts can be read back. -/
theorem csv_tobin_all (py : PyNumbers) {texts : RecordTexts} {input : List UInt8}
    (htexts : ∀ r ∈ parseLogStream input, texts.Readable r) (hsize : input.length < UInt32.size) :
    let records := parseLogStream input
    let body := records.flatMap LogRecord.bytes
    tobin py (toCSV texts records) = some (dclgHeader body.length records.length ++ body) ∧
      parseLogStream (dclgHeader body.length records.length ++ body) = records := by
  intro records body
  obtain ⟨hparsed, hlen⟩ := parseLogStream_parsed input
  have hbody : body.length < UInt32.size := Nat.lt_of_le_of_lt hlen hsize
  have hcount : records.length < UInt32.size :=
    Nat.lt_of_le_of_lt (length_le_flatMap_bytes records) hbody
  refine ⟨?_, parseLogStream_dclg hparsed _ _⟩
  have hfields : ∀ row ∈ exportRows texts records,
      (∀ field ∈ row, Legible field ∧ field.length ≤ fieldSizeLimit) ∧ row ≠ [] ∧ row ≠ [[]] := by
    intro row hrow
    rcases List.mem_cons.mp hrow with rfl | hrow
    · exact ⟨by decide, by decide, by decide⟩
    · obtain ⟨i, hi, rfl⟩ := List.mem_mapIdx.mp hrow
      have hmem : records[i] ∈ records := List.getElem_mem hi
      exact ⟨exportRow_readable (htexts _ hmem) (hparsed _ hmem).fits (hi.trans hcount), nofun,
        fun h => List.cons_ne_nil _ _ (List.cons.inj h).2⟩
  have hread : readRows (toCSV texts records) = exportRows texts records :=
    readRows_intercalate (List.cons_ne_nil _ _) fun row hrow =>
      ⟨(hfields row hrow).2.1, (hfields row hrow).2.2, fun field hfield =>
        ((hfields row hrow).1 field hfield).1⟩
  have hsmall : ¬(exportRows texts records).any (fun row => row.any fun field =>
      decide (fieldSizeLimit < field.length)) = true := by
    intro hany
    obtain ⟨row, hrow, hany⟩ := List.any_eq_true.mp hany
    obtain ⟨field, hfield, hlong⟩ := List.any_eq_true.mp hany
    exact absurd (of_decide_eq_true hlong) (((hfields row hrow).1 field hfield).2.not_gt)
  have hfilter : (exportRows texts records).tail.filter (fun row => decide (row ≠ [])) =
      records.mapIdx fun i r => exportRow texts r i :=
    List.filter_eq_self.mpr fun row hrow =>
      decide_eq_true (hfields row (List.mem_cons_of_mem _ hrow)).2.1
  have hbytes : ((records.mapIdx fun i r => exportRow texts r i).mapM
      (tobinRow py csvHeader)) = some (records.map LogRecord.bytes) :=
    mapM_exportRows (fun r hr => (hparsed r hr).fits) fun i => i
  have hflat : (records.map LogRecord.bytes).flatten = body := rfl
  have hhead : (exportRows texts records).headD [] = csvHeader := rfl
  unfold tobin
  dsimp only
  rw [hread, if_neg hsmall, hfilter, hhead, hbytes, Option.bind_some, hflat, List.length_map,
    if_pos ⟨hbody, hcount⟩]

end

/-- Conversions that take every text for a numeral of the base. -/
def PyNumbers.plain : PyNumbers where
  int base cs := if base = 16 then parseInt16 cs else some (ofDecimal cs : ℤ)
  int_decimal n := by rw [if_neg (by decide), ofDecimal_toDecimal]
  int_type b := by rw [if_pos rfl, parseInt16_typeText]

/-- The script takes both records. -/
theorem csv_tobin_all_twoTexts :
    tobin .plain (toCSV quotedTexts [firstText, secondText]) = some twoTexts := by
  have htexts : ∀ r ∈ parseLogStream twoTexts, quotedTexts.Readable r := fun _ _ =>
    ⟨show Legible [84] ∧ 1 ≤ fieldSizeLimit by decide,
      show Legible [44, 34] ∧ 2 ≤ fieldSizeLimit by decide⟩
  have htobin := csv_tobin_all .plain htexts (by decide)
  rw [parseLogStream_twoTexts] at htobin
  exact htobin.1

end DiveCANHead.LogClient
