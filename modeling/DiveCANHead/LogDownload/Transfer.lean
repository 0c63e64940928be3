import DiveCANHead.Lib.Segment
import DiveCANHead.LogDownload.Ranges
import DiveCANHead.Uds.Request

/-!
# Streaming a selection (`uds_log_download.c`)

RequestDownload negotiates the block length, every TransferData takes the next
block off the reader, and the first one of a stream starts with the stream header.
The log is the content of the two FCBs, which a running stream leaves alone because
the writer is paused. `entry_count_estimate` is zero in every range a resolver fills
in, and so are the bytes of it in the header.
-/

namespace DiveCANHead.LogDownload

open DiveCANHead.Lib DiveCANHead.FlashLog DiveCANHead.Uds

/-- `LOG_DOWNLOAD_SENTINEL_ADDR`. -/
def logDownloadSentinelAddr : UInt32 := 0xFFFFFFFE

def logDownloadReqLen : ℕ := 12

/-- `LOG_DOWNLOAD_MIN_BLOCK`. -/
def logDownloadMinBlock : ℕ := 32

def logDownloadAddrLenFmt : UInt8 := 0x44

def logDownloadLenFmtTwoByte : UInt8 := 0x20

def logTransferMinReqLen : ℕ := 3

def logExitMinReqLen : ℕ := 2

/-- `LOG_HEADER_BYTES`. -/
def logHeaderBytes : ℕ := 16

/-- `LogDownloadSM_t` with the transfer's part of it, and the stall watchdog's stamp. -/
structure Download where
  sm : LogDownloadSM := {}
  maxBlockLength : ℕ := 0
  streamActivityMs : UInt32 := 0
  deriving DecidableEq

/-- `UDS_LogDownload_Claims`. -/
def claims (d : Download) (sid : UInt8) (q : Request) : Bool :=
  if sid = sidRequestDownload then
    decide (d.sm.state = .streaming) && q.longLE 4 == logDownloadSentinelAddr
  else if sid = sidTransferData ∨ sid = sidRequestTransferExit then decide (d.sm.state = .streaming)
  else false

/-! ## RequestDownload -/

/-- The block length for the client's maximum, which is zero where it leaves it open. -/
def negotiatedBlock (q : Request) : ℕ :=
  let cap := maxResponseLength - 3
  let reqMax := (q.longLE 8).toNat
  if reqMax ≠ 0 ∧ reqMax < cap then
    if reqMax < logDownloadMinBlock then logDownloadMinBlock else reqMax
  else cap

/-- `fl_handle_request_download`. -/
def handleRequestDownload (d : Download) (q : Request) : List UInt8 × Download :=
  if q.length ≠ logDownloadReqLen then
    (negativeResponse sidRequestDownload .incorrectMsgLen, d)
  else if q.byte 3 ≠ logDownloadAddrLenFmt then
    (negativeResponse sidRequestDownload .requestOutOfRange, d)
  else
    let block := negotiatedBlock q
    ([sidRequestDownload + responseSidOffset, logDownloadLenFmtTwoByte,
        UInt8.ofNat (block / 256), UInt8.ofNat block],
      { d with sm := { d.sm with nextSeq := 1, headerSent := false }, maxBlockLength := block })

/-! ## TransferData -/

def FlashLogDest.byte : FlashLogDest → UInt8
  | .telemetry => 0
  | .text => 1

/-- `fl_build_header`: magic, version, flags, stream, a reserved byte, and the two totals,
which are not known. -/
def buildHeader (dest : FlashLogDest) : List UInt8 :=
  [0x44, 0x4C, 0x43, 0x47, 1, 0, dest.byte, 0, 0, 0, 0, 0, 0, 0, 0, 0]

/-- `fl_fill_chunk_body`: entries until the chunk is full or the range is exhausted; `none` is a
failed read. Every round takes a byte or ends the loop. -/
def fillChunkBody (f : Fcb) : ℕ → ℕ → FlashLogReader → Option (List UInt8) × FlashLogReader
  | 0, _, r => (some [], r)
  | rounds + 1, remaining, r =>
    if remaining = 0 then (some [], r)
    else
      match readerNext f r remaining with
      | (none, r) => (none, r)
      | (some [], r) => (some [], r)
      | (some (b :: bytes), r) =>
        let (rest, r) := fillChunkBody f rounds (remaining - (b :: bytes).length) r
        (rest.map fun rest => b :: bytes ++ rest, r)

/-- The sequence number after `seq`, which skips zero. -/
def nextSeqAfter (seq : UInt8) : UInt8 := if seq + 1 = 0 then 1 else seq + 1

/-- `fl_handle_transfer_data`. -/
def handleTransferData (log : FlashLogDest → Fcb) (now : UInt32) (d : Download) (q : Request) :
    List UInt8 × Download :=
  if q.length < logTransferMinReqLen then
    (negativeResponse sidTransferData .incorrectMsgLen, d)
  else if q.byte 2 ≠ d.sm.nextSeq then
    (negativeResponse sidTransferData .wrongBlockSeqCounter, d)
  else
    let cap := d.maxBlockLength
    let d := { d with streamActivityMs := now }
    if d.sm.headerSent = false ∧ cap < logHeaderBytes then
      (negativeResponse sidTransferData .generalProgFail, d)
    else
      -- fl_prime_header
      let header := if d.sm.headerSent then [] else buildHeader d.sm.range.dest
      let reader := d.sm.reader
      let (body, cursor) :=
        fillChunkBody (log reader.dest) (cap - header.length) (cap - header.length) reader.cursor
      let sm := { d.sm with headerSent := true, reader := { reader with cursor := cursor } }
      match body with
      | none => (negativeResponse sidTransferData .generalProgFail, { d with sm := sm })
      | some body =>
        ((sidTransferData + responseSidOffset) :: q.byte 2 :: (header ++ body),
          { d with sm := { sm with nextSeq := nextSeqAfter sm.nextSeq } })

/-! ## RequestTransferExit and the dispatch -/

/-- `fl_handle_transfer_exit`. -/
def handleTransferExit (d : Download) (q : Request) : List UInt8 × Download :=
  if q.length < logExitMinReqLen then
    (negativeResponse sidRequestTransferExit .incorrectMsgLen, d)
  else ([sidRequestTransferExit + responseSidOffset], { d with sm := leaveStream d.sm })

/-- `UDS_LogDownload_Handle`. -/
def logDownloadHandle (log : FlashLogDest → Fcb) (now : UInt32) (d : Download) (q : Request) :
    List UInt8 × Download :=
  if q.sid = sidRequestDownload then handleRequestDownload d q
  else if q.sid = sidTransferData then handleTransferData log now d q
  else if q.sid = sidRequestTransferExit then handleTransferExit d q
  else (negativeResponse q.sid .serviceNotSupported, d)

/-- The negative code of a RoutineControl. -/
def Nrc.toUds : Nrc → Uds.Nrc
  | .subfuncNotSupported => .subfuncNotSupported
  | .incorrectMsgLen => .incorrectMsgLen
  | .busyRepeatRequest => .busyRepeatRequest
  | .conditionsNotCorrect => .conditionsNotCorrect
  | .requestSequenceErr => .requestSequenceErr
  | .requestOutOfRange => .requestOutOfRange

/-- `UDS_LogDownload_HandleRoutine`: the code it refuses with, and the state it leaves.
`fl_start_streaming` stamps the watchdog. -/
def logDownloadRoutine (env : Surroundings) (now : UInt32) (d : Download) (q : Request) :
    Option Nrc × Download :=
  let (nrc, sm) := handleRoutine env d.sm (q.buffer.take q.length)
  let started := d.sm.state ≠ .streaming ∧ sm.state = .streaming
  (nrc, { d with sm := sm, streamActivityMs := if started then now else d.streamActivityMs })

/-- The message that answers a routine. -/
def routineReply (q : Request) : Option Nrc → List UInt8
  | none => [sidRoutineControl + responseSidOffset, q.byte 2, q.byte 3, q.byte 4]
  | some nrc => negativeResponse sidRoutineControl nrc.toUds

/-! ## What the cursor delivers -/

/-- The cursor has exactly these bytes left to give. -/
def Delivers (f : Fcb) (r : FlashLogReader) (bytes : List UInt8) : Prop :=
  (r.finished = true ∧ bytes = []) ∨
    ∃ es, Streaming f r es ∧ bytes = held r ++ (ahead r.range es).flatMap Entry.data

variable {f : Fcb}

/-- A chunk of the entry under the cursor is the front of what is left. -/
theorem emit_delivers {r : FlashLogReader} {es : List (ℕ × Entry)} (h : Streaming f r es)
    (hentry : r.haveEntry = true) {size : ℕ} (hsize : 0 < size) :
    (readerEmitChunk r size).1 ≠ [] ∧ (readerEmitChunk r size).1.length ≤ size ∧
      ∃ rest, held r ++ (ahead r.range es).flatMap Entry.data =
        (readerEmitChunk r size).1 ++ rest ∧ Delivers f (readerEmitChunk r size).2 rest := by
  obtain ⟨hne, hheld, hstream, hrange⟩ := emit_held h hentry hsize
  refine ⟨hne, ?_, _, ?_, .inr ⟨es, hstream, rfl⟩⟩
  · unfold readerEmitChunk
    simp only [List.length_take]
    split <;> omega
  · rw [hrange, ← hheld, List.append_assoc]

/-- `flash_log_reader_next` gives a chunk off the front, and nothing only at the end. -/
theorem readerNext_delivers {r : FlashLogReader} {bytes : List UInt8} (h : Delivers f r bytes)
    {size : ℕ} (hsize : 0 < size) :
    ∃ chunk rest r', readerNext f r size = (some chunk, r') ∧ chunk.length ≤ size ∧
      (chunk = [] → rest = []) ∧ bytes = chunk ++ rest ∧ Delivers f r' rest := by
  unfold readerNext
  rw [if_neg hsize.ne']
  rcases h with ⟨hfin, rfl⟩ | ⟨es, hstream, rfl⟩
  · rw [if_pos hfin]
    exact ⟨[], [], r, rfl, Nat.zero_le _, fun _ => rfl, rfl, .inl ⟨hfin, rfl⟩⟩
  · rw [if_neg (by rw [hstream.running]; exact Bool.false_ne_true)]
    by_cases hentry : r.haveEntry = true
    · obtain ⟨hne, hlen, rest, hsplit, hrest⟩ := emit_delivers hstream hentry hsize
      simp only [hentry, if_true, Bool.false_eq_true, if_false]
      exact ⟨_, rest, _, rfl, hlen, fun h => absurd h hne, hsplit, hrest⟩
    · have hnone : held r = [] := if_neg hentry
      simp only [hentry, Bool.false_eq_true, if_false, hnone, List.nil_append]
      rcases advance_ahead hstream with ⟨hstop, hnil⟩ | ⟨es', hgo, hstream', hhave, hrange, hbytes⟩
      · simp only [hstop, if_true, hnil]
        refine ⟨[], [], _, rfl, Nat.zero_le _, fun _ => rfl, rfl, .inl ⟨?_, rfl⟩⟩
        revert hstop
        unfold readerAdvance
        split
        · exact fun _ => rfl
        · split
          · exact fun _ => rfl
          · intro h
            cases h
      · obtain ⟨hne, hlen, rest, hsplit, hrest⟩ := emit_delivers hstream' hhave hsize
        simp only [hgo, Bool.false_eq_true, if_false]
        refine ⟨_, rest, _, rfl, hlen, fun h => absurd h hne, ?_, hrest⟩
        rw [← hbytes, ← hrange]
        exact hsplit

/-- The loop fills a chunk from the front of what the cursor delivers. -/
theorem fillChunkBody_delivers (rounds : ℕ) {remaining : ℕ} (hrounds : remaining ≤ rounds)
    {r : FlashLogReader} {bytes : List UInt8} (h : Delivers f r bytes) :
    ∃ r', fillChunkBody f rounds remaining r = (some (bytes.take remaining), r') ∧
      Delivers f r' (bytes.drop remaining) := by
  induction rounds generalizing remaining r bytes with
  | zero =>
    obtain rfl : remaining = 0 := Nat.le_zero.mp hrounds
    exact ⟨r, rfl, h⟩
  | succ rounds ih =>
    unfold fillChunkBody
    by_cases hzero : remaining = 0
    · rw [if_pos hzero, hzero]
      exact ⟨r, rfl, h⟩
    · rw [if_neg hzero]
      obtain ⟨chunk, rest, r', hnext, hlen, hempty, rfl, hrest⟩ :=
        readerNext_delivers h (Nat.pos_of_ne_zero hzero)
      rw [hnext]
      cases chunk with
      | nil =>
        rw [hempty rfl] at hrest ⊢
        rw [List.append_nil, List.take_nil, List.drop_nil]
        exact ⟨r', rfl, hrest⟩
      | cons b chunk =>
        have hlen' : (b :: chunk).length ≤ remaining := hlen
        have hless : remaining - (b :: chunk).length ≤ rounds := by
          rw [List.length_cons] at hlen' ⊢
          omega
        obtain ⟨r'', hfill, hdel⟩ := ih hless hrest
        refine ⟨r'', ?_, ?_⟩
        · simp only [hfill, Option.map_some]
          rw [List.take_append, List.take_of_length_le hlen']
        · rwa [List.drop_append, List.drop_eq_nil_of_le hlen', List.nil_append]

/-! ## A whole stream -/

/-- A reader opened on a selection delivers the entries of its range. -/
theorem SelectedFrom.delivers {range : FlashLogRange} (h : SelectedFrom f range) :
    Delivers f (readerOpen range) ((rangeEntries f range).flatMap Entry.data) := by
  obtain ⟨es, hwalk, hlen⟩ := h.walk
  refine .inr ⟨es, ⟨hwalk, h.stop, rfl, nofun⟩, ?_⟩
  rw [rangeEntries, visitFrom_eq h.stop hwalk hlen]
  rfl

/-- The sequence number of the `k`-th block: 1, 2, …, 255, 1, … -/
def wireSeq (k : ℕ) : UInt8 := UInt8.ofNat (k % 255 + 1)

theorem nextSeqAfter_wireSeq (k : ℕ) : nextSeqAfter (wireSeq k) = wireSeq (k + 1) := by
  have hk : k % 255 < 255 := Nat.mod_lt _ (by decide)
  have hsucc : wireSeq k + 1 = UInt8.ofNat (k % 255 + 2) := by
    rw [wireSeq, ← UInt8.ofNat_one, ← UInt8.ofNat_add]
  rw [nextSeqAfter, hsucc]
  by_cases hlast : k % 255 = 254
  · rw [wireSeq, hlast, show (k + 1) % 255 = 0 by omega]
    rfl
  · have hne : UInt8.ofNat (k % 255 + 2) ≠ 0 := by
      intro h
      have := congrArg UInt8.toNat h
      rw [UInt8.toNat_ofNat'] at this
      change (k % 255 + 2) % 256 = 0 at this
      omega
    rw [if_neg hne, wireSeq, show (k + 1) % 255 = k % 255 + 1 by omega]

/-- A request for the `k`-th block. -/
structure IsTransfer (q : Request) (k : ℕ) : Prop where
  sid : q.sid = sidTransferData
  length : logTransferMinReqLen ≤ q.length
  seq : q.byte 2 = wireSeq k

/-- A stream is open, with `rest` of the range still to give. -/
structure Open (log : FlashLogDest → Fcb) (d : Download) (rest : List UInt8) : Prop where
  streaming : d.sm.state = .streaming
  delivers : Delivers (log d.sm.reader.dest) d.sm.reader.cursor rest

/-- The stream is at its `k`-th block. -/
structure AtBlock (log : FlashLogDest → Fcb) (cap k : ℕ) (d : Download) (rest : List UInt8) : Prop
    extends Open log d rest where
  cap_eq : d.maxBlockLength = cap
  header : logHeaderBytes ≤ cap
  seq : d.sm.nextSeq = wireSeq k

/-- The bytes to come, under the header of a stream of `dest`. -/
def toCome (d : Download) (dest : FlashLogDest) (rest : List UInt8) : List UInt8 :=
  (if d.sm.headerSent then [] else buildHeader dest) ++ rest

variable {log : FlashLogDest → Fcb} {now : UInt32} {cap k : ℕ} {d : Download} {q : Request}
  {rest : List UInt8}

/-- A block is the front of what is to come. -/
theorem handleTransferData_block (now : UInt32) (h : AtBlock log cap k d rest)
    (hq : IsTransfer q k) :
    ∃ d', handleTransferData log now d q = ((sidTransferData + responseSidOffset) :: wireSeq k ::
        (toCome d d.sm.range.dest rest).take cap, d') ∧
      AtBlock log cap (k + 1) d' ((toCome d d.sm.range.dest rest).drop cap) ∧
      d'.sm.headerSent = true ∧ d'.streamActivityMs = now := by
  obtain ⟨⟨hstate, hdel⟩, hcap, hheader, hseq⟩ := h
  unfold toCome
  set header := if d.sm.headerSent then [] else buildHeader d.sm.range.dest with hhd
  have hlen : header.length ≤ cap := by
    rw [hhd]
    split
    · exact Nat.zero_le _
    · exact hheader
  obtain ⟨cursor, hfill, hcursor⟩ := fillChunkBody_delivers (cap - header.length) le_rfl hdel
  have hroom : ¬(d.sm.headerSent = false ∧ cap < logHeaderBytes) := fun h => not_lt.mpr hheader h.2
  have hmatch : ¬q.byte 2 ≠ d.sm.nextSeq := not_not.mpr (hq.seq.trans hseq.symm)
  unfold handleTransferData
  rw [if_neg (not_lt.mpr hq.length), if_neg hmatch]
  simp only [hcap, hroom, if_false, ← hhd, hfill]
  refine ⟨_, Prod.ext ?_ rfl, ⟨⟨hstate, ?_⟩, rfl, hheader, ?_⟩, rfl, rfl⟩
  · show _ :: _ :: _ = _ :: _ :: _
    rw [hq.seq, List.take_append, List.take_of_length_le hlen]
  · rw [List.drop_append, List.drop_eq_nil_of_le hlen]
    exact hcursor
  · show nextSeqAfter d.sm.nextSeq = _
    rw [hseq, nextSeqAfter_wireSeq]

/-! ## Runs -/

/-- What happens to a stream between two selectors: the receive loop polls the stall watchdog,
the resolve worker publishes the result of an earlier request, and requests arrive. -/
inductive StreamEvent where
  | poll (now : UInt32)
  | publish (request : ResolveRequest) (outcome : Outcome)
  | request (now : UInt32) (q : Request)

/-- `UDS_LogDownload_Poll`. -/
def logDownloadPoll (now : UInt32) (d : Download) : Download :=
  if d.sm.state = .streaming ∧ logStreamInactivityMs < now - d.streamActivityMs then
    { d with sm := leaveStream d.sm }
  else d

/-- The answers of the download, one for each request that it claims. -/
def answers (log : FlashLogDest → Fcb) : Download → List StreamEvent → List (List UInt8)
  | _, [] => []
  | d, .poll now :: es => answers log (logDownloadPoll now d) es
  | d, .publish request outcome :: es =>
    answers log { d with sm := publish d.sm request outcome } es
  | d, .request now q :: es =>
    if claims d q.sid q then
      let (reply, d) := logDownloadHandle log now d q
      reply :: answers log d es
    else answers log d es

def requests (es : List StreamEvent) : List Request :=
  es.filterMap fun
    | .request _ q => some q
    | .poll _ | .publish _ _ => none

/-- No poll finds the stream stalled that was last active at `last`. -/
def Prompt : UInt32 → List StreamEvent → Prop
  | _, [] => True
  | last, .poll now :: es => now - last ≤ logStreamInactivityMs ∧ Prompt last es
  | last, .publish _ _ :: es => Prompt last es
  | last, .request now q :: es => Prompt (if q.sid = sidTransferData then now else last) es

/-- The answers that carry these blocks. -/
def blockReplies : ℕ → List (List UInt8) → List (List UInt8)
  | _, [] => []
  | k, body :: bodies =>
    ((sidTransferData + responseSidOffset) :: wireSeq k :: body) :: blockReplies (k + 1) bodies

/-- The worker can replace the range, and only for a selector in flight. -/
theorem publish_range (sm : LogDownloadSM) (request : ResolveRequest) (outcome : Outcome) :
    ∃ range rc done,
      publish sm request outcome =
        { sm with range := range, resolveRc := rc, resolveDone := done } ∧
      (sm.resolveActive = false → range = sm.range) := by
  unfold publish
  split
  · next h =>
    refine ⟨outcome.range, outcome.rc, true, rfl, fun hactive => ?_⟩
    rw [h.1] at hactive
    cases hactive
  · exact ⟨sm.range, sm.resolveRc, sm.resolveDone, rfl, fun _ => rfl⟩

/-- Outside a stream nothing is claimed. -/
theorem answers_closed {es : List StreamEvent} (h : d.sm.state ≠ .streaming) :
    answers log d es = [] := by
  induction es generalizing d with
  | nil => rfl
  | cons e es ih =>
    cases e with
    | poll now =>
      rw [answers, logDownloadPoll, if_neg fun hp => h hp.1]
      exact ih h
    | publish request outcome =>
      obtain ⟨range, rc, done, hpub, -⟩ := publish_range d.sm request outcome
      rw [answers, hpub]
      exact ih h
    | request now q =>
      have hclaims : claims d q.sid q = false := by
        unfold claims
        rw [decide_eq_false h, Bool.false_and, ite_self, ite_self]
      rw [answers, hclaims, if_neg Bool.false_ne_true]
      exact ih h

/-- A poll ends a stalled stream, and nothing else. -/
theorem answers_poll (log : FlashLogDest → Fcb) (d : Download) (now : UInt32)
    (es : List StreamEvent) :
    answers log d (.poll now :: es) = [] ∨
      answers log d (.poll now :: es) = answers log d es := by
  rw [answers, logDownloadPoll]
  split
  · exact .inl (answers_closed nofun)
  · exact .inr rfl

theorem answers_poll_prompt {es : List StreamEvent}
    (h : now - d.streamActivityMs ≤ logStreamInactivityMs) :
    answers log d (.poll now :: es) = answers log d es := by
  rw [answers, logDownloadPoll, if_neg fun hp => UInt32.not_lt.mpr h hp.2]

/-- Transfers in sequence are answered with the blocks of the stream, until it is stalled. -/
theorem answers_blocks {es : List StreamEvent} (h : AtBlock log cap k d rest)
    (hqs : ∀ i q, (requests es)[i]? = some q → IsTransfer q (k + i)) :
    ∃ dest,
      answers log d es <+:
        blockReplies k (blocks cap (requests es).length (toCome d dest rest)) ∧
      (Prompt d.streamActivityMs es → answers log d es =
        blockReplies k (blocks cap (requests es).length (toCome d dest rest))) ∧
      (d.sm.resolveActive = false → dest = d.sm.range.dest) := by
  induction es generalizing k d rest with
  | nil => exact ⟨d.sm.range.dest, List.prefix_rfl, fun _ => rfl, fun _ => rfl⟩
  | cons e es ih =>
    cases e with
    | poll now =>
      obtain ⟨dest, hprefix, hprompt, hdest⟩ := ih h hqs
      refine ⟨dest, ?_, fun hp => ?_, hdest⟩
      · rcases answers_poll log d now es with hnil | hsame
        · rw [hnil]
          exact List.nil_prefix
        · rw [hsame]
          exact hprefix
      · rw [answers_poll_prompt hp.1]
        exact hprompt hp.2
    | publish request outcome =>
      obtain ⟨range, rc, done, hpub, hsame⟩ := publish_range d.sm request outcome
      obtain ⟨dest, hprefix, hprompt, hdest⟩ :=
        ih (d := { d with sm := publish d.sm request outcome })
          (by rw [hpub]; exact ⟨⟨h.streaming, h.delivers⟩, h.cap_eq, h.header, h.seq⟩) hqs
      rw [hpub] at hprefix hprompt hdest
      rw [answers, hpub]
      refine ⟨dest, hprefix, hprompt, fun hactive => ?_⟩
      rw [hdest hactive]
      exact congrArg LogRange.dest (hsame hactive)
    | request now q =>
      have hq : IsTransfer q k := hqs 0 q rfl
      obtain ⟨d', hreply, hnext, hsent, hnow⟩ := handleTransferData_block now h hq
      obtain ⟨dest, hprefix, hprompt, -⟩ := ih hnext fun i t ht => by
        rw [Nat.add_assoc, Nat.add_comm 1]
        exact hqs (i + 1) t ht
      have hrest : ∀ dest rest, toCome d' dest rest = rest := by
        intro dest rest
        rw [toCome, hsent, if_pos rfl, List.nil_append]
      have hanswers : answers log d (.request now q :: es) =
          ((sidTransferData + responseSidOffset) :: wireSeq k ::
            (toCome d d.sm.range.dest rest).take cap) :: answers log d' es := by
        have hclaims : claims d q.sid q = true := by
          rw [hq.sid]
          exact decide_eq_true h.streaming
        have hhandle : logDownloadHandle log now d q = handleTransferData log now d q := by
          rw [logDownloadHandle, if_neg (by rw [hq.sid]; decide), if_pos hq.sid]
        rw [answers, if_pos hclaims, hhandle, hreply]
      rw [hrest] at hprefix hprompt
      refine ⟨d.sm.range.dest, ?_, fun hp => ?_, fun _ => rfl⟩
      · rw [hanswers]
        exact List.cons_prefix_cons.mpr ⟨rfl, hprefix⟩
      · rw [Prompt, if_pos hq.sid, ← hnow] at hp
        rw [hanswers, hprompt hp]
        rfl

/-! ## Reassembly -/

/-- A RoutineControl that begins the stream. -/
structure IsBegin (q : Request) : Prop where
  length : routineControlMinReqLen ≤ q.length
  start : q.byte 2 = routineSubfuncStart
  rid : q.word 3 = ridBeginStream

/-- A RequestDownload of the stream. -/
structure IsDownload (q : Request) : Prop where
  sid : q.sid = sidRequestDownload
  length : q.length = logDownloadReqLen
  format : q.byte 3 = logDownloadAddrLenFmt
  sentinel : q.longLE 4 = logDownloadSentinelAddr

theorem negotiatedBlock_range (q : Request) :
    logDownloadMinBlock ≤ negotiatedBlock q ∧ negotiatedBlock q ≤ maxResponseLength - 3 := by
  have hfloor : logDownloadMinBlock ≤ maxResponseLength - 3 := by decide
  simp only [negotiatedBlock]
  split
  · next h =>
    split
    · exact ⟨le_rfl, hfloor⟩
    · next hmin => exact ⟨not_lt.mp hmin, h.2.le⟩
  · exact ⟨hfloor, le_rfl⟩

/-- The answer to the RequestDownload. -/
def downloadGrant (block : ℕ) : List UInt8 :=
  [sidRequestDownload + responseSidOffset, logDownloadLenFmtTwoByte, UInt8.ofNat (block / 256),
    UInt8.ofNat block]

/-- The blocks that transfer a stream: none is longer than `cap`, together they are the front of
it, and one that is shorter than `cap` ends it. -/
structure Reassembles (stream : List UInt8) (cap : ℕ) (bodies : List (List UInt8)) : Prop where
  bounded : ∀ body ∈ bodies, body.length ≤ cap
  front : bodies.flatten = stream.take (bodies.length * cap)
  short : ∀ i body, bodies[i]? = some body → body.length < cap →
    (bodies.take (i + 1)).flatten = stream

theorem reassembles_blocks (stream : List UInt8) (cap n : ℕ) :
    Reassembles stream cap (blocks cap n stream) where
  bounded _ := length_le_of_mem_blocks
  front := by rw [flatten_blocks, length_blocks]
  short _ _ := flatten_blocks_of_short

/-- `0xF105` opens the reader on the range of the selection. -/
theorem logDownloadRoutine_begin {env : Surroundings} (harena : env.arenaFree = true)
    (hselected : d.sm.state = .selected) (hq : IsBegin q) :
    logDownloadRoutine env now d q = (none,
      { d with
        sm := { d.sm with
          state := .streaming, reader := LogReader.open d.sm.range, headerSent := false }
        streamActivityMs := now }) := by
  have hlen : (q.buffer.take q.length).length = q.length := List.length_take_of_le q.fits
  have hbyte : ∀ i < routineControlMinReqLen, (q.buffer.take q.length).getD i 0 = q.byte i := by
    intro i hi
    have := hq.length
    rw [List.getD_eq_getElem?_getD, List.getElem?_take_of_lt (by omega),
      ← List.getD_eq_getElem?_getD]
    rfl
  have hrid : requestRid (q.buffer.take q.length) = ridBeginStream := by
    rw [requestRid, hbyte 3 (by decide), hbyte 4 (by decide)]
    exact hq.rid
  have hroutine : handleRoutine env d.sm (q.buffer.take q.length) =
      (none, { d.sm with
        state := .streaming, reader := LogReader.open d.sm.range, headerSent := false }) := by
    rw [handleRoutine, if_neg (by rw [hlen]; exact not_lt.mpr hq.length),
      if_neg (by rw [hbyte 2 (by decide), hq.start]; exact fun h => h rfl), startRoutine,
      if_pos hrid, beginStream, if_neg (not_not.mpr hselected), if_neg (by rw [harena]; nofun)]
  have hidle : ¬ d.sm.state = .streaming := by
    rw [hselected]
    nofun
  simp only [logDownloadRoutine, hroutine, ne_eq, hidle, not_false_eq_true, and_self, if_true]

/-- The RequestDownload negotiates the block and starts the sequence over. -/
theorem logDownloadHandle_download (now : UInt32) (h : Open log d rest) (hq : IsDownload q) :
    ∃ d', logDownloadHandle log now d q = (downloadGrant (negotiatedBlock q), d') ∧
      AtBlock log (negotiatedBlock q) 0 d' rest ∧ d'.sm.headerSent = false ∧
      d'.sm.range = d.sm.range ∧ d'.sm.resolveActive = d.sm.resolveActive ∧
      d'.streamActivityMs = d.streamActivityMs := by
  have hheader : logHeaderBytes ≤ negotiatedBlock q :=
    le_trans (by decide) (negotiatedBlock_range q).1
  rw [logDownloadHandle, if_pos hq.sid, handleRequestDownload, if_neg (not_not.mpr hq.length),
    if_neg (not_not.mpr hq.format)]
  exact ⟨_, rfl, ⟨⟨h.streaming, h.delivers⟩, rfl, hheader, rfl⟩, rfl, rfl, rfl, rfl⟩

/-- From the opened stream on: the grant, and then the blocks. -/
theorem answers_open {es : List StreamEvent} {qs : List Request} (h : Open log d rest)
    (hes : requests es = q :: qs) (hq : IsDownload q)
    (hqs : ∀ i t, qs[i]? = some t → IsTransfer t i) :
    ∃ dest,
      answers log d es <+: downloadGrant (negotiatedBlock q) ::
        blockReplies 0 (blocks (negotiatedBlock q) qs.length (buildHeader dest ++ rest)) ∧
      (Prompt d.streamActivityMs es → answers log d es = downloadGrant (negotiatedBlock q) ::
        blockReplies 0 (blocks (negotiatedBlock q) qs.length (buildHeader dest ++ rest))) ∧
      (d.sm.resolveActive = false → dest = d.sm.range.dest) := by
  induction es generalizing d with
  | nil => cases hes
  | cons e es ih =>
    cases e with
    | poll now =>
      obtain ⟨dest, hprefix, hprompt, hdest⟩ := ih h hes
      refine ⟨dest, ?_, fun hp => ?_, hdest⟩
      · rcases answers_poll log d now es with hnil | hsame
        · rw [hnil]
          exact List.nil_prefix
        · rw [hsame]
          exact hprefix
      · rw [answers_poll_prompt hp.1]
        exact hprompt hp.2
    | publish request outcome =>
      obtain ⟨range, rc, done, hpub, hsame⟩ := publish_range d.sm request outcome
      obtain ⟨dest, hprefix, hprompt, hdest⟩ :=
        ih (d := { d with sm := publish d.sm request outcome })
          (by rw [hpub]; exact ⟨h.streaming, h.delivers⟩) hes
      rw [hpub] at hprefix hprompt hdest
      rw [answers, hpub]
      refine ⟨dest, hprefix, hprompt, fun hactive => ?_⟩
      rw [hdest hactive]
      exact congrArg LogRange.dest (hsame hactive)
    | request now q' =>
      obtain ⟨rfl, rfl⟩ : q' = q ∧ requests es = qs := List.cons.inj hes
      obtain ⟨d', hreply, hnext, hsent, hrange, hactive, hnow⟩ :=
        logDownloadHandle_download now h hq
      obtain ⟨dest, hprefix, hprompt, hdest⟩ := answers_blocks hnext fun i t ht => by
        rw [Nat.zero_add]
        exact hqs i t ht
      have hrest : toCome d' dest rest = buildHeader dest ++ rest := by
        rw [toCome, hsent, if_neg Bool.false_ne_true]
      have hclaims : claims d q'.sid q' = true := by
        rw [claims, if_pos hq.sid, decide_eq_true h.streaming, hq.sentinel]
        rfl
      rw [hrest] at hprefix hprompt
      rw [answers, if_pos hclaims, hreply]
      refine ⟨dest, List.cons_prefix_cons.mpr ⟨rfl, hprefix⟩, fun hp => ?_, fun h => ?_⟩
      · rw [Prompt, if_neg (by rw [hq.sid]; decide), ← hnow] at hp
        exact congrArg (downloadGrant _ :: ·) (hprompt hp)
      · rw [← hrange]
        exact hdest (hactive.trans h)

/-- Whatever the negotiated block, the blocks reassemble to the header and the entries of the
range. The answers stop early only when the client stalls, and only the result of a selector
still in flight can change the stream that the header names. -/
theorem stream_reassembles {env : Surroundings} {begin : Request} {es : List StreamEvent}
    {qs : List Request} (hselected : d.sm.state = .selected)
    (hrange : SelectedFrom (log d.sm.range.dest) d.sm.range.range)
    (harena : env.arenaFree = true) (hbegin : IsBegin begin) (hes : requests es = q :: qs)
    (hq : IsDownload q) (hqs : ∀ i t, qs[i]? = some t → IsTransfer t i) :
    (logDownloadRoutine env now d begin).1 = none ∧
      ∃ dest bodies,
        (d.sm.resolveActive = false → dest = d.sm.range.dest) ∧
        Reassembles (buildHeader dest ++
            (rangeEntries (log d.sm.range.dest) d.sm.range.range).flatMap Entry.data)
          (negotiatedBlock q) bodies ∧
        bodies.length = qs.length ∧
        answers log (logDownloadRoutine env now d begin).2 es <+:
          downloadGrant (negotiatedBlock q) :: blockReplies 0 bodies ∧
        (Prompt now es → answers log (logDownloadRoutine env now d begin).2 es =
          downloadGrant (negotiatedBlock q) :: blockReplies 0 bodies) := by
  rw [logDownloadRoutine_begin harena hselected hbegin]
  refine ⟨rfl, ?_⟩
  have hopen : Open log
      { d with
        sm := { d.sm with
          state := .streaming, reader := LogReader.open d.sm.range, headerSent := false }
        streamActivityMs := now } _ := ⟨rfl, hrange.delivers⟩
  obtain ⟨dest, hprefix, hprompt, hdest⟩ := answers_open hopen hes hq hqs
  exact ⟨dest, _, hdest, reassembles_blocks _ _ _, length_blocks _ _ _, hprefix, hprompt⟩

/-- A log of one text of twenty bytes. -/
def shortLog (_ : FlashLogDest) : Fcb where
  sectors := [[⟨List.replicate 20 0x41, by decide⟩]]
  oldest := 0
  active := 0
  oldest_lt := Nat.zero_lt_one
  active_lt := Nat.zero_lt_one
  unused i hi hout := by
    obtain rfl : i = 0 := Nat.lt_one_iff.mp hi
    exact absurd (show 0 ∈ ringSlots 1 0 0 by decide) hout

/-- All of it is selected, after an earlier selection of the latest boot. -/
def textSelected : Download where
  sm :=
    { state := .selected, range := ⟨.text, resolveAll⟩, nextSeq := 1,
      resolveRequest := .ofData ridSelectLatestBoot [1] }

def textDownload : Request :=
  .ofBytes [0, 0x34, 0, 0x44, 0xFE, 0xFF, 0xFF, 0xFF, 8, 0, 0, 0]

def textTransfers : List StreamEvent :=
  [.request 1 textDownload, .poll 2, .request 3 (.ofBytes [0, 0x36, 1]),
    .request 4 (.ofBytes [0, 0x36, 2])]

theorem isTransfer_textTransfers (i : ℕ) (t : Request)
    (h : (requests textTransfers).tail[i]? = some t) : IsTransfer t i := by
  match i with
  | 0 =>
    obtain rfl := Option.some.inj h
    exact ⟨rfl, by decide, rfl⟩
  | 1 =>
    obtain rfl := Option.some.inj h
    exact ⟨rfl, by decide, rfl⟩

theorem shortLog_reassembles : ∃ bodies,
    Reassembles (buildHeader .text ++ (rangeEntries (shortLog .text) resolveAll).flatMap Entry.data)
      32 bodies ∧
    answers shortLog (logDownloadRoutine {} 0 textSelected
        (.ofBytes [0, 0x31, 1, 0xF1, 0x05])).2 textTransfers =
      downloadGrant 32 :: blockReplies 0 bodies := by
  obtain ⟨-, dest, bodies, hdest, hbodies, -, -, hanswers⟩ :=
    @stream_reassembles shortLog 0 textSelected textDownload {}
      (.ofBytes [0, 0x31, 1, 0xF1, 0x05]) textTransfers _ rfl SelectedFrom.all rfl
      ⟨by decide, rfl, rfl⟩ rfl ⟨rfl, rfl, rfl, rfl⟩ isTransfer_textTransfers
  obtain rfl := hdest rfl
  exact ⟨bodies, hbodies, hanswers ⟨by decide, trivial⟩⟩

end DiveCANHead.LogDownload
