import DiveCANHead.LogClient.Parse

/-!
# Counting a download while it grows (`makeRecordCounter`)

The counter is fed the whole buffer each time and goes on where it stopped. It does not start before
the buffer is long enough to tell whether it has a download header.
-/

namespace DiveCANHead.LogClient

open DiveCANHead.Lib DiveCANHead.FlashLog

/-- `countRecordsIn`: the records in a slice, those of its containers with it. -/
def countRecordsIn (buf : List UInt8) : ℕ :=
  if _h : buf.length < flEntryHdrSize ∨
      buf.length < flEntryHdrSize + LogRecord.lengthField (buf.take flEntryHdrSize) then 0
  else
    let length := LogRecord.lengthField (buf.take flEntryHdrSize)
    let rtype := (buf.take flEntryHdrSize).getD 0 0
    if rtype = flTypeEndOfStream then 0
    else
      (if rtype = flTypeBatch then countRecordsIn ((buf.drop flEntryHdrSize).take length) else 1) +
        countRecordsIn (buf.drop (flEntryHdrSize + length))
  termination_by buf.length
  decreasing_by
    · have hpos : 0 < flEntryHdrSize := by decide
      rw [List.length_take, List.length_drop]
      omega
    · have hpos : 0 < flEntryHdrSize := by decide
      rw [List.length_drop]
      omega

/-- What the closure keeps; `offset` is −1 until the header is decided. -/
structure RecordCounter where
  offset : Option ℕ := none
  count : ℕ := 0
  done : Bool := false
  deriving DecidableEq, Repr

/-- The loop of the closure: the cursor, the count, and whether the stream has ended. -/
def counterLoop (bytes : List UInt8) (i count : ℕ) : RecordCounter :=
  let header := (bytes.drop i).take flEntryHdrSize
  let length := LogRecord.lengthField header
  if _h : bytes.length < i + flEntryHdrSize ∨ bytes.length < i + flEntryHdrSize + length then
    ⟨some i, count, false⟩
  else
    let rtype := header.getD 0 0
    if rtype = flTypeEndOfStream then ⟨some i, count, true⟩
    else
      counterLoop bytes (i + flEntryHdrSize + length)
        (count +
          if rtype = flTypeBatch then
            countRecordsIn ((bytes.drop (i + flEntryHdrSize)).take length)
          else 1)
  termination_by bytes.length - i
  decreasing_by
    have hpos : 0 < flEntryHdrSize := by decide
    omega

/-- The closure of `makeRecordCounter` on a buffer: the count it returns is the one it keeps. -/
def RecordCounter.next (c : RecordCounter) (bytes : List UInt8) : RecordCounter :=
  if c.done then c
  else
    match c.offset with
    | none =>
      if bytes.length < logDclgHeaderLen then c
      else counterLoop bytes (if hasDclgHeader bytes then logDclgHeaderLen else 0) c.count
    | some offset => counterLoop bytes offset c.count

/-- The counts returned for one buffer after another. -/
def RecordCounter.counts (c : RecordCounter) : List (List UInt8) → List ℕ
  | [] => []
  | bytes :: later => (c.next bytes).count :: (c.next bytes).counts later

/-! ## The walks agree -/

theorem countRecordsIn_eq_front (buf : List UInt8) :
    countRecordsIn buf =
      match frontRecord buf with
      | none => 0
      | some (r, rest) =>
        if r.type = flTypeEndOfStream then 0
        else (if r.type = flTypeBatch then countRecordsIn r.payload else 1) +
          countRecordsIn rest := by
  rw [countRecordsIn, frontRecord]
  dsimp only
  split <;> rfl

/-- The second walk counts what the parser returns. -/
theorem countRecordsIn_eq (buf : List UInt8) : countRecordsIn buf = (walk buf).length := by
  induction hn : buf.length using Nat.strong_induction_on generalizing buf with
  | _ n ih =>
    subst hn
    rw [walk_eq, countRecordsIn_eq_front]
    cases hfront : frontRecord buf with
    | none => rfl
    | some front =>
      obtain ⟨r, rest⟩ := front
      obtain ⟨hpayload, hrest⟩ := frontRecord_shorter hfront
      dsimp only
      by_cases hend : r.type = flTypeEndOfStream
      · rw [if_pos hend, if_pos hend, List.length_nil]
      · rw [if_neg hend, if_neg hend, List.length_append, ih _ hrest rest rfl]
        by_cases hbatch : r.type = flTypeBatch
        · rw [if_pos hbatch, if_pos hbatch, ih _ hpayload r.payload rfl]
        · rw [if_neg hbatch, if_neg hbatch, List.length_singleton]

theorem counterLoop_eq (bytes : List UInt8) (i count : ℕ) :
    counterLoop bytes i count =
      match frontRecord (bytes.drop i) with
      | none => ⟨some i, count, false⟩
      | some (r, _) =>
        if r.type = flTypeEndOfStream then ⟨some i, count, true⟩
        else
          counterLoop bytes (i + flEntryHdrSize + r.payload.length)
            (count + if r.type = flTypeBatch then countRecordsIn r.payload else 1) := by
  have hpos : 0 < flEntryHdrSize := by decide
  rw [counterLoop, frontRecord]
  dsimp only
  rw [List.length_drop]
  by_cases hshort : bytes.length - i < flEntryHdrSize ∨ bytes.length - i < flEntryHdrSize +
      LogRecord.lengthField ((bytes.drop i).take flEntryHdrSize)
  · rw [if_pos hshort, dif_pos (by omega)]
  · have hlen : (((bytes.drop i).drop flEntryHdrSize).take
        (LogRecord.lengthField ((bytes.drop i).take flEntryHdrSize))).length =
        LogRecord.lengthField ((bytes.drop i).take flEntryHdrSize) := by
      rw [List.length_take, List.length_drop, List.length_drop]
      omega
    rw [if_neg hshort, dif_neg (by omega)]
    dsimp only [LogRecord.ofParts]
    rw [hlen, List.drop_drop]

/-- The parser, from `i` on, has the records the counter has counted and then those from its cursor
on, however the buffer grows. -/
def StoppedAt (bytes : List UInt8) (i count : ℕ) (c : RecordCounter) : Prop :=
  ∃ j ≤ bytes.length, c.offset = some j ∧ c.count = count + (walk (bytes.drop i)).length ∧
    ∀ more, walk ((bytes ++ more).drop i) = walk (bytes.drop i) ++
      if c.done then [] else walk ((bytes ++ more).drop j)

theorem counterLoop_spec (bytes : List UInt8) (i count : ℕ) (hi : i ≤ bytes.length) :
    StoppedAt bytes i count (counterLoop bytes i count) := by
  induction hn : bytes.length - i using Nat.strong_induction_on generalizing i count with
  | _ n ih =>
    subst hn
    have hgrown : ∀ more, (bytes ++ more).drop i = bytes.drop i ++ more :=
      fun more => List.drop_append_of_le_length hi
    cases hfront : frontRecord (bytes.drop i) with
    | none =>
      have hwalk : walk (bytes.drop i) = [] := by rw [walk_eq, hfront]
      rw [counterLoop_eq, hfront]
      refine ⟨i, hi, rfl, by rw [hwalk]; rfl, fun more => ?_⟩
      rw [hwalk]
      rfl
    | some front =>
      obtain ⟨r, rest⟩ := front
      obtain ⟨rfl, hwhole⟩ := frontRecord_rest hfront
      have hpos : 0 < flEntryHdrSize := by decide
      rw [List.length_drop] at hwhole
      have hlater : ∀ more, frontRecord ((bytes ++ more).drop i) = some (r,
          (bytes ++ more).drop (i + flEntryHdrSize + r.payload.length)) := by
        intro more
        rw [hgrown, frontRecord_append hfront, List.drop_drop, ← Nat.add_assoc,
          List.drop_append_of_le_length (by omega)]
      by_cases hend : r.type = flTypeEndOfStream
      · have hwalk : ∀ more, walk ((bytes ++ more).drop i) = [] := by
          intro more
          rw [walk_eq, hlater]
          exact if_pos hend
        have hhere : walk (bytes.drop i) = [] := by rw [← hwalk [], List.append_nil]
        rw [counterLoop_eq, hfront]
        dsimp only
        rw [if_pos hend]
        refine ⟨i, hi, rfl, by rw [hhere]; rfl, fun more => ?_⟩
        rw [hwalk, hhere]
        rfl
      · have hwalk : ∀ more, walk ((bytes ++ more).drop i) =
            (if r.type = flTypeBatch then walk r.payload else [r]) ++
              walk ((bytes ++ more).drop (i + flEntryHdrSize + r.payload.length)) := by
          intro more
          rw [walk_eq, hlater]
          exact if_neg hend
        have hhere := hwalk []
        rw [List.append_nil] at hhere
        rw [counterLoop_eq, hfront]
        dsimp only
        rw [if_neg hend]
        obtain ⟨j, hj, hoffset, hcount, hrest⟩ := ih _ (by omega)
          (i + flEntryHdrSize + r.payload.length)
          (count + if r.type = flTypeBatch then countRecordsIn r.payload else 1) (by omega) rfl
        refine ⟨j, hj, hoffset, ?_, fun more => ?_⟩
        · rw [hcount, hhere, List.length_append, countRecordsIn_eq, Nat.add_assoc]
          split <;> rfl
        · rw [hwalk, hhere, List.append_assoc, hrest]

/-! ## Growing buffers -/

/-- What the counter knows once it has been fed a buffer: nothing before the header is decided, and
then all the records up to its cursor. -/
inductive CaughtUp (c : RecordCounter) (fed : List UInt8) : Prop where
  | undecided (hshort : fed.length < logDclgHeaderLen) (hfresh : c = {})
  | counted (hlong : logDclgHeaderLen ≤ fed.length)
      (hstopped : StoppedAt fed (bodyStart fed) 0 c)

theorem CaughtUp.count {c : RecordCounter} {fed : List UInt8} (h : CaughtUp c fed) :
    c.count = if fed.length < logDclgHeaderLen then 0 else (parseLogStream fed).length := by
  cases h with
  | undecided hshort hfresh => rw [if_pos hshort, hfresh]
  | counted hlong hstopped =>
    obtain ⟨j, -, -, hcount, -⟩ := hstopped
    rw [if_neg (Nat.not_lt.mpr hlong), hcount, Nat.zero_add, parseLogStream_eq]

/-- The cursor goes on from where it stopped. -/
theorem StoppedAt.next {c : RecordCounter} {fed : List UInt8} {i : ℕ} (h : StoppedAt fed i 0 c)
    (more : List UInt8) :
    StoppedAt (fed ++ more) i 0 (c.next (fed ++ more)) := by
  obtain ⟨j, hj, hoffset, hcount, hrest⟩ := h
  have hin : fed.length ≤ (fed ++ more).length := by
    rw [List.length_append]
    exact Nat.le_add_right _ _
  cases hdone : c.done with
  | true =>
    have hwalk : ∀ more, walk ((fed ++ more).drop i) = walk (fed.drop i) := by
      intro more
      rw [hrest, hdone]
      exact List.append_nil _
    rw [RecordCounter.next, if_pos hdone]
    refine ⟨j, Nat.le_trans hj hin, hoffset, by rw [hcount, hwalk], fun later => ?_⟩
    rw [List.append_assoc, hwalk, hwalk, hdone]
    exact (List.append_nil _).symm
  | false =>
    have hwalk : ∀ more, walk ((fed ++ more).drop i) =
        walk (fed.drop i) ++ walk ((fed ++ more).drop j) := by
      intro more
      rw [hrest, hdone]
      rfl
    obtain ⟨k, hk, hoffset', hcount', hrest'⟩ :=
      counterLoop_spec (fed ++ more) j c.count (Nat.le_trans hj hin)
    have hnext : c.next (fed ++ more) = counterLoop (fed ++ more) j c.count := by
      rw [RecordCounter.next, hdone, hoffset]
      rfl
    rw [hnext]
    refine ⟨k, hk, hoffset', ?_, fun later => ?_⟩
    · rw [hcount', hcount, hwalk, List.length_append, Nat.zero_add, Nat.zero_add]
    · rw [List.append_assoc, hwalk, hwalk, ← List.append_assoc fed, hrest']
      exact (List.append_assoc _ _ _).symm

/-- The counter on a buffer that continues the last one. -/
theorem CaughtUp.next {c : RecordCounter} {fed : List UInt8} (h : CaughtUp c fed)
    (more : List UInt8) : CaughtUp (c.next (fed ++ more)) (fed ++ more) := by
  cases h with
  | undecided hshort hfresh =>
    subst hfresh
    by_cases hstill : (fed ++ more).length < logDclgHeaderLen
    · exact .undecided hstill (if_pos hstill)
    · have hlong : logDclgHeaderLen ≤ (fed ++ more).length := Nat.le_of_not_lt hstill
      have hstart : RecordCounter.next {} (fed ++ more) =
          counterLoop (fed ++ more) (bodyStart (fed ++ more)) 0 := if_neg hstill
      rw [hstart]
      exact .counted hlong (counterLoop_spec _ _ _ (Nat.le_trans (bodyStart_le _) hlong))
  | counted hlong hstopped =>
    have hin : logDclgHeaderLen ≤ (fed ++ more).length := by
      rw [List.length_append]
      exact Nat.le_add_right_of_le hlong
    refine .counted hin ?_
    rw [bodyStart_append hlong]
    exact hstopped.next more

/-! ## What is returned -/

/-- A buffer too short to have its header decided that has a whole record in front, and one that the
parser returns. -/
def shortRecord (bytes : List UInt8) : Bool :=
  bytes.length < logDclgHeaderLen &&
    match frontRecord bytes with
    | none => false
    | some (r, _) => r.type ≠ flTypeEndOfStream && r.type ≠ flTypeBatch

/-- In a buffer that short there is no room for a second record. -/
theorem parseLogStream_short {bytes : List UInt8} (h : bytes.length < logDclgHeaderLen) :
    (parseLogStream bytes).length = if shortRecord bytes then 1 else 0 := by
  have hstart : bodyStart bytes = 0 := by
    rw [bodyStart, hasDclgHeader, decide_eq_false (Nat.not_le.mpr h)]
    rfl
  rw [parseLogStream_eq, hstart, List.drop_zero, walk_eq, shortRecord, decide_eq_true h]
  cases hfront : frontRecord bytes with
  | none => rfl
  | some front =>
    obtain ⟨r, rest⟩ := front
    obtain ⟨rfl, hwhole⟩ := frontRecord_rest hfront
    have hsizes : logDclgHeaderLen = flEntryHdrSize + 4 ∧ 4 ≤ flEntryHdrSize := by decide
    have hrest : walk (bytes.drop (flEntryHdrSize + r.payload.length)) = [] :=
      walk_short (by
        rw [List.length_drop]
        omega)
    have hpayload : walk r.payload = [] := walk_short (by omega)
    dsimp only
    rw [hrest, hpayload]
    by_cases hend : r.type = flTypeEndOfStream
    · simp [hend]
    · by_cases hbatch : r.type = flTypeBatch
      · simp [hbatch]
      · simp [hend, hbatch]

theorem CaughtUp.counts {c : RecordCounter} {fed : List UInt8} (h : CaughtUp c fed)
    {buffers : List (List UInt8)} (hgrow : (fed :: buffers).Pairwise (· <+: ·)) :
    c.counts buffers =
      buffers.map fun bytes => if shortRecord bytes then 0 else (parseLogStream bytes).length := by
  induction buffers generalizing c fed with
  | nil => rfl
  | cons bytes later ih =>
    obtain ⟨hfed, hlater⟩ := List.pairwise_cons.mp hgrow
    obtain ⟨more, rfl⟩ := hfed bytes List.mem_cons_self
    have hnext : CaughtUp (c.next (fed ++ more)) (fed ++ more) := h.next more
    rw [RecordCounter.counts, ih hnext hlater, List.map_cons, hnext.count]
    by_cases hshort : (fed ++ more).length < logDclgHeaderLen
    · rw [if_pos hshort, parseLogStream_short hshort]
      split <;> rfl
    · have hlong : shortRecord (fed ++ more) = false := by
        rw [shortRecord, decide_eq_false hshort, Bool.false_and]
      rw [if_neg hshort, hlong]
      rfl

/-- Fed one buffer after another, each a continuation of the last, the counter returns for each how
many records the parser returns, except for a record in a buffer too short for a header. -/
theorem recordCounter_counts {buffers : List (List UInt8)} (hgrow : buffers.Pairwise (· <+: ·)) :
    RecordCounter.counts {} buffers =
      buffers.map fun bytes => if shortRecord bytes then 0 else (parseLogStream bytes).length :=
  have hfresh : CaughtUp {} [] := .undecided (by decide) rfl
  hfresh.counts (List.pairwise_cons.mpr ⟨fun _ _ => List.nil_prefix, hgrow⟩)

/-- A header, a container with one record, and a record cut short. -/
def growingLog : List UInt8 :=
  logDownloadMagic ++ List.replicate 12 0 ++ (LogRecord.bytes ⟨flTypeBatch, 0, 0,
    LogRecord.bytes ⟨0x01, 0, 5, [7]⟩⟩) ++ [0x02, 0, 9]

theorem recordCounter_counts_growingLog :
    RecordCounter.counts {} [[], growingLog.take 14, growingLog.take 30, growingLog] =
      [[], growingLog.take 14, growingLog.take 30, growingLog].map fun bytes =>
        if shortRecord bytes then 0 else (parseLogStream bytes).length :=
  recordCounter_counts (by decide)

/-- A record of twelve bytes without a header is parsed and not counted. -/
theorem headerless_uncounted :
    RecordCounter.counts {} [LogRecord.bytes ⟨0x01, 0, 0, []⟩] = [0] ∧
      (parseLogStream (LogRecord.bytes ⟨0x01, 0, 0, []⟩)).length = 1 := by
  refine ⟨by decide +kernel, ?_⟩
  rw [parseLogStream_short (by decide)]
  decide +kernel

end DiveCANHead.LogClient
