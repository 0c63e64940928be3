import DiveCANHead.LogDownload.Transfer

/-!
# TransferData on a flash that fails

The same handler with an answer of the flash for each call of the reader. A block that fails is
refused, but what was done for it up to there stays: the header counts as sent and the cursor has
moved.
-/

namespace DiveCANHead.LogDownload

open DiveCANHead.Lib DiveCANHead.FlashLog DiveCANHead.Uds

/-! ## The reader -/

/-- What one call of the reader meets: whether the log is mounted, and error numbers, of which
zero is none. -/
structure ReadOutcome where
  mounted : Bool := true
  acquire : ℕ := 0
  getnext : ℕ := 0
  read : ℕ := 0
  deriving DecidableEq

def einval : ℕ := 22

def enospc : ℕ := 28

/-- `fl_reader_advance`; an error of `fcb_getnext` counts as the end. -/
def readerAdvanceUnder (f : Fcb) (o : ReadOutcome) (r : FlashLogReader) : Bool × FlashLogReader :=
  if o.getnext ≠ 0 then (true, { r with finished := true }) else readerAdvance f r

/-- `fl_reader_emit_chunk`. -/
def readerEmitUnder (o : ReadOutcome) (r : FlashLogReader) (bufSize : ℕ) :
    Except ℕ (List UInt8) × FlashLogReader :=
  if o.read ≠ 0 ∧ r.emitOff < r.data.length then (.error o.read, r)
  else (.ok (readerEmitChunk r bufSize).1, (readerEmitChunk r bufSize).2)

/-- `flash_log_reader_next`. -/
def readerNextUnder (f : Fcb) (o : ReadOutcome) (r : FlashLogReader) (bufSize : ℕ) :
    Except ℕ (List UInt8) × FlashLogReader :=
  if bufSize = 0 then (.error einval, r)
  else if r.finished then (.ok [], r)
  else if o.mounted = false then (.error einval, r)
  else if o.acquire ≠ 0 then (.error o.acquire, r)
  else
    let moved := if r.haveEntry then (false, r) else readerAdvanceUnder f o r
    if moved.1 then (.ok [], moved.2) else readerEmitUnder o moved.2 bufSize

/-- `fl_fill_chunk_body`; `-ENOSPC` ends the chunk without failing it. -/
def fillChunkBodyUnder (f : Fcb) :
    List ReadOutcome → ℕ → ℕ → FlashLogReader → Option (List UInt8) × FlashLogReader
  | _, 0, _, r => (some [], r)
  | script, rounds + 1, remaining, r =>
    if remaining = 0 then (some [], r)
    else
      match readerNextUnder f (script.headD {}) r remaining with
      | (.error e, r) => if e = enospc then (some [], r) else (none, r)
      | (.ok [], r) => (some [], r)
      | (.ok (b :: bytes), r) =>
        let (rest, r) :=
          fillChunkBodyUnder f script.tail rounds (remaining - (b :: bytes).length) r
        (rest.map fun rest => b :: bytes ++ rest, r)

/-- `fl_handle_transfer_data`. -/
def handleTransferDataUnder (log : FlashLogDest → Fcb) (script : List ReadOutcome) (now : UInt32)
    (d : Download) (q : Request) : List UInt8 × Download :=
  if q.length < logTransferMinReqLen then
    (negativeResponse sidTransferData .incorrectMsgLen, d)
  else if q.byte 2 ≠ d.sm.nextSeq then
    (negativeResponse sidTransferData .wrongBlockSeqCounter, d)
  else
    let cap := d.maxBlockLength
    let d := { d with streamActivityMs := now }
    if d.sm.headerSent = false ∧ cap < logHeaderBytes then
      (negativeResponse sidTransferData .generalProgFail, d)
    else
      let header := if d.sm.headerSent then [] else buildHeader d.sm.range.dest
      let reader := d.sm.reader
      let (body, cursor) := fillChunkBodyUnder (log reader.dest) script (cap - header.length)
        (cap - header.length) reader.cursor
      let sm := { d.sm with headerSent := true, reader := { reader with cursor := cursor } }
      match body with
      | none => (negativeResponse sidTransferData .generalProgFail, { d with sm := sm })
      | some body =>
        ((sidTransferData + responseSidOffset) :: q.byte 2 :: (header ++ body),
          { d with sm := { sm with nextSeq := nextSeqAfter sm.nextSeq } })

/-! ## Without failures -/

variable {f : Fcb} {o : ReadOutcome} {r r' r'' : FlashLogReader} {size : ℕ}

theorem readerNextUnder_sound (f : Fcb) (r : FlashLogReader) (hsize : size ≠ 0) :
    ∃ bytes r', readerNextUnder f {} r size = (.ok bytes, r') ∧
      readerNext f r size = (some bytes, r') := by
  have hadvance : readerAdvanceUnder f {} r = readerAdvance f r := if_neg (by decide)
  have hemit : ∀ r, readerEmitUnder {} r size =
      (.ok (readerEmitChunk r size).1, (readerEmitChunk r size).2) :=
    fun r => if_neg fun h => h.1 rfl
  unfold readerNext readerNextUnder
  rw [if_neg hsize, if_neg hsize, hadvance]
  by_cases hfinished : r.finished = true
  · rw [if_pos hfinished, if_pos hfinished]
    exact ⟨[], r, rfl, rfl⟩
  · rw [if_neg hfinished, if_neg hfinished, if_neg (by decide), if_neg (by decide)]
    dsimp only
    generalize (if r.haveEntry = true then (false, r) else readerAdvance f r) = moved
    obtain ⟨stopped, r₁⟩ := moved
    cases stopped with
    | true => exact ⟨[], r₁, rfl, rfl⟩
    | false => exact ⟨_, _, hemit r₁, rfl⟩

theorem fillChunkBodyUnder_sound (f : Fcb) (rounds remaining : ℕ) (r : FlashLogReader) :
    fillChunkBodyUnder f [] rounds remaining r = fillChunkBody f rounds remaining r := by
  induction rounds generalizing remaining r with
  | zero => rfl
  | succ rounds ih =>
    unfold fillChunkBodyUnder fillChunkBody
    by_cases hzero : remaining = 0
    · rw [if_pos hzero, if_pos hzero]
    · rw [if_neg hzero, if_neg hzero]
      obtain ⟨bytes, r', hunder, hnext⟩ := readerNextUnder_sound f r hzero
      rw [List.headD_nil, hunder, hnext]
      cases bytes with
      | nil => rfl
      | cons b bytes => simp only [List.tail_nil, ih]

/-- On a flash that works this is the handler. -/
theorem handleTransferDataUnder_sound (log : FlashLogDest → Fcb) (now : UInt32) (d : Download)
    (q : Request) : handleTransferDataUnder log [] now d q = handleTransferData log now d q := by
  unfold handleTransferDataUnder handleTransferData
  simp only [fillChunkBodyUnder_sound] <;> rfl

/-! ## Walks -/

theorem getnextIn_mem {left s n : ℕ} {x : Served} (h : f.getnextIn left s n = some x) :
    x.entry ∈ f.sector x.sector := by
  induction left generalizing s n with
  | zero => cases h
  | succ left ih =>
    unfold Fcb.getnextIn at h
    split at h
    · next e he =>
      rw [← Option.some.inj h]
      exact List.mem_of_getElem? he
    · split at h
      · cases h
      · exact ih h

/-- Every walk comes to an end, wherever it starts. -/
theorem exists_walk (f : Fcb) (s n : ℕ) : ∃ es, f.Walk s n es := by
  cases h : f.getnextIn f.sectorCnt s n with
  | none => exact ⟨[], .done h⟩
  | some x =>
    obtain ⟨pre, rest, hring⟩ :=
      List.append_of_mem (Fcb.mem_ring_of_mem_sector (getnextIn_mem h))
    have hpath : f.Path (pre ++ x.sector :: rest) := hring ▸ Fcb.path_ring
    have hlength : (x.sector :: rest).length ≤ f.sectorCnt := by
      have hle := f.length_ring_le
      rw [hring, List.length_append] at hle
      omega
    exact ⟨_, .more h (Fcb.walk_path hpath.suffix hlength x.elemOff)⟩

theorem walk_unique {s n : ℕ} {es es' : List (ℕ × Entry)} (h : f.Walk s n es)
    (h' : f.Walk s n es') : es = es' := by
  induction h generalizing es' with
  | done hdone =>
    cases h' with
    | done => rfl
    | more hmore => cases hdone.symm.trans hmore
  | more hmore _ ih =>
    cases h' with
    | done hdone => cases hdone.symm.trans hmore
    | more hmore' hrest =>
      cases hmore.symm.trans hmore'
      rw [ih hrest]

/-! ## Progress -/

/-- The cursor has moved on: to a later entry, or within its own. -/
def MovedOn (f : Fcb) (r r' : FlashLogReader) : Prop :=
  (∃ es es', f.Walk (r.cursor.sector.getD f.oldest) r.cursor.elemOff es ∧
    f.Walk (r'.cursor.sector.getD f.oldest) r'.cursor.elemOff es' ∧ es'.length < es.length) ∨
  (r'.cursor = r.cursor ∧ r.haveEntry = true ∧ (r'.haveEntry = false ∨ r.emitOff < r'.emitOff))

theorem MovedOn.trans (h : MovedOn f r r') (h' : MovedOn f r' r'') : MovedOn f r r'' := by
  rcases h with ⟨es, es', hw, hw', hless⟩ | ⟨hcursor, hentry, hmoved⟩
  · rcases h' with ⟨es₁, es₂, hw₁, hw₂, hless'⟩ | ⟨hcursor, -, -⟩
    · rw [walk_unique hw' hw₁] at hless
      exact .inl ⟨es, es₂, hw, hw₂, hless'.trans hless⟩
    · exact .inl ⟨es, es', hw, hcursor ▸ hw', hless⟩
  · rcases h' with ⟨es₁, es₂, hw₁, hw₂, hless⟩ | ⟨hcursor', hentry', hmoved'⟩
    · exact .inl ⟨es₁, es₂, hcursor ▸ hw₁, hw₂, hless⟩
    · refine .inr ⟨hcursor'.trans hcursor, hentry, ?_⟩
      rcases hmoved with hdone | hoff
      · exact absurd (hentry'.symm.trans hdone) Bool.noConfusion
      · exact hmoved'.imp_right hoff.trans

/-- A cursor that has moved on stands elsewhere. -/
theorem MovedOn.ne (h : MovedOn f r r') :
    ¬(r'.cursor = r.cursor ∧ r'.haveEntry = r.haveEntry ∧ r'.emitOff = r.emitOff) := by
  rintro ⟨hcursor, hentry, hoff⟩
  rcases h with ⟨es, es', hw, hw', hless⟩ | ⟨-, hhave, hdone | hless⟩
  · rw [hcursor] at hw'
    rw [walk_unique hw hw'] at hless
    exact absurd hless (Nat.lt_irrefl _)
  · rw [hentry, hhave] at hdone
    cases hdone
  · exact absurd hoff hless.ne'

theorem advance_movedOn (h : (readerAdvance f r).1 = false) :
    MovedOn f r (readerAdvance f r).2 ∧ (readerAdvance f r).2.haveEntry = true := by
  unfold readerAdvance at h ⊢
  split at h
  · cases h
  · next x hx =>
    split at h
    · cases h
    · next hstop =>
      rw [if_neg hstop]
      obtain ⟨es', hw'⟩ := exists_walk f x.sector x.elemOff
      exact ⟨.inl ⟨_, es', .more hx hw', hw', Nat.lt_succ_self _⟩, rfl⟩

theorem emit_movedOn (hentry : r.haveEntry = true) (h : (readerEmitChunk r size).1 ≠ []) :
    MovedOn f r (readerEmitChunk r size).2 := by
  unfold readerEmitChunk at h ⊢
  dsimp only at h ⊢
  generalize (if r.data.length - r.emitOff < size then r.data.length - r.emitOff else size) = n
    at h ⊢
  have hpos : 0 < n := by
    rw [Nat.pos_iff_ne_zero]
    rintro rfl
    exact h List.take_zero
  by_cases hdone : r.data.length ≤ r.emitOff + n
  · rw [if_pos hdone]
    exact .inr ⟨rfl, hentry, .inl rfl⟩
  · rw [if_neg hdone]
    exact .inr ⟨rfl, hentry, .inr (Nat.lt_add_of_pos_right hpos)⟩

/-- The call fails before it does anything. -/
def StopsAtOnce (r : FlashLogReader) (o : ReadOutcome) : Prop :=
  o.mounted = false ∨ o.acquire ≠ 0 ∨ r.haveEntry = true ∧ o.read ≠ 0

instance decidableStopsAtOnce (r : FlashLogReader) (o : ReadOutcome) :
    Decidable (StopsAtOnce r o) :=
  inferInstanceAs (Decidable (_ ∨ _ ∨ _ ∧ _))

/-- What one call of the reader does to the cursor. -/
inductive CallStep (f : Fcb) (o : ReadOutcome) (r : FlashLogReader) :
    Except ℕ (List UInt8) × FlashLogReader → Prop
  | chunk {b : UInt8} {bytes : List UInt8} {r' : FlashLogReader} (hgoes : ¬StopsAtOnce r o)
      (hmoved : MovedOn f r r') : CallStep f o r (.ok (b :: bytes), r')
  | done {r' : FlashLogReader} : CallStep f o r (.ok [], r')
  | refused {e : ℕ} (hstops : StopsAtOnce r o) : CallStep f o r (.error e, r)
  | failed {e : ℕ} {r' : FlashLogReader} (hgoes : ¬StopsAtOnce r o) (hmoved : MovedOn f r r') :
      CallStep f o r (.error e, r')

theorem offset_of_emit (h : (readerEmitChunk r size).1 ≠ []) : r.emitOff < r.data.length := by
  by_contra hend
  refine h ?_
  unfold readerEmitChunk
  dsimp only
  rw [List.drop_eq_nil_of_le (not_lt.mp hend), List.take_nil]

/-- A call goes on with the entry under its cursor. -/
theorem callStep_under (hmounted : ¬o.mounted = false) (hacquire : ¬o.acquire ≠ 0)
    (hentry : r.haveEntry = true) : CallStep f o r (readerEmitUnder o r size) := by
  unfold readerEmitUnder
  by_cases hread : o.read ≠ 0 ∧ r.emitOff < r.data.length
  · rw [if_pos hread]
    exact .refused (.inr (.inr ⟨hentry, hread.1⟩))
  rw [if_neg hread]
  cases hbytes : (readerEmitChunk r size).1 with
  | nil => exact .done
  | cons b bytes =>
    have hne : (readerEmitChunk r size).1 ≠ [] := hbytes ▸ List.cons_ne_nil b bytes
    refine .chunk ?_ (emit_movedOn hentry hne)
    rintro (h | h | h)
    · exact hmounted h
    · exact hacquire h
    · exact hread ⟨h.2, offset_of_emit hne⟩

/-- A call moves to the next entry and goes on with it. -/
theorem callStep_advance (hgoes : ¬StopsAtOnce r o) (hmoved : MovedOn f r r')
    (hentry : r'.haveEntry = true) : CallStep f o r (readerEmitUnder o r' size) := by
  unfold readerEmitUnder
  split
  · exact .failed hgoes hmoved
  · cases hbytes : (readerEmitChunk r' size).1 with
    | nil => exact .done
    | cons b bytes =>
      have hne : (readerEmitChunk r' size).1 ≠ [] := hbytes ▸ List.cons_ne_nil b bytes
      exact .chunk hgoes (hmoved.trans (emit_movedOn hentry hne))

theorem readerNextUnder_step (f : Fcb) (o : ReadOutcome) (r : FlashLogReader) (hsize : size ≠ 0) :
    CallStep f o r (readerNextUnder f o r size) := by
  unfold readerNextUnder
  rw [if_neg hsize]
  by_cases hfinished : r.finished = true
  · rw [if_pos hfinished]
    exact .done
  rw [if_neg hfinished]
  by_cases hmounted : o.mounted = false
  · rw [if_pos hmounted]
    exact .refused (.inl hmounted)
  rw [if_neg hmounted]
  by_cases hacquire : o.acquire ≠ 0
  · rw [if_pos hacquire]
    exact .refused (.inr (.inl hacquire))
  rw [if_neg hacquire]
  dsimp only
  by_cases hentry : r.haveEntry = true
  · rw [if_pos hentry, if_neg Bool.false_ne_true]
    exact callStep_under hmounted hacquire hentry
  · rw [if_neg hentry]
    have hgoes : ¬StopsAtOnce r o := by
      rintro (h | h | h)
      · exact hmounted h
      · exact hacquire h
      · exact hentry h.1
    unfold readerAdvanceUnder
    by_cases hgetnext : o.getnext ≠ 0
    · rw [if_pos hgetnext, if_pos rfl]
      exact .done
    · rw [if_neg hgetnext]
      by_cases hstopped : (readerAdvance f r).1 = true
      · rw [if_pos hstopped]
        exact .done
      · obtain ⟨hmoved, hnext⟩ := advance_movedOn (Bool.eq_false_iff.mpr hstopped)
        rw [if_neg hstopped]
        exact callStep_advance hgoes hmoved hnext

variable (f r) in
/-- A chunk that fails has moved the cursor on, or its first call failed at once. -/
theorem fillChunkBodyUnder_failed (script : List ReadOutcome) (rounds remaining : ℕ)
    (h : (fillChunkBodyUnder f script rounds remaining r).1 = none) :
    (StopsAtOnce r (script.headD {}) ∧ (fillChunkBodyUnder f script rounds remaining r).2 = r) ∨
      (¬StopsAtOnce r (script.headD {}) ∧
        MovedOn f r (fillChunkBodyUnder f script rounds remaining r).2) := by
  induction rounds generalizing script remaining r with
  | zero => cases h
  | succ rounds ih =>
    unfold fillChunkBodyUnder at h ⊢
    by_cases hzero : remaining = 0
    · rw [if_pos hzero] at h
      cases h
    rw [if_neg hzero] at h ⊢
    have hstep := readerNextUnder_step f (script.headD {}) r hzero
    generalize readerNextUnder f (script.headD {}) r remaining = result at h hstep ⊢
    cases hstep with
    | done => cases h
    | refused hstops =>
      dsimp only at h ⊢
      split at h
      · cases h
      · next hnospace =>
        rw [if_neg hnospace]
        exact .inl ⟨hstops, rfl⟩
    | failed hgoes hmoved =>
      dsimp only at h ⊢
      split at h
      · cases h
      · next hnospace =>
        rw [if_neg hnospace]
        exact .inr ⟨hgoes, hmoved⟩
    | chunk hgoes hmoved =>
      refine .inr ⟨hgoes, ?_⟩
      have hrest := Option.map_eq_none_iff.mp h
      rcases ih _ _ _ hrest with ⟨-, hsame⟩ | ⟨-, hlater⟩
      · dsimp only
        rw [hsame]
        exact hmoved
      · exact hmoved.trans hlater

/-! ## A refused block -/

/-- Where a stream stands. -/
structure StreamPosition where
  headerSent : Bool
  nextSeq : UInt8
  cursor : FcbEntry
  haveEntry : Bool
  emitOff : ℕ
  deriving DecidableEq

def Download.position (d : Download) : StreamPosition :=
  ⟨d.sm.headerSent, d.sm.nextSeq, d.sm.reader.cursor.cursor, d.sm.reader.cursor.haveEntry,
    d.sm.reader.cursor.emitOff⟩

/-- The handler refuses the block before it has done anything for it: the request is too short,
the header does not fit, or the first read fails in the middle of the stream and of an entry, or
without reaching the flash. -/
def RefusedAtOnce (d : Download) (q : Request) (o : ReadOutcome) : Prop :=
  q.length < logTransferMinReqLen ∨
    if d.sm.headerSent then StopsAtOnce d.sm.reader.cursor o else d.maxBlockLength < logHeaderBytes

instance decidableRefusedAtOnce (d : Download) (q : Request) (o : ReadOutcome) :
    Decidable (RefusedAtOnce d q o) :=
  inferInstanceAs (Decidable (_ ∨ ite _ _ _))

/-- A block does not depend on the clock. -/
theorem handleTransferData_clock (log : FlashLogDest → Fcb) (now later : UInt32) (d : Download)
    (q : Request) :
    (handleTransferData log later { d with streamActivityMs := now } q).1 =
      (handleTransferData log later d q).1 := by
  unfold handleTransferData
  split_ifs <;> rfl

variable {log : FlashLogDest → Fcb} {script : List ReadOutcome} {now : UInt32} {d : Download}
  {q : Request}

theorem headerSent_again {sm : LogDownloadSM} (h : sm.headerSent = true) :
    { sm with headerSent := true, reader := { sm.reader with cursor := sm.reader.cursor } } =
      sm := by
  rw [← h]

/-- What a refused block leaves behind. -/
theorem refused_state (hseq : q.byte 2 = d.sm.nextSeq)
    (hneg : ∃ nrc, (handleTransferDataUnder log script now d q).1 =
      negativeResponse sidTransferData nrc) :
    (RefusedAtOnce d q (script.headD {}) ∧
      ((handleTransferDataUnder log script now d q).2 = d ∨
        (handleTransferDataUnder log script now d q).2 = { d with streamActivityMs := now })) ∨
    (¬RefusedAtOnce d q (script.headD {}) ∧
      (handleTransferDataUnder log script now d q).2.position ≠ d.position) := by
  unfold handleTransferDataUnder at hneg ⊢
  by_cases hshort : q.length < logTransferMinReqLen
  · rw [if_pos hshort]
    exact .inl ⟨.inl hshort, .inl rfl⟩
  rw [if_neg hshort, if_neg (not_not.mpr hseq)] at hneg ⊢
  dsimp only at hneg ⊢
  by_cases hroom : d.sm.headerSent = false ∧ d.maxBlockLength < logHeaderBytes
  · rw [if_pos hroom]
    refine .inl ⟨.inr ?_, .inr rfl⟩
    rw [hroom.1, if_neg Bool.false_ne_true]
    exact hroom.2
  rw [if_neg hroom] at hneg ⊢
  have hfill := fillChunkBodyUnder_failed (log d.sm.reader.dest) d.sm.reader.cursor script
    (d.maxBlockLength - (if d.sm.headerSent then [] else buildHeader d.sm.range.dest).length)
    (d.maxBlockLength - (if d.sm.headerSent then [] else buildHeader d.sm.range.dest).length)
  generalize fillChunkBodyUnder (log d.sm.reader.dest) script _ _ d.sm.reader.cursor = filled
    at hneg hfill ⊢
  obtain ⟨body, cursor⟩ := filled
  cases body with
  | some body =>
    obtain ⟨nrc, hreply⟩ := hneg
    exact absurd (List.cons.inj hreply).1 (by decide)
  | none =>
    cases hsent : d.sm.headerSent with
    | false =>
      refine .inr ⟨?_, fun h => ?_⟩
      · rintro (h | h)
        · exact hshort h
        · rw [hsent, if_neg Bool.false_ne_true] at h
          exact hroom ⟨hsent, h⟩
      · have hflag : true = d.sm.headerSent := congrArg StreamPosition.headerSent h
        rw [hsent] at hflag
        cases hflag
    | true =>
      rcases hfill rfl with ⟨hstops, hsame⟩ | ⟨hgoes, hmoved⟩
      · refine .inl ⟨.inr ?_, .inr ?_⟩
        · rw [hsent, if_pos rfl]
          exact hstops
        · dsimp only at hsame ⊢
          rw [hsame, headerSent_again hsent]
      · refine .inr ⟨?_, fun h => hmoved.ne ?_⟩
        · rintro (h | h)
          · exact hshort h
          · rw [hsent, if_pos rfl] at h
            exact hgoes h
        · exact ⟨congrArg StreamPosition.cursor h, congrArg StreamPosition.haveEntry h,
            congrArg StreamPosition.emitOff h⟩

/-- A block with the expected number is refused atomically, so that repeating it gives the bytes
that it would have given, exactly if it is refused before anything is done for it. -/
theorem refusedBlock_atomic_iff (log : FlashLogDest → Fcb) (script : List ReadOutcome)
    (now : UInt32) (d : Download) (q : Request) (hseq : q.byte 2 = d.sm.nextSeq)
    (hneg : ∃ nrc, (handleTransferDataUnder log script now d q).1 =
      negativeResponse sidTransferData nrc) :
    ((handleTransferDataUnder log script now d q).2.position = d.position ∧
      ∀ later, (handleTransferData log later (handleTransferDataUnder log script now d q).2 q).1 =
        (handleTransferData log later d q).1) ↔ RefusedAtOnce d q (script.headD {}) := by
  rcases refused_state hseq hneg with ⟨hrefused, hsame⟩ | ⟨hgoes, hmoved⟩
  · refine iff_of_true ?_ hrefused
    rcases hsame with hsame | hsame
    · rw [hsame]
      exact ⟨rfl, fun _ => rfl⟩
    · rw [hsame]
      exact ⟨rfl, fun later => handleTransferData_clock log now later d q⟩
  · exact iff_of_false (fun h => hmoved h.1) hgoes

/-- A stream of the short log, within its entry or at the beginning. -/
def shortStream (headerSent : Bool) : Download where
  sm :=
    { state := .streaming, range := ⟨.text, resolveAll⟩, nextSeq := 2, headerSent,
      reader := ⟨.text,
        { range := resolveAll, cursor := ⟨some 0, 1⟩, data := List.replicate 20 0x41,
          started := true, haveEntry := headerSent, emitOff := if headerSent then 16 else 0 }⟩ }
  maxBlockLength := 32

def secondBlock : Request := .ofBytes [0, 0x36, 2]

theorem shortStream_atomic :
    (handleTransferDataUnder shortLog [{ read := 5 }] 7 (shortStream true) secondBlock).2.position =
        (shortStream true).position ∧
      ∀ later, (handleTransferData shortLog later (handleTransferDataUnder shortLog [{ read := 5 }]
          7 (shortStream true) secondBlock).2 secondBlock).1 =
        (handleTransferData shortLog later (shortStream true) secondBlock).1 :=
  (refusedBlock_atomic_iff shortLog [{ read := 5 }] 7 (shortStream true) secondBlock rfl
    ⟨.generalProgFail, by decide⟩).mpr (by decide)

/-- The stream of a selection after its RequestDownload. -/
def freshStream : Download :=
  (handleRequestDownload (logDownloadRoutine {} 0 textSelected
    (.ofBytes [0, 0x31, 1, 0xF1, 0x05])).2 textDownload).2

def firstBlock : Request := .ofBytes [0, 0x36, 1]

/-- The flash is busy at the first block: the repeated request is answered without the header. -/
theorem freshStream_headerLost :
    firstBlock.byte 2 = freshStream.sm.nextSeq ∧
      (handleTransferDataUnder shortLog [{ acquire := 16 }] 7 freshStream firstBlock).1 =
        negativeResponse sidTransferData .generalProgFail ∧
      ¬((handleTransferDataUnder shortLog [{ acquire := 16 }] 7 freshStream firstBlock).2.position =
          freshStream.position ∧
        ∀ later, (handleTransferData shortLog later (handleTransferDataUnder shortLog
            [{ acquire := 16 }] 7 freshStream firstBlock).2 firstBlock).1 =
          (handleTransferData shortLog later freshStream firstBlock).1) := by
  refine ⟨by decide, by decide, fun h => ?_⟩
  exact absurd (h.2 0) (by decide)

end DiveCANHead.LogDownload
