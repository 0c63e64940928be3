import DiveCANHead.FlashLog.Index

/-!
# Selecting and streaming a range (`flash_log_reader.c`)

A selector finds a first sector and, behind it in physical order, a sector to stop
at; the cursor streams from the first entry of the one up to the first entry it
meets in the other. The caller receives the data of the entries in
`rangeEntries` and nothing else, whatever buffers it offers
(`streamed_rangeEntries`), and these are the entries of the sectors in between
(`rangeEntries_eq`).
-/

namespace DiveCANHead.FlashLog

open DiveCANHead.Lib

/-- `FlashLogRange_t`; `stop` is its exclusive `end`. -/
structure FlashLogRange where
  begin : FcbEntry := {}
  stop : FcbEntry := {}
  deriving DecidableEq, Repr

/-! ## Selectors -/

def resolveAll : FlashLogRange := {}

/-- `fl_scan_for_marker`: the sector of the first entry with this property. -/
def scanForMarker (f : Fcb) (isMarker : Entry → Bool) : Option ℕ :=
  (f.walk.find? fun p => isMarker p.2).map Prod.fst

/-- The loop over the index: the first sector with `key`, and the first one behind
it that has `stop` and not `key`, where the loop ends. -/
def scanRows (key stop : FlashLogIndexEntry → Bool) :
    ℕ → Option ℕ → List FlashLogIndexEntry → Option ℕ × Option ℕ
  | _, first, [] => (first, none)
  | i, first, row :: rows =>
    if key row then scanRows key stop (i + 1) (first.or (some i)) rows
    else if first.isSome && stop row then (first, some i)
    else scanRows key stop (i + 1) first rows

/-- The first sector from `i` on with `stop`. -/
def endScan (stop : FlashLogIndexEntry → Bool) (i : ℕ) (rows : List FlashLogIndexEntry) :
    Option ℕ :=
  ((rows.drop i).findIdx? stop).map (i + ·)

def sectorRange (first : ℕ) (endSector : Option ℕ) : FlashLogRange :=
  ⟨{ sector := some first }, { sector := endSector }⟩

/-- The common body of the exact-match selectors; `none` is `-ENOENT`. -/
def resolveId (f : Fcb) (key stop : FlashLogIndexEntry → Bool) (isMarker : Entry → Bool) :
    Option FlashLogRange :=
  let rows := buildIndex f
  match scanRows key stop 0 none rows with
  | (some first, endSector) => some (sectorRange first endSector)
  | (none, _) =>
    -- the index keys only the first id of a sector: look for the marker itself
    (scanForMarker f isMarker).map fun first => sectorRange first (endScan stop (first + 1) rows)

namespace Entry

def isBootOf (bootId : UInt32) (e : Entry) : Bool := e.isBoot && e.bootId == bootId

def isStartOf (diveId : UInt16) (e : Entry) : Bool := e.isDiveStart && e.diveNumber == diveId

def isEndOf (diveId : UInt16) (e : Entry) : Bool := e.isDiveEnd && e.diveNumber == diveId

end Entry

def bootKey (bootId : UInt32) (row : FlashLogIndexEntry) : Bool := row.firstBootId == bootId

def diveKey (diveId : UInt16) (row : FlashLogIndexEntry) : Bool :=
  row.firstDiveId == diveId && row.hasDiveStart

def diveStop (row : FlashLogIndexEntry) : Bool := row.hasDiveStart || row.hasDiveEnd

def resolveBootId (f : Fcb) (bootId : UInt32) : Option FlashLogRange :=
  resolveId f (bootKey bootId) FlashLogIndexEntry.hasBoot (Entry.isBootOf bootId)

def resolveDiveId (f : Fcb) (diveId : UInt16) : Option FlashLogRange :=
  resolveId f (diveKey diveId) diveStop (Entry.isStartOf diveId)

/-! ## The streaming cursor -/

/-- `FlashLogReader_t`; `data` is the entry under the cursor while `have_entry`. -/
structure FlashLogReader where
  range : FlashLogRange
  cursor : FcbEntry
  data : List UInt8 := []
  started : Bool := false
  finished : Bool := false
  haveEntry : Bool := false
  emitOff : ℕ := 0
  deriving DecidableEq, Repr

def readerOpen (range : FlashLogRange) : FlashLogReader := { range := range, cursor := range.begin }

/-- The walk has reached the end of the range. -/
def atStop (range : FlashLogRange) (x : Served) : Bool :=
  range.stop.sector == some x.sector && decide (range.stop.elemOff ≤ x.elemOff)

/-- `fl_reader_advance`: whether the walk stopped. -/
def readerAdvance (f : Fcb) (r : FlashLogReader) : Bool × FlashLogReader :=
  match f.getnext r.cursor with
  | none => (true, { r with finished := true })
  | some x =>
    if atStop r.range x then
      (true, { r with cursor := x.loc, data := x.entry.data, started := true, finished := true })
    else
      (false, { r with
        cursor := x.loc, data := x.entry.data, started := true, haveEntry := true, emitOff := 0 })

/-- `fl_reader_emit_chunk`: the bytes and whether the entry goes on. -/
def readerEmitChunk (r : FlashLogReader) (bufSize : ℕ) : List UInt8 × FlashLogReader :=
  let total := r.data.length
  let n := if total - r.emitOff < bufSize then total - r.emitOff else bufSize
  ((r.data.drop r.emitOff).take n,
    if total ≤ r.emitOff + n then { r with haveEntry := false, emitOff := 0 }
    else { r with emitOff := r.emitOff + n })

/-- `flash_log_reader_next`: no bytes at the end of the range; `none` is `-EINVAL`. -/
def readerNext (f : Fcb) (r : FlashLogReader) (bufSize : ℕ) :
    Option (List UInt8) × FlashLogReader :=
  if bufSize = 0 then (none, r)
  else if r.finished then (some [], r)
  else
    let (stopped, r) := if r.haveEntry then (false, r) else readerAdvance f r
    if stopped then (some [], r)
    else
      let (bytes, r) := readerEmitChunk r bufSize
      (some bytes, r)

/-- Calls `flash_log_reader_next` with buffers of these sizes until it returns no
bytes, at most so many times. -/
def drain (f : Fcb) : ℕ → (ℕ → ℕ) → FlashLogReader → List UInt8
  | 0, _, _ => []
  | calls + 1, sizes, r =>
    match readerNext f r (sizes 0) with
    | (some (b :: bytes), r) => b :: bytes ++ drain f calls (sizes ∘ Nat.succ) r
    | _ => []

/-- The entries the cursor visits from a location on. -/
def visitFrom (f : Fcb) (range : FlashLogRange) : ℕ → FcbEntry → List Entry
  | 0, _ => []
  | left + 1, loc =>
    match f.getnext loc with
    | some x => if atStop range x then [] else x.entry :: visitFrom f range left x.loc
    | none => []

/-- The entries of a range, in the order they are streamed. -/
def rangeEntries (f : Fcb) (range : FlashLogRange) : List Entry :=
  visitFrom f range f.log.length range.begin

/-! ## The selectors in closed form -/

section Select

variable {key stop : FlashLogIndexEntry → Bool}

/-- Once a first sector is known, the loop only looks for the end. -/
theorem scanRows_some (i a : ℕ) (rows : List FlashLogIndexEntry) :
    scanRows key stop i (some a) rows =
      (some a, (rows.findIdx? fun row => stop row && !key row).map (i + ·)) := by
  induction rows generalizing i with
  | nil => rfl
  | cons row rows ih =>
    unfold scanRows
    rw [List.findIdx?_cons]
    by_cases hk : key row = true
    · simp [hk, ih, Function.comp_def, Nat.add_comm, Nat.add_left_comm]
    · by_cases hs : stop row = true
      · simp [hk, hs]
      · simp [hk, hs, ih, Function.comp_def, Nat.add_comm, Nat.add_left_comm]

theorem scanRows_none (i : ℕ) (rows : List FlashLogIndexEntry) :
    scanRows key stop i none rows =
      match rows.findIdx? key with
      | some a => (some (i + a), ((rows.drop (a + 1)).findIdx? fun row => stop row && !key row).map
          (i + (a + 1) + ·))
      | none => (none, none) := by
  induction rows generalizing i with
  | nil => rfl
  | cons row rows ih =>
    unfold scanRows
    rw [List.findIdx?_cons]
    by_cases hk : key row = true
    · simp [hk, scanRows_some]
    · simp only [hk, ih]
      cases rows.findIdx? key with
      | none => simp
      | some a => simp [Nat.add_comm, Nat.add_left_comm]

theorem findIdx?_congr_on {p q : FlashLogIndexEntry → Bool} {rows : List FlashLogIndexEntry}
    (h : ∀ row ∈ rows, p row = q row) : rows.findIdx? p = rows.findIdx? q := by
  induction rows with
  | nil => rfl
  | cons row rows ih =>
    rw [List.findIdx?_cons, List.findIdx?_cons, h row List.mem_cons_self,
      ih fun row hrow => h row (List.mem_cons_of_mem _ hrow)]

/-- Where the range of a selector begins. -/
def beginSector (f : Fcb) (key : FlashLogIndexEntry → Bool) (isMarker : Entry → Bool) : Option ℕ :=
  ((buildIndex f).findIdx? key).or (scanForMarker f isMarker)

/-- A selector starts at the first keyed sector, or at the marker when no sector
is keyed, and ends at the first sector behind it that has `stop` and not `key`. -/
theorem resolveId_eq (f : Fcb) (key stop : FlashLogIndexEntry → Bool) (isMarker : Entry → Bool) :
    resolveId f key stop isMarker = (beginSector f key isMarker).map fun first =>
      sectorRange first (endScan (fun row => stop row && !key row) (first + 1) (buildIndex f)) := by
  unfold resolveId beginSector
  simp only [scanRows_none]
  cases h : (buildIndex f).findIdx? key with
  | some a => simp [endScan]
  | none =>
    have hnokey : ∀ row ∈ buildIndex f, key row = false := List.findIdx?_eq_none_iff.mp h
    have hsame : ∀ i, endScan (fun row => stop row && !key row) i (buildIndex f) =
        endScan stop i (buildIndex f) := by
      intro i
      unfold endScan
      congr 1
      apply findIdx?_congr_on
      intro row hrow
      rw [hnokey row (List.mem_of_mem_drop hrow), Bool.not_false, Bool.and_true]
    simp [hsame]

end Select

/-! ## What is streamed -/

section Stream

variable {f : Fcb}

/-- The bytes of the entry under the cursor that were not emitted yet. -/
def held (r : FlashLogReader) : List UInt8 := if r.haveEntry then r.data.drop r.emitOff else []

/-- The data of the served entries before the end of the range. -/
def ahead (range : FlashLogRange) (es : List (ℕ × Entry)) : List Entry :=
  (es.takeWhile fun p => range.stop.sector ≠ some p.1).map Prod.snd

/-- A cursor in the middle of a stream, with `es` still to be served. -/
structure Streaming (f : Fcb) (r : FlashLogReader) (es : List (ℕ × Entry)) : Prop where
  walk : f.Walk (r.cursor.sector.getD f.oldest) r.cursor.elemOff es
  stop : r.range.stop.elemOff = 0
  running : r.finished = false
  partly : r.haveEntry = true → r.emitOff < r.data.length

theorem atStop_eq {range : FlashLogRange} (h : range.stop.elemOff = 0) (x : Served) :
    atStop range x = decide (range.stop.sector = some x.sector) := by
  unfold atStop
  rw [h, decide_eq_true (Nat.zero_le _), Bool.and_true]
  exact beq_eq_decide _ _

/-- A chunk is a non-empty part of what the cursor holds. -/
theorem emit_held {r : FlashLogReader} {es : List (ℕ × Entry)} (h : Streaming f r es)
    (hentry : r.haveEntry = true) {bufSize : ℕ} (hsize : 0 < bufSize) :
    (readerEmitChunk r bufSize).1 ≠ [] ∧
      (readerEmitChunk r bufSize).1 ++ held (readerEmitChunk r bufSize).2 = held r ∧
      Streaming f (readerEmitChunk r bufSize).2 es ∧
      (readerEmitChunk r bufSize).2.range = r.range := by
  have hoff := h.partly hentry
  unfold readerEmitChunk held
  simp only [hentry, if_true]
  set n := if r.data.length - r.emitOff < bufSize then r.data.length - r.emitOff else bufSize
    with hn
  have hpos : 0 < n := by
    rw [hn]
    split <;> omega
  have hne : (r.data.drop r.emitOff).take n ≠ [] := by
    rw [ne_eq, ← List.length_eq_zero_iff, List.length_take, List.length_drop]
    omega
  split
  · next hdone =>
    refine ⟨hne, ?_, ⟨h.walk, h.stop, h.running, nofun⟩, rfl⟩
    have hall : (r.data.drop r.emitOff).length ≤ n := by
      rw [List.length_drop]
      omega
    rw [List.take_of_length_le hall]
    exact List.append_nil _
  · next hmore =>
    refine ⟨hne, ?_, ⟨h.walk, h.stop, h.running, fun _ => not_le.mp hmore⟩, rfl⟩
    rw [if_pos rfl, ← List.drop_drop, List.take_append_drop]

/-- Between entries, the cursor either stops with nothing ahead or takes up the
next entry. -/
theorem advance_ahead {r : FlashLogReader} {es : List (ℕ × Entry)} (h : Streaming f r es) :
    ((readerAdvance f r).1 = true ∧ ahead r.range es = []) ∨
      ∃ es', (readerAdvance f r).1 = false ∧ Streaming f (readerAdvance f r).2 es' ∧
        (readerAdvance f r).2.haveEntry = true ∧ (readerAdvance f r).2.range = r.range ∧
        held (readerAdvance f r).2 ++ (ahead r.range es').flatMap Entry.data =
          (ahead r.range es).flatMap Entry.data := by
  obtain ⟨hwalk, hstop, hrun, -⟩ := h
  unfold readerAdvance Fcb.getnext
  cases hwalk with
  | done hd =>
    rw [hd]
    exact .inl ⟨rfl, rfl⟩
  | more hm hw =>
    rename_i t m e es'
    rw [hm]
    simp only [atStop_eq hstop]
    by_cases hs : r.range.stop.sector = some t
    · refine .inl ?_
      simp [hs, ahead]
    · refine .inr ⟨es', ?_⟩
      have hpos : 0 < e.data.length := List.length_pos_iff.mpr e.data_ne_nil
      simp only [hs, decide_false, Bool.false_eq_true, if_false]
      refine ⟨trivial, ⟨hw, hstop, hrun, fun _ => hpos⟩, trivial, trivial, ?_⟩
      have hcons : ahead r.range ((t, e) :: es') = e :: ahead r.range es' := by
        simp [ahead, hs]
      rw [hcons, List.flatMap_cons]
      rfl

/-- The caller receives what the cursor holds and the entries ahead of it. -/
theorem drain_streaming (calls : ℕ) {sizes : ℕ → ℕ} (hsizes : ∀ k, 0 < sizes k)
    {r : FlashLogReader} {es : List (ℕ × Entry)} (h : Streaming f r es)
    (hcalls : (held r ++ (ahead r.range es).flatMap Entry.data).length < calls) :
    drain f calls sizes r = held r ++ (ahead r.range es).flatMap Entry.data := by
  induction calls generalizing sizes r es with
  | zero => exact absurd hcalls (Nat.not_lt_zero _)
  | succ calls ih =>
    -- one chunk of an entry that is under the cursor, and the rest of the stream
    have hchunk : ∀ {r : FlashLogReader} {es}, Streaming f r es → r.haveEntry = true →
        (held r ++ (ahead r.range es).flatMap Entry.data).length < calls + 1 →
        (match (some (readerEmitChunk r (sizes 0)).1, (readerEmitChunk r (sizes 0)).2) with
          | (some (b :: bytes), r) => b :: bytes ++ drain f calls (sizes ∘ Nat.succ) r
          | _ => []) = held r ++ (ahead r.range es).flatMap Entry.data := by
      intro r es h hentry hlen
      obtain ⟨hne, hheld, hstream, hrange⟩ := emit_held h hentry (hsizes 0)
      obtain ⟨b, bytes, hbytes⟩ := List.exists_cons_of_ne_nil hne
      rw [← hheld, hbytes] at hlen ⊢
      simp only [List.cons_append, List.append_assoc, List.length_cons,
      List.length_append] at hlen ⊢
      have hsizes' : ∀ k, 0 < (sizes ∘ Nat.succ) k := fun k => hsizes (k + 1)
      have hrest := ih hsizes' hstream (by
        rw [hrange, List.length_append]
        omega)
      rw [hrest, hrange]
    unfold drain readerNext
    rw [if_neg (hsizes 0).ne', h.running]
    simp only [Bool.false_eq_true, if_false]
    by_cases hentry : r.haveEntry = true
    · simp only [hentry, if_true, Bool.false_eq_true, if_false]
      exact hchunk h hentry hcalls
    · simp only [hentry, Bool.false_eq_true, if_false]
      have hnone : held r = [] := by
        unfold held
        rw [if_neg hentry]
      rw [hnone, List.nil_append] at hcalls ⊢
      rcases advance_ahead h with ⟨hstopped, hnil⟩ | ⟨es', hgo, hstream, hhave, hrange, hbytes⟩
      · simp only [hstopped, if_true, hnil]
        rfl
      · simp only [hgo, Bool.false_eq_true, if_false]
        rw [← hbytes] at hcalls ⊢
        have := hchunk hstream hhave (by rw [hrange]; exact hcalls)
        rw [hrange] at this
        exact this

/-- The entries visited are the served ones before the end of the range. -/
theorem visitFrom_eq {range : FlashLogRange} (hstop : range.stop.elemOff = 0) {left : ℕ}
    {loc : FcbEntry} {es : List (ℕ × Entry)}
    (hw : f.Walk (loc.sector.getD f.oldest) loc.elemOff es) (hleft : es.length ≤ left) :
    visitFrom f range left loc = ahead range es := by
  induction left generalizing loc es with
  | zero =>
    rw [List.length_eq_zero_iff.mp (Nat.le_zero.mp hleft)]
    rfl
  | succ left ih =>
    unfold visitFrom Fcb.getnext
    cases hw with
    | done hd =>
      rw [hd]
      rfl
    | more hm hw =>
      rename_i t m e es'
      have hrest : visitFrom f range left ⟨some t, m⟩ = ahead range es' :=
        ih hw (Nat.le_of_succ_le_succ hleft)
      rw [hm]
      simp only [atStop_eq hstop, Served.loc, hrest]
      by_cases hs : range.stop.sector = some t
      · simp [hs, ahead]
      · simp [hs, ahead]

/-! ## A range between two sectors -/

/-- The sectors a range covers, out of those from its beginning on. -/
def covered (endSector : Option ℕ) (sectors : List ℕ) : List ℕ :=
  sectors.takeWhile fun s => endSector ≠ some s

variable {pre rest : List ℕ} {first : ℕ} {endSector : Option ℕ}

theorem ahead_sectorRange (first : ℕ) (hend : ∀ e, endSector = some e → f.sector e ≠ [])
    (sectors : List ℕ) :
    ahead (sectorRange first endSector) (tagged f.sector sectors) =
      (covered endSector sectors).flatMap f.sector := by
  unfold ahead covered sectorRange
  rw [← map_snd_tagged]
  congr 1
  refine takeWhile_tagged (p := fun s => decide (endSector ≠ some s)) ?_ sectors
  intro s hs
  exact hend s (by simpa using hs)

theorem length_tagged_le (h : f.ring = pre ++ first :: rest) :
    (tagged f.sector (first :: rest)).length ≤ f.log.length := by
  rw [← List.length_map (f := Prod.snd), map_snd_tagged, Fcb.log, h, List.flatMap_append,
    List.length_append]
  exact Nat.le_add_left _ _

/-- A range streams the entries of the sectors it covers. -/
theorem rangeEntries_eq (h : f.ring = pre ++ first :: rest)
    (hend : ∀ e, endSector = some e → f.sector e ≠ []) :
    rangeEntries f (sectorRange first endSector) =
      (covered endSector (first :: rest)).flatMap f.sector := by
  rw [← ahead_sectorRange first hend]
  exact visitFrom_eq rfl (Fcb.walk_sector pre h) (length_tagged_le h)

/-- The caller of `flash_log_reader_next` receives exactly this data. -/
def Streamed (f : Fcb) (range : FlashLogRange) (es : List Entry) : Prop :=
  ∀ (sizes : ℕ → ℕ) (calls : ℕ), (∀ k, 0 < sizes k) → (es.flatMap Entry.data).length < calls →
    drain f calls sizes (readerOpen range) = es.flatMap Entry.data

theorem streamed_rangeEntries (h : f.ring = pre ++ first :: rest)
    (hend : ∀ e, endSector = some e → f.sector e ≠ []) :
    Streamed f (sectorRange first endSector) (rangeEntries f (sectorRange first endSector)) := by
  intro sizes calls hsizes hcalls
  have hstream : Streaming f (readerOpen (sectorRange first endSector))
      (tagged f.sector (first :: rest)) := ⟨Fcb.walk_sector pre h, rfl, rfl, nofun⟩
  have hahead : ahead (readerOpen (sectorRange first endSector)).range
      (tagged f.sector (first :: rest)) = rangeEntries f (sectorRange first endSector) := by
    rw [rangeEntries_eq h hend]
    exact ahead_sectorRange first hend _
  have hdrain := drain_streaming calls hsizes hstream
  rw [hahead] at hdrain
  exact hdrain hcalls

end Stream

end DiveCANHead.FlashLog
