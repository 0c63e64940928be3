import Mathlib.Data.Int.Notation
import Mathlib.Data.Nat.Notation

/-!
# Seeking the write cursor (`flash_log_fastseek.c`)

At boot the active sector is read in chunks and its entries are walked in RAM. The cursor ends
where a walk over the sector itself ends, whatever the size of the chunks; the count leaves out
the entries that go past the end of the chunk they begin in.
-/

namespace DiveCANHead.FlashLog

/-! ## Length fields -/

/-- `FL_ENTRY_LEN2_FLAG`. -/
def entryLen2Flag : UInt8 := 0x80

/-- `FL_ENTRY_LEN1_MASK`. -/
def entryLen1Mask : UInt8 := 0x7F

/-- `FL_ENTRY_LEN2_SHIFT`. -/
def entryLen2Shift : UInt16 := 7

/-- `FL_ENTRY_MARKER_SZ`. -/
def entryMarkerSz : ℕ := 1

/-- `FL_ENTRY_PEEK_BYTES`. -/
def entryPeekBytes : ℕ := 2

/-- `fl_entry_decode_len` on the first two bytes: the size of the field and the length in it. -/
def entryDecodeLen (b0 b1 ev : UInt8) : ℕ × UInt16 :=
  let b0Xor := b0 ^^^ ~~~ev
  if b0Xor &&& entryLen2Flag ≠ 0 then
    (entryPeekBytes,
      (b0Xor &&& entryLen1Mask).toUInt16 ||| ((b1 ^^^ ~~~ev).toUInt16 <<< entryLen2Shift))
  else (1, b0Xor.toUInt16)

/-- What an entry takes: length field, data and end marker. -/
def entryTotal (b0 b1 ev : UInt8) : ℕ :=
  (entryDecodeLen b0 b1 ev).1 + (entryDecodeLen b0 b1 ev).2.toNat + entryMarkerSz

theorem two_le_entryTotal (b0 b1 ev : UInt8) : 2 ≤ entryTotal b0 b1 ev := by
  have hsize : 1 ≤ (entryDecodeLen b0 b1 ev).1 := by
    unfold entryDecodeLen
    dsimp only
    split
    · exact Nat.le_succ 1
    · exact Nat.le_refl 1
  unfold entryTotal entryMarkerSz
  omega

/-- Two erased bytes at a position. -/
def erasedAt (bytes : List UInt8) (ev : UInt8) (p : ℕ) : Prop :=
  bytes.getD p 0 = ev ∧ bytes.getD (p + 1) 0 = ev

instance decidableErasedAt (bytes : List UInt8) (ev : UInt8) (p : ℕ) :
    Decidable (erasedAt bytes ev p) :=
  inferInstanceAs (Decidable (_ ∧ _))

/-- The entry at a position, as its length field gives it. -/
def totalAt (bytes : List UInt8) (ev : UInt8) (p : ℕ) : ℕ :=
  entryTotal (bytes.getD p 0) (bytes.getD (p + 1) 0) ev

theorem two_le_totalAt (bytes : List UInt8) (ev : UInt8) (p : ℕ) : 2 ≤ totalAt bytes ev p :=
  two_le_entryTotal _ _ _

/-! ## The seek -/

/-- `struct fl_chunk_scan`. -/
structure ChunkScan where
  consumed : ℕ
  hop : ℕ
  entries : ℕ
  atEnd : Bool
  deriving DecidableEq

/-- `fl_scan_chunk` from a position on. -/
def scanChunk (buf : List UInt8) (ev : UInt8) (pos entries : ℕ) : ChunkScan :=
  if hpeek : pos + entryPeekBytes ≤ buf.length then
    if erasedAt buf ev pos then ⟨pos, 0, entries, true⟩
    else if totalAt buf ev pos > buf.length - pos then ⟨pos, totalAt buf ev pos, entries, false⟩
    else scanChunk buf ev (pos + totalAt buf ev pos) (entries + 1)
  else ⟨pos, 0, entries, false⟩
termination_by buf.length - pos
decreasing_by
  have htotal := two_le_totalAt buf ev pos
  unfold entryPeekBytes at hpeek
  omega

/-- The active sector of an FCB, which is far smaller than its counters reach. -/
structure ActiveSector where
  bytes : List UInt8
  eraseValue : UInt8
  sectorCnt : ℕ

/-- `struct fl_mount_stats`; `activeBytes` is the cursor. -/
structure MountStats where
  sectorCount : ℕ
  activeEntries : ℕ
  activeBytes : ℕ
  bulkReads : ℕ
  deriving DecidableEq

/-- The scan of the chunk at a cursor. -/
def ActiveSector.scanAt (s : ActiveSector) (scratchLen cursor : ℕ) : ChunkScan :=
  scanChunk ((s.bytes.drop cursor).take (min (s.bytes.length - cursor) scratchLen)) s.eraseValue 0 0

/-- `fl_fast_seek_active` from a cursor on, with the result of each read. -/
def fastSeekFrom (s : ActiveSector) (readRc : ℕ → ℤ) (scratchLen cursor entries reads : ℕ) :
    MountStats :=
  if hcursor : cursor < s.bytes.length then
    if readRc reads ≠ 0 then ⟨s.sectorCnt, entries, cursor, reads + 1⟩
    else if (s.scanAt scratchLen cursor).atEnd then
      ⟨s.sectorCnt, entries + (s.scanAt scratchLen cursor).entries,
        cursor + (s.scanAt scratchLen cursor).consumed, reads + 1⟩
    else if hstuck : (s.scanAt scratchLen cursor).consumed = 0 ∧
        (s.scanAt scratchLen cursor).hop = 0 then
      ⟨s.sectorCnt, entries + (s.scanAt scratchLen cursor).entries, cursor, reads + 1⟩
    else
      fastSeekFrom s readRc scratchLen
        (min (cursor + (s.scanAt scratchLen cursor).consumed + (s.scanAt scratchLen cursor).hop)
          s.bytes.length)
        (entries + (s.scanAt scratchLen cursor).entries) (reads + 1)
  else ⟨s.sectorCnt, entries, cursor, reads⟩
termination_by s.bytes.length - cursor
decreasing_by omega

def fastSeekActive (s : ActiveSector) (readRc : ℕ → ℤ) (scratchLen elemOff : ℕ) : MountStats :=
  fastSeekFrom s readRc scratchLen elemOff 0 0

/-! ## The walk over the sector -/

/-- Where a walk ends and how many whole entries it has passed. -/
structure WalkEnd where
  cursor : ℕ
  entries : ℕ
  deriving DecidableEq

/-- One length field after the other on the bytes of the sector, up to two erased bytes or the
end of the sector. -/
def plainWalk (bytes : List UInt8) (ev : UInt8) (cursor entries : ℕ) : WalkEnd :=
  if hpeek : cursor + entryPeekBytes ≤ bytes.length then
    if erasedAt bytes ev cursor then ⟨cursor, entries⟩
    else if totalAt bytes ev cursor > bytes.length - cursor then ⟨bytes.length, entries⟩
    else plainWalk bytes ev (cursor + totalAt bytes ev cursor) (entries + 1)
  else ⟨cursor, entries⟩
termination_by bytes.length - cursor
decreasing_by
  have htotal := two_le_totalAt bytes ev cursor
  unfold entryPeekBytes at hpeek
  omega

/-- The whole entries that go past the end of the chunk they begin in. The chunk that began at
`start` is left for one at `cursor` when no length field fits the rest of it. -/
def spanning (bytes : List UInt8) (ev : UInt8) (scratchLen start cursor : ℕ) : ℕ :=
  if hpeek : cursor + entryPeekBytes ≤ bytes.length then
    let start := if cursor + entryPeekBytes ≤ start + scratchLen then start else cursor
    let next := cursor + totalAt bytes ev cursor
    if erasedAt bytes ev cursor ∨ bytes.length < next then 0
    else if start + scratchLen < next then spanning bytes ev scratchLen next next + 1
    else spanning bytes ev scratchLen start next
  else 0
termination_by bytes.length - cursor
decreasing_by
  all_goals
    have htotal := two_le_totalAt bytes ev cursor
    unfold entryPeekBytes at hpeek
    omega

/-! ## Chunks -/

section Chunks

variable {bytes : List UInt8} {ev : UInt8} {stop p q k : ℕ}

/-- From `p` the walk passes `k` whole entries that end before `stop` and comes to `q`. -/
inductive Through (bytes : List UInt8) (ev : UInt8) (stop : ℕ) : ℕ → ℕ → ℕ → Prop
  | refl (p : ℕ) : Through bytes ev stop p p 0
  | entry {p q k : ℕ} (hpeek : p + entryPeekBytes ≤ stop) (hdata : ¬erasedAt bytes ev p)
      (hfit : p + totalAt bytes ev p ≤ stop)
      (rest : Through bytes ev stop (p + totalAt bytes ev p) q k) :
      Through bytes ev stop p q (k + 1)

/-- Why a scan ends at `p`, with the hop and the flag that it reports. -/
inductive ScanEnd (bytes : List UInt8) (ev : UInt8) (stop p : ℕ) : ℕ → Bool → Prop
  | erased (hpeek : p + entryPeekBytes ≤ stop) (herased : erasedAt bytes ev p) :
      ScanEnd bytes ev stop p 0 true
  | hop (hpeek : p + entryPeekBytes ≤ stop) (hdata : ¬erasedAt bytes ev p)
      (hlong : stop < p + totalAt bytes ev p) :
      ScanEnd bytes ev stop p (totalAt bytes ev p) false
  | short (hshort : stop < p + entryPeekBytes) : ScanEnd bytes ev stop p 0 false

theorem getD_window {c n i : ℕ} (hi : i < n) :
    ((bytes.drop c).take n).getD i 0 = bytes.getD (c + i) 0 := by
  rw [List.getD_eq_getElem?_getD, List.getD_eq_getElem?_getD, List.getElem?_take_of_lt hi,
    List.getElem?_drop]

variable (bytes ev) in
/-- A scan walks a part of the sector. -/
theorem scanChunk_through (c n : ℕ) (hn : c + n ≤ bytes.length) (pos entries : ℕ) :
    ∃ j, (scanChunk ((bytes.drop c).take n) ev pos entries).entries = entries + j ∧
      Through bytes ev (c + n) (c + pos)
        (c + (scanChunk ((bytes.drop c).take n) ev pos entries).consumed) j ∧
      ScanEnd bytes ev (c + n)
        (c + (scanChunk ((bytes.drop c).take n) ev pos entries).consumed)
        (scanChunk ((bytes.drop c).take n) ev pos entries).hop
        (scanChunk ((bytes.drop c).take n) ev pos entries).atEnd := by
  have hlength : ((bytes.drop c).take n).length = n := by
    rw [List.length_take, List.length_drop]
    omega
  -- two bytes that the scan looks at are those of the sector
  have hfield : ∀ {pos}, pos + entryPeekBytes ≤ n →
      (erasedAt ((bytes.drop c).take n) ev pos ↔ erasedAt bytes ev (c + pos)) ∧
        totalAt ((bytes.drop c).take n) ev pos = totalAt bytes ev (c + pos) := by
    intro pos hpos
    unfold entryPeekBytes at hpos
    unfold erasedAt totalAt
    rw [getD_window (show pos < n by omega), getD_window (show pos + 1 < n by omega), Nat.add_assoc]
    exact ⟨Iff.rfl, rfl⟩
  fun_induction scanChunk ((bytes.drop c).take n) ev pos entries with
  | case1 pos entries hpeek herased =>
    rw [hlength] at hpeek
    dsimp only
    exact ⟨0, rfl, .refl _, .erased (by omega) ((hfield hpeek).1.mp herased)⟩
  | case2 pos entries hpeek hdata hlong =>
    rw [hlength] at hpeek hlong
    rw [(hfield hpeek).2] at hlong ⊢
    dsimp only
    exact ⟨0, rfl, .refl _,
      .hop (by omega) (fun h => hdata ((hfield hpeek).1.mpr h)) (by omega)⟩
  | case3 pos entries hpeek hdata hshort ih =>
    rw [hlength] at hpeek hshort
    obtain ⟨j, hentries, hthrough, hend⟩ := ih
    refine ⟨j + 1, by rw [hentries]; omega, ?_, hend⟩
    rw [(hfield hpeek).2] at hshort hthrough ⊢
    refine .entry (by omega) (fun h => hdata ((hfield hpeek).1.mpr h)) (by omega) ?_
    rwa [Nat.add_assoc]
  | case4 pos entries hpeek =>
    rw [hlength] at hpeek
    dsimp only
    exact ⟨0, rfl, .refl _, .short (by omega)⟩

theorem Through.plainWalk_eq (h : Through bytes ev stop p q k) (hstop : stop ≤ bytes.length)
    (e : ℕ) : plainWalk bytes ev p e = plainWalk bytes ev q (e + k) := by
  induction h generalizing e with
  | refl p => rfl
  | @entry p q k hpeek hdata hfit rest ih =>
    have hnext := ih (e + 1)
    rw [plainWalk, dif_pos (by omega), if_neg hdata, if_neg (by omega), hnext]
    congr 1
    omega

/-- Entries within their chunk do not count. -/
theorem Through.spanning_eq (h : Through bytes ev stop p q k) (hstop : stop ≤ bytes.length)
    {scratchLen start : ℕ} (hchunk : stop ≤ start + scratchLen) :
    spanning bytes ev scratchLen start p = spanning bytes ev scratchLen start q := by
  induction h with
  | refl p => rfl
  | @entry p q k hpeek hdata hfit rest ih =>
    have hwhole : ¬(erasedAt bytes ev p ∨ bytes.length < p + totalAt bytes ev p) := by
      rintro (herased | hlong)
      · exact hdata herased
      · omega
    rw [spanning, dif_pos (by omega)]
    simp only
    rw [if_pos (show p + entryPeekBytes ≤ start + scratchLen by omega), if_neg hwhole,
      if_neg (by omega), ih]

/-- A walk ends where no length field is left. -/
theorem plainWalk_short (h : bytes.length < p + entryPeekBytes) (e : ℕ) :
    plainWalk bytes ev p e = ⟨p, e⟩ := by
  rw [plainWalk, dif_neg (by omega)]

theorem spanning_short (h : bytes.length < p + entryPeekBytes) (scratchLen start : ℕ) :
    spanning bytes ev scratchLen start p = 0 := by
  rw [spanning, dif_neg (by omega)]

/-- A chunk that has no room for another length field is left. -/
theorem spanning_next {scratchLen start : ℕ} (hpeek : entryPeekBytes ≤ scratchLen)
    (h : start + scratchLen < p + entryPeekBytes) :
    spanning bytes ev scratchLen start p = spanning bytes ev scratchLen p p := by
  rw [spanning, spanning]
  simp only
  rw [if_neg (show ¬p + entryPeekBytes ≤ start + scratchLen by omega),
    if_pos (show p + entryPeekBytes ≤ p + scratchLen by omega)]

theorem walk_erased (hpeek : p + entryPeekBytes ≤ bytes.length) (herased : erasedAt bytes ev p)
    (e scratchLen start : ℕ) :
    plainWalk bytes ev p e = ⟨p, e⟩ ∧ spanning bytes ev scratchLen start p = 0 := by
  rw [plainWalk, dif_pos hpeek, if_pos herased, spanning, dif_pos hpeek]
  exact ⟨rfl, if_pos (.inl herased)⟩

/-- An entry that goes past the end of the sector. -/
theorem walk_past (hpeek : p + entryPeekBytes ≤ bytes.length) (hdata : ¬erasedAt bytes ev p)
    (hpast : bytes.length < p + totalAt bytes ev p) (e scratchLen start : ℕ) :
    plainWalk bytes ev p e = ⟨bytes.length, e⟩ ∧ spanning bytes ev scratchLen start p = 0 := by
  rw [plainWalk, dif_pos hpeek, if_neg hdata, if_pos (by omega), spanning, dif_pos hpeek]
  exact ⟨rfl, if_pos (.inr hpast)⟩

/-- An entry of the sector that goes past the end of its chunk. -/
theorem walk_hop (scratchLen start : ℕ) (hpeek : p + entryPeekBytes ≤ start + scratchLen)
    (hdata : ¬erasedAt bytes ev p) (hlong : start + scratchLen < p + totalAt bytes ev p)
    (hwhole : p + totalAt bytes ev p ≤ bytes.length) (e : ℕ) :
    plainWalk bytes ev p e = plainWalk bytes ev (p + totalAt bytes ev p) (e + 1) ∧
      spanning bytes ev scratchLen start p =
        spanning bytes ev scratchLen (p + totalAt bytes ev p) (p + totalAt bytes ev p) + 1 := by
  have hinside : p + entryPeekBytes ≤ bytes.length := by omega
  have hwhole' : ¬(erasedAt bytes ev p ∨ bytes.length < p + totalAt bytes ev p) := by
    rintro (herased | hpast)
    · exact hdata herased
    · omega
  constructor
  · rw [plainWalk, dif_pos hinside, if_neg hdata, if_neg (by omega)]
  · rw [spanning, dif_pos hinside]
    simp only
    rw [if_pos hpeek, if_neg hwhole', if_pos hlong]

variable (bytes ev) in
theorem plainWalk_add (p e k : ℕ) :
    (plainWalk bytes ev p (e + k)).cursor = (plainWalk bytes ev p e).cursor ∧
      (plainWalk bytes ev p (e + k)).entries = (plainWalk bytes ev p e).entries + k := by
  fun_induction plainWalk bytes ev p e with
  | case1 p e hpeek herased =>
    rw [plainWalk, dif_pos hpeek, if_pos herased]
    exact ⟨rfl, rfl⟩
  | case2 p e hpeek hdata hpast =>
    rw [plainWalk, dif_pos hpeek, if_neg hdata, if_pos hpast]
    exact ⟨rfl, rfl⟩
  | case3 p e hpeek hdata hwhole ih =>
    rw [plainWalk, dif_pos hpeek, if_neg hdata, if_neg hwhole, Nat.add_right_comm]
    exact ih
  | case4 p e hpeek =>
    rw [plainWalk, dif_neg hpeek]
    exact ⟨rfl, rfl⟩

theorem Through.le (h : Through bytes ev stop p q k) (hp : p ≤ stop) : q ≤ stop := by
  induction h with
  | refl p => exact hp
  | entry _ _ hfit _ ih => exact ih hfit

/-- The walk goes on in the next chunk, past an entry that does not count if there is one. -/
theorem chunk_left {cursor hop scratchLen : ℕ}
    (h : ScanEnd bytes ev (cursor + min (bytes.length - cursor) scratchLen) q hop false)
    (hcursor : cursor ≤ bytes.length) (hq : q ≤ bytes.length)
    (hlen : entryPeekBytes ≤ scratchLen) (e : ℕ) :
    (plainWalk bytes ev (min (q + hop) bytes.length) e).cursor =
        (plainWalk bytes ev q e).cursor ∧
      (plainWalk bytes ev q e).entries + spanning bytes ev scratchLen
          (min (q + hop) bytes.length) (min (q + hop) bytes.length) =
        (plainWalk bytes ev (min (q + hop) bytes.length) e).entries +
          spanning bytes ev scratchLen cursor q := by
  cases h with
  | short hshort =>
    rw [Nat.add_zero, Nat.min_eq_left hq]
    refine ⟨rfl, congrArg _ ?_⟩
    by_cases hroom : bytes.length < q + entryPeekBytes
    · rw [spanning_short hroom, spanning_short hroom]
    · exact (spanning_next hlen (by omega)).symm
  | hop hpeek hdata hlong =>
    by_cases hpast : bytes.length < q + totalAt bytes ev q
    · obtain ⟨hwalk, hspan⟩ := walk_past (by omega) hdata hpast e scratchLen cursor
      have hend : bytes.length < bytes.length + entryPeekBytes :=
        Nat.lt_add_of_pos_right (by decide)
      rw [Nat.min_eq_right (Nat.le_of_lt hpast), hwalk, hspan, plainWalk_short hend,
        spanning_short hend]
      exact ⟨rfl, rfl⟩
    · obtain ⟨hwalk, hspan⟩ := walk_hop scratchLen cursor (by omega) hdata
        (by omega) (Nat.le_of_not_lt hpast) e
      obtain ⟨hsame, hcount⟩ := plainWalk_add bytes ev (q + totalAt bytes ev q) e 1
      rw [Nat.min_eq_left (Nat.le_of_not_lt hpast), hwalk, hspan]
      exact ⟨hsame.symm, by omega⟩

end Chunks

/-! ## The seek and the walk -/

section Seek

variable {s : ActiveSector} {readRc : ℕ → ℤ} {scratchLen : ℕ}

/-- The chunk at a cursor: the walk through its whole entries, and why its scan ends. -/
theorem scanAt_through (s : ActiveSector) (scratchLen : ℕ) {cursor : ℕ}
    (hcursor : cursor < s.bytes.length) :
    Through s.bytes s.eraseValue (cursor + min (s.bytes.length - cursor) scratchLen) cursor
        (cursor + (s.scanAt scratchLen cursor).consumed) (s.scanAt scratchLen cursor).entries ∧
      ScanEnd s.bytes s.eraseValue (cursor + min (s.bytes.length - cursor) scratchLen)
        (cursor + (s.scanAt scratchLen cursor).consumed) (s.scanAt scratchLen cursor).hop
        (s.scanAt scratchLen cursor).atEnd := by
  obtain ⟨j, hentries, hthrough, hend⟩ := scanChunk_through s.bytes s.eraseValue cursor
    (min (s.bytes.length - cursor) scratchLen) (by omega) 0 0
  rw [Nat.zero_add] at hentries
  rw [← hentries, Nat.add_zero] at hthrough
  exact ⟨hthrough, hend⟩

theorem fastSeekFrom_walk (hlen : entryPeekBytes ≤ scratchLen) (hread : ∀ n, readRc n = 0)
    (cursor entries reads : ℕ) :
    (fastSeekFrom s readRc scratchLen cursor entries reads).activeBytes =
        (plainWalk s.bytes s.eraseValue cursor entries).cursor ∧
      (fastSeekFrom s readRc scratchLen cursor entries reads).activeEntries +
          spanning s.bytes s.eraseValue scratchLen cursor cursor =
        (plainWalk s.bytes s.eraseValue cursor entries).entries := by
  fun_induction fastSeekFrom s readRc scratchLen cursor entries reads with
  | case1 cursor entries reads hcursor hrc => exact absurd (hread reads) hrc
  | case2 cursor entries reads hcursor hrc hend =>
    obtain ⟨hthrough, hstop⟩ := scanAt_through s scratchLen hcursor
    rw [hthrough.plainWalk_eq (by omega), hthrough.spanning_eq (by omega) (by omega)]
    rw [hend] at hstop
    generalize (s.scanAt scratchLen cursor).hop = hop at hstop
    cases hstop with
    | erased hpeek herased =>
      obtain ⟨hwalk, hspan⟩ := walk_erased (by omega) herased
        (entries + (s.scanAt scratchLen cursor).entries) scratchLen cursor
      rw [hwalk, hspan]
      exact ⟨rfl, Nat.add_zero _⟩
  | case3 cursor entries reads hcursor hrc hend hstuck =>
    obtain ⟨hthrough, hstop⟩ := scanAt_through s scratchLen hcursor
    rw [hthrough.plainWalk_eq (by omega), hthrough.spanning_eq (by omega) (by omega)]
    rw [hstuck.1, hstuck.2, Nat.add_zero] at hstop
    rw [hstuck.1]
    -- a chunk of one byte, the last of the sector
    have hlast : s.bytes.length < cursor + entryPeekBytes := by
      generalize hhop : 0 = hop at hstop
      generalize (s.scanAt scratchLen cursor).atEnd = atEnd at hend hstop
      cases hstop with
      | erased => exact absurd rfl hend
      | hop hpeek hdata hlong =>
        have htotal := two_le_totalAt s.bytes s.eraseValue cursor
        omega
      | short hshort => omega
    have hlast' : s.bytes.length < cursor + 0 + entryPeekBytes := hlast
    rw [plainWalk_short hlast', spanning_short hlast']
    exact ⟨rfl, Nat.add_zero _⟩
  | case4 cursor entries reads hcursor hrc hend hstuck ih =>
    obtain ⟨hthrough, hstop⟩ := scanAt_through s scratchLen hcursor
    rw [hthrough.plainWalk_eq (by omega), hthrough.spanning_eq (by omega) (by omega)]
    rw [Bool.eq_false_iff.mpr hend] at hstop
    obtain ⟨hsame, hcount⟩ := chunk_left hstop (Nat.le_of_lt hcursor)
      (Nat.le_trans (hthrough.le (Nat.le_add_right _ _)) (by omega)) hlen
      (entries + (s.scanAt scratchLen cursor).entries)
    obtain ⟨hbytes, hentries⟩ := ih
    exact ⟨hbytes.trans hsame, by omega⟩
  | case5 cursor entries reads hcursor =>
    have hend : s.bytes.length < cursor + entryPeekBytes := by
      unfold entryPeekBytes
      omega
    rw [plainWalk_short hend, spanning_short hend]
    exact ⟨rfl, Nat.add_zero _⟩

end Seek

/-- The seek ends where the walk over the sector ends, whatever the size of the chunks, and it
counts the same entries exactly if no whole entry goes past the end of its chunk. -/
theorem fastSeekActive_iff (s : ActiveSector) (readRc : ℕ → ℤ) (scratchLen elemOff : ℕ)
    (hlen : 2 ≤ scratchLen) (hread : ∀ n, readRc n = 0) :
    (fastSeekActive s readRc scratchLen elemOff).activeBytes =
        (plainWalk s.bytes s.eraseValue elemOff 0).cursor ∧
      ((fastSeekActive s readRc scratchLen elemOff).activeEntries =
          (plainWalk s.bytes s.eraseValue elemOff 0).entries ↔
        spanning s.bytes s.eraseValue scratchLen elemOff elemOff = 0) := by
  obtain ⟨hcursor, hcount⟩ := fastSeekFrom_walk (s := s) hlen hread elemOff 0 0
  refine ⟨hcursor, ?_⟩
  change (fastSeekActive s readRc scratchLen elemOff).activeEntries + _ = _ at hcount
  omega

/-- Two entries of three bytes and the erased rest. -/
def twoEntries : ActiveSector :=
  ⟨[0x03, 1, 2, 3, 0xAB, 0x03, 4, 5, 6, 0xAB, 0xFF, 0xFF], 0xFF, 4⟩

theorem fastSeekActive_twoEntries :
    (fastSeekActive twoEntries (fun _ => 0) 8 0).activeBytes =
        (plainWalk twoEntries.bytes 0xFF 0 0).cursor ∧
      ((fastSeekActive twoEntries (fun _ => 0) 8 0).activeEntries =
          (plainWalk twoEntries.bytes 0xFF 0 0).entries ↔
        spanning twoEntries.bytes 0xFF 8 0 0 = 0) :=
  fastSeekActive_iff twoEntries (fun _ => 0) 8 0 (by decide) fun _ => rfl

/-- In chunks of eight bytes the second entry does not count. -/
theorem twoEntries_uncounted :
    (fastSeekActive twoEntries (fun _ => 0) 8 0).activeEntries ≠
      (plainWalk twoEntries.bytes 0xFF 0 0).entries := by
  decide +kernel

end DiveCANHead.FlashLog
