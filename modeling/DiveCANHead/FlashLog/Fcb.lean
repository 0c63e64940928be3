import DiveCANHead.Lib.Cycle
import DiveCANHead.Lib.Locate

/-!
# Log entries and the flash circular buffer

An FCB is an array of sectors, in use from the oldest one around to the active
one, and a walk serves the entries of these sectors in that order. Appending and
serving are Zephyr's; `Fcb` is the content they leave and `getnext` the
documented order.
-/

namespace DiveCANHead.FlashLog

open DiveCANHead.Lib

/-! ## Entries (`flash_log_entries.h`) -/

def flTypeBootMarker : UInt8 := 0x01

def flTypeDiveStart : UInt8 := 0x02

def flTypeDiveEnd : UInt8 := 0x03

/-- `sizeof(fl_entry_hdr_t)`. -/
def flEntryHdrSize : ℕ := 12

/-- The data of one FCB entry: a header and a payload. -/
structure Entry where
  data : List UInt8
  header : flEntryHdrSize ≤ data.length
  deriving DecidableEq, Repr

namespace Entry

def type (e : Entry) : UInt8 := e.data.getD 0 0

def payload (e : Entry) : List UInt8 := e.data.drop flEntryHdrSize

/-- `fl_payload_boot_marker_t.boot_id`. -/
def bootId (e : Entry) : UInt32 :=
  (e.payload.getD 0 0).toUInt32 ||| ((e.payload.getD 1 0).toUInt32 <<< 8) |||
    ((e.payload.getD 2 0).toUInt32 <<< 16) ||| ((e.payload.getD 3 0).toUInt32 <<< 24)

/-- `fl_payload_dive_marker_t.dive_number`. -/
def diveNumber (e : Entry) : UInt16 :=
  (e.payload.getD 0 0).toUInt16 ||| ((e.payload.getD 1 0).toUInt16 <<< 8)

theorem data_ne_nil (e : Entry) : e.data ≠ [] := by
  intro h
  have hlen := e.header
  rw [h] at hlen
  exact absurd hlen (by decide)

end Entry

/-! ## The ring -/

/-- The slots in use of a ring of `cnt`, oldest first. -/
def ringSlots (cnt oldest active : ℕ) : List ℕ :=
  cycle cnt oldest ((active + cnt - oldest) % cnt + 1)

/-- `struct fcb` with the entries of each sector. A sector out of use is empty. -/
structure Fcb where
  sectors : List (List Entry)
  oldest : ℕ
  active : ℕ
  oldest_lt : oldest < sectors.length
  active_lt : active < sectors.length
  unused : ∀ i < sectors.length, i ∉ ringSlots sectors.length oldest active →
    sectors.getD i [] = []
  deriving DecidableEq

/-- `struct fcb_entry`: a sector, or null, and how many of its entries have been
served. -/
structure FcbEntry where
  sector : Option ℕ := none
  elemOff : ℕ := 0
  deriving DecidableEq, Repr

/-- An entry that a walk serves. -/
structure Served where
  sector : ℕ
  elemOff : ℕ
  entry : Entry
  deriving DecidableEq, Repr

def Served.loc (x : Served) : FcbEntry := ⟨some x.sector, x.elemOff⟩

namespace Fcb

variable (f : Fcb)

def sectorCnt : ℕ := f.sectors.length

def sector (i : ℕ) : List Entry := f.sectors.getD i []

/-- The sectors in use, oldest first. -/
def ring : List ℕ := ringSlots f.sectorCnt f.oldest f.active

/-- Every resident entry, in the order it was appended. -/
def log : List Entry := f.ring.flatMap f.sector

def nextSector (s : ℕ) : ℕ := if s + 1 < f.sectorCnt then s + 1 else 0

/-- The next entry of sector `s` after the first `n`, or of a later sector; at
most every sector is tried once. -/
def getnextIn : ℕ → ℕ → ℕ → Option Served
  | 0, _, _ => none
  | left + 1, s, n =>
    match (f.sector s)[n]? with
    | some e => some ⟨s, n + 1, e⟩
    | none => if s = f.active then none else getnextIn left (f.nextSector s) 0

/-- `fcb_getnext`; a null sector is the oldest one. -/
def getnext (loc : FcbEntry) : Option Served :=
  f.getnextIn f.sectorCnt (loc.sector.getD f.oldest) loc.elemOff

/-- The entries served from a location on, each with its sector. -/
def walkFrom : ℕ → FcbEntry → List (ℕ × Entry)
  | 0, _ => []
  | left + 1, loc =>
    match f.getnext loc with
    | some x => (x.sector, x.entry) :: walkFrom left x.loc
    | none => []

/-- `fcb_walk`: every entry, oldest first. -/
def walk : List (ℕ × Entry) := f.walkFrom f.log.length {}

/-! ## The ring as a path -/

/-- Sectors that follow one another and end at the active one. -/
def Path : List ℕ → Prop
  | [] => False
  | [s] => s = f.active
  | s :: t :: rest => s ≠ f.active ∧ f.nextSector s = t ∧ Path (t :: rest)

variable {f}

theorem sectorCnt_pos : 0 < f.sectorCnt := Nat.zero_lt_of_lt f.oldest_lt

theorem length_ring_le : f.ring.length ≤ f.sectorCnt := by
  rw [ring, ringSlots, length_cycle]
  exact Nat.mod_lt _ sectorCnt_pos

theorem nodup_ring : f.ring.Nodup := by
  refine nodup_cycle ?_
  exact Nat.mod_lt _ sectorCnt_pos

theorem lt_of_mem_ring {i : ℕ} (h : i ∈ f.ring) : i < f.sectorCnt :=
  lt_of_mem_cycle sectorCnt_pos h

theorem sector_eq_nil {i : ℕ} (h : i ∉ f.ring) : f.sector i = [] := by
  rcases Nat.lt_or_ge i f.sectorCnt with hi | hi
  · exact f.unused i hi h
  · rw [sector, List.getD_eq_getElem?_getD, List.getElem?_eq_none hi]
    rfl

theorem mem_ring_of_mem_sector {i : ℕ} {e : Entry} (h : e ∈ f.sector i) : i ∈ f.ring := by
  by_contra hi
  rw [sector_eq_nil hi] at h
  cases h

theorem mem_log {e : Entry} : e ∈ f.log ↔ ∃ i, e ∈ f.sector i := by
  rw [log, List.mem_flatMap]
  exact ⟨fun ⟨i, _, he⟩ => ⟨i, he⟩, fun ⟨i, he⟩ => ⟨i, mem_ring_of_mem_sector he, he⟩⟩

theorem path_cycle {n o : ℕ} (ho : (o + n) % f.sectorCnt = f.active) (hn : n < f.sectorCnt) :
    f.Path (cycle f.sectorCnt o (n + 1)) := by
  induction n generalizing o with
  | zero =>
    rw [cycle_succ]
    exact ho
  | succ n ih =>
    have hlt : o % f.sectorCnt < f.sectorCnt := Nat.mod_lt _ sectorCnt_pos
    have hrest := ih (o := o + 1) (by rw [← ho]; congr 1; omega) (by omega)
    have hnext : f.nextSector (o % f.sectorCnt) = (o + 1) % f.sectorCnt := by
      rw [nextSector, ← Nat.mod_add_mod, add_mod_eq hlt (by omega)]
      split <;> omega
    have hne : o % f.sectorCnt ≠ f.active := by
      rw [← ho, ← Nat.mod_add_mod, add_mod_eq hlt (by omega)]
      split <;> omega
    rw [cycle_succ] at hrest ⊢
    rw [cycle_succ]
    exact ⟨hne, hnext, hrest⟩

theorem path_ring : f.Path f.ring := by
  have ho := f.oldest_lt
  have ha := f.active_lt
  refine path_cycle ?_ (Nat.mod_lt _ sectorCnt_pos)
  change f.oldest < f.sectorCnt at ho
  change f.active < f.sectorCnt at ha
  rw [Nat.add_mod_mod, show f.oldest + (f.active + f.sectorCnt - f.oldest) =
    f.active + f.sectorCnt by omega, Nat.add_mod_right, Nat.mod_eq_of_lt ha]

theorem Path.suffix {pre : List ℕ} {s : ℕ} {rest : List ℕ} (h : f.Path (pre ++ s :: rest)) :
    f.Path (s :: rest) := by
  induction pre with
  | nil => exact h
  | cons t pre ih =>
    cases pre with
    | nil => exact h.2.2
    | cons _ _ => exact ih h.2.2

/-! ## What a walk serves -/

/-- The next entry along given sectors. -/
def nextAlong (f : Fcb) : List ℕ → ℕ → Option Served
  | [], _ => none
  | s :: rest, n =>
    match (f.sector s)[n]? with
    | some e => some ⟨s, n + 1, e⟩
    | none => nextAlong f rest 0

theorem getnextIn_eq {s : ℕ} {rest : List ℕ} (h : f.Path (s :: rest)) {left : ℕ}
    (hleft : (s :: rest).length ≤ left) (n : ℕ) :
    f.getnextIn left s n = f.nextAlong (s :: rest) n := by
  induction rest generalizing s n left with
  | nil =>
    obtain ⟨left, rfl⟩ : ∃ k, left = k + 1 := ⟨left - 1, by simp at hleft; omega⟩
    have hs : s = f.active := h
    simp only [getnextIn, nextAlong, if_pos hs]
  | cons t rest ih =>
    obtain ⟨left, rfl⟩ : ∃ k, left = k + 1 := ⟨left - 1, by simp at hleft; omega⟩
    obtain ⟨hs, rfl, hrest⟩ := h
    simp only [getnextIn, if_neg hs]
    rw [ih hrest (by simp at hleft ⊢; omega)]
    rfl

/-- `Walk f s n es`: from sector `s` after its first `n` entries, `es` is served. -/
inductive Walk (f : Fcb) : ℕ → ℕ → List (ℕ × Entry) → Prop
  | done {s n : ℕ} (h : f.getnextIn f.sectorCnt s n = none) : Walk f s n []
  | more {s n t m : ℕ} {e : Entry} {es : List (ℕ × Entry)}
      (h : f.getnextIn f.sectorCnt s n = some ⟨t, m, e⟩) (hw : Walk f t m es) :
      Walk f s n ((t, e) :: es)

theorem Walk.congr {s n t m : ℕ} {es : List (ℕ × Entry)}
    (h : f.getnextIn f.sectorCnt s n = f.getnextIn f.sectorCnt t m) (hw : Walk f t m es) :
    Walk f s n es := by
  cases hw with
  | done hd => exact .done (h.trans hd)
  | more hm hw => exact .more (h.trans hm) hw

/-- A walk along a path serves the rest of its first sector and all the others. -/
theorem walk_path {s : ℕ} {rest : List ℕ} (h : f.Path (s :: rest))
    (hlen : (s :: rest).length ≤ f.sectorCnt) (n : ℕ) :
    Walk f s n (((f.sector s).drop n).map (Prod.mk s) ++ tagged f.sector rest) := by
  induction rest generalizing s n with
  | nil =>
    induction hk : (f.sector s).length - n generalizing n with
    | zero =>
      have hnil : (f.sector s).drop n = [] := List.drop_eq_nil_of_le (by omega)
      rw [hnil]
      refine .done ?_
      rw [getnextIn_eq h hlen, nextAlong, List.getElem?_eq_none (by omega)]
      rfl
    | succ k ih =>
      have hn : n < (f.sector s).length := by omega
      rw [List.drop_eq_getElem_cons hn, List.map_cons, List.cons_append]
      refine .more (m := n + 1) ?_ (ih (n + 1) (by omega))
      rw [getnextIn_eq h hlen, nextAlong, List.getElem?_eq_getElem hn]
  | cons t rest ih =>
    have hrest : f.Path (t :: rest) := h.2.2
    have hlen' : (t :: rest).length ≤ f.sectorCnt := (Nat.le_succ _).trans hlen
    induction hk : (f.sector s).length - n generalizing n with
    | zero =>
      have hnil : (f.sector s).drop n = [] := List.drop_eq_nil_of_le (by omega)
      rw [hnil, tagged_cons]
      refine Walk.congr ?_ (ih hrest hlen' 0)
      rw [getnextIn_eq h hlen, getnextIn_eq hrest hlen', nextAlong,
        List.getElem?_eq_none (by omega)]
    | succ k ih' =>
      have hn : n < (f.sector s).length := by omega
      rw [List.drop_eq_getElem_cons hn, List.map_cons, List.cons_append]
      refine .more (m := n + 1) ?_ (ih' (n + 1) (by omega))
      rw [getnextIn_eq h hlen, nextAlong, List.getElem?_eq_getElem hn]

/-- From the start of a sector in use, the walk serves the ring from there on. -/
theorem walk_sector (pre : List ℕ) {s : ℕ} {rest : List ℕ} (h : f.ring = pre ++ s :: rest) :
    Walk f s 0 (tagged f.sector (s :: rest)) := by
  have hpath : f.Path (pre ++ s :: rest) := h ▸ path_ring
  have hlen : (s :: rest).length ≤ f.sectorCnt := by
    have := f.length_ring_le
    rw [h, List.length_append] at this
    omega
  exact walk_path hpath.suffix hlen 0

theorem walkFrom_eq {es : List (ℕ × Entry)} (loc : FcbEntry)
    (h : Walk f (loc.sector.getD f.oldest) loc.elemOff es) {left : ℕ} (hleft : es.length ≤ left) :
    f.walkFrom left loc = es := by
  induction left generalizing es loc with
  | zero => exact (List.length_eq_zero_iff.mp (Nat.le_zero.mp hleft)).symm
  | succ left ih =>
    unfold walkFrom getnext
    cases h with
    | done hd => rw [hd]
    | more hm hw =>
      rename_i t m e es
      rw [hm]
      exact congrArg (_ :: ·)
        (ih ⟨some t, m⟩ hw (Nat.le_of_succ_le_succ hleft))

/-- The ring starts at the oldest sector. -/
theorem ring_eq : ∃ rest, f.ring = f.oldest :: rest := by
  have ho : f.oldest % f.sectorCnt = f.oldest := Nat.mod_eq_of_lt f.oldest_lt
  have hring := cycle_succ f.sectorCnt f.oldest ((f.active + f.sectorCnt - f.oldest) % f.sectorCnt)
  rw [ho] at hring
  exact ⟨_, hring⟩

/-- A whole walk serves the log. -/
theorem walk_eq : f.walk = tagged f.sector f.ring := by
  obtain ⟨rest, h⟩ := f.ring_eq
  have hw := walk_sector [] h
  rw [← h] at hw
  refine walkFrom_eq {} hw ?_
  rw [← List.length_map (f := Prod.snd), map_snd_tagged]
  exact le_rfl

end Fcb

end DiveCANHead.FlashLog
