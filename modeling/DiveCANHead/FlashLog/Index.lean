import DiveCANHead.FlashLog.Fcb

/-!
# The sector index (`flash_log_reader.c`)

One walk over the ring folds every marker into the row of its sector: the first
valid boot and dive id and which kinds of marker are there. `buildIndex_row` says
what a row holds in terms of its sector alone. The index is rebuilt whenever a
marker was written since the last build, so the model builds it at every use;
flash reads succeed.
-/

namespace DiveCANHead.FlashLog

open DiveCANHead.Lib

def flInvalidBootId : UInt32 := 0xFFFFFFFF

def flInvalidDiveId : UInt16 := 0xFFFF

/-- `FlashLogIndexEntry_t`, one field for each flag. -/
structure FlashLogIndexEntry where
  firstBootId : UInt32 := flInvalidBootId
  firstDiveId : UInt16 := flInvalidDiveId
  hasBoot : Bool := false
  hasDiveStart : Bool := false
  hasDiveEnd : Bool := false
  deriving DecidableEq, Repr

namespace Entry

def isBoot (e : Entry) : Bool := e.type == flTypeBootMarker

def isDiveStart (e : Entry) : Bool := e.type == flTypeDiveStart

def isDiveEnd (e : Entry) : Bool := e.type == flTypeDiveEnd

def isDive (e : Entry) : Bool := e.isDiveStart || e.isDiveEnd

/-- A boot marker is no dive marker. -/
theorem isDive_of_isBoot {e : Entry} (h : e.isBoot = true) :
    e.isDiveStart = false ∧ e.isDiveEnd = false := by
  simp only [isBoot, isDiveStart, isDiveEnd, beq_iff_eq] at h ⊢
  rw [h]
  exact ⟨rfl, rfl⟩

theorem isDiveEnd_of_isDiveStart {e : Entry} (h : e.isDiveStart = true) : e.isDiveEnd = false := by
  simp only [isDiveStart, isDiveEnd, beq_iff_eq] at h ⊢
  rw [h]
  rfl

end Entry

def indexApplyMarker (row : FlashLogIndexEntry) (e : Entry) : FlashLogIndexEntry :=
  if e.isBoot then
    { row with
      firstBootId := if row.firstBootId = flInvalidBootId then e.bootId else row.firstBootId
      hasBoot := true }
  else
    let row := { row with
      firstDiveId := if row.firstDiveId = flInvalidDiveId then e.diveNumber else row.firstDiveId }
    if e.isDiveStart then { row with hasDiveStart := true } else { row with hasDiveEnd := true }

/-- The row after one entry of its sector. -/
def indexEntry (row : FlashLogIndexEntry) (e : Entry) : FlashLogIndexEntry :=
  if e.isBoot || e.isDive then indexApplyMarker row e else row

def indexWalkCb (rows : List FlashLogIndexEntry) (p : ℕ × Entry) : List FlashLogIndexEntry :=
  rows.modify p.1 fun row => indexEntry row p.2

def buildIndex (f : Fcb) : List FlashLogIndexEntry :=
  f.walk.foldl indexWalkCb (List.replicate f.sectorCnt {})

/-! ## What a row holds -/

/-- The first id that is not the sentinel. -/
def firstValid {α : Type} [DecidableEq α] (invalid : α) (ids : List α) : α :=
  (ids.find? (· ≠ invalid)).getD invalid

theorem firstValid_append {α : Type} [DecidableEq α] (invalid : α) (ids : List α) (id : α) :
    firstValid invalid (ids ++ [id]) =
      if firstValid invalid ids = invalid then id else firstValid invalid ids := by
  unfold firstValid
  rw [List.find?_append]
  cases h : ids.find? (· ≠ invalid) with
  | none =>
    by_cases hid : id = invalid
    · simp [hid]
    · simp [hid]
  | some x =>
    have hx : x ≠ invalid := by simpa using List.find?_some h
    simp [hx]

theorem firstValid_singleton {α : Type} [DecidableEq α] (invalid id : α) :
    firstValid invalid [id] = id := by
  by_cases hid : id = invalid
  · simp [firstValid, hid]
  · simp [firstValid, hid]

theorem mem_of_firstValid {α : Type} [DecidableEq α] {invalid id : α} {ids : List α}
    (h : firstValid invalid ids = id) (hid : id ≠ invalid) : id ∈ ids := by
  unfold firstValid at h
  cases hf : ids.find? (· ≠ invalid) with
  | none =>
    rw [hf] at h
    exact absurd h.symm hid
  | some x =>
    rw [hf] at h
    rw [← show x = id from h]
    exact List.mem_of_find?_eq_some hf

/-- The sentinel stays only when no other id is there. -/
theorem eq_of_firstValid {α : Type} [DecidableEq α] {invalid id : α} {ids : List α}
    (h : firstValid invalid ids = invalid) (hid : id ∈ ids) : id = invalid := by
  unfold firstValid at h
  cases hf : ids.find? (· ≠ invalid) with
  | none => simpa using List.find?_eq_none.mp hf id hid
  | some x =>
    rw [hf] at h
    have hx : x ≠ invalid := by simpa using List.find?_some hf
    exact absurd h hx

/-- The row of a sector with these entries. -/
def sectorRow (es : List Entry) : FlashLogIndexEntry where
  firstBootId := firstValid flInvalidBootId ((es.filter Entry.isBoot).map Entry.bootId)
  firstDiveId := firstValid flInvalidDiveId ((es.filter Entry.isDive).map Entry.diveNumber)
  hasBoot := es.any Entry.isBoot
  hasDiveStart := es.any Entry.isDiveStart
  hasDiveEnd := es.any Entry.isDiveEnd

/-- One more entry: a boot marker, a dive marker, or neither. -/
theorem sectorRow_append (es : List Entry) (e : Entry) :
    sectorRow (es ++ [e]) = indexEntry (sectorRow es) e := by
  unfold sectorRow indexEntry indexApplyMarker
  simp only [List.filter_append, List.map_append, List.any_append, List.any_cons, List.any_nil,
    Bool.or_false]
  by_cases hb : e.isBoot = true
  · obtain ⟨hs, hd⟩ := Entry.isDive_of_isBoot hb
    simp [hb, hs, hd, Entry.isDive, firstValid_append]
  · rw [Bool.not_eq_true] at hb
    by_cases hs : e.isDiveStart = true
    · have hd := Entry.isDiveEnd_of_isDiveStart hs
      simp [hb, hs, hd, Entry.isDive, firstValid_append]
    · rw [Bool.not_eq_true] at hs
      by_cases hd : e.isDiveEnd = true
      · simp [hb, hs, hd, Entry.isDive, firstValid_append]
      · rw [Bool.not_eq_true] at hd
        simp [hb, hs, hd, Entry.isDive]

theorem foldl_indexEntry (es : List Entry) : es.foldl indexEntry {} = sectorRow es := by
  induction es using List.reverseRecOn with
  | nil => rfl
  | append_singleton es e ih => rw [List.foldl_append, ih, sectorRow_append, List.foldl_cons,
      List.foldl_nil]

/-- Folding a walk into the rows folds each sector's entries into its row. -/
theorem foldl_indexWalkCb (ps : List (ℕ × Entry)) (rows : List FlashLogIndexEntry) (i : ℕ) :
    (ps.foldl indexWalkCb rows)[i]? = rows[i]?.map fun row =>
      ((ps.filter fun p => decide (p.1 = i)).map Prod.snd).foldl indexEntry row := by
  induction ps generalizing rows with
  | nil => simp
  | cons p ps ih =>
    rw [List.foldl_cons, ih, indexWalkCb, List.getElem?_modify]
    cases rows[i]? with
    | none => rfl
    | some row =>
      by_cases h : p.1 = i
      · simp [h]
      · simp [h]

/-- The row of a sector is that of its entries. -/
theorem buildIndex_row (f : Fcb) {i : ℕ} (hi : i < f.sectorCnt) :
    (buildIndex f)[i]? = some (sectorRow (f.sector i)) := by
  have hfilter : ((f.walk.filter fun p => decide (p.1 = i)).map Prod.snd) = f.sector i := by
    rw [Fcb.walk_eq]
    exact filter_tagged Fcb.nodup_ring fun h => Fcb.sector_eq_nil h
  rw [buildIndex, foldl_indexWalkCb, hfilter, List.getElem?_replicate, if_pos hi, Option.map_some,
    foldl_indexEntry]

theorem length_buildIndex (f : Fcb) : (buildIndex f).length = f.sectorCnt := by
  have hkeep : ∀ (ps : List (ℕ × Entry)) (rows : List FlashLogIndexEntry),
      (ps.foldl indexWalkCb rows).length = rows.length := by
    intro ps
    induction ps with
    | nil => exact fun _ => rfl
    | cons p ps ih =>
      intro rows
      rw [List.foldl_cons, ih, indexWalkCb, List.length_modify]
  rw [buildIndex, hkeep, List.length_replicate]

/-- The index of a log of one sector. -/
theorem buildIndex_single {f : Fcb} {es : List Entry} (h : f.sectors = [es]) :
    buildIndex f = [sectorRow es] := by
  have hcnt : f.sectorCnt = 1 := by rw [Fcb.sectorCnt, h]; rfl
  have hrow := buildIndex_row f (i := 0) (by omega)
  have hsector : f.sector 0 = es := by rw [Fcb.sector, h]; rfl
  have hlen := length_buildIndex f
  rw [hsector] at hrow
  rw [hcnt] at hlen
  obtain ⟨row, hone⟩ := List.length_eq_one_iff.mp hlen
  rw [hone] at hrow ⊢
  exact congrArg (fun r => [r]) (Option.some.inj hrow)

end DiveCANHead.FlashLog
