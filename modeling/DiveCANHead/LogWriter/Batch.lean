import DiveCANHead.FlashLog.Record
import DiveCANHead.LogDownload.Selector

/-!
# The staging buffer of the log writer (`flash_log.c`)

Slots from the ingest queue are packed into a buffer, each behind a header with its length, and
every pass of a flush takes the buffer apart again.
-/

namespace DiveCANHead.LogWriter

open DiveCANHead.Lib DiveCANHead.FlashLog DiveCANHead.LogDownload

/-- `CONFIG_FLASH_LOG_MAX_ENTRY_BYTES`. -/
def maxEntryBytes : ℕ := 96

/-- The size of `LogIngestSlot_t.payload`. -/
def slotPayloadSize : ℕ := maxEntryBytes - 12

/-- `LogIngestSlot_t`, with the part of the payload that is in use; no producer has containers. -/
structure Slot where
  dest : FlashLogDest
  type : UInt8
  tsUs : UInt64
  payload : List UInt8
  fits : payload.length ≤ slotPayloadSize
  notBatch : type ≠ flTypeBatch
  deriving DecidableEq

/-- `fl_is_marker_type`. -/
def isMarkerType (type : UInt8) : Bool :=
  type == flTypeBootMarker || type == flTypeDiveStart || type == flTypeDiveEnd

/-- The byte of a destination. -/
def destByte : FlashLogDest → UInt8
  | .telemetry => 0
  | .text => 1

/-! ## Packing -/

/-- `FL_BATCH_BUF_BYTES`. -/
def batchBufBytes : ℕ := 2048

/-- `FL_BATCH_HDR_BYTES`. -/
def batchHdrBytes : ℕ := 12

/-- The packed header: destination, type, length and time. -/
def Slot.header (s : Slot) : List UInt8 :=
  [destByte s.dest, s.type] ++ leBytes 2 s.payload.length ++ leBytes 8 s.tsUs.toNat

def Slot.pack (s : Slot) : List UInt8 := s.header ++ s.payload

/-- `fl_batch_append` on the part of the buffer that is in use; `none` when it has no room. -/
def batchAppend (batch : List UInt8) (s : Slot) : Option (List UInt8) :=
  if batch.length + (batchHdrBytes + s.payload.length) ≤ batchBufBytes then some (batch ++ s.pack)
  else none

/-- The slots that are staged lie behind one another. -/
theorem batch_of_foldlM {slots : List Slot} {batch : List UInt8}
    (h : slots.foldlM batchAppend [] = some batch) : batch = slots.flatMap Slot.pack := by
  have hfrom : ∀ {start : List UInt8}, slots.foldlM batchAppend start = some batch →
      batch = start ++ slots.flatMap Slot.pack := by
    clear h
    induction slots with
    | nil =>
      intro start h
      rw [List.flatMap_nil, List.append_nil, ← Option.some.inj h]
    | cons s slots ih =>
      intro start h
      obtain ⟨next, hnext, hrest⟩ := Option.bind_eq_some_iff.mp h
      unfold batchAppend at hnext
      split at hnext
      · rw [ih hrest, ← Option.some.inj hnext, List.flatMap_cons, List.append_assoc]
      · cases hnext
  exact hfrom h

/-! ## Taking apart -/

/-- A packed record as a pass reads it; `dest` is `none` where no ring has this byte. -/
structure BatchRecord where
  dest : Option FlashLogDest
  type : UInt8
  tsUs : UInt64
  payload : List UInt8
  deriving DecidableEq

/-- `fl_batch_decode_length`. -/
def decodeLength (header : List UInt8) : ℕ := leNat ((header.drop 2).take 2)

/-- The fields of a header, with `fl_batch_decode_ts`. -/
def decodeRecord (header payload : List UInt8) : BatchRecord :=
  ⟨FlashLogDest.ofByte (header.getD 0 0), header.getD 1 0,
    UInt64.ofNat (leNat ((header.drop 4).take 8)), payload⟩

/-- The records that the loop of a pass goes over; a cut record ends it. -/
def batchRecords (batch : List UInt8) : List BatchRecord :=
  (frames batchHdrBytes decodeLength batch).map fun f => decodeRecord f.1 f.2

/-- The slot as a pass sees it. -/
def Slot.record (s : Slot) : BatchRecord := ⟨some s.dest, s.type, s.tsUs, s.payload⟩

@[simp] theorem Slot.length_header (s : Slot) : s.header.length = batchHdrBytes := by
  simp [Slot.header, batchHdrBytes]

theorem Slot.length_pack (s : Slot) : s.pack.length = batchHdrBytes + s.payload.length := by
  rw [Slot.pack, List.length_append, s.length_header]

theorem Slot.decodeLength_header (s : Slot) : decodeLength s.header = s.payload.length := by
  have hfits := s.fits
  refine leNat_leBytes (n := 2) (Nat.lt_of_le_of_lt hfits ?_)
  decide

theorem Slot.decodeRecord_header (s : Slot) : decodeRecord s.header s.payload = s.record := by
  have hts : leNat (leBytes 8 s.tsUs.toNat) = s.tsUs.toNat := leNat_leBytes s.tsUs.toNat_lt
  have hfield : (s.header.drop 4).take 8 = leBytes 8 s.tsUs.toNat := rfl
  have hdest : FlashLogDest.ofByte (s.header.getD 0 0) = some s.dest := by
    cases hd : s.dest <;> simp [Slot.header, hd, destByte, FlashLogDest.ofByte]
  rw [decodeRecord, hfield, hts, UInt64.ofNat_toNat, hdest]
  rfl

/-- A pass goes over the slots as they were staged. -/
theorem batchRecords_pack (slots : List Slot) :
    batchRecords (slots.flatMap Slot.pack) = slots.map Slot.record := by
  have hframes : frames batchHdrBytes decodeLength (slots.flatMap fun s => s.header ++ s.payload) =
      slots.map fun s => (s.header, s.payload) :=
    frames_flatMap (by decide) (fun s _ => s.length_header) fun s _ => s.decodeLength_header
  unfold batchRecords Slot.pack
  rw [hframes, List.map_map]
  exact List.map_congr_left fun s _ => s.decodeRecord_header

/-- A sample. -/
def sample : Slot := ⟨.telemetry, 0x10, 5, [0x46], by decide, by decide⟩

end DiveCANHead.LogWriter
