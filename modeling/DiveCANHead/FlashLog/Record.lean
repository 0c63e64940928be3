import DiveCANHead.FlashLog.Fcb
import DiveCANHead.Lib.Framed
import DiveCANHead.Lib.LittleEndian

/-!
# Log records (`flash_log_entries.h`)

A record is a header with the length of its payload, and the payload; a container is a record
whose payload is a row of records. Entries, containers and downloads all have this layout.
-/

namespace DiveCANHead.FlashLog

open DiveCANHead.Lib

def flTypeBatch : UInt8 := 0xFD

def flTypeDropMarker : UInt8 := 0xFE

def flTypeEndOfStream : UInt8 := 0xFF

/-- `FL_ENTRY_FLAG_DROP_PRECEDED`. -/
def flEntryFlagDropPreceded : UInt8 := 1

/-- `fl_entry_hdr_t` and the payload. -/
structure LogRecord where
  type : UInt8
  flags : UInt8
  tsUs : UInt64
  payload : List UInt8
  deriving DecidableEq, Repr

namespace LogRecord

/-- The header; the length has 16 bits. -/
def header (r : LogRecord) : List UInt8 :=
  [r.type, r.flags] ++ leBytes 2 r.payload.length ++ leBytes 8 r.tsUs.toNat

def bytes (r : LogRecord) : List UInt8 := r.header ++ r.payload

/-- The length field of a header. -/
def lengthField (header : List UInt8) : ℕ := leNat ((header.drop 2).take 2)

/-- The record with this header and payload. -/
def ofParts (header payload : List UInt8) : LogRecord :=
  ⟨header.getD 0 0, header.getD 1 0, UInt64.ofNat (leNat ((header.drop 4).take 8)), payload⟩

/-- The length field says how long the payload is. -/
def Fits (r : LogRecord) : Prop := r.payload.length < 65536

@[simp] theorem length_header (r : LogRecord) : r.header.length = flEntryHdrSize := by
  simp [header, flEntryHdrSize]

theorem lengthField_header {r : LogRecord} (h : r.Fits) :
    lengthField r.header = r.payload.length := leNat_leBytes (n := 2) h

theorem ofParts_header (r : LogRecord) : ofParts r.header r.payload = r := by
  have hts : leNat (leBytes 8 r.tsUs.toNat) = r.tsUs.toNat := leNat_leBytes r.tsUs.toNat_lt
  have hfield : (r.header.drop 4).take 8 = leBytes 8 r.tsUs.toNat := rfl
  rw [ofParts, hfield, hts, UInt64.ofNat_toNat]
  rfl

end LogRecord

/-- The records of a stream without containers. -/
def flatRecords (stream : List UInt8) : List LogRecord :=
  (frames flEntryHdrSize LogRecord.lengthField stream).map fun f => .ofParts f.1 f.2

theorem flatRecords_flatMap {records : List LogRecord} (h : ∀ r ∈ records, r.Fits) :
    flatRecords (records.flatMap LogRecord.bytes) = records := by
  have hframes : frames flEntryHdrSize LogRecord.lengthField
      (records.flatMap fun r => r.header ++ r.payload) =
        records.map fun r => (r.header, r.payload) :=
    frames_flatMap (by decide) (fun r _ => r.length_header)
      fun r hr => LogRecord.lengthField_header (h r hr)
  unfold flatRecords LogRecord.bytes
  rw [hframes, List.map_map]
  exact (List.map_congr_left fun r _ => r.ofParts_header).trans (List.map_id _)

/-- The records of an entry: a container's are in its payload. -/
def LogRecord.contents (r : LogRecord) : List LogRecord :=
  if r.type = flTypeBatch then flatRecords r.payload else [r]

end DiveCANHead.FlashLog
