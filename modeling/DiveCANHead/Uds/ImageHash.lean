import DiveCANHead.Lib.LittleEndian

/-!
# The hash of the staged image (`uds_ota.c`)

Before an image is activated its SHA-256 is looked up in the TLV section that follows it in slot1.
Every size on the way comes from the flash: the three lengths in the image header add up in 32
bits, and the walk checks that a record's header is inside the section, not that its payload is.
-/

namespace DiveCANHead.Uds

open DiveCANHead.Lib

/-- `TLV_INFO_MAGIC_UNPROT`. -/
def tlvInfoMagicUnprot : ℕ := 0x6907

/-- `TLV_TYPE_SHA256`. -/
def tlvTypeSha256 : ℕ := 0x0010

/-- `TLV_HEADER_LEN`. -/
def tlvHeaderLen : ℕ := 4

/-- `TLV_INFO_HEADER_LEN`. -/
def tlvInfoHeaderLen : ℕ := 4

/-- `IMG_SHA256_LEN`. -/
def imgSha256Len : ℕ := 32

/-- `IMG_HEADER_RAW_BYTES`. -/
def imgHeaderRawBytes : ℕ := 32

/-- A sum in a `size_t`. -/
def sizeT (n : ℕ) : ℕ := n % 4294967296

/-- Slot1, with what each flash call of an extraction returns. Offsets into it are an `off_t`. -/
structure Slot1 where
  bytes : List UInt8
  readRc : ℕ → ℤ
  fits : bytes.length < 2147483648

namespace Slot1

/-- `external_flash_area_read`: a read outside the area fails. -/
def read (s : Slot1) (call off len : ℕ) : Option (List UInt8) :=
  if s.readRc call = 0 ∧ off + len ≤ s.bytes.length then some ((s.bytes.drop off).take len)
  else none

end Slot1

/-- A `uint16_t` inside what was read. -/
def fieldU16 (raw : List UInt8) (off : ℕ) : ℕ := leNat ((raw.drop off).take 2)

/-- A `uint32_t` inside what was read. -/
def fieldU32 (raw : List UInt8) (off : ℕ) : ℕ := leNat ((raw.drop off).take 4)

/-- `TlvWalkResult_e`, with the hash or the next cursor. -/
inductive TlvWalkResult where
  | found (hash : List UInt8)
  | error
  | continue (nextCursor : ℕ)
  deriving DecidableEq

/-- `readOneTlvEntry`. -/
def readOneTlvEntry (s : Slot1) (call cursor : ℕ) : TlvWalkResult :=
  match s.read call cursor tlvHeaderLen with
  | none => .error
  | some tlvHdr =>
    if fieldU16 tlvHdr 0 = tlvTypeSha256 ∧ fieldU16 tlvHdr 2 = imgSha256Len then
      match s.read (call + 1) (cursor + tlvHeaderLen) imgSha256Len with
      | some hash => .found hash
      | none => .error
    else .continue (sizeT (cursor + tlvHeaderLen + fieldU16 tlvHdr 2))

/-! ## The fields of a slot -/

theorem fieldU16_lt (raw : List UInt8) (off : ℕ) : fieldU16 raw off < 65536 := by
  have hlen : ((raw.drop off).take 2).length ≤ 2 := List.length_take_le _ _
  exact Nat.lt_of_lt_of_le (leNat_lt _) (Nat.pow_le_pow_right (by decide) hlen)

/-- A field of what was read is a field of the slot. -/
theorem fieldU16_window (bytes : List UInt8) (pos : ℕ) {len off : ℕ} (h : off + 2 ≤ len) :
    fieldU16 ((bytes.drop pos).take len) off = fieldU16 bytes (pos + off) := by
  rw [fieldU16, List.drop_take, List.take_take, List.drop_drop, Nat.min_eq_left (by omega),
    fieldU16]

theorem fieldU32_window (bytes : List UInt8) (pos : ℕ) {len off : ℕ} (h : off + 4 ≤ len) :
    fieldU32 ((bytes.drop pos).take len) off = fieldU32 bytes (pos + off) := by
  rw [fieldU32, List.drop_take, List.take_take, List.drop_drop, Nat.min_eq_left (by omega),
    fieldU32]

/-- The length of the record with a header at a position. -/
def recordLen (bytes : List UInt8) (pos : ℕ) : ℕ := fieldU16 bytes (pos + 2)

/-- The header at a position is that of a SHA-256. -/
def IsSha256Record (bytes : List UInt8) (pos : ℕ) : Prop :=
  fieldU16 bytes pos = tlvTypeSha256 ∧ recordLen bytes pos = imgSha256Len

instance decidableIsSha256Record (bytes : List UInt8) (pos : ℕ) :
    Decidable (IsSha256Record bytes pos) := inferInstanceAs (Decidable (_ ∧ _))

theorem Slot1.read_eq_some_iff {s : Slot1} {call off len : ℕ} {raw : List UInt8} :
    s.read call off len = some raw ↔
      s.readRc call = 0 ∧ off + len ≤ s.bytes.length ∧ raw = (s.bytes.drop off).take len := by
  unfold Slot1.read
  split
  · next h => exact ⟨fun hr => ⟨h.1, h.2, (Option.some.inj hr).symm⟩, fun hr => by rw [hr.2.2]⟩
  · next h => exact ⟨fun hr => absurd hr (by simp), fun hr => absurd ⟨hr.1, hr.2.1⟩ h⟩

/-- The payload of the record at a position. -/
def hashAt (bytes : List UInt8) (pos : ℕ) : List UInt8 :=
  (bytes.drop (pos + tlvHeaderLen)).take imgSha256Len

/-! ## The walk -/

/-- What looking at one record can come to. -/
inductive EntryRead (s : Slot1) (call cursor : ℕ) : TlvWalkResult → Prop where
  | found (hhdr : s.readRc call = 0) (hsha : IsSha256Record s.bytes cursor)
      (hpayload : s.readRc (call + 1) = 0)
      (hin : cursor + tlvHeaderLen + imgSha256Len ≤ s.bytes.length) :
      EntryRead s call cursor (.found (hashAt s.bytes cursor))
  | passed (hhdr : s.readRc call = 0) (hin : cursor + tlvHeaderLen ≤ s.bytes.length)
      (hnot : ¬IsSha256Record s.bytes cursor) :
      EntryRead s call cursor (.continue (cursor + tlvHeaderLen + recordLen s.bytes cursor))
  | error (h : s.readRc call ≠ 0 ∨ s.bytes.length < cursor + tlvHeaderLen ∨
      IsSha256Record s.bytes cursor ∧
        (s.readRc (call + 1) ≠ 0 ∨ s.bytes.length < cursor + tlvHeaderLen + imgSha256Len)) :
      EntryRead s call cursor .error

theorem readOneTlvEntry_read (s : Slot1) (call cursor : ℕ) :
    EntryRead s call cursor (readOneTlvEntry s call cursor) := by
  unfold readOneTlvEntry
  split
  · next hnone =>
    refine .error ?_
    by_cases hrc : s.readRc call = 0
    · refine .inr (.inl (Nat.lt_of_not_le fun hin => ?_))
      rw [Slot1.read_eq_some_iff.mpr ⟨hrc, hin, rfl⟩] at hnone
      exact absurd hnone (by simp)
    · exact .inl hrc
  · next raw hsome =>
    obtain ⟨hrc, hin, rfl⟩ := Slot1.read_eq_some_iff.mp hsome
    rw [fieldU16_window _ _ (by decide), fieldU16_window _ _ (by decide), Nat.add_zero]
    by_cases hsha : fieldU16 s.bytes cursor = tlvTypeSha256 ∧
        fieldU16 s.bytes (cursor + 2) = imgSha256Len
    · rw [if_pos hsha]
      split
      · next hash hpayload =>
        obtain ⟨hrc', hin', rfl⟩ := Slot1.read_eq_some_iff.mp hpayload
        exact .found hrc hsha hrc' hin'
      · next hpayload =>
        refine .error (.inr (.inr ⟨hsha, ?_⟩))
        by_cases hrc' : s.readRc (call + 1) = 0
        · refine .inr (Nat.lt_of_not_le fun hin' => ?_)
          rw [Slot1.read_eq_some_iff.mpr ⟨hrc', hin', rfl⟩] at hpayload
          exact absurd hpayload (by simp)
        · exact .inl hrc'
    · rw [if_neg hsha]
      have hlen : fieldU16 s.bytes (cursor + 2) < 65536 := fieldU16_lt _ _
      have hfits := s.fits
      have hnowrap : sizeT (cursor + tlvHeaderLen + fieldU16 s.bytes (cursor + 2)) =
          cursor + tlvHeaderLen + recordLen s.bytes cursor :=
        Nat.mod_eq_of_lt (by omega)
      rw [hnowrap]
      exact .passed hrc hin hsha

theorem continue_advances {s : Slot1} {call cursor next : ℕ}
    (h : readOneTlvEntry s call cursor = .continue next) :
    s.bytes.length - next < s.bytes.length - cursor := by
  have hread := readOneTlvEntry_read s call cursor
  rw [h] at hread
  cases hread with
  | passed _ hin _ =>
    have hpos : 0 < tlvHeaderLen := by decide
    omega

/-- `walkTlvSectionForSha256`; a cursor that goes on is inside the slot. -/
def walkTlvSectionForSha256 (s : Slot1) (walkEnd call cursor : ℕ) : Option (List UInt8) :=
  if sizeT (cursor + tlvHeaderLen) ≤ walkEnd then
    match h : readOneTlvEntry s call cursor with
    | .found hash => some hash
    | .error => none
    | .continue next =>
      have := continue_advances h
      walkTlvSectionForSha256 s walkEnd (call + 1) next
  else none
  termination_by s.bytes.length - cursor

/-- `extractSlot1Sha256`: the hash, and the number of bytes it covers. -/
def extractSlot1Sha256 (s : Slot1) : Option (List UInt8 × ℕ) :=
  match s.read 0 0 imgHeaderRawBytes with
  | none => none
  | some hdrRaw =>
    let hdrSize := fieldU16 hdrRaw 8
    let protectTlvSize := fieldU16 hdrRaw 10
    let imgSize := fieldU32 hdrRaw 12
    let tlvOff := sizeT (hdrSize + imgSize + protectTlvSize)
    match s.read 1 tlvOff tlvInfoHeaderLen with
    | none => none
    | some tlvInfo =>
      if fieldU16 tlvInfo 0 ≠ tlvInfoMagicUnprot then none
      else
        (walkTlvSectionForSha256 s (sizeT (tlvOff + fieldU16 tlvInfo 2)) 2
          (sizeT (tlvOff + tlvInfoHeaderLen))).map (·, sizeT (hdrSize + imgSize))

/-! ## The section -/

/-- Where the unprotected TLV section starts, by the image header. -/
def sectionStart (bytes : List UInt8) : ℕ :=
  fieldU16 bytes 8 + fieldU32 bytes 12 + fieldU16 bytes 10

/-- Where the section that starts at a position ends, by its own header. -/
def sectionEnd (bytes : List UInt8) (start : ℕ) : ℕ := start + fieldU16 bytes (start + 2)

/-- Stepping record by record inside a section. -/
inductive SteppedTo (bytes : List UInt8) (stop : ℕ) : ℕ → ℕ → Prop where
  | here (pos : ℕ) : SteppedTo bytes stop pos pos
  | passed {pos q : ℕ} (hin : pos + tlvHeaderLen ≤ stop)
      (hrest : SteppedTo bytes stop (pos + tlvHeaderLen + recordLen bytes pos) q) :
      SteppedTo bytes stop pos q

/-- The hash is the payload of a whole SHA-256 record of the section, and it covers the header and
the body of the image. -/
structure SoundHash (bytes hash : List UInt8) (hashedLen : ℕ) : Prop where
  magic : sectionStart bytes + tlvInfoHeaderLen ≤ bytes.length ∧
    fieldU16 bytes (sectionStart bytes) = tlvInfoMagicUnprot
  record : ∃ pos, SteppedTo bytes (sectionEnd bytes (sectionStart bytes))
      (sectionStart bytes + tlvInfoHeaderLen) pos ∧
    pos + tlvHeaderLen + imgSha256Len ≤ sectionEnd bytes (sectionStart bytes) ∧
    pos + tlvHeaderLen + imgSha256Len ≤ bytes.length ∧ IsSha256Record bytes pos ∧
    hash = hashAt bytes pos
  covers : hashedLen = fieldU16 bytes 8 + fieldU32 bytes 12

/-- Passing over records that are no SHA-256, each by one flash read. -/
inductive Walked (s : Slot1) (stop : ℕ) : ℕ → ℕ → ℕ → ℕ → Prop where
  | here (call pos : ℕ) : Walked s stop call pos call pos
  | passed {call pos c q : ℕ} (hin : pos + tlvHeaderLen ≤ stop) (hhdr : s.readRc call = 0)
      (hslot : pos + tlvHeaderLen ≤ s.bytes.length) (hnot : ¬IsSha256Record s.bytes pos)
      (hrest : Walked s stop (call + 1) (pos + tlvHeaderLen + recordLen s.bytes pos) c q) :
      Walked s stop call pos c q

/-- A SHA-256 header inside the section, whose payload is read wherever it lies in the slot. -/
structure HashHeader (s : Slot1) (stop call pos : ℕ) : Prop where
  inSection : pos + tlvHeaderLen ≤ stop
  header : s.readRc call = 0
  sha : IsSha256Record s.bytes pos
  payload : s.readRc (call + 1) = 0
  inSlot : pos + tlvHeaderLen + imgSha256Len ≤ s.bytes.length

/-- The section the header's lengths lead to in 32 bits can be read. -/
structure SectionRead (s : Slot1) : Prop where
  image : s.readRc 0 = 0 ∧ imgHeaderRawBytes ≤ s.bytes.length
  info : s.readRc 1 = 0 ∧ sizeT (sectionStart s.bytes) + tlvInfoHeaderLen ≤ s.bytes.length
  magic : fieldU16 s.bytes (sizeT (sectionStart s.bytes)) = tlvInfoMagicUnprot

/-- The first SHA-256 header of the section that is read, and the flash call that reads it. -/
structure FirstHash (s : Slot1) (call pos : ℕ) : Prop where
  sectionRead : SectionRead s
  walked : Walked s (sectionEnd s.bytes (sizeT (sectionStart s.bytes))) 2
    (sizeT (sectionStart s.bytes) + tlvInfoHeaderLen) call pos
  hash : HashHeader s (sectionEnd s.bytes (sizeT (sectionStart s.bytes))) call pos

theorem SteppedTo.le {bytes : List UInt8} {stop a q : ℕ} (h : SteppedTo bytes stop a q) :
    a ≤ q := by
  induction h with
  | here => exact Nat.le_refl _
  | passed _ _ ih => omega

theorem Walked.stepped {s : Slot1} {stop call a c q : ℕ} (h : Walked s stop call a c q) :
    SteppedTo s.bytes stop a q := by
  induction h with
  | here => exact .here _
  | passed hin _ _ _ _ ih => exact .passed hin ih

/-- Another hash record of the section is not before the first one, and none inside it. -/
theorem Walked.first {s : Slot1} {stop call a c q pos : ℕ} (h : Walked s stop call a c q)
    (hsha : IsSha256Record s.bytes q) (hstep : SteppedTo s.bytes stop a pos)
    (hpos : IsSha256Record s.bytes pos) :
    pos = q ∨ q + tlvHeaderLen + imgSha256Len ≤ pos := by
  induction h with
  | here call a =>
    cases hstep with
    | here => exact .inl rfl
    | passed _ hrest =>
      have hle := hrest.le
      rw [hsha.2] at hle
      exact .inr hle
  | passed _ _ _ hnot _ ih =>
    cases hstep with
    | here => exact absurd hpos hnot
    | passed _ hrest => exact ih hsha hrest

theorem walkTlvSectionForSha256_eq_some_iff {s : Slot1} {walkEnd call cursor : ℕ}
    (hcursor : cursor < 2147549184) {hash : List UInt8} :
    walkTlvSectionForSha256 s walkEnd call cursor = some hash ↔
      ∃ c q, Walked s walkEnd call cursor c q ∧ HashHeader s walkEnd c q ∧
        hash = hashAt s.bytes q := by
  have hguard : sizeT (cursor + tlvHeaderLen) = cursor + tlvHeaderLen :=
    Nat.mod_eq_of_lt (by unfold tlvHeaderLen; omega)
  fun_induction walkTlvSectionForSha256 s walkEnd call cursor with
  | case1 call cursor hin found h =>
    rw [hguard] at hin
    have hread := readOneTlvEntry_read s call cursor
    rw [h] at hread
    cases hread with
    | found hhdr hsha hpayload hslot =>
      constructor
      · intro hfound
        exact ⟨call, cursor, .here _ _, ⟨hin, hhdr, hsha, hpayload, hslot⟩,
          (Option.some.inj hfound).symm⟩
      · rintro ⟨c, q, hwalked, -, rfl⟩
        cases hwalked with
        | here => rfl
        | passed _ _ _ hnot _ => exact absurd hsha hnot
  | case2 call cursor hin h =>
    have hread := readOneTlvEntry_read s call cursor
    rw [h] at hread
    cases hread with
    | error herror =>
      refine ⟨fun hnone => absurd hnone (by simp), ?_⟩
      rintro ⟨c, q, hwalked, hhash, rfl⟩
      cases hwalked with
      | here =>
        rcases herror with hrc | hshort | ⟨-, hrc | hshort⟩
        · exact absurd hhash.header hrc
        · have := hhash.inSlot
          omega
        · exact absurd hhash.payload hrc
        · exact absurd hhash.inSlot (Nat.not_le_of_lt hshort)
      | passed _ hhdr hslot hnot _ =>
        rcases herror with hrc | hshort | ⟨hsha, -⟩
        · exact absurd hhdr hrc
        · omega
        · exact absurd hsha hnot
  | case3 call cursor hin next h hadv ih =>
    rw [hguard] at hin
    have hread := readOneTlvEntry_read s call cursor
    rw [h] at hread
    cases hread with
    | passed hhdr hslot hnot =>
      have hlen : recordLen s.bytes cursor < 65536 := fieldU16_lt _ _
      have hfits := s.fits
      have hnext : cursor + tlvHeaderLen + recordLen s.bytes cursor < 2147549184 := by omega
      have hguard' : sizeT (cursor + tlvHeaderLen + recordLen s.bytes cursor + tlvHeaderLen) =
          cursor + tlvHeaderLen + recordLen s.bytes cursor + tlvHeaderLen :=
        Nat.mod_eq_of_lt (by unfold tlvHeaderLen at *; omega)
      refine (ih hnext hguard').trans ?_
      constructor
      · rintro ⟨c, q, hwalked, hhash, heq⟩
        exact ⟨c, q, .passed hin hhdr hslot hnot hwalked, hhash, heq⟩
      · rintro ⟨c, q, hwalked, hhash, heq⟩
        cases hwalked with
        | here => exact absurd hhash.sha hnot
        | passed _ _ _ _ hrest => exact ⟨c, q, hrest, hhash, heq⟩
  | case4 call cursor hout =>
    rw [hguard] at hout
    refine ⟨fun hnone => absurd hnone (by simp), ?_⟩
    rintro ⟨c, q, hwalked, hhash, -⟩
    cases hwalked with
    | here => exact absurd hhash.inSection hout
    | passed hin _ _ _ _ => exact absurd hin hout

theorem extractSlot1Sha256_eq_some_iff {s : Slot1} {r : List UInt8 × ℕ} :
    extractSlot1Sha256 s = some r ↔
      ∃ call pos, FirstHash s call pos ∧
        r = (hashAt s.bytes pos, sizeT (fieldU16 s.bytes 8 + fieldU32 s.bytes 12)) := by
  unfold extractSlot1Sha256
  split
  · next hnone =>
    refine ⟨fun h => absurd h (by simp), ?_⟩
    rintro ⟨call, pos, hfirst, -⟩
    rw [Slot1.read_eq_some_iff.mpr ⟨hfirst.sectionRead.image.1, by
      rw [Nat.zero_add]; exact hfirst.sectionRead.image.2, rfl⟩] at hnone
    exact absurd hnone (by simp)
  · next raw hsome =>
    obtain ⟨hrc, hin, rfl⟩ := Slot1.read_eq_some_iff.mp hsome
    rw [Nat.zero_add] at hin
    dsimp only
    rw [fieldU16_window _ _ (by decide), fieldU16_window _ _ (by decide),
      fieldU32_window _ _ (by decide), Nat.zero_add, Nat.zero_add, Nat.zero_add]
    have hstart : fieldU16 s.bytes 8 + fieldU32 s.bytes 12 + fieldU16 s.bytes 10 =
        sectionStart s.bytes := rfl
    rw [hstart]
    split
    · next hnone =>
      refine ⟨fun h => absurd h (by simp), ?_⟩
      rintro ⟨call, pos, hfirst, -⟩
      obtain ⟨hrc', hin'⟩ := hfirst.sectionRead.info
      rw [Slot1.read_eq_some_iff.mpr ⟨hrc', hin', rfl⟩] at hnone
      exact absurd hnone (by simp)
    · next info hinfo =>
      obtain ⟨hrc', hin', rfl⟩ := Slot1.read_eq_some_iff.mp hinfo
      rw [fieldU16_window _ _ (by decide), fieldU16_window _ _ (by decide), Nat.add_zero]
      have hfits := s.fits
      have hoff : sizeT (sizeT (sectionStart s.bytes) + tlvInfoHeaderLen) =
          sizeT (sectionStart s.bytes) + tlvInfoHeaderLen := Nat.mod_eq_of_lt (by omega)
      have htot : fieldU16 s.bytes (sizeT (sectionStart s.bytes) + 2) < 65536 := fieldU16_lt _ _
      have hend : sizeT (sizeT (sectionStart s.bytes) +
          fieldU16 s.bytes (sizeT (sectionStart s.bytes) + 2)) =
            sectionEnd s.bytes (sizeT (sectionStart s.bytes)) := Nat.mod_eq_of_lt (by omega)
      rw [hoff, hend]
      by_cases hmagic : fieldU16 s.bytes (sizeT (sectionStart s.bytes)) = tlvInfoMagicUnprot
      · rw [if_neg (not_not.mpr hmagic), Option.map_eq_some_iff]
        constructor
        · rintro ⟨hash, hwalk, rfl⟩
          obtain ⟨c, q, hwalked, hhash, rfl⟩ :=
            (walkTlvSectionForSha256_eq_some_iff (by omega)).mp hwalk
          exact ⟨c, q, ⟨⟨⟨hrc, hin⟩, ⟨hrc', hin'⟩, hmagic⟩, hwalked, hhash⟩, rfl⟩
        · rintro ⟨c, q, hfirst, rfl⟩
          exact ⟨_, (walkTlvSectionForSha256_eq_some_iff (by omega)).mpr
            ⟨c, q, hfirst.walked, hfirst.hash, rfl⟩, rfl⟩
      · rw [if_pos hmagic]
        refine ⟨fun h => absurd h (by simp), ?_⟩
        rintro ⟨call, pos, hfirst, -⟩
        exact absurd hfirst.sectionRead.magic hmagic

/-- What the extraction finds is sound exactly if the three lengths of the image header add up
below 2^32 and the payload of the first SHA-256 header is inside the section. -/
theorem extractSlot1Sha256_sound_iff (s : Slot1) :
    (∀ hash hashedLen, extractSlot1Sha256 s = some (hash, hashedLen) →
        SoundHash s.bytes hash hashedLen) ↔
      ∀ call pos, FirstHash s call pos → sectionStart s.bytes < 4294967296 ∧
        pos + tlvHeaderLen + imgSha256Len ≤ sectionEnd s.bytes (sectionStart s.bytes) := by
  have hfits := s.fits
  constructor
  · intro hsound call pos hfirst
    have h := hsound _ _ (extractSlot1Sha256_eq_some_iff.mpr ⟨call, pos, hfirst, rfl⟩)
    have hsmall : sectionStart s.bytes < 4294967296 := by
      have := h.magic.1
      omega
    have hstart : sizeT (sectionStart s.bytes) = sectionStart s.bytes := Nat.mod_eq_of_lt hsmall
    refine ⟨hsmall, ?_⟩
    obtain ⟨q, hstep, hwhole, -, hsha, -⟩ := h.record
    have hwalked := hfirst.walked
    rw [hstart] at hwalked
    rcases hwalked.first hfirst.hash.sha hstep hsha with rfl | hlater
    · exact hwhole
    · omega
  · intro hclean hash hashedLen hextract
    obtain ⟨call, pos, hfirst, heq⟩ := extractSlot1Sha256_eq_some_iff.mp hextract
    obtain ⟨hsmall, hwhole⟩ := hclean call pos hfirst
    have hstart : sizeT (sectionStart s.bytes) = sectionStart s.bytes := Nat.mod_eq_of_lt hsmall
    obtain ⟨hsection, hwalked, hhash⟩ := hfirst
    obtain ⟨-, ⟨-, hinfo⟩, hmagic⟩ := hsection
    rw [hstart] at hinfo hmagic hwalked
    obtain ⟨rfl, rfl⟩ := Prod.mk.inj heq
    refine ⟨⟨hinfo, hmagic⟩, ⟨pos, hwalked.stepped, hwhole, hhash.inSlot, hhash.sha, rfl⟩, ?_⟩
    exact Nat.mod_eq_of_lt (by unfold sectionStart at hsmall; omega)

/-- A slot of an empty image, whose section declares a SHA-256 record's header and no payload. -/
def cutSection : Slot1 where
  bytes := List.replicate 8 0 ++ [32, 0] ++ List.replicate 22 0 ++
    [0x07, 0x69, 8, 0, 0x10, 0, 32, 0] ++ List.replicate 32 0xAA
  readRc _ := 0
  fits := by decide

/-- The bytes after the section are taken for the hash. -/
theorem cutSection_unsound :
    ¬∀ hash hashedLen, extractSlot1Sha256 cutSection = some (hash, hashedLen) →
      SoundHash cutSection.bytes hash hashedLen := by
  intro h
  have hfirst : FirstHash cutSection 2 36 :=
    ⟨⟨by decide, by decide, by decide⟩, .here _ _, ⟨by decide, rfl, by decide, rfl, by decide⟩⟩
  have hsound := h _ _ (extractSlot1Sha256_eq_some_iff.mpr ⟨2, 36, hfirst, rfl⟩)
  obtain ⟨pos, hstep, hwhole, -⟩ := hsound.record
  have hle := hstep.le
  have hstart : sectionStart cutSection.bytes + tlvInfoHeaderLen = 36 := by decide
  have hend : sectionEnd cutSection.bytes (sectionStart cutSection.bytes) = 40 := by decide
  rw [hstart] at hle
  rw [hend] at hwhole
  have hpast : pos + 4 + 32 ≤ 40 := hwhole
  omega

end DiveCANHead.Uds
