import DiveCANHead.Slcan.Codec

/-!
# Frames over the serial link

The lines of the frames are read back as these frames, however the text is cut into chunks. What
stands between them adds no frame, where none of its lines is loose.
-/

namespace DiveCANHead.Slcan

open DiveCANHead.Lib

/-! ## The line of a frame -/

/-- A classic CAN data frame. -/
structure ClassicFrame where
  id : ℕ
  data : List UInt8
  extended : Bool
  fits : id < if extended = true then 2 ^ 29 else 2 ^ 11
  short : data.length ≤ 8

namespace ClassicFrame

variable (f : ClassicFrame)

def text : List ℕ := frameText f.id f.data f.extended

/-- What the reader is to emit for it. -/
def emitted : SlcanFrame := ⟨f.id, f.data, f.extended, false⟩

theorem sendFrame_eq : sendFrame f.id f.data f.extended = some (f.text ++ [13]) :=
  if_neg (Nat.not_lt_of_le f.short)

/-- The digits of the identifier. -/
def idDigits : List ℕ := padStart (idWidth f.extended) (toHex f.id)

theorem length_idDigits : f.idDigits.length = idWidth f.extended := by
  have hfits := f.fits
  refine length_padStart ?_
  unfold idWidth
  split
  · next h =>
    rw [if_pos h] at hfits
    exact length_toHex_le (Nat.lt_of_lt_of_le hfits (by decide))
  · next h =>
    rw [if_neg h] at hfits
    exact length_toHex_le (Nat.lt_of_lt_of_le hfits (by decide))

theorem parseInt16_idDigits : parseInt16 f.idDigits = some (f.id : ℤ) := by
  have hne : f.idDigits ≠ [] := fun hnil => by
    have hlen := f.length_idDigits
    rw [hnil, idWidth] at hlen
    split at hlen <;> cases hlen
  rw [parseInt16_of_isHex hne fun c hc => isHex_of_mem_padStart (fun _ => isHex_of_mem_toHex) hc,
    idDigits, ofHex_padStart, ofHex_toHex]

end ClassicFrame

/-- The two digits of a byte. -/
def byteDigits (b : UInt8) : List ℕ := padStart 2 (toHex b.toNat)

theorem length_byteDigits (b : UInt8) : (byteDigits b).length = 2 :=
  length_padStart (length_toHex_le b.toNat_lt)

theorem isHex_of_mem_byteDigits {b : UInt8} {c : ℕ} (hc : c ∈ byteDigits b) : isHex c = true :=
  isHex_of_mem_padStart (fun _ => isHex_of_mem_toHex) hc

theorem toUint8_byteDigits (b : UInt8) : toUint8 (parseInt16 (byteDigits b)) = b := by
  have hne : byteDigits b ≠ [] := fun hnil => by
    have hlen := length_byteDigits b
    rw [hnil] at hlen
    cases hlen
  have hlt := b.toNat_lt
  have hmod : ((b.toNat : ℤ) % 256).toNat = b.toNat := by omega
  rw [parseInt16_of_isHex hne fun _ => isHex_of_mem_byteDigits, byteDigits, ofHex_padStart,
    ofHex_toHex, toUint8, hmod, UInt8.ofNat_toNat]

theorem length_flatMap_byteDigits (bytes : List UInt8) :
    (bytes.flatMap byteDigits).length = bytes.length * 2 := by
  induction bytes with
  | nil => rfl
  | cons b bytes ih =>
    rw [List.flatMap_cons, List.length_append, ih, length_byteDigits, List.length_cons]
    omega

theorem slice_flatMap_byteDigits {bytes : List UInt8} {i : ℕ} (hi : i < bytes.length) :
    slice (bytes.flatMap byteDigits) (i * 2) (i * 2 + 2) = byteDigits bytes[i] := by
  induction bytes generalizing i with
  | nil => exact absurd hi (Nat.not_lt_zero i)
  | cons b bytes ih =>
    unfold slice at ih ⊢
    rw [Nat.add_sub_cancel_left, List.flatMap_cons]
    cases i with
    | zero => exact List.take_left' (length_byteDigits b)
    | succ i =>
      have hrest := ih (Nat.lt_of_succ_lt_succ hi)
      rw [Nat.add_sub_cancel_left] at hrest
      have hskip : (i + 1) * 2 = (byteDigits b).length + i * 2 := by
        rw [length_byteDigits]
        omega
      rw [hskip, List.drop_length_add_append]
      exact hrest

theorem map_byteDigits (bytes : List UInt8) :
    ((List.range bytes.length).map fun i =>
      toUint8 (parseInt16 (slice (bytes.flatMap byteDigits) (i * 2) (i * 2 + 2)))) = bytes := by
  refine List.ext_getElem (by rw [List.length_map, List.length_range]) fun i _ hi => ?_
  rw [List.getElem_map, List.getElem_range, slice_flatMap_byteDigits hi, toUint8_byteDigits]

theorem toHex_length {n : ℕ} (h : n ≤ 8) : toHex n = [48 + n] := by
  rw [toHex, if_pos (by omega), hexDigit, if_pos (by omega)]

theorem isExtended_framePrefix (extended : Bool) :
    isExtended (framePrefix extended) = extended := by
  cases extended <;> rfl

theorem isRemote_framePrefix (extended : Bool) : isRemote (framePrefix extended) = false := by
  cases extended <;> rfl

namespace ClassicFrame

variable (f : ClassicFrame)

theorem text_eq : f.text = framePrefix f.extended ::
    (f.idDigits ++ (48 + f.data.length) :: f.data.flatMap byteDigits) := by
  rw [text, frameText, toHex_length f.short]
  rfl

/-- The line of a frame is read back as the frame. -/
theorem parseFrame_text : parseFrame f.text = some f.emitted := by
  have hid : slice f.text 1 (1 + idWidth f.extended) = f.idDigits := by
    rw [text_eq, slice, Nat.add_sub_cancel_left, List.drop_one]
    exact List.take_left' f.length_idDigits
  have hdigit : f.text[1 + idWidth f.extended]? = some (48 + f.data.length) := by
    rw [text_eq, Nat.add_comm 1, List.getElem?_cons_succ, List.getElem?_append_right
      f.length_idDigits.le, f.length_idDigits, Nat.sub_self, List.getElem?_cons_zero]
  have hdata : f.text.drop (2 + idWidth f.extended) = f.data.flatMap byteDigits := by
    have hskip : 2 + idWidth f.extended = f.idDigits.length + 1 + 1 := by
      rw [f.length_idDigits]
      omega
    rw [text_eq, hskip, List.drop_succ_cons, List.drop_length_add_append, List.drop_succ_cons,
      List.drop_zero]
  have hvalue : hexValue (48 + f.data.length) = some f.data.length := by
    have hshort := f.short
    rw [hexValue, if_pos (by omega), Nat.add_sub_cancel_left]
  have hhex : slice f.text (2 + idWidth f.extended)
      (2 + idWidth f.extended + f.data.length * 2) = f.data.flatMap byteDigits := by
    rw [slice, Nat.add_sub_cancel_left, hdata]
    exact List.take_of_length_le (length_flatMap_byteDigits f.data).le
  have hhead : f.text[0]? = some (framePrefix f.extended) := by
    rw [text_eq, List.getElem?_cons_zero]
  have hframe : ¬(f.extended = false ∧ framePrefix f.extended ≠ 116 ∧
      framePrefix f.extended ≠ 114) := by
    rintro ⟨hshort, hprefix, -⟩
    rw [hshort] at hprefix
    exact hprefix rfl
  have hlength : (f.text[1 + idWidth f.extended]?.bind fun c => parseInt16 [c]) =
      some (f.data.length : ℤ) := by
    rw [bind_parseInt16, hdigit, Option.bind_some, hvalue]
    rfl
  unfold parseFrame
  rw [hhead]
  simp only [isExtended_framePrefix, isRemote_framePrefix, if_neg hframe, hid, hlength,
    f.parseInt16_idDigits, Int.toNat_natCast, Bool.false_eq_true, if_false, hhex,
    length_flatMap_byteDigits, ne_eq, not_true_eq_false, and_false, map_byteDigits]
  rfl

/-- It has no character that the reader takes for an end, or drops. -/
theorem text_plain {c : ℕ} (hc : c ∈ f.text) : c ≠ 13 ∧ c ≠ 7 ∧ c ≠ 10 := by
  have hhex : ∀ {c}, isHex c = true → c ≠ 13 ∧ c ≠ 7 ∧ c ≠ 10 := fun h => by
    have hrange := range_of_isHex h
    omega
  rw [text_eq] at hc
  rcases List.mem_cons.mp hc with rfl | hc
  · unfold framePrefix
    split <;> decide
  rcases List.mem_append.mp hc with hc | hc
  · exact hhex (isHex_of_mem_padStart (fun _ => isHex_of_mem_toHex) hc)
  rcases List.mem_cons.mp hc with rfl | hc
  · omega
  · obtain ⟨b, _, hc⟩ := List.mem_flatMap.mp hc
    exact hhex (isHex_of_mem_byteDigits hc)

end ClassicFrame

/-! ## The stream -/

/-- Another line of the adapter. -/
structure Reply where
  text : List ℕ
  whole : ∀ c ∈ text, c ≠ 13 ∧ c ≠ 7
  foreign : ¬ WellFormed (text.filter (· ≠ 10))

/-- The line as the reader has it. -/
def Reply.line (r : Reply) : List ℕ := r.text.filter (· ≠ 10)

inductive StreamItem where
  | frame (f : ClassicFrame)
  | reply (r : Reply)
  | bell

namespace StreamItem

def text : StreamItem → List ℕ
  | frame f => (sendFrame f.id f.data f.extended).getD []
  | reply r => r.text ++ [13]
  | bell => [7]

/-- The frame that was sent. -/
def sent : StreamItem → Option SlcanFrame
  | frame f => some f.emitted
  | _ => none

/-- What the reader emits. -/
def emits : StreamItem → List SlcanFrame
  | frame f => [f.emitted]
  | reply r => (parseFrame r.line).toList
  | bell => []

end StreamItem

namespace SlcanReader

/-- Characters that end no line are collected. -/
theorem consume_plain {text : List ℕ} (h : ∀ c ∈ text, c ≠ 13 ∧ c ≠ 7) (line : List ℕ)
    (events : List SlcanEvent) :
    consume ⟨line, events⟩ text = ⟨line ++ text.filter (· ≠ 10), events⟩ := by
  induction text generalizing line with
  | nil => rw [List.filter_nil, List.append_nil]; rfl
  | cons c text ih =>
    obtain ⟨hend, hbell⟩ := h c List.mem_cons_self
    have hrest := fun line => ih (fun c hc => h c (List.mem_cons_of_mem _ hc)) line
    rw [consume, List.foldl_cons, char, if_neg hend, if_neg hbell]
    by_cases hc : c = 10
    · rw [if_neg (not_not.mpr hc), List.filter_cons_of_neg (by simp [hc])]
      exact hrest line
    · rw [if_pos hc, List.filter_cons_of_pos (by simp [hc]),
        List.append_cons line c (text.filter _)]
      exact hrest (line ++ [c])

theorem consume_append (r : SlcanReader) (text text' : List ℕ) :
    r.consume (text ++ text') = (r.consume text).consume text' := List.foldl_append

/-- A line that ends has its events. -/
theorem consume_line {text : List ℕ} (h : ∀ c ∈ text, c ≠ 13 ∧ c ≠ 7) (events : List SlcanEvent) :
    consume ⟨[], events⟩ (text ++ [13]) =
      ⟨[], events ++ lineEvents (text.filter (· ≠ 10))⟩ := by
  rw [consume_append, consume_plain h, List.nil_append]
  rfl

theorem frames_append (line : List ℕ) (events events' : List SlcanEvent) :
    frames ⟨line, events ++ events'⟩ = frames ⟨line, events⟩ ++ frames ⟨line, events'⟩ :=
  List.filterMap_append

theorem frames_lineEvents (line : List ℕ) :
    frames ⟨[], lineEvents line⟩ = (parseFrame line).toList := by
  unfold lineEvents
  split
  · next h => rw [h]; rfl
  · cases parseFrame line <;> rfl

/-- An item leaves the reader between lines, and adds its frames. -/
theorem consume_item (item : StreamItem) (events : List SlcanEvent) :
    ∃ events', consume ⟨[], events⟩ item.text = ⟨[], events ++ events'⟩ ∧
      frames ⟨[], events'⟩ = item.emits := by
  cases item with
  | frame f =>
    have hplain : ∀ c ∈ f.text, c ≠ 13 ∧ c ≠ 7 := fun c hc =>
      ⟨(f.text_plain hc).1, (f.text_plain hc).2.1⟩
    have hline : f.text.filter (· ≠ 10) = f.text :=
      List.filter_eq_self.mpr fun c hc => decide_eq_true (f.text_plain hc).2.2
    refine ⟨lineEvents f.text, ?_, ?_⟩
    · rw [StreamItem.text, f.sendFrame_eq, Option.getD_some, consume_line hplain, hline]
    · rw [frames_lineEvents, f.parseFrame_text]
      rfl
  | reply r => exact ⟨lineEvents r.line, consume_line r.whole events, frames_lineEvents r.line⟩
  | bell => exact ⟨[.rejected], rfl, rfl⟩

/-- The frames of a stream are those of its items. -/
theorem frames_consume (items : List StreamItem) (events : List SlcanEvent) :
    frames (consume ⟨[], events⟩ (items.flatMap StreamItem.text)) =
      frames ⟨[], events⟩ ++ items.flatMap StreamItem.emits := by
  induction items generalizing events with
  | nil => rw [List.flatMap_nil, List.flatMap_nil, List.append_nil]; rfl
  | cons item items ih =>
    obtain ⟨events', hitem, hframes⟩ := consume_item item events
    rw [List.flatMap_cons, consume_append, hitem, ih, frames_append, hframes, List.flatMap_cons,
      List.append_assoc]

/-- The chunks do not matter. -/
theorem consume_flatten (r : SlcanReader) (chunks : List (List ℕ)) :
    chunks.foldl consume r = r.consume chunks.flatten := by
  induction chunks generalizing r with
  | nil => rfl
  | cons chunk chunks ih => rw [List.foldl_cons, ih, List.flatten_cons, consume_append]

end SlcanReader

/-- Replies add frames to those that were sent, one for each line that is loose. -/
theorem sent_emits (items : List StreamItem) :
    (items.filterMap StreamItem.sent).length ≤ (items.flatMap StreamItem.emits).length ∧
      (items.flatMap StreamItem.emits = items.filterMap StreamItem.sent ↔
        ∀ r, .reply r ∈ items → ¬ Loose r.line) := by
  induction items with
  | nil => exact ⟨Nat.le_refl _, iff_of_true rfl fun _ hr => absurd hr List.not_mem_nil⟩
  | cons item items ih =>
    obtain ⟨hle, hiff⟩ := ih
    cases item with
    | frame f =>
      have hsent : (StreamItem.frame f :: items).filterMap StreamItem.sent =
          f.emitted :: items.filterMap StreamItem.sent := rfl
      rw [List.flatMap_cons, hsent, StreamItem.emits, List.singleton_append]
      refine ⟨Nat.succ_le_succ hle, ?_⟩
      rw [List.cons.injEq, and_iff_right rfl, hiff]
      simp only [List.mem_cons, reduceCtorEq, false_or]
    | bell =>
      rw [List.flatMap_cons, List.filterMap_cons_none rfl, StreamItem.emits, List.nil_append]
      refine ⟨hle, ?_⟩
      rw [hiff]
      simp only [List.mem_cons, reduceCtorEq, false_or]
    | reply r =>
      rw [List.flatMap_cons, List.filterMap_cons_none rfl, StreamItem.emits]
      cases hline : parseFrame r.line with
      | none =>
        have hnot : ¬ Loose r.line := fun hloose => by
          rw [← isSome_parseFrame, hline] at hloose
          cases hloose
        refine ⟨hle, ?_⟩
        rw [Option.toList_none, List.nil_append, hiff]
        refine ⟨fun h s hs => ?_, fun h s hs => h s (List.mem_cons_of_mem _ hs)⟩
        rcases List.mem_cons.mp hs with hs | hs
        · exact StreamItem.reply.inj hs ▸ hnot
        · exact h s hs
      | some frame =>
        have hloose : Loose r.line := by
          rw [← isSome_parseFrame, hline]
          rfl
        rw [Option.toList_some, List.singleton_append]
        refine ⟨Nat.le_succ_of_le hle, iff_of_false (fun heq => ?_) fun h =>
          h r List.mem_cons_self hloose⟩
        have hlen := congrArg List.length heq
        rw [List.length_cons] at hlen
        omega

/-- However the text is cut, the reader emits the frames that were sent and no others exactly where
no other line is loose; and a loose line is taken for a frame, well formed or not. -/
theorem slcan_codec_iff (items : List StreamItem) (chunks : List (List ℕ)) (line : List ℕ)
    (hchunks : chunks.flatten = items.flatMap StreamItem.text) :
    ((chunks.foldl SlcanReader.consume {}).frames = items.filterMap StreamItem.sent ↔
        ∀ r, .reply r ∈ items → ¬ Loose r.line) ∧
      (((parseFrame line).isSome = true → WellFormed line) ↔
        (Loose line → WellFormed line)) := by
  refine ⟨?_, by rw [isSome_parseFrame]⟩
  rw [SlcanReader.consume_flatten, hchunks, SlcanReader.frames_consume]
  exact (sent_emits items).2

/-- The frame `t1232AABB` in two chunks, and a bell. -/
theorem slcan_codec_frame :
    ([((sendFrame 0x123 [0xAA, 0xBB] false).getD []).take 4,
        ((sendFrame 0x123 [0xAA, 0xBB] false).getD []).drop 4 ++ [7]].foldl
      SlcanReader.consume {}).frames = [⟨0x123, [0xAA, 0xBB], false, false⟩] :=
  (slcan_codec_iff [.frame ⟨0x123, [0xAA, 0xBB], false, by decide, by decide⟩, .bell] _ [] (by
    rw [List.flatten_cons, List.flatten_cons, List.flatten_nil, List.append_nil,
      ← List.append_assoc, List.take_append_drop]
    rfl)).1.mpr fun r hr => absurd hr (by simp)

/-- The line `t12g0` is taken for a frame; its identifier has a letter that is no digit. -/
theorem slcan_malformed_accepted :
    parseFrame [116, 49, 50, 103, 48] = some ⟨0x12, [], false, false⟩ ∧
      ¬ WellFormed [116, 49, 50, 103, 48] := by
  refine ⟨by decide, ?_⟩
  rintro ⟨head, id, n, pairs, stamp, heq, -, ⟨hlen, hhex⟩, -⟩
  obtain ⟨rfl, hrest⟩ := List.cons.inj heq
  have hid : id = [49, 50, 103] := by
    have htake := congrArg (List.take 3) hrest
    exact (List.take_left' hlen).symm.trans htake.symm
  exact absurd (hhex 103 (hid ▸ by decide)) (by decide)

end DiveCANHead.Slcan
