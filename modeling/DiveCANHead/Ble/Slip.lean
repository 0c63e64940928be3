import Mathlib.Data.List.Chain
import DiveCANHead.Lib.Stuffing

/-!
# SLIP (`SLIPCodec.js`)

A datagram is stuffed and ended by END. The decoder keeps what it has read of the current packet
from one call to the next; an invalid escape leaves the call, and the decoder as it stands.
-/

namespace DiveCANHead.Ble

open DiveCANHead.Lib

/-! ## The codec -/

def slipEnd : UInt8 := 0xC0

def slipEsc : UInt8 := 0xDB

def slipEscEnd : UInt8 := 0xDC

def slipEscEsc : UInt8 := 0xDD

/-- `SLIPError('Invalid SLIP escape sequence', { escapeByte, position })`. -/
structure SLIPError where
  escapeByte : UInt8
  position : ℕ
  deriving DecidableEq, Repr

structure SLIPCodec where
  buffer : List UInt8 := []
  inEscape : Bool := false
  deriving DecidableEq, Repr

namespace SLIPCodec

/-- What `encode` pushes for a byte. -/
def encodeByte (byte : UInt8) : List UInt8 :=
  if byte = slipEnd then [slipEsc, slipEscEnd]
  else if byte = slipEsc then [slipEsc, slipEscEsc]
  else [byte]

def encode (data : List UInt8) : List UInt8 := data.flatMap encodeByte ++ [slipEnd]

/-- The loop of `decode` from byte `i` on. -/
def decodeFrom (c : SLIPCodec) (packets : List (List UInt8)) (i : ℕ) :
    List UInt8 → SLIPCodec × Except SLIPError (List (List UInt8))
  | [] => (c, .ok packets)
  | byte :: data =>
    if byte = slipEnd then
      decodeFrom {} (if c.buffer.length > 0 then packets ++ [c.buffer] else packets) (i + 1) data
    else if byte = slipEsc then decodeFrom { c with inEscape := true } packets (i + 1) data
    else if c.inEscape then
      if byte = slipEscEnd then decodeFrom ⟨c.buffer ++ [slipEnd], false⟩ packets (i + 1) data
      else if byte = slipEscEsc then decodeFrom ⟨c.buffer ++ [slipEsc], false⟩ packets (i + 1) data
      else (c, .error ⟨byte, i⟩)
    else decodeFrom { c with buffer := c.buffer ++ [byte] } packets (i + 1) data

def decode (c : SLIPCodec) (data : List UInt8) :
    SLIPCodec × Except SLIPError (List (List UInt8)) := c.decodeFrom [] 0 data

/-! ## Calls that end, and calls that are left -/

/-- The bytes lead from one state to the other and complete these packets. -/
def Decodes (c : SLIPCodec) (data : List UInt8) (d : SLIPCodec) (packets : List (List UInt8)) :
    Prop := ∀ before i, c.decodeFrom before i data = (d, .ok (before ++ packets))

/-- The call is left by an exception. -/
def Throws (c : SLIPCodec) (data : List UInt8) : Prop :=
  ∀ before i, ∃ d e, c.decodeFrom before i data = (d, .error e)

section

variable {c d e : SLIPCodec} {data data' : List UInt8} {packets packets' : List (List UInt8)}

theorem Decodes.decode (h : Decodes c data d packets) : c.decode data = (d, .ok packets) := h [] 0

theorem Throws.decode (h : Throws c data) : ∃ d e, c.decode data = (d, .error e) := h [] 0

theorem Decodes.nil (c : SLIPCodec) : Decodes c [] c [] := fun before _ => by
  rw [decodeFrom, List.append_nil]

/-- One more byte. -/
theorem Decodes.cons {byte : UInt8} {packet : List (List UInt8)}
    (hbyte : ∀ before i, c.decodeFrom before i (byte :: data) =
      e.decodeFrom (before ++ packet) (i + 1) data) (h : Decodes e data d packets) :
    Decodes c (byte :: data) d (packet ++ packets) := fun before i => by
  rw [hbyte, h, List.append_assoc]

theorem Throws.cons {byte : UInt8} {packet : List (List UInt8)}
    (hbyte : ∀ before i, c.decodeFrom before i (byte :: data) =
      e.decodeFrom (before ++ packet) (i + 1) data) (h : Throws e data) :
    Throws c (byte :: data) := fun before i => by
  rw [hbyte]
  exact h _ _

/-- What the decoder lets follow an ESC other than END. -/
def AfterEsc (a b : UInt8) : Prop :=
  a = slipEsc → b = slipEsc ∨ b = slipEscEnd ∨ b = slipEscEsc

instance decidableAfterEsc (a b : UInt8) : Decidable (AfterEsc a b) := by
  unfold AfterEsc
  infer_instance

/-- The rest of a segment, with the ESC that the decoder has just read. -/
def withEsc (c : SLIPCodec) (data : List UInt8) : List UInt8 :=
  if c.inEscape then slipEsc :: data else data

theorem isChain_cons_of_ne {byte : UInt8} (h : byte ≠ slipEsc) :
    (byte :: data).IsChain AfterEsc ↔ data.IsChain AfterEsc := by
  rw [List.isChain_cons, and_iff_right]
  exact fun _ _ hesc => absurd hesc h

/-- What a byte other than END does, and whether it may stand here. -/
theorem decodeFrom_body (c : SLIPCodec) {byte : UInt8} (hend : byte ≠ slipEnd) :
    (∃ e : SLIPCodec, (∀ data before i, c.decodeFrom before i (byte :: data) =
        e.decodeFrom (before ++ []) (i + 1) data) ∧
      e.buffer.length = c.buffer.length + (if byte = slipEsc then 0 else 1) ∧
      ∀ data, (c.withEsc (byte :: data)).IsChain AfterEsc ↔ (e.withEsc data).IsChain AfterEsc) ∨
    ∀ data, Throws c (byte :: data) ∧ ¬(c.withEsc (byte :: data)).IsChain AfterEsc := by
  have hchain : byte ≠ slipEsc → c.inEscape = true → ∀ data : List UInt8,
      ((c.withEsc (byte :: data)).IsChain AfterEsc ↔
        (byte = slipEscEnd ∨ byte = slipEscEsc) ∧ data.IsChain AfterEsc) := by
    intro hesc hin data
    rw [withEsc, if_pos hin, List.isChain_cons_cons, isChain_cons_of_ne hesc]
    simp [AfterEsc, hesc]
  by_cases hesc : byte = slipEsc
  · refine .inl ⟨{ c with inEscape := true }, fun data before i => ?_, ?_, fun data => ?_⟩
    · rw [decodeFrom, if_neg hend, if_pos hesc, List.append_nil]
    · rw [if_pos hesc, Nat.add_zero]
    · unfold withEsc
      cases c.inEscape <;> simp [hesc, AfterEsc]
  by_cases hin : c.inEscape = true
  · by_cases h1 : byte = slipEscEnd
    · refine .inl ⟨⟨c.buffer ++ [slipEnd], false⟩, fun data before i => ?_, ?_, fun data => ?_⟩
      · rw [decodeFrom, if_neg hend, if_neg hesc, if_pos hin, if_pos h1, List.append_nil]
      · rw [if_neg hesc, List.length_append, List.length_singleton]
      · rw [hchain hesc hin, and_iff_right (.inl h1)]
        rfl
    by_cases h2 : byte = slipEscEsc
    · refine .inl ⟨⟨c.buffer ++ [slipEsc], false⟩, fun data before i => ?_, ?_, fun data => ?_⟩
      · rw [decodeFrom, if_neg hend, if_neg hesc, if_pos hin, if_neg h1, if_pos h2,
          List.append_nil]
      · rw [if_neg hesc, List.length_append, List.length_singleton]
      · rw [hchain hesc hin, and_iff_right (.inr h2)]
        rfl
    · refine .inr fun data => ⟨fun before i => ⟨c, ⟨byte, i⟩, ?_⟩, ?_⟩
      · rw [decodeFrom, if_neg hend, if_neg hesc, if_pos hin, if_neg h1, if_neg h2]
      · rw [hchain hesc hin]
        exact fun h => h.1.elim h1 h2
  · refine .inl ⟨{ c with buffer := c.buffer ++ [byte] }, fun data before i => ?_, ?_,
      fun data => ?_⟩
    · rw [decodeFrom, if_neg hend, if_neg hesc, if_neg hin, List.append_nil]
    · rw [if_neg hesc, List.length_append, List.length_singleton]
    · rw [withEsc, withEsc, if_neg hin, if_neg hin, isChain_cons_of_ne hesc]

/-- What one byte does. -/
theorem decodeFrom_cons (c : SLIPCodec) (byte : UInt8) :
    (∃ (e : SLIPCodec) (packet : List (List UInt8)), ∀ data before i,
        c.decodeFrom before i (byte :: data) = e.decodeFrom (before ++ packet) (i + 1) data) ∨
      ∀ data, Throws c (byte :: data) := by
  by_cases hend : byte = slipEnd
  · refine .inl ⟨{}, if c.buffer.length > 0 then [c.buffer] else [], fun data before i => ?_⟩
    rw [decodeFrom, if_pos hend]
    split <;> simp
  · rcases decodeFrom_body c hend with ⟨e, hbyte, -⟩ | hthrows
    · exact .inl ⟨e, [], hbyte⟩
    · exact .inr fun data => (hthrows data).1

/-- A call ends or is left. -/
theorem decodes_or_throws (c : SLIPCodec) (data : List UInt8) :
    (∃ d packets, Decodes c data d packets) ∨ Throws c data := by
  induction data generalizing c with
  | nil => exact .inl ⟨c, [], .nil c⟩
  | cons byte data ih =>
    rcases decodeFrom_cons c byte with ⟨e, packet, hbyte⟩ | hthrows
    · rcases ih e with ⟨d, packets, h⟩ | h
      · exact .inl ⟨d, _, h.cons (hbyte data)⟩
      · exact .inr (h.cons (hbyte data))
    · exact .inr (hthrows data)

theorem Decodes.unique (h : Decodes c data d packets) (h' : Decodes c data e packets') :
    d = e ∧ packets = packets' := by
  have heq := h.decode.symm.trans h'.decode
  simpa using heq

theorem Decodes.not_throws (h : Decodes c data d packets) : ¬Throws c data := by
  intro hthrows
  obtain ⟨_, _, he⟩ := hthrows.decode
  cases h.decode.symm.trans he

theorem decodeFrom_append_ok {before : List (List UInt8)} {i : ℕ}
    (h : c.decodeFrom before i data = (d, .ok packets)) :
    c.decodeFrom before i (data ++ data') = d.decodeFrom packets (i + data.length) data' := by
  induction data generalizing c before i with
  | nil =>
    obtain ⟨rfl, hok⟩ := Prod.mk.inj h
    obtain rfl := Except.ok.inj hok
    rfl
  | cons byte data ih =>
    rcases decodeFrom_cons c byte with ⟨e, packet, hbyte⟩ | hthrows
    · rw [hbyte] at h
      rw [List.cons_append, hbyte, ih h, List.length_cons, Nat.add_assoc, Nat.add_comm 1]
    · obtain ⟨_, _, he⟩ := hthrows data before i
      cases h.symm.trans he

theorem decodeFrom_append_error {before : List (List UInt8)} {i : ℕ} {err : SLIPError}
    (h : c.decodeFrom before i data = (d, .error err)) :
    ∃ e err', c.decodeFrom before i (data ++ data') = (e, .error err') := by
  induction data generalizing c before i with
  | nil => cases (Prod.mk.inj h).2
  | cons byte data ih =>
    rcases decodeFrom_cons c byte with ⟨e, packet, hbyte⟩ | hthrows
    · rw [hbyte] at h
      rw [List.cons_append, hbyte]
      exact ih h
    · exact hthrows _ before i

/-- A call may be cut in two. -/
theorem Decodes.append (h : Decodes c data d packets) (h' : Decodes d data' e packets') :
    Decodes c (data ++ data') e (packets ++ packets') := fun before i => by
  rw [decodeFrom_append_ok (h before i), h', List.append_assoc]

theorem Throws.append (h : Throws c data) (data' : List UInt8) : Throws c (data ++ data') :=
  fun before i => by
    obtain ⟨_, _, he⟩ := h before i
    exact decodeFrom_append_error he

/-- An exception in the second part leaves the whole call. -/
theorem Decodes.throws_append (h : Decodes c data d packets) (h' : Throws d data') :
    Throws c (data ++ data') := fun before i => by
  rw [decodeFrom_append_ok (h before i)]
  exact h' _ _

/-! ## One segment -/

/-- A segment that the decoder lets pass: every byte but ESC is one of the packet. -/
theorem decodes_body (c : SLIPCodec) (hend : slipEnd ∉ data)
    (h : (c.withEsc data).IsChain AfterEsc) :
    ∃ d, Decodes c data d [] ∧
      d.buffer.length = c.buffer.length + data.countP (· ≠ slipEsc) := by
  induction data generalizing c with
  | nil => exact ⟨c, .nil c, rfl⟩
  | cons byte data ih =>
    rcases decodeFrom_body c (List.ne_of_not_mem_cons hend).symm with
      ⟨e, hbyte, hlen, hchain⟩ | hthrows
    · obtain ⟨d, hd, hcount⟩ := ih e (List.not_mem_of_not_mem_cons hend) ((hchain data).mp h)
      refine ⟨d, hd.cons (hbyte data), ?_⟩
      rw [hcount, hlen, List.countP_cons]
      by_cases hesc : byte = slipEsc
      · simp [hesc]
      · simp [hesc]
        omega
    · exact absurd h (hthrows data).2

theorem throws_body (c : SLIPCodec) (hend : slipEnd ∉ data)
    (h : ¬(c.withEsc data).IsChain AfterEsc) : Throws c data := by
  induction data generalizing c with
  | nil =>
    refine absurd ?_ h
    unfold withEsc
    split
    · exact .singleton _
    · exact .nil
  | cons byte data ih =>
    rcases decodeFrom_body c (List.ne_of_not_mem_cons hend).symm with
      ⟨e, hbyte, -, hchain⟩ | hthrows
    · exact (ih e (List.not_mem_of_not_mem_cons hend) (mt (hchain data).mpr h)).cons (hbyte data)
    · exact (hthrows data).1

/-- END completes a packet, unless it is empty. -/
theorem decodes_end (c : SLIPCodec) :
    Decodes c [slipEnd] {} (if c.buffer.length > 0 then [c.buffer] else []) := fun before i => by
  rw [decodeFrom, if_pos rfl, decodeFrom]
  split <;> simp

/-! ## Stuffing -/

/-- The marks of SLIP. -/
def slipMarks : Marks UInt8 where
  stop := slipEnd
  esc := slipEsc
  stuffedStop := slipEscEnd
  stuffedEsc := slipEscEsc
  esc_ne := by decide
  stuffedStop_ne := by decide
  stuffedEsc_ne := by decide
  stuffed_ne := by decide

theorem encode_eq (data : List UInt8) : encode data = slipMarks.stuff data ++ [slipEnd] := rfl

theorem decodes_encodeByte (buffer : List UInt8) (byte : UInt8) :
    Decodes ⟨buffer, false⟩ (encodeByte byte) ⟨buffer ++ [byte], false⟩ [] := by
  intro before i
  unfold encodeByte
  split
  · next h => simp [decodeFrom, h, slipEnd, slipEsc, slipEscEnd]
  split
  · next h => simp [decodeFrom, h, slipEnd, slipEsc, slipEscEnd, slipEscEsc]
  · next hend hesc => simp [decodeFrom, hend, hesc]

/-- The decoder reads what was stuffed. -/
theorem decodes_stuff (buffer data : List UInt8) :
    Decodes ⟨buffer, false⟩ (slipMarks.stuff data) ⟨buffer ++ data, false⟩ [] := by
  induction data generalizing buffer with
  | nil =>
    rw [List.append_nil]
    exact .nil _
  | cons byte data ih =>
    have h := (decodes_encodeByte buffer byte).append (ih (buffer ++ [byte]))
    rw [List.append_assoc] at h
    exact h

theorem decodes_encode {data : List UInt8} (h : data ≠ []) :
    Decodes {} (encode data) {} [data] := by
  have hend := decodes_end ⟨data, false⟩
  rw [if_pos (List.length_pos_iff.mpr h)] at hend
  exact (decodes_stuff [] data).append hend

/-- A datagram is decoded as it was encoded. -/
theorem decode_encode {data : List UInt8} (h : data ≠ []) :
    ({} : SLIPCodec).decode (encode data) = ({}, .ok [data]) := (decodes_encode h).decode

end

end SLIPCodec

end DiveCANHead.Ble
