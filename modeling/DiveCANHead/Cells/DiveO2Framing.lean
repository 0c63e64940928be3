import DiveCANHead.Cells.DiveO2
import DiveCANHead.Lib.Lines

/-!
# The framing of a DiveO2 cell's lines (`oxygen_cell_diveo2.c`)

The interrupt is fed the stream in receive events of any length and hands over a frame at every
line end. A line that is too long is dropped where it overruns, and gathering starts again in its
middle: what is left of it is handed over as a frame, unless nothing is.
-/

namespace DiveCANHead.Cells

open DiveCANHead.Lib

/-- A byte of `diveo2_feed_rx`, and the thread that takes the frame it completes. -/
def feedAndTake (s : DiveO2Cell × List Text) (byte : UInt8) : DiveO2Cell × List Text :=
  let cell := diveo2FeedByte s.1 byte
  if cell.rxSem then
    ({ cell with rxSem := false }, s.2 ++ [cell.lastMessage.take cell.rxLen])
  else (cell, s.2)

/-- `diveo2_feed_rx`, for one receive event. -/
def diveo2FeedRx (s : DiveO2Cell × List Text) (bytes : List UInt8) : DiveO2Cell × List Text :=
  bytes.foldl feedAndTake s

/-- The frames handed to the thread over a sequence of receive events. -/
def framesOf (cell : DiveO2Cell) (events : List (List UInt8)) : List Text :=
  (events.foldl diveo2FeedRx (cell, [])).2

/-- The longest line a frame can carry. -/
def diveo2MaxLine : ℕ := diveo2RxBufferLen - 1

/-- The lines of a stream: its terminated segments that are not empty and not too long. -/
def linesOf (stream : List UInt8) : List Text :=
  (segments isLineEnd stream).filter fun seg => !seg.isEmpty && seg.length ≤ diveo2MaxLine

/-- What the line buffer holds of a segment: it is emptied at every overrun, by a byte that is
dropped too. -/
def keptOf (seg : Text) : Text := seg.drop (seg.length / diveo2RxBufferLen * diveo2RxBufferLen)

theorem length_keptOf (seg : Text) : (keptOf seg).length = seg.length % diveo2RxBufferLen := by
  rw [keptOf, List.length_drop]
  have := Nat.div_add_mod' seg.length diveo2RxBufferLen
  omega

theorem keptOf_of_short {seg : Text} (h : seg.length ≤ diveo2MaxLine) : keptOf seg = seg := by
  have hdiv : seg.length / diveo2RxBufferLen = 0 :=
    Nat.div_eq_of_lt (Nat.lt_succ_of_le h)
  rw [keptOf, hdiv, Nat.zero_mul, List.drop_zero]

theorem keptOf_append_of_room {seg : Text} {byte : UInt8}
    (h : (keptOf seg).length < diveo2RxBufferLen - 1) :
    keptOf (seg ++ [byte]) = keptOf seg ++ [byte] := by
  rw [length_keptOf] at h
  have hsplit := Nat.div_add_mod' seg.length diveo2RxBufferLen
  have hdiv : (seg.length + 1) / diveo2RxBufferLen = seg.length / diveo2RxBufferLen := by
    unfold diveo2RxBufferLen at h hsplit ⊢
    omega
  rw [keptOf, List.length_append, List.length_singleton, hdiv,
    List.drop_append_of_le_length (by omega), keptOf]

theorem keptOf_append_of_full {seg : Text} {byte : UInt8}
    (h : ¬(keptOf seg).length < diveo2RxBufferLen - 1) : keptOf (seg ++ [byte]) = [] := by
  rw [length_keptOf] at h
  have hdiv : (seg.length + 1) / diveo2RxBufferLen * diveo2RxBufferLen = seg.length + 1 := by
    unfold diveo2RxBufferLen at h ⊢
    omega
  rw [keptOf, List.length_append, List.length_singleton, hdiv]
  exact List.drop_of_length_le (by rw [List.length_append, List.length_singleton])

theorem length_keptOf_lt (seg : Text) : (keptOf seg).length < diveo2RxBufferLen := by
  rw [length_keptOf]
  exact Nat.mod_lt _ (by decide)

/-- The cell between two bytes: every frame is taken, and of the line so far it holds what is
kept. -/
structure Gathering (cell : DiveO2Cell) (seg : Text) : Prop where
  taken : cell.rxSem = false
  line : cell.rxLine = keptOf seg
  mailbox : cell.lastMessage.length = diveo2RxBufferLen

theorem gathering_setup (stored : Option ℚ) : Gathering (diveo2Setup stored) [] :=
  ⟨rfl, rfl, List.length_replicate⟩

/-- A byte inside a line. -/
theorem Gathering.more {s : DiveO2Cell × List Text} {seg : Text} {byte : UInt8}
    (h : Gathering s.1 seg) (hbyte : isLineEnd byte = false) :
    Gathering (feedAndTake s byte).1 (seg ++ [byte]) ∧ (feedAndTake s byte).2 = s.2 := by
  have hfed : diveo2FeedByte s.1 byte = { s.1 with rxLine := keptOf (seg ++ [byte]) } := by
    unfold diveo2FeedByte
    rw [if_neg (Bool.eq_false_iff.mp hbyte), h.line]
    split
    · next hroom => rw [keptOf_append_of_room hroom]
    · next hfull => rw [keptOf_append_of_full hfull]
  have hquiet : (diveo2FeedByte s.1 byte).rxSem = false := by
    rw [hfed]
    exact h.taken
  unfold feedAndTake
  dsimp only
  rw [hquiet, if_neg Bool.false_ne_true, hfed]
  exact ⟨⟨h.taken, rfl, h.mailbox⟩, rfl⟩

/-- The end of a line hands over what is kept of it, if anything is. -/
theorem Gathering.lineEnd {s : DiveO2Cell × List Text} {seg : Text} {byte : UInt8}
    (h : Gathering s.1 seg) (hbyte : isLineEnd byte = true) :
    Gathering (feedAndTake s byte).1 [] ∧
      (feedAndTake s byte).2 = s.2 ++ [keptOf seg].filter (!·.isEmpty) := by
  unfold feedAndTake diveo2FeedByte
  dsimp only
  rw [if_pos hbyte, h.line]
  by_cases hempty : keptOf seg = []
  · rw [if_pos hempty, h.taken, if_neg Bool.false_ne_true, hempty, List.filter_cons,
      List.isEmpty_nil,
      Bool.not_true, if_neg Bool.false_ne_true, List.filter_nil, List.append_nil]
    exact ⟨⟨h.taken, h.line.trans hempty, h.mailbox⟩, rfl⟩
  · have hroom := length_keptOf_lt seg
    have hfits : 0 + (keptOf seg ++ [0]).length ≤ s.1.lastMessage.length := by
      rw [h.mailbox, List.length_append, List.length_singleton]
      omega
    have hframe : (overlay s.1.lastMessage 0 (keptOf seg ++ [0])).take (keptOf seg).length =
        keptOf seg := by
      rw [take_overlay_zero (by rw [List.length_append]; omega), List.take_left]
    rw [if_neg hempty, if_pos rfl, List.filter_cons, if_pos (by simpa using hempty),
      List.filter_nil]
    refine ⟨⟨rfl, rfl, ?_⟩, congrArg (s.2 ++ [·]) hframe⟩
    exact (length_overlay hfits).trans h.mailbox

/-- Over a stream, what is handed over is what is kept of every terminated segment. -/
theorem foldl_feedAndTake {s : DiveO2Cell × List Text} {seg : Text} (h : Gathering s.1 seg)
    (stream : List UInt8) :
    (stream.foldl feedAndTake s).2 =
      s.2 ++ ((segmentsFrom isLineEnd seg stream).map keptOf).filter (!·.isEmpty) := by
  induction stream generalizing s seg with
  | nil => exact (List.append_nil _).symm
  | cons byte stream ih =>
    rw [List.foldl_cons]
    cases hbyte : isLineEnd byte with
    | true =>
      obtain ⟨hnext, hframes⟩ := h.lineEnd hbyte
      rw [ih hnext, hframes, segmentsFrom_stop hbyte, List.append_assoc, List.map_cons,
        ← List.filter_append]
      rfl
    | false =>
      obtain ⟨hnext, hframes⟩ := h.more hbyte
      rw [ih hnext, hframes, segmentsFrom_more hbyte]

/-- However the stream is split, the frames depend on the stream alone. -/
theorem framesOf_eq (stored : Option ℚ) (events : List (List UInt8)) :
    framesOf (diveo2Setup stored) events =
      ((segments isLineEnd events.flatten).map keptOf).filter (!·.isEmpty) := by
  have hfold : events.foldl diveo2FeedRx (diveo2Setup stored, []) =
      events.flatten.foldl feedAndTake (diveo2Setup stored, []) := List.foldl_flatten.symm
  rw [framesOf, hfold, foldl_feedAndTake (gathering_setup stored), List.nil_append, segments]

/-- The frames are the lines of the stream exactly if every overlong segment runs over as a
whole. -/
theorem framesOf_eq_linesOf_iff (stored : Option ℚ) (events : List (List UInt8)) :
    framesOf (diveo2Setup stored) events = linesOf events.flatten ↔
      ∀ seg ∈ segments isLineEnd events.flatten, diveo2MaxLine < seg.length →
        seg.length % diveo2RxBufferLen = 0 := by
  have hshort : ∀ seg : Text, decide (seg.length ≤ diveo2MaxLine) = true → keptOf seg = seg :=
    fun seg h => keptOf_of_short (of_decide_eq_true h)
  rw [framesOf_eq, linesOf, filter_map_eq_filter_iff hshort]
  refine forall₂_congr fun seg _ => ?_
  rw [decide_eq_false_iff_not, Nat.not_le, ← List.length_eq_zero_iff, length_keptOf]

/-- A segment of 87 bytes in one receive event. -/
def overlongLine : List (List UInt8) := [List.replicate 87 0x31 ++ [cr]]

/-- Its last byte is handed over as a frame. -/
theorem overlongLine_delivered :
    framesOf (diveo2Setup none) overlongLine ≠ linesOf overlongLine.flatten := by
  decide +kernel

end DiveCANHead.Cells
