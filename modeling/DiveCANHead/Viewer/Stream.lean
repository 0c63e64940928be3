import Mathlib.Data.List.ReduceOption
import DiveCANHead.Lib.Batch
import DiveCANHead.LogClient.Parse
import DiveCANHead.LogClient.Decode

/-!
# The walk over a stream (`walkStream` of `TelemetryBuilder.js`)

The viewer reads a stream in place, with a stack of the parts it has still to read. It stops at the
first record that ends a stream; for the parser such a record only ends the container it is in.
-/

namespace DiveCANHead.Viewer

open DiveCANHead.Lib DiveCANHead.FlashLog DiveCANHead.LogClient

/-- What `visit` is called with. -/
structure Visit where
  type : UInt8
  flags : UInt8
  tsUs : ℕ
  off : ℕ
  len : ℕ
  deriving DecidableEq, Repr

/-- `end`. -/
def Visit.next (v : Visit) : ℕ := v.off + v.len

/-- The header at an offset; the time stamp is read as two words. -/
def visitAt (bytes : List UInt8) (i : ℕ) : Visit where
  type := byteAt bytes i
  flags := byteAt bytes (i + 1)
  tsUs := leNat (slice bytes (i + 8) (i + 12)) * 4294967296 + leNat (slice bytes (i + 4) (i + 8))
  off := i + flEntryHdrSize
  len := leNat (slice bytes (i + 2) (i + 4))

/-- A record is not whole up to `to`. -/
def Visit.CutAt (v : Visit) (stop : ℕ) : Prop := stop < v.off ∨ stop < v.next

instance (v : Visit) (stop : ℕ) : Decidable (v.CutAt stop) := inferInstanceAs (Decidable (_ ∨ _))

theorem bounds_of_whole {bytes : List UInt8} {i stop : ℕ} (h : ¬(visitAt bytes i).CutAt stop) :
    (visitAt bytes i).off = i + flEntryHdrSize ∧
      (visitAt bytes i).off ≤ (visitAt bytes i).next ∧ (visitAt bytes i).next ≤ stop :=
  ⟨rfl, Nat.le_add_right _ _, Nat.le_of_not_lt fun hnext => h (.inr hnext)⟩

/-- The loops of `walkStream`: the part on top of the stack is the one being read, `from` its next
record. -/
def walkLoop (bytes : List UInt8) : List (ℕ × ℕ) → List Visit
  | [] => []
  | (i, stop) :: stack =>
    let v := visitAt bytes i
    if _h : v.CutAt stop then walkLoop bytes stack
    else if v.type = flTypeEndOfStream then []
    else if v.type = flTypeBatch then walkLoop bytes ((v.off, v.next) :: (v.next, stop) :: stack)
    else v :: walkLoop bytes ((v.next, stop) :: stack)
  termination_by stack => (stack.map fun part => part.2 - part.1 + 1).sum
  decreasing_by
    · exact Nat.lt_add_of_pos_left (Nat.succ_pos _)
    · obtain ⟨hoff, hnext, hstop⟩ := bounds_of_whole _h
      have hpos : 1 < flEntryHdrSize := by decide
      simp only [List.map_cons, List.sum_cons]
      omega
    · obtain ⟨hoff, hnext, hstop⟩ := bounds_of_whole _h
      have hpos : 1 < flEntryHdrSize := by decide
      simp only [List.map_cons, List.sum_cons]
      omega

/-- `walkStream`: the records it visits, in order. -/
def walkStream (bytes : List UInt8) (start : ℕ) : List Visit :=
  walkLoop bytes [(start, bytes.length)]

/-- What the parser meets in a part of the stream, in order: records, and records that end a stream
(`none`). -/
def items (bytes : List UInt8) (i stop : ℕ) : List (Option Visit) :=
  let v := visitAt bytes i
  if _h : v.CutAt stop then []
  else if v.type = flTypeEndOfStream then [none]
  else
    (if v.type = flTypeBatch then items bytes v.off v.next else [some v]) ++ items bytes v.next stop
  termination_by stop - i
  decreasing_by
    · obtain ⟨hoff, hnext, hstop⟩ := bounds_of_whole _h
      have hpos : 0 < flEntryHdrSize := by decide
      omega
    · obtain ⟨hoff, hnext, hstop⟩ := bounds_of_whole _h
      have hpos : 0 < flEntryHdrSize := by decide
      omega

/-! ## The viewer's walk -/

/-- The stack is walked up to the first record that ends a stream. -/
theorem walkLoop_eq (bytes : List UInt8) (stack : List (ℕ × ℕ)) :
    walkLoop bytes stack =
      ((stack.flatMap fun part => items bytes part.1 part.2).takeWhile Option.isSome).reduceOption
      := by
  induction stack using walkLoop.induct bytes with
  | case1 => rw [walkLoop]; rfl
  | case2 i stop stack v hcut ih =>
    rw [walkLoop, dif_pos hcut, ih, List.flatMap_cons, items, dif_pos hcut, List.nil_append]
  | case3 i stop stack v hcut hend =>
    rw [walkLoop, dif_neg hcut, if_pos hend, List.flatMap_cons, items, dif_neg hcut, if_pos hend]
    rfl
  | case4 i stop stack v hcut hend hbatch ih =>
    rw [walkLoop, dif_neg hcut, if_neg hend, if_pos hbatch, ih, List.flatMap_cons,
      List.flatMap_cons, List.flatMap_cons, items.eq_1 bytes i, dif_neg hcut, if_neg hend,
      if_pos hbatch, List.append_assoc]
  | case5 i stop stack v hcut hend hbatch ih =>
    rw [walkLoop, dif_neg hcut, if_neg hend, if_neg hbatch, ih, List.flatMap_cons,
      List.flatMap_cons, items.eq_1 bytes i, dif_neg hcut, if_neg hend, if_neg hbatch]
    rfl

/-! ## The parser's walk -/

section Slices

variable {p : List UInt8} {i j : ℕ}

theorem length_slice (h : j ≤ p.length) : (slice p i j).length = j - i := by
  rw [slice, List.length_take, List.length_drop]
  omega

theorem slice_slice {a b : ℕ} (h : i + b ≤ j) :
    slice (slice p i j) a b = slice p (i + a) (i + b) := by
  rw [slice, slice, slice, List.drop_take, List.take_take, List.drop_drop, Nat.add_sub_add_left,
    Nat.min_eq_left (by omega)]

theorem drop_slice (a : ℕ) : (slice p i j).drop a = slice p (i + a) j := by
  rw [slice, slice, List.drop_take, List.drop_drop, Nat.sub_sub]

theorem byteAt_slice {k : ℕ} (h : i + k < j) : byteAt (slice p i j) k = byteAt p (i + k) := by
  rw [byteAt, byteAt, slice, List.getD_eq_getElem?_getD, List.getD_eq_getElem?_getD,
    List.getElem?_take_of_lt (by omega), List.getElem?_drop]

theorem slice_append {k : ℕ} (hij : i ≤ j) (hjk : j ≤ k) :
    slice p i k = slice p i j ++ slice p j k := by
  have hjoin : k - i = (j - i) + (k - j) := by omega
  have hdrop : i + (j - i) = j := by omega
  rw [slice, slice, slice, hjoin, List.take_add, List.drop_drop, hdrop]

end Slices

/-- The record of a visit. -/
def Visit.record (bytes : List UInt8) (v : Visit) : LogRecord :=
  ⟨v.type, v.flags, UInt64.ofNat v.tsUs, slice bytes v.off v.next⟩

/-- A time stamp is two words. -/
theorem tsUs_visitAt (bytes : List UInt8) (i : ℕ) :
    (visitAt bytes i).tsUs < 18446744073709551616 := by
  have hword : ∀ o, leNat (slice bytes o (o + 4)) < 4294967296 := fun o => by
    have hlen : (slice bytes o (o + 4)).length ≤ 4 := by
      rw [slice, Nat.add_sub_cancel_left]
      exact List.length_take_le _ _
    exact Nat.lt_of_lt_of_le (leNat_lt _) (Nat.pow_le_pow_right (by decide) hlen)
  have hhigh : leNat (slice bytes (i + 8) (i + 12)) < 4294967296 := hword (i + 8)
  have hlow : leNat (slice bytes (i + 4) (i + 8)) < 4294967296 := hword (i + 4)
  rw [visitAt]
  dsimp only
  omega

/-- The parser finds the record of the visit at the front of its buffer. -/
theorem frontRecord_slice {bytes : List UInt8} {i stop : ℕ} (h : stop ≤ bytes.length) :
    frontRecord (slice bytes i stop) =
      if (visitAt bytes i).CutAt stop then none
      else some ((visitAt bytes i).record bytes, slice bytes (visitAt bytes i).next stop) := by
  have hoff : (visitAt bytes i).off = i + 12 := rfl
  have hlen : (slice bytes i stop).length = stop - i := length_slice h
  by_cases hshort : stop < i + 12
  · rw [if_pos (.inl hshort), frontRecord, if_pos (.inl (by rw [hlen, flEntryHdrSize]; omega))]
  · have hheader : (slice bytes i stop).take flEntryHdrSize = slice bytes i (i + 12) :=
      slice_slice (a := 0) (b := 12) (by omega)
    have hlength : LogRecord.lengthField (slice bytes i (i + 12)) = (visitAt bytes i).len :=
      congrArg leNat (slice_slice (a := 2) (b := 4) (by omega))
    have hts : leNat (((slice bytes i (i + 12)).drop 4).take 8) = (visitAt bytes i).tsUs := by
      have hfield : ((slice bytes i (i + 12)).drop 4).take 8 =
          slice bytes (i + 4) (i + 8) ++ slice bytes (i + 8) (i + 12) :=
        (slice_slice (a := 4) (b := 12) (Nat.le_refl _)).trans
          (slice_append (by omega) (by omega))
      have hlow : (slice bytes (i + 4) (i + 8)).length = 4 :=
        (length_slice (by omega)).trans (by omega)
      rw [hfield, leNat_append, hlow, Nat.add_comm, Nat.mul_comm]
      rfl
    rw [frontRecord, hheader, hlength, hlen]
    by_cases hcut : (visitAt bytes i).CutAt stop
    · have hnext : stop < i + 12 + (visitAt bytes i).len := hcut.resolve_left hshort
      rw [if_pos hcut, if_pos (.inr (by rw [flEntryHdrSize]; omega))]
    · have hnext : i + 12 + (visitAt bytes i).len ≤ stop :=
        Nat.le_of_not_lt fun hnext => hcut (.inr hnext)
      have hpayload : ((slice bytes i stop).drop flEntryHdrSize).take (visitAt bytes i).len =
          slice bytes (visitAt bytes i).off (visitAt bytes i).next := by
        rw [drop_slice]
        exact slice_slice (a := 0) (b := (visitAt bytes i).len) (by rw [flEntryHdrSize]; omega)
      have hrest : (slice bytes i stop).drop (flEntryHdrSize + (visitAt bytes i).len) =
          slice bytes (visitAt bytes i).next stop := by
        rw [drop_slice, ← Nat.add_assoc]
        rfl
      have hwhole : ¬(stop - i < flEntryHdrSize ∨
          stop - i < flEntryHdrSize + (visitAt bytes i).len) := by
        rw [flEntryHdrSize]
        omega
      rw [if_neg hcut, if_neg hwhole, hpayload, hrest, LogRecord.ofParts, hts]
      exact congrArg₂ (fun type flags => some
        ((⟨type, flags, UInt64.ofNat (visitAt bytes i).tsUs, slice bytes (visitAt bytes i).off
          (visitAt bytes i).next⟩ : LogRecord), slice bytes (visitAt bytes i).next stop))
        (byteAt_slice (k := 0) (by omega)) (byteAt_slice (k := 1) (by omega))

/-- The parser returns the records it meets, whatever it met before them. -/
theorem walk_slice {bytes : List UInt8} (i stop : ℕ) (h : stop ≤ bytes.length) :
    walk (slice bytes i stop) =
      (items bytes i stop).reduceOption.map (Visit.record bytes) := by
  induction i, stop using items.induct bytes with
  | case1 i stop v hcut =>
    rw [walk_eq, frontRecord_slice h, if_pos hcut, items, dif_pos hcut]
    rfl
  | case2 i stop v hcut hend =>
    rw [walk_eq, frontRecord_slice h, if_neg hcut, items, dif_neg hcut, if_pos hend]
    exact if_pos hend
  | case3 i stop v hcut hend ihbody ihnext =>
    obtain ⟨-, hnext, hstop⟩ := bounds_of_whole hcut
    rw [walk_eq, frontRecord_slice h, if_neg hcut, items, dif_neg hcut, if_neg hend,
      List.reduceOption_append, List.map_append, ← ihnext h]
    refine (if_neg hend).trans (congrArg (· ++ _) ?_)
    by_cases hbatch : v.type = flTypeBatch
    · rw [if_pos hbatch]
      exact (if_pos hbatch).trans (ihbody (Nat.le_trans hstop h))
    · rw [if_neg hbatch]
      exact if_neg hbatch

/-! ## Which records are visited -/

/-- The records the builder visits. -/
def visits (bytes : List UInt8) : List Visit := walkStream bytes (bodyStart bytes)

/-- The records the parser returns, with their places in the stream. -/
def placed (bytes : List UInt8) : List Visit :=
  (items bytes (bodyStart bytes) bytes.length).reduceOption

/-- No record comes after one that ends a stream. -/
def EndsLast (bytes : List UInt8) : Prop :=
  GoodFirst Option.isSome (items bytes (bodyStart bytes) bytes.length)

theorem placed_record (bytes : List UInt8) :
    (placed bytes).map (Visit.record bytes) = parseLogStream bytes := by
  have hbody : slice bytes (bodyStart bytes) bytes.length = bytes.drop (bodyStart bytes) :=
    List.take_of_length_le (Nat.le_of_eq List.length_drop)
  rw [parseLogStream_eq, ← hbody, walk_slice _ _ (Nat.le_refl _), placed]

/-- What is met lies in the stream, and its time stamp has 64 bits. -/
theorem mem_items {bytes : List UInt8} {i stop : ℕ} {v : Visit} (h : some v ∈ items bytes i stop) :
    v.next ≤ stop ∧ v.tsUs < 18446744073709551616 := by
  induction i, stop using items.induct bytes with
  | case1 i stop w hcut =>
    rw [items, dif_pos hcut] at h
    cases h
  | case2 i stop w hcut hend =>
    rw [items, dif_neg hcut, if_pos hend, List.mem_singleton] at h
    cases h
  | case3 i stop w hcut hend ihbody ihnext =>
    obtain ⟨-, -, hstop⟩ := bounds_of_whole hcut
    rw [items, dif_neg hcut, if_neg hend, List.mem_append] at h
    rcases h with h | h
    · by_cases hbatch : w.type = flTypeBatch
      · rw [if_pos hbatch] at h
        obtain ⟨hnext, hts⟩ := ihbody h
        exact ⟨Nat.le_trans hnext hstop, hts⟩
      · rw [if_neg hbatch, List.mem_singleton] at h
        obtain rfl := Option.some.inj h
        exact ⟨hstop, tsUs_visitAt bytes i⟩
    · exact ihnext h

/-- The records lie behind one another. -/
theorem pairwise_items {bytes : List UInt8} (i stop : ℕ) :
    (∀ v, some v ∈ items bytes i stop → i < v.off) ∧
      (items bytes i stop).reduceOption.Pairwise fun v w => v.off < w.off := by
  induction i, stop using items.induct bytes with
  | case1 i stop w hcut =>
    rw [items, dif_pos hcut]
    exact ⟨fun v hv => absurd hv List.not_mem_nil, List.Pairwise.nil⟩
  | case2 i stop w hcut hend =>
    rw [items, dif_neg hcut, if_pos hend]
    exact ⟨fun v hv => absurd (List.mem_singleton.mp hv) (Option.some_ne_none v), List.Pairwise.nil⟩
  | case3 i stop w hcut hend ihbody ihnext =>
    obtain ⟨hoff, hnext, -⟩ : w.off = i + flEntryHdrSize ∧ w.off ≤ w.next ∧ w.next ≤ stop :=
      bounds_of_whole hcut
    have hpos : 0 < flEntryHdrSize := by decide
    have hleft : (∀ v, some v ∈ (if w.type = flTypeBatch then items bytes w.off w.next
        else [some w]) → i < v.off ∧ v.off ≤ w.next) ∧
        (if w.type = flTypeBatch then items bytes w.off w.next
          else [some w]).reduceOption.Pairwise fun v u => v.off < u.off := by
      by_cases hbatch : w.type = flTypeBatch
      · rw [if_pos hbatch]
        obtain ⟨hfrom, hpair⟩ := ihbody
        refine ⟨fun v hv => ⟨?_, ?_⟩, hpair⟩
        · have hlt := hfrom v hv
          omega
        · have hle : v.off ≤ v.next := Nat.le_add_right _ _
          exact Nat.le_trans hle (mem_items hv).1
      · rw [if_neg hbatch]
        refine ⟨fun v hv => ?_, List.pairwise_singleton _ _⟩
        obtain rfl := Option.some.inj (List.mem_singleton.mp hv)
        exact ⟨by omega, hnext⟩
    obtain ⟨hfrom, hpair⟩ := ihnext
    rw [items, dif_neg hcut, if_neg hend]
    refine ⟨fun v hv => ?_, ?_⟩
    · rcases List.mem_append.mp hv with hv | hv
      · exact (hleft.1 v hv).1
      · have hlt : w.next < v.off := hfrom v hv
        omega
    · rw [List.reduceOption_append]
      refine List.pairwise_append.mpr ⟨hleft.2, hpair, fun v hv u hu => ?_⟩
      exact Nat.lt_of_le_of_lt (hleft.1 v (List.reduceOption_mem_iff.mp hv)).2
        (hfrom u (List.reduceOption_mem_iff.mp hu))

theorem mem_placed {bytes : List UInt8} {v : Visit} (h : v ∈ placed bytes) :
    v.next ≤ bytes.length ∧ v.tsUs < 18446744073709551616 :=
  mem_items (List.reduceOption_mem_iff.mp h)

theorem visits_eq_takeWhile (bytes : List UInt8) :
    visits bytes = ((items bytes (bodyStart bytes) bytes.length).takeWhile
      Option.isSome).reduceOption := by
  rw [visits, walkStream, walkLoop_eq, List.flatMap_cons, List.flatMap_nil, List.append_nil]

/-- The records visited lie behind one another. -/
theorem pairwise_visits (bytes : List UInt8) :
    (visits bytes).Pairwise fun v w => v.off < w.off := by
  rw [visits_eq_takeWhile]
  exact (pairwise_items (bodyStart bytes) bytes.length).2.sublist
    ((List.takeWhile_sublist _).filterMap _)

theorem visits_eq_placed {bytes : List UInt8} (h : EndsLast bytes) :
    visits bytes = placed bytes := by
  rw [visits_eq_takeWhile, takeWhile_eq_filter h, placed]
  unfold List.reduceOption
  rw [List.filterMap_filter]
  refine List.filterMap_congr fun v _ => ?_
  cases v <;> rfl

/-- As many records are visited as come before the first end of a stream. -/
theorem endsLast_of_length {bytes : List UInt8}
    (h : (visits bytes).length = (placed bytes).length) : EndsLast bytes := by
  refine goodFirst_of_length ?_
  have hall : ((items bytes (bodyStart bytes) bytes.length).takeWhile Option.isSome).filter
      Option.isSome = (items bytes (bodyStart bytes) bytes.length).takeWhile Option.isSome :=
    List.filter_eq_self.mpr fun _ hv => (List.mem_takeWhile_imp hv)
  rw [visits_eq_takeWhile, placed, List.reduceOption_length_eq, List.reduceOption_length_eq,
    hall] at h
  exact h

/-- The builder visits the records of the parser if none comes after the end of a stream. -/
theorem visits_iff (bytes : List UInt8) :
    (visits bytes).map (Visit.record bytes) = parseLogStream bytes ↔ EndsLast bytes := by
  rw [← placed_record]
  constructor
  · intro h
    refine endsLast_of_length ?_
    rw [← List.length_map (Visit.record bytes), h, List.length_map]
  · intro h
    rw [visits_eq_placed h]

end DiveCANHead.Viewer
