import DiveCANHead.Cells.DiveO2

/-!
# The frames a DiveO2 cell sends

What the parsers make of a message is what the line says, up to the width of a `long` and to the
16 bits of the error code that are tested. The line in the mailbox is the one received last, and it
is what is parsed unless it is nothing but NULs or has a NUL inside.
-/

namespace DiveCANHead.Cells

open DiveCANHead.Lib DiveCANHead.Calibration

/-! ## Parsing -/

theorem diveo2ParseI32_eq : diveo2ParseI32 = fun tok => (integerOf tok).map toLong := by
  funext tok
  cases h : integerOf tok with
  | some z =>
    have hne : tok ≠ [] := ne_nil_of_integerOf h
    rw [diveo2ParseI32, strtol_of_integerOf h, if_pos ⟨hne, hne.symm, rfl⟩, Option.map_some]
  | none =>
    rw [diveo2ParseI32, Option.map_none]
    refine if_neg fun ⟨_, hmoved, hall⟩ => ?_
    obtain ⟨z, hz⟩ := integerOf_of_strtol hmoved hall
    exact absurd (h.symm.trans hz) (by simp)

/-- A code passes for good exactly where its lowest 16 bits are zero. -/
theorem diveo2ParseErrorCode_ok {errStr : Text} {e : ℤ} (h : integerOf errStr = some e) :
    diveo2ParseErrorCode errStr = .ok ↔ toLong e % 65536 = 0 := by
  simp only [diveo2ParseErrorCode, strtol_of_integerOf h]
  constructor
  · intro hok
    split at hok
    · exact absurd hok (by simp)
    · split at hok
      · exact absurd hok (by simp)
      · split at hok
        · exact absurd hok (by simp)
        · omega
  · intro hzero
    simp [hzero]

theorem readFields_parseI32 (count : ℕ) (fields : List Text) :
    readFields diveo2ParseI32 count fields =
      (readFields integerOf count fields).map (List.map toLong) := by
  rw [diveo2ParseI32_eq, readFields_map]

theorem messageTokens_of_short {message : Text} (h : message.length ≤ diveo2RxBufferLen - 1) :
    messageTokens message = tokens blank message := by
  rw [messageTokens, List.take_of_length_le h]

/-- No header is both. -/
theorem not_oxy_of_raw {hdr : Text} (h : diveo2HeaderIs hdr rawSuffix = true) :
    diveo2HeaderIs hdr oxySuffix = false := by
  match hdr with
  | [] | [_] => rfl
  | hash :: family :: body =>
    have hbody : body = rawSuffix := by
      simp only [diveo2HeaderIs, Bool.and_eq_true, beq_iff_eq] at h
      exact h.2
    have hne : rawSuffix ≠ oxySuffix := by decide
    simp [diveo2HeaderIs, hbody, hne]

theorem diveo2ParseSimpleResponse_eq {message cmdName : Text} {fields : List Text}
    (htok : messageTokens message = cmdName :: fields)
    (hhdr : diveo2HeaderIs cmdName oxySuffix = true) :
    (diveo2ParseSimpleResponse message).map (fun r => (r.rawPpo2Millihpa, r.status)) =
      (readingOf diveo2SimpleFieldCount fields).map
        fun r => (toLong r.ppo2, diveo2ParseErrorCode (errField fields)) := by
  simp only [diveo2ParseSimpleResponse, htok, hhdr, if_true, readFields_parseI32, readingOf]
  cases h : readFields integerOf diveo2SimpleFieldCount fields with
  | none => rfl
  | some values =>
    match values, length_readFields h with
    | [_, _, _], _ => rfl

theorem diveo2ParseDetailedResponse_eq {message cmdName : Text} {fields : List Text}
    (htok : messageTokens message = cmdName :: fields)
    (hhdr : diveo2HeaderIs cmdName rawSuffix = true) :
    (diveo2ParseDetailedResponse message).map (fun r => (r.rawPpo2Millihpa, r.status)) =
      (readingOf diveo2DetailedFieldCount fields).map
        fun r => (toLong r.ppo2, diveo2ParseErrorCode (errField fields)) := by
  simp only [diveo2ParseDetailedResponse, htok, hhdr, if_true, readFields_parseI32, readingOf]
  cases h : readFields integerOf diveo2DetailedFieldCount fields with
  | none => rfl
  | some values =>
    match values, length_readFields h with
    | [_, _, _, _, _, _, _, _], _ => rfl

/-- The error code of a well-formed line is the one its third field spells. -/
theorem integerOf_errField {count : ℕ} {fields : List Text} {r : FrameReading}
    (h : readingOf count fields = some r) : integerOf (errField fields) = some r.errCode := by
  simp only [readingOf] at h
  split at h
  · rename_i hread
    rw [← Option.some.inj h]
    exact read_of_readFields hread rfl
  · exact absurd h (by simp)

/-! ## A processed message -/

/-- What processing a well-formed measurement does. -/
structure Applied (now : ℤ) (r : FrameReading) (cell : DiveO2Cell) : Prop where
  rawPpo2Millihpa : cell.rawPpo2Millihpa = toLong r.ppo2
  lastPpo2Ticks : cell.lastPpo2Ticks = now
  status : cell.status = .ok ↔ toLong r.errCode % 65536 = 0

/-- What a message does to the cell, by what it says. -/
def ProcessedAs (now : ℤ) (cell cell' : DiveO2Cell) : Option (Option FrameReading) → Prop
  | none => cell' = cell
  | some none => cell' = { cell with status := .fail }
  | some (some r) => Applied now r cell'

theorem diveo2ProcessRx_detailed {now : ℤ} {cell : DiveO2Cell} {cmdName : Text} {fields : List Text}
    (htok : messageTokens (diveo2Message cell.lastMessage) = cmdName :: fields)
    (hraw : diveo2HeaderIs cmdName rawSuffix = true) :
    ProcessedAs now cell (diveo2ProcessRx now cell)
      (some (readingOf diveo2DetailedFieldCount fields)) := by
  have hparse := diveo2ParseDetailedResponse_eq htok hraw
  have hsimple : diveo2ParseSimpleResponse (diveo2Message cell.lastMessage) = none := by
    simp [diveo2ParseSimpleResponse, htok, not_oxy_of_raw hraw]
  cases hr : readingOf diveo2DetailedFieldCount fields with
  | none =>
    rw [hr, Option.map_none, Option.map_eq_none_iff] at hparse
    simp [ProcessedAs, diveo2ProcessRx, hparse, hsimple, diveo2IsMeasurement, htok, hraw]
  | some r =>
    rw [hr, Option.map_some] at hparse
    obtain ⟨reading, hreading, heq⟩ := Option.map_eq_some_iff.mp hparse
    obtain ⟨hppo2, hstatus⟩ := Prod.mk.inj heq
    simp only [ProcessedAs, diveo2ProcessRx, hreading]
    exact ⟨hppo2, rfl, by
      rw [← diveo2ParseErrorCode_ok (integerOf_errField hr), ← hstatus]; rfl⟩

theorem diveo2ProcessRx_simple {now : ℤ} {cell : DiveO2Cell} {cmdName : Text} {fields : List Text}
    (htok : messageTokens (diveo2Message cell.lastMessage) = cmdName :: fields)
    (hraw : diveo2HeaderIs cmdName rawSuffix = false)
    (hoxy : diveo2HeaderIs cmdName oxySuffix = true) :
    ProcessedAs now cell (diveo2ProcessRx now cell)
      (some (readingOf diveo2SimpleFieldCount fields)) := by
  have hparse := diveo2ParseSimpleResponse_eq htok hoxy
  have hdetailed : diveo2ParseDetailedResponse (diveo2Message cell.lastMessage) = none := by
    simp [diveo2ParseDetailedResponse, htok, hraw]
  cases hr : readingOf diveo2SimpleFieldCount fields with
  | none =>
    rw [hr, Option.map_none, Option.map_eq_none_iff] at hparse
    simp [ProcessedAs, diveo2ProcessRx, hparse, hdetailed, diveo2IsMeasurement, htok, hoxy]
  | some r =>
    rw [hr, Option.map_some] at hparse
    obtain ⟨reading, hreading, heq⟩ := Option.map_eq_some_iff.mp hparse
    obtain ⟨hppo2, hstatus⟩ := Prod.mk.inj heq
    simp only [ProcessedAs, diveo2ProcessRx, hdetailed, hreading]
    exact ⟨hppo2, rfl, by
      rw [← diveo2ParseErrorCode_ok (integerOf_errField hr), ← hstatus]; rfl⟩

/-- A message does to the cell what it says. -/
theorem diveo2ProcessRx_processed (now : ℤ) (cell : DiveO2Cell) :
    ProcessedAs now cell (diveo2ProcessRx now cell)
      (measurementOf (diveo2Message cell.lastMessage)) := by
  have hshort : (diveo2Message cell.lastMessage).length ≤ diveo2RxBufferLen - 1 :=
    length_prepareMessageBuffer_le ..
  have htokens := messageTokens_of_short hshort
  cases htok : tokens blank (diveo2Message cell.lastMessage) with
  | nil =>
    simp [measurementOf, htok, ProcessedAs, diveo2ProcessRx, diveo2ParseDetailedResponse,
      diveo2ParseSimpleResponse, diveo2IsMeasurement, htokens]
  | cons cmdName fields =>
    cases hraw : diveo2HeaderIs cmdName rawSuffix with
    | true =>
      simp only [measurementOf, htok, hraw, if_true]
      exact diveo2ProcessRx_detailed (htokens.trans htok) hraw
    | false =>
      cases hoxy : diveo2HeaderIs cmdName oxySuffix with
      | true =>
        simp only [measurementOf, htok, hraw, hoxy, if_true, Bool.false_eq_true, if_false]
        exact diveo2ProcessRx_simple (htokens.trans htok) hraw hoxy
      | false =>
        simp [measurementOf, htok, ProcessedAs, diveo2ProcessRx, diveo2ParseDetailedResponse,
          diveo2ParseSimpleResponse, diveo2IsMeasurement, htokens, hraw, hoxy]

/-- The coefficient and the receiver's part are not touched. -/
theorem diveo2ProcessRx_kept (now : ℤ) (cell : DiveO2Cell) :
    (diveo2ProcessRx now cell).calCoeff = cell.calCoeff ∧
      (diveo2ProcessRx now cell).lastMessage = cell.lastMessage ∧
      (diveo2ProcessRx now cell).rxLine = cell.rxLine := by
  simp only [diveo2ProcessRx]
  split
  · exact ⟨rfl, rfl, rfl⟩
  · split
    · exact ⟨rfl, rfl, rfl⟩
    · split
      · exact ⟨rfl, rfl, rfl⟩
      · exact ⟨rfl, rfl, rfl⟩

/-! ## The mailbox -/

/-- A line as the interrupt gathers it. -/
structure Gathered (line : Text) : Prop where
  short : line.length ≤ diveo2RxBufferLen - 1
  lineEnd : ∀ c ∈ line, isLineEnd c = false

/-- The mailbox holds the line that was delivered last, over what was there before. -/
structure Mailbox (s : DiveO2System) : Prop where
  rxLine : Gathered s.cell.rxLine
  delivered : Gathered s.delivered
  held : ∃ rest, s.cell.lastMessage = s.delivered ++ 0 :: rest

theorem gathered_nil : Gathered [] := ⟨Nat.zero_le _, by simp⟩

theorem Mailbox.congr {s t : DiveO2System} (h : Mailbox s) (hline : t.cell.rxLine = s.cell.rxLine)
    (hdelivered : t.delivered = s.delivered) (hheld : t.cell.lastMessage = s.cell.lastMessage) :
    Mailbox t :=
  ⟨hline ▸ h.rxLine, hdelivered ▸ h.delivered, by rw [hdelivered, hheld]; exact h.held⟩

theorem Mailbox.drop {s : DiveO2System} (h : Mailbox s) {cell : DiveO2Cell}
    (hline : cell.rxLine = []) (hheld : cell.lastMessage = s.cell.lastMessage) :
    Mailbox { s with cell := cell } :=
  ⟨by rw [hline]; exact gathered_nil, h.delivered, by rw [hheld]; exact h.held⟩

theorem Mailbox.feed {s : DiveO2System} (h : Mailbox s) (byte : UInt8) : Mailbox (s.feed byte) := by
  cases hend : isLineEnd byte with
  | true =>
    by_cases hempty : s.cell.rxLine = []
    · simpa [DiveO2System.feed, diveo2FeedByte, hend, hempty] using h
    · simp only [DiveO2System.feed, diveo2FeedByte, hend, if_true, if_neg hempty]
      rw [if_pos ⟨trivial, hempty⟩]
      refine ⟨gathered_nil, h.rxLine, ?_⟩
      exact ⟨_, by simp only [overlay, List.take_zero, List.nil_append, List.append_assoc,
        List.singleton_append]; rfl⟩
  | false =>
    simp only [DiveO2System.feed, diveo2FeedByte, hend, Bool.false_eq_true, if_false, false_and]
    split
    · rename_i hshort
      refine ⟨⟨?_, ?_⟩, h.delivered, h.held⟩
      · rw [List.length_append, List.length_singleton]
        exact hshort
      · intro c hc
        rcases List.mem_append.mp hc with hc | hc
        · exact h.rxLine.lineEnd c hc
        · rw [List.mem_singleton.mp hc, hend]
    · exact h.drop rfl rfl

theorem Mailbox.feedAll {s : DiveO2System} (h : Mailbox s) (bytes : List UInt8) :
    Mailbox (bytes.foldl DiveO2System.feed s) := by
  induction bytes generalizing s with
  | nil => exact h
  | cons byte bytes ih => exact ih (h.feed byte)

/-- What a line says once its first NULs are gone has no NUL in it, and there is something. -/
structure Intact (line : Text) : Prop where
  ne_nil : lineText line ≠ []
  nul : 0 ∉ lineText line

/-- An intact line is parsed as it was received. -/
theorem Mailbox.message_eq {s : DiveO2System} (h : Mailbox s) (hi : Intact s.delivered) :
    diveo2Message s.cell.lastMessage = lineText s.delivered := by
  obtain ⟨rest, hheld⟩ := h.held
  have hsplit := List.takeWhile_append_dropWhile (p := (· == 0)) (l := s.delivered)
  have hlen := congrArg List.length hsplit
  rw [List.length_append] at hlen
  have hshort := h.delivered.short
  have hpos : 0 < diveo2RxBufferLen := by decide
  have hplain : PlainLine (lineText s.delivered) :=
    ⟨hi.ne_nil, hi.nul, fun c hc =>
      h.delivered.lineEnd c ((List.dropWhile_suffix _).subset hc)⟩
  rw [diveo2Message, hheld]
  conv => lhs; rw [← hsplit, List.append_assoc]
  refine prepareMessageBuffer_line rfl (fun c hc => ?_) hplain (Or.inl rfl) ?_ ?_
  · exact Or.inl (by simpa using List.mem_takeWhile_imp hc)
  · omega
  · omega

end DiveCANHead.Cells
