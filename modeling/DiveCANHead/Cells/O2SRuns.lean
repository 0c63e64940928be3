import DiveCANHead.Cells.O2S
import DiveCANHead.Lib.Runs

/-!
# What an O2S cell publishes was just received

The buffer outlives its cycle and takes any chunk, so a cycle without a reply, a line cut short and
the rest of a longer line are all parsed like a whole line. Where every reading that is accepted
stands, with its line end, at the start of a line of a chunk kept in this cycle, what is published
comes from a whole line received since the receiver was enabled.
-/

namespace DiveCANHead.Cells

open DiveCANHead.Lib DiveCANHead.Calibration

/-! ## Lines -/

/-- The reading of a line: a command, a colon, and nothing but a finite decimal number. -/
def numericLine (line : Text) : Option ℚ :=
  if line.take 3 = getOxyResponse ++ [strtofSep] ∨ line.take 3 = getOxyCommand ++ [strtofSep] then
    decimalOf (line.drop 3)
  else none

/-- Whether a line may start after these bytes. -/
def atLineStart (before : List UInt8) : Bool :=
  match before.getLast? with
  | some c => c == 0 || isLineEnd c
  | none => true

/-- A line among the bytes received, from its start to its line end. -/
structure CompleteLine (received : List UInt8) (line : Text) : Prop where
  stands : ∃ before stop after,
    received = before ++ (line ++ stop :: after) ∧ isLineEnd stop = true ∧
      atLineStart before = true

/-- NULs and the newline that are skipped. -/
def isLead (c : UInt8) : Bool := c == 0 || c == lf

/-- What a line is made of. -/
def isPlain (c : UInt8) : Bool := c != 0 && !isLineEnd c

/-- The first line of a chunk, where it starts and ends in it. -/
def KeptChunk.line (k : KeptChunk) : Option Text :=
  let body := k.chunk.dropWhile isLead
  let line := body.takeWhile isPlain
  if (body.drop line.length).head?.any isLineEnd ∧
      atLineStart (k.before ++ k.chunk.takeWhile isLead) then some line
  else none

/-! ## What is promised -/

/-- What is asked of a step: a reading published as good is that of a whole line received since the
receiver was enabled. -/
def ReadingFresh (s : O2SSystem) (e : O2SEvent) (t : O2SSystem) : Prop :=
  ∀ ts, e = .publish ts → t.channel.status = .ok →
    ∃ line q coeff, CompleteLine s.received line ∧ numericLine line = some q ∧
      CellType.o2s.Valid coeff ∧ t.channel.precisionPpo2 = .finite (q * coeff)

/-- The conditions on a step: a reading that is accepted is the first line of a chunk kept in this
cycle, and a finite decimal number; and no reload succeeds while a malformed reading is being
broadcast. -/
def O2SEvent.Clean (s : O2SSystem) : O2SEvent → Prop
  | .process _ => (o2sParseResponse (o2sMessage s.cell.lastMessage)).isSome →
      ((s.kept.bind KeptChunk.line).bind numericLine).isSome
  | .calDone stored => (o2sLoadCal stored).status = .ok →
      match s.thread with
      | .broadcasting accepted _ => accepted = true
      | _ => True
  | _ => True

instance O2SEvent.decidableClean (s : O2SSystem) : ∀ e : O2SEvent, Decidable (e.Clean s)
  | .process _ => inferInstanceAs (Decidable (_ → _))
  | .calDone stored => by
    unfold O2SEvent.Clean
    cases s.thread <;> infer_instance
  | .rxRdy _ | .rxDisabled | .otherUart | .stopRx | .enableRx | .timeout | .checkAge _
  | .checkSupply _ | .convert | .publish _ => isTrue trivial

/-! ## Numeric lines -/

theorem numericLine_split {line : Text} {q : ℚ} (h : numericLine line = some q) :
    ∃ cmdName value, (cmdName = getOxyResponse ∨ cmdName = getOxyCommand) ∧
      line = cmdName ++ strtofSep :: value ∧ decimalOf value = some q := by
  obtain ⟨hcmd, hvalue⟩ := Option.ite_none_right_eq_some.mp h
  have hline := (List.take_append_drop 3 line).symm
  rcases hcmd with hcmd | hcmd
  · exact ⟨_, _, .inl rfl, by rw [hcmd, List.append_assoc] at hline; exact hline, hvalue⟩
  · exact ⟨_, _, .inr rfl, by rw [hcmd, List.append_assoc] at hline; exact hline, hvalue⟩

/-- A numeric line is accepted with its number. -/
theorem o2sParseResponse_numericLine {line : Text} {q : ℚ} (h : numericLine line = some q)
    (hshort : line.length ≤ o2sRxBufferLen - 1) : o2sParseResponse line = some (.finite q) := by
  obtain ⟨cmdName, value, hcmd, rfl, hvalue⟩ := numericLine_split h
  obtain ⟨hne, hchars, hread⟩ := decimalOf_eq_some hvalue
  have hsep : strtofSep ∉ value := fun hmem => absurd (hchars _ hmem) (by decide)
  have htokens : tokens strtofSep (cmdName ++ strtofSep :: value) = [cmdName, value] := by
    rcases hcmd with rfl | rfl
    · exact tokens_pair (by decide) hsep (by decide) hne
    · exact tokens_pair (by decide) hsep (by decide) hne
  simp [o2sParseResponse, o2sValueToken, List.take_of_length_le hshort, htokens, hcmd, wholeNumber,
    hread, Ne.symm hne]

/-! ## Kept chunks -/

theorem KeptChunk.line_split {k : KeptChunk} {line : Text} (h : k.line = some line) :
    ∃ lead stop rest, k.chunk = lead ++ (line ++ stop :: rest) ∧ isLineEnd stop = true ∧
      (∀ c ∈ lead, c = 0 ∨ c = lf) ∧ atLineStart (k.before ++ lead) = true ∧
      0 ∉ line ∧ ∀ c ∈ line, isLineEnd c = false := by
  simp only [KeptChunk.line] at h
  obtain ⟨⟨hstop, hstart⟩, hline⟩ := Option.ite_none_right_eq_some.mp h
  have hline := Option.some.inj hline
  rw [hline] at hstop
  have hplain : ∀ c ∈ line, isPlain c = true := fun c hc => by
    rw [← hline] at hc
    exact List.mem_takeWhile_imp hc
  obtain ⟨stop, hhead, hend⟩ := (Option.any_eq_true _ _).mp hstop
  obtain ⟨rest, hrest⟩ : ∃ rest, (k.chunk.dropWhile isLead).drop line.length = stop :: rest := by
    cases hd : (k.chunk.dropWhile isLead).drop line.length with
    | nil => rw [hd] at hhead; exact absurd hhead (by simp)
    | cons c rest =>
      rw [hd] at hhead
      exact ⟨rest, by rw [Option.some.inj hhead]⟩
  have hbody : k.chunk.dropWhile isLead = line ++ stop :: rest := by
    have htake : (k.chunk.dropWhile isLead).take line.length = line := by
      rw [← hline]
      exact (List.prefix_iff_eq_take.mp (List.takeWhile_prefix _)).symm
    rw [← hrest]
    conv => lhs; rw [← List.take_append_drop line.length (k.chunk.dropWhile isLead), htake]
  refine ⟨k.chunk.takeWhile isLead, stop, rest, ?_, hend, fun c hc => ?_, hstart, ?_, ?_⟩
  · rw [← hbody, List.takeWhile_append_dropWhile]
  · simpa [isLead] using List.mem_takeWhile_imp hc
  · exact fun hz => absurd (hplain 0 hz) (by decide)
  · intro c hc
    have := hplain c hc
    simp only [isPlain, Bool.and_eq_true, Bool.not_eq_true'] at this
    exact this.2

/-! ## The invariant -/

/-- The reading in the cell is that of a whole line of this cycle. -/
def Fresh (s : O2SSystem) : Prop :=
  ∃ line q, CompleteLine s.received line ∧ numericLine line = some q ∧
    s.cell.cellSample = .finite q

/-- The stage of a broadcast, and whether it is one of an accepted reading. -/
def O2SThread.broadcast? : O2SThread → Option (Bool × BroadcastStage Number)
  | .broadcasting accepted stage => some (accepted, stage)
  | _ => none

/-- What every step keeps. -/
structure O2SInv (s : O2SSystem) : Prop where
  coeff : CellType.o2s.Valid s.cell.calCoeff
  held : ∀ k, s.kept = some k → k.chunk.length < o2sRxBufferLen ∧
    (∃ rest, s.cell.lastMessage = k.chunk ++ 0 :: rest) ∧
    ∃ later, s.received = k.before ++ k.chunk ++ later
  fresh : ∀ stage, s.thread.broadcast? = some (true, stage) → Fresh s
  failed : ∀ stage, s.thread.broadcast? = some (false, stage) → s.cell.status ≠ .ok
  converted : ∀ accepted now vbus p,
    s.thread.broadcast? = some (accepted, .converted now vbus p) →
    ∃ coeff, CellType.o2s.Valid coeff ∧ p = s.cell.cellSample.scale coeff

theorem CompleteLine.append {received line : List UInt8} (h : CompleteLine received line)
    (later : List UInt8) : CompleteLine (received ++ later) line := by
  obtain ⟨before, stop, after, rfl, hstop, hstart⟩ := h.stands
  exact ⟨before, stop, after ++ later, by simp, hstop, hstart⟩

theorem o2sLoadCal_valid (stored : Option ℚ) : CellType.o2s.Valid (o2sLoadCal stored).calCoeff := by
  have hdefault : CellType.o2s.Valid o2sCalDefault := by
    simp only [CellType.Valid, CellType.calLower, CellType.calUpper, o2sCalDefault]
    norm_num
  cases stored with
  | none => exact hdefault
  | some coeff =>
    simp only [o2sLoadCal, digitalLoadCal]
    split
    · rename_i hin
      exact ⟨hin.1.le, hin.2.le⟩
    · exact hdefault

section Steps

variable {s : O2SSystem}

/-- What is parsed is the first line of the chunk that was kept. -/
theorem O2SInv.message_eq (hi : O2SInv s) {k : KeptChunk} {line : Text} {q : ℚ}
    (hk : s.kept = some k) (hline : k.line = some line) (hq : numericLine line = some q) :
    o2sMessage s.cell.lastMessage = line ∧ line.length ≤ o2sRxBufferLen - 1 ∧
      CompleteLine s.received line := by
  obtain ⟨hshort, ⟨rest, hheld⟩, later, hreceived⟩ := hi.held k hk
  obtain ⟨lead, stop, tail, hchunk, hstop, hlead, hstart, hnul, hends⟩ := k.line_split hline
  have hne : line ≠ [] := by
    obtain ⟨cmdName, value, hcmd, rfl, -⟩ := numericLine_split hq
    simp
  have hlen := congrArg List.length hchunk
  simp only [List.length_append, List.length_cons] at hlen
  simp only [o2sRxBufferLen] at hshort ⊢
  refine ⟨?_, by omega, ⟨k.before ++ lead, stop, tail ++ later, ?_, hstop, hstart⟩⟩
  · rw [o2sMessage, hheld, hchunk, List.append_assoc, List.append_assoc, List.cons_append]
    exact prepareMessageBuffer_line rfl hlead ⟨hne, hnul, hends⟩ (Or.inr hstop)
      (by simp only [o2sRxBufferLen]; omega) (by simp only [o2sRxBufferLen]; omega)
  · rw [hreceived, hchunk]
    simp

theorem O2SInv.capture (hi : O2SInv s) (chunk : List UInt8) : O2SInv (s.capture chunk) := by
  have hcell : (o2sCaptureRx chunk s.cell).calCoeff = s.cell.calCoeff ∧
      (o2sCaptureRx chunk s.cell).status = s.cell.status ∧
      (o2sCaptureRx chunk s.cell).cellSample = s.cell.cellSample := by
    simp only [o2sCaptureRx]
    split
    · exact ⟨rfl, rfl, rfl⟩
    · exact ⟨rfl, rfl, rfl⟩
  obtain ⟨hcoeff, hstatus, hsample⟩ := hcell
  refine ⟨hcoeff ▸ hi.coeff, fun k hk => ?_, fun stage hstage => ?_, fun stage hstage => ?_, ?_⟩
  · simp only [O2SSystem.capture] at hk ⊢
    by_cases hshort : chunk.length < o2sRxBufferLen
    · rw [if_pos hshort] at hk
      rw [← Option.some.inj hk]
      refine ⟨hshort, ⟨s.cell.lastMessage.drop (chunk ++ [0]).length, ?_⟩, [], by simp⟩
      simp [o2sCaptureRx, hshort, overlay]
    · rw [if_neg hshort] at hk
      obtain ⟨hlen, hheld, later, hreceived⟩ := hi.held k hk
      refine ⟨hlen, by simpa [o2sCaptureRx, hshort] using hheld, later ++ chunk, ?_⟩
      rw [hreceived, List.append_assoc]
  · obtain ⟨line, q, hline, hq, hs⟩ := hi.fresh stage hstage
    exact ⟨line, q, hline.append chunk, hq, hsample.trans hs⟩
  · exact fun hok => hi.failed stage hstage (hstatus.symm.trans hok)
  · simp only [O2SSystem.capture, hsample]
    exact hi.converted

/-- A step of the thread that neither parses nor converts. -/
theorem O2SInv.moved {t : O2SSystem} (hi : O2SInv s) (hcoeff : t.cell.calCoeff = s.cell.calCoeff)
    (hheld : t.cell.lastMessage = s.cell.lastMessage)
    (hreceived : t.received = s.received) (hkept : t.kept = s.kept)
    (hthread : t.thread.broadcast? = none) : O2SInv t where
  coeff := hcoeff ▸ hi.coeff
  held := by rw [hkept, hheld, hreceived]; exact hi.held
  fresh stage h := by simp [hthread] at h
  failed stage h := by simp [hthread] at h
  converted accepted now vbus p h := by simp [hthread] at h

/-- A check of a broadcast: it may take a good status back. -/
theorem O2SInv.checked {accepted : Bool} {stage stage' : BroadcastStage Number}
    {status : CellStatus} (hi : O2SInv s) (hthread : s.thread = .broadcasting accepted stage)
    (hstatus : status = .ok → s.cell.status = .ok)
    (hconverted : ∀ now vbus p, stage' = .converted now vbus p →
      ∃ coeff, CellType.o2s.Valid coeff ∧ p = s.cell.cellSample.scale coeff) :
    O2SInv { s with
      cell := { s.cell with status := status }
      thread := .broadcasting accepted stage' } where
  coeff := hi.coeff
  held := hi.held
  fresh stage₁ h := by
    obtain ⟨rfl, -⟩ := Prod.mk.inj (Option.some.inj h)
    exact hi.fresh stage (by rw [hthread]; rfl)
  failed stage₁ h hok := by
    obtain ⟨rfl, -⟩ := Prod.mk.inj (Option.some.inj h)
    exact hi.failed stage (by rw [hthread]; rfl) (hstatus hok)
  converted accepted₁ now vbus p h := hconverted now vbus p (Prod.mk.inj (Option.some.inj h)).2

theorem o2sInv_process {now : ℤ} (hi : O2SInv s) (hc : (O2SEvent.process now).Clean s) :
    O2SInv (s.processRx now) := by
  simp only [O2SSystem.processRx]
  cases hparse : o2sParseResponse (o2sMessage s.cell.lastMessage) with
  | none =>
    simp only
    split
    · refine ⟨hi.coeff, hi.held, fun stage h => ?_, fun stage _ => by simp, ?_⟩
      · simp [O2SThread.broadcast?] at h
      · intro accepted now' vbus p h
        simp [O2SThread.broadcast?] at h
    · exact hi.moved rfl rfl rfl rfl rfl
  | some ppo2 =>
    obtain ⟨q, hq⟩ := Option.isSome_iff_exists.mp (hc (by rw [hparse]; rfl))
    obtain ⟨line, hline, hq⟩ := Option.bind_eq_some_iff.mp hq
    obtain ⟨k, hk, hline⟩ := Option.bind_eq_some_iff.mp hline
    obtain ⟨hmessage, hshort, hcomplete⟩ := hi.message_eq hk hline hq
    have hppo2 : ppo2 = .finite q := by
      rw [hmessage, o2sParseResponse_numericLine hq hshort] at hparse
      exact (Option.some.inj hparse).symm
    refine ⟨hi.coeff, hi.held, fun stage h => ⟨line, q, hcomplete, hq, hppo2⟩,
      fun stage h => ?_, ?_⟩
    · simp [O2SThread.broadcast?] at h
    · intro accepted now' vbus p h
      simp [O2SThread.broadcast?] at h

theorem o2sInv_calDone {stored : Option ℚ} (hi : O2SInv s)
    (hc : (O2SEvent.calDone stored).Clean s) :
    O2SInv { s with cell := o2sReload stored s.cell } where
  coeff := o2sLoadCal_valid stored
  held := hi.held
  fresh := hi.fresh
  failed stage h hok := by
    have haccepted := hc hok
    cases hthread : s.thread with
    | broadcasting accepted stage' =>
      rw [hthread] at haccepted h
      obtain ⟨rfl, -⟩ := Prod.mk.inj (Option.some.inj h)
      exact absurd haccepted (by simp)
    | resting | stopped | listening =>
      rw [hthread] at h
      exact absurd h (by simp [O2SThread.broadcast?])
  converted := hi.converted

end Steps

/-- Every step keeps the invariant where its condition holds. -/
theorem O2SInv.step {rate : ℕ} {s t : O2SSystem} {e : O2SEvent} (hi : O2SInv s) (hc : e.Clean s)
    (hstep : o2sStep rate s e = some t) : O2SInv t := by
  cases e with
  | rxRdy chunk => exact Option.some.inj hstep ▸ hi.capture chunk
  | rxDisabled =>
    exact Option.some.inj hstep ▸ ⟨hi.coeff, hi.held, hi.fresh, hi.failed, hi.converted⟩
  | otherUart => exact Option.some.inj hstep ▸ hi
  | stopRx | timeout =>
    obtain ⟨-, ht⟩ := Option.ite_none_right_eq_some.mp hstep
    exact Option.some.inj ht ▸ hi.moved rfl rfl rfl rfl rfl
  | enableRx =>
    obtain ⟨-, ht⟩ := Option.ite_none_right_eq_some.mp hstep
    rw [← Option.some.inj ht]
    refine ⟨hi.coeff, fun k hk => by simp at hk, fun stage h => ?_, fun stage h => ?_, ?_⟩
    · simp [O2SThread.broadcast?] at h
    · simp [O2SThread.broadcast?] at h
    · intro accepted now vbus p h
      simp [O2SThread.broadcast?] at h
  | process now =>
    obtain ⟨-, ht⟩ := Option.ite_none_right_eq_some.mp hstep
    exact Option.some.inj ht ▸ o2sInv_process hi hc
  | checkAge now =>
    simp only [o2sStep] at hstep
    split at hstep
    · rename_i hthread
      exact Option.some.inj hstep ▸ hi.checked hthread (fun h => (ageChecked_ok h).1)
        fun _ _ _ h => by simp at h
    · exact absurd hstep (by simp)
  | checkSupply vbus =>
    simp only [o2sStep] at hstep
    split at hstep
    · rename_i hthread
      exact Option.some.inj hstep ▸ hi.checked hthread (fun h => (supplyChecked_ok h).1)
        fun _ _ _ h => by simp at h
    · exact absurd hstep (by simp)
  | convert =>
    simp only [o2sStep] at hstep
    split at hstep
    · rename_i hthread
      refine Option.some.inj hstep ▸ hi.checked hthread (fun h => ?_) fun _ _ p h => ?_
      · simp only [o2sOverrangeChecked] at h
        split at h
        · exact absurd h (by simp)
        · exact h
      · simp only [BroadcastStage.converted.injEq] at h
        exact ⟨s.cell.calCoeff, hi.coeff, h.2.2.symm⟩
    · exact absurd hstep (by simp)
  | publish now =>
    simp only [o2sStep] at hstep
    split at hstep
    · exact Option.some.inj hstep ▸ hi.moved rfl rfl rfl rfl rfl
    · exact absurd hstep (by simp)
  | calDone stored => exact Option.some.inj hstep ▸ o2sInv_calDone hi hc

/-- A good status is published for accepted readings only, and they are fresh. -/
theorem O2SInv.readingFresh {rate : ℕ} {s t : O2SSystem} {e : O2SEvent} (hi : O2SInv s)
    (hstep : o2sStep rate s e = some t) : ReadingFresh s e t := by
  rintro ts rfl hok
  simp only [o2sStep] at hstep
  split at hstep
  · rename_i accepted now vbus p hthread
    obtain rfl := Option.some.inj hstep
    have hstage : s.thread.broadcast? = some (accepted, .converted now vbus p) := by
      rw [hthread]; rfl
    cases accepted with
    | false => exact absurd hok (hi.failed _ hstage)
    | true =>
      obtain ⟨line, q, hline, hq, hsample⟩ := hi.fresh _ hstage
      obtain ⟨coeff, hcoeff, rfl⟩ := hi.converted _ _ _ _ hstage
      exact ⟨line, q, coeff, hline, hq, hcoeff, by rw [o2sMsg, hsample]; rfl⟩
  · exact absurd hstep (by simp)

theorem o2sInv_boot (stored : Option ℚ) (now : ℤ) : O2SInv (o2sBoot stored now) where
  coeff := o2sLoadCal_valid stored
  held k hk := by simp [o2sBoot] at hk
  fresh stage h := by simp [o2sBoot, O2SThread.broadcast?] at h
  failed stage h := by simp [o2sBoot, O2SThread.broadcast?] at h
  converted accepted now vbus p h := by simp [o2sBoot, O2SThread.broadcast?] at h

/-- One cycle, with what the receiver does in it. -/
def cycle (now : ℤ) (uart : List O2SEvent) : List O2SEvent :=
  .stopRx :: .enableRx :: (uart ++ [O2SEvent.process now, .checkAge now, .checkSupply 5, .convert])

/-- `Mn:0.5` and a newline. -/
def halfBar : List UInt8 := ascii ['M', 'n', ':', '0', '.', '5', '\n']

/-- A cycle with a reply, and one with a reply that is too long. -/
def answeredOnce : List O2SEvent :=
  cycle 10000 [.rxRdy halfBar, .rxDisabled] ++ O2SEvent.publish 10000 ::
    [O2SEvent.stopRx, .enableRx, .rxRdy (halfBar ++ halfBar), .timeout, .rxDisabled]

end DiveCANHead.Cells
