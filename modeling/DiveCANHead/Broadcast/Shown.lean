import DiveCANHead.Broadcast.Ppo2

/-!
# What the handset is shown

Every turn of the transmitter shows the last vote that was published: each slot is the failure or
what its cell was read as saying for that vote, the cells that are in are those the vote took, and
the consensus is their mean. A cell that has failed, or whose channel could not be read, is never
shown by a value.
-/

namespace DiveCANHead.Broadcast

open DiveCANHead.Lib DiveCANHead.IsoTp DiveCANHead.Cells

attribute [local instance] neZero_three

/-- The vote that is given these cells. -/
def Vote.result (b : TxBuild) (v : Vote) : ConsensusMsg :=
  consensusCalculate v.cells b.cellCount v.now b.staleness

/-- The cells a vote was given come from the channels: what is there of a cell is among what its
driver has published, or the failure. -/
structure Vote.From (b : TxBuild) (said : PerCell (List OxygenCellMsg)) (v : Vote) : Prop where
  fits : ∀ i, v.readOk i = true → (i : ℕ) < b.cellCount
  told : ∀ i, v.readOk i = true → v.cells i ∈ said i
  failed : ∀ i, v.readOk i = false → v.cells i = failedCell

/-- The slot of a cell, and not the copy of the consensus. -/
def TxBuild.Real (b : TxBuild) (i : Fin 3) : Prop := ¬(b.slot3Consensus = true ∧ i = 2)
  deriving Decidable

/-- The mask of a head that needs a calibration and is not in one. -/
def Vote.Masked (v : Vote) (isCalibrating : Bool) : Prop :=
  isCalibrating = false ∧ ∃ i, (v.cells i).status = .needCal

/-- The frames show a vote. -/
structure Shows (b : TxBuild) (v : Vote) (isCalibrating : Bool) (ppo2 millivolts state :
    DiveCANMessage) : Prop where
  masked : v.Masked isCalibrating → ∀ i, slot ppo2 i = ppo2Fail
  /-- A value in a slot is the cell's own, of a channel that was read. -/
  value : ∀ i, b.Real i → slot ppo2 i = ppo2Fail ∨
    v.readOk i = true ∧ (v.cells i).status ≠ .fail ∧ slot ppo2 i = (v.cells i).ppo2
  /-- A cell that is in is fresh and well, and its value is shown unless all are masked. -/
  inside : ∀ i, b.Real i → hasCell state i = true →
    v.readOk i = true ∧ (v.cells i).status = .ok ∧ (v.cells i).ppo2 ≠ 0 ∧
      (v.cells i).ppo2 ≠ ppo2Fail ∧ v.now - (v.cells i).timestampTicks ≤ b.staleness ∧
      (slot ppo2 i = (v.cells i).ppo2 ∨ v.Masked isCalibrating)
  /-- The consensus is the rounded mean of the cells that are in. -/
  mean : ∀ ins : Finset (Fin 3), (∀ i, i ∈ ins ↔ b.Real i ∧ hasCell state i = true) →
    ins.Nonempty → consensusByte state =
      saturate (mean (fun i => (v.cells i).precisionPpo2) ins * centibarPerBar)
  /-- With no cell in, it is the failure, or the value of the only good cell. -/
  alone : (∀ i, b.Real i → hasCell state i = false) → consensusByte state = ppo2Fail ∨
    ∃ i, goodCells v.cells b.cellCount v.now b.staleness = {i} ∧
      consensusByte state = (v.cells i).ppo2
  /-- The copy is in only together with a cell. -/
  copy : b.slot3Consensus = true → (v.Masked isCalibrating ∨ slot ppo2 2 = consensusByte state) ∧
    (hasCell state 2 = true → ∃ i, b.Real i ∧ hasCell state i = true)
  millis : ∀ i, millis millivolts i = (v.cells i).millivolts.toNat

/-- The frames show nothing: no cell is in, and the consensus is the failure. -/
structure ShowsNone (value : UInt8) (b : TxBuild) (ppo2 state : DiveCANMessage) : Prop where
  value : ∀ i, b.Real i → slot ppo2 i = value
  outside : ∀ i, hasCell state i = false
  failure : consensusByte state = ppo2Fail

/-- The transmitter sends three frames, that show the last vote published; where the channel could
not be read, failures; and before the first vote, zeros. The others send nothing. -/
def HonestTurn (b : TxBuild) (s : TxState) (e : TxEvent) (t : TxState) : Prop :=
  match e with
  | .transmit ok isCalibrating => ∃ ppo2 millivolts state,
      t.bus = s.bus ++ [ppo2, millivolts, state] ∧
      match ok, s.lastVote with
      | false, _ => ShowsNone ppo2Fail b ppo2 state
      | true, none => ShowsNone 0 b ppo2 state
      | true, some v => v.From b s.said ∧ Shows b v isCalibrating ppo2 millivolts state
  | _ => t.bus = s.bus

/-! ## The arrays of a vote -/

theorem voteByCount_millis (c : ConsensusMsg) : (voteByCount c).milliArray = c.milliArray := by
  have huse : ∀ (l : List (Fin 3)) (c : ConsensusMsg),
      (l.foldl useCell c).milliArray = c.milliArray := by
    intro l
    induction l with
    | nil => exact fun _ => rfl
    | cons i l ih =>
      intro c
      rw [List.foldl_cons, ih]
      unfold useCell
      split <;> rfl
  unfold voteByCount
  simp only
  split_ifs
  · rfl
  · exact huse _ c
  · unfold twoCellConsensus
    simp only
    split_ifs <;> rfl
  · unfold threeCellConsensus
    simp only
    split_ifs <;> rfl

/-- No vote touches the arrays it was loaded with. -/
theorem Vote.result_loaded (b : TxBuild) (v : Vote) :
    (v.result b).ppo2Array = (loadCells v.cells b.cellCount).ppo2Array ∧
      (v.result b).statusArray = (loadCells v.cells b.cellCount).statusArray ∧
      (v.result b).milliArray = (loadCells v.cells b.cellCount).milliArray := by
  obtain ⟨hppo2, hstatus⟩ :=
    voteByCount_arrays (filterCells v.cells b.cellCount v.now b.staleness)
  exact ⟨hppo2, hstatus, voteByCount_millis _⟩

section Vote

variable {b : TxBuild} {said : PerCell (List OxygenCellMsg)} {v : Vote} {i : Fin 3}

theorem Vote.From.mono {said' : PerCell (List OxygenCellMsg)} (h : v.From b said)
    (hsub : ∀ i, said i ⊆ said' i) : v.From b said' :=
  ⟨h.fits, fun i hi => hsub i (h.told i hi), h.failed⟩

/-- A cell that has not failed was read. -/
theorem Vote.From.read (h : v.From b said) (hi : (v.cells i).status ≠ .fail) :
    v.readOk i = true := by
  by_contra hread
  apply hi
  rw [h.failed i (Bool.eq_false_iff.mpr hread)]
  rfl

theorem Vote.From.status (h : v.From b said) (i : Fin 3) :
    (v.result b).statusArray i = (v.cells i).status := by
  rw [(v.result_loaded b).2.1]
  show (if (i : ℕ) < b.cellCount then (v.cells i).status else .fail) = _
  split_ifs with hi
  · rfl
  · rw [h.failed i (Bool.eq_false_iff.mpr fun hread => hi (h.fits i hread))]
    rfl

theorem Vote.From.ppo2 (h : v.From b said) (hi : (v.cells i).status ≠ .fail) :
    (v.result b).ppo2Array i = (v.cells i).ppo2 := by
  rw [(v.result_loaded b).1]
  exact if_pos (h.fits i (h.read hi))

theorem Vote.From.millis (h : v.From b said) (i : Fin 3) :
    (v.result b).milliArray i = (v.cells i).millivolts := by
  rw [(v.result_loaded b).2.2]
  show (if (i : ℕ) < b.cellCount then (v.cells i).millivolts else 0) = _
  split_ifs with hi
  · rfl
  · rw [h.failed i (Bool.eq_false_iff.mpr fun hread => hi (h.fits i hread))]
    rfl

/-- A cell that the vote has in is a good one. -/
theorem Vote.good_of_inside (h : (v.result b).includeArray i = true) :
    i ∈ goodCells v.cells b.cellCount v.now b.staleness :=
  (consensusCalculate_decides ..).vote.subset (mem_included.mpr h)

/-- The slot of the copy has no cell of its own. -/
theorem Vote.outside_copy (hcopy : b.slot3Consensus = true) :
    (v.result b).includeArray 2 = false := by
  apply Bool.eq_false_iff.mpr
  intro hin
  have hlt := (mem_goodCells.mp (Vote.good_of_inside hin)).1
  rw [b.two_cells hcopy] at hlt
  exact absurd hlt (by decide)

end Vote

/-! ## The frames of a consensus -/

section Frames

variable {b : TxBuild} {c : ConsensusMsg} {isCalibrating : Bool} {i : Fin 3}

/-- The mask is over all three slots, and else each failed cell is marked alone. -/
theorem divecanSetFailedCells_three (p : PerCell UInt8) (status : PerCell CellStatus) :
    divecanSetFailedCells p status 3 isCalibrating =
      if isCalibrating = false ∧ ∃ i, status i = .needCal then (fun _ => ppo2Fail, true)
      else (fun i => if status i = .fail then ppo2Fail else p i, false) := by
  have hall : ∀ i : Fin 3, (i : ℕ) < 3 := fun i => i.isLt
  have hany : ((cellIndices.any fun i => decide (status i = .needCal)) && !isCalibrating) = true ↔
      isCalibrating = false ∧ ∃ i, status i = .needCal := by
    simp [cellIndices, and_comm]
  unfold divecanSetFailedCells
  simp only [hall, if_true, true_and, hany]

theorem calibrationMasked_iff : calibrationMasked c isCalibrating = true ↔
    isCalibrating = false ∧ ∃ i, c.statusArray i = .needCal := by
  rw [calibrationMasked, divecanSetFailedCells_three]
  split_ifs with h
  · exact iff_of_true rfl h
  · exact iff_of_false id h

theorem ppo2Slots_masked (h : calibrationMasked c isCalibrating = true) (i : Fin 3) :
    ppo2Slots b c isCalibrating i = ppo2Fail := by
  rw [ppo2Slots, h, Bool.not_true, Bool.and_false, if_neg Bool.false_ne_true,
    divecanSetFailedCells_three, if_pos (calibrationMasked_iff.mp h)]

/-- Without the mask, the slot of a cell is the failure where the cell has failed. -/
theorem ppo2Slots_real (h : calibrationMasked c isCalibrating = false) (hi : b.Real i) :
    ppo2Slots b c isCalibrating i =
      if c.statusArray i = .fail then ppo2Fail else c.ppo2Array i := by
  have hmask := fun hm => Bool.eq_false_iff.mp h (calibrationMasked_iff.mpr hm)
  rw [ppo2Slots, h, Bool.not_false, Bool.and_true, divecanSetFailedCells_three, if_neg hmask]
  by_cases hcopy : b.slot3Consensus = true
  · rw [if_pos hcopy]
    exact Function.update_of_ne (fun heq => hi ⟨hcopy, heq⟩) ..
  · rw [if_neg hcopy]

theorem ppo2Slots_copy (h : calibrationMasked c isCalibrating = false)
    (hcopy : b.slot3Consensus = true) : ppo2Slots b c isCalibrating 2 = c.consensusPpo2 := by
  unfold ppo2Slots
  rw [if_pos (by rw [hcopy, h]; rfl), Function.update_self]

/-- Which slots are in. -/
def insides (b : TxBuild) (c : ConsensusMsg) (isCalibrating : Bool) : PerCell Bool :=
  Function.update c.includeArray 2 (cell3Included b c isCalibrating)

theorem insides_real (hi : b.Real i) : insides b c isCalibrating i = c.includeArray i := by
  unfold insides
  by_cases h2 : i = 2
  · subst h2
    have hcopy : b.slot3Consensus = false :=
      Bool.eq_false_iff.mpr fun hcopy => hi ⟨hcopy, rfl⟩
    rw [Function.update_self, cell3Included, hcopy]
    rfl
  · exact Function.update_of_ne h2 ..

/-- The frames are three, and are read as what was put into them. -/
theorem ppo2Frames_read (b : TxBuild) (c : ConsensusMsg) (isCalibrating : Bool) :
    ∃ ppo2 millivolts state, ppo2Frames b c isCalibrating = [ppo2, millivolts, state] ∧
      (∀ i, slot ppo2 i = ppo2Slots b c isCalibrating i) ∧
      (∀ i, millis millivolts i = (c.milliArray i).toNat) ∧
      (∀ i, hasCell state i = insides b c isCalibrating i) ∧
      consensusByte state = c.consensusPpo2 := by
  refine ⟨_, _, _, rfl, slot_txPpo2 _ (ppo2Slots b c isCalibrating),
    millis_txMillivolts _ c.milliArray, fun i => ?_, rfl⟩
  exact hasCell_txCellState b.devType (insides b c isCalibrating) c.consensusPpo2 i

end Frames

/-! ## What the frames of a vote show -/

section Shown

variable {b : TxBuild} {said : PerCell (List OxygenCellMsg)} {v : Vote} {isCalibrating : Bool}
  {i : Fin 3} {ppo2 millivolts state : DiveCANMessage}

theorem Vote.From.masked_iff (h : v.From b said) :
    calibrationMasked (v.result b) isCalibrating = true ↔ v.Masked isCalibrating := by
  rw [calibrationMasked_iff, Vote.Masked]
  simp only [h.status]

theorem Vote.From.unmasked (h : v.From b said) (hm : ¬v.Masked isCalibrating) :
    calibrationMasked (v.result b) isCalibrating = false :=
  Bool.eq_false_iff.mpr fun hmask => hm (h.masked_iff.mp hmask)

/-- The slot of a cell shows what the cell said, or the failure. -/
theorem Vote.From.slot (h : v.From b said) (hm : ¬v.Masked isCalibrating) (hi : b.Real i) :
    ppo2Slots b (v.result b) isCalibrating i =
      if (v.cells i).status = .fail then ppo2Fail else (v.cells i).ppo2 := by
  rw [ppo2Slots_real (h.unmasked hm) hi, h.status]
  split_ifs with hfail
  · rfl
  · exact h.ppo2 hfail

/-- The cells in, as the frames show them, are those of the vote. -/
theorem insides_ins {ins : Finset (Fin 3)}
    (hins : ∀ i, i ∈ ins ↔ b.Real i ∧ insides b (v.result b) isCalibrating i = true) :
    ins = included (v.result b) := by
  ext i
  rw [hins, mem_included]
  constructor
  · rintro ⟨hi, hin⟩
    rwa [insides_real hi] at hin
  · intro hin
    have hi : b.Real i := by
      rintro ⟨hcopy, rfl⟩
      rw [Vote.outside_copy hcopy] at hin
      exact Bool.false_ne_true hin
    exact ⟨hi, (insides_real hi).trans hin⟩

theorem cell3Included_copy (hcopy : b.slot3Consensus = true)
    (hin : insides b (v.result b) isCalibrating 2 = true) :
    ∃ i, b.Real i ∧ insides b (v.result b) isCalibrating i = true := by
  rw [insides, Function.update_self, cell3Included] at hin
  split_ifs at hin with hcopied
  · rw [Bool.and_eq_true, decide_eq_true_eq, decide_eq_true_eq] at hin
    have hconfidence : (v.result b).confidence = (included (v.result b)).card :=
      consensusCalculate_confidence ..
    obtain ⟨i, hi⟩ := Finset.card_pos.mp (hconfidence ▸ hin.2)
    have hi := mem_included.mp hi
    have hreal : b.Real i := by
      rintro ⟨-, rfl⟩
      rw [Vote.outside_copy hcopy] at hi
      exact Bool.false_ne_true hi
    exact ⟨i, hreal, (insides_real hreal).trans hi⟩
  · rw [Vote.outside_copy hcopy] at hin
    exact absurd hin Bool.false_ne_true

theorem shows_vote (h : v.From b said)
    (hslot : ∀ i, slot ppo2 i = ppo2Slots b (v.result b) isCalibrating i)
    (hmillis : ∀ i, millis millivolts i = ((v.result b).milliArray i).toNat)
    (hin : ∀ i, hasCell state i = insides b (v.result b) isCalibrating i)
    (hconsensus : consensusByte state = (v.result b).consensusPpo2) :
    Shows b v isCalibrating ppo2 millivolts state := by
  have hdecides := consensusCalculate_decides v.cells b.cellCount v.now b.staleness
  refine ⟨fun hm i => ?_, fun i hi => ?_, fun i hi hcell => ?_, fun ins hins hne => ?_,
    fun hout => ?_, fun hcopy => ⟨?_, fun hcell => ?_⟩, fun i => ?_⟩
  · rw [hslot, ppo2Slots_masked (h.masked_iff.mpr hm)]
  · by_cases hm : v.Masked isCalibrating
    · exact .inl ((hslot i).trans (ppo2Slots_masked (h.masked_iff.mpr hm) i))
    · rw [hslot, h.slot hm hi]
      split_ifs with hfail
      · exact .inl rfl
      · exact .inr ⟨h.read hfail, hfail, rfl⟩
  · rw [hin, insides_real hi] at hcell
    obtain ⟨hzero, hvalue, hok, hage⟩ :=
      cellIsGood_iff.mp (mem_goodCells.mp (Vote.good_of_inside hcell)).2
    have hfail : (v.cells i).status ≠ .fail := by
      rw [hok]
      decide
    refine ⟨h.read hfail, hok, hzero, hvalue, hage, ?_⟩
    by_cases hm : v.Masked isCalibrating
    · exact .inr hm
    · exact .inl (by rw [hslot, h.slot hm hi, if_neg hfail])
  · simp only [hin] at hins
    obtain rfl := insides_ins hins
    obtain ⟨hmean, hread⟩ := hdecides.mean_of_nonempty hne
    rw [hconsensus, ← mean_congr fun i hi =>
      (loadCells_of_good (Vote.good_of_inside (mem_included.mp hi))).1]
    exact hread.trans (by rw [hmean]; rfl)
  · simp only [hin] at hout
    have hins : ∀ i, i ∈ (∅ : Finset (Fin 3)) ↔
        b.Real i ∧ insides b (v.result b) isCalibrating i = true := fun i =>
      iff_of_false (Finset.notMem_empty i) fun hi => Bool.eq_false_iff.mp (hout i hi.1) hi.2
    have hempty := (insides_ins hins).symm
    rw [hconsensus]
    by_cases hone : (goodCells v.cells b.cellCount v.now b.staleness).card = 1
    · obtain ⟨i, hi⟩ := Finset.card_eq_one.mp hone
      have hgood := loadCells_of_good (hi ▸ Finset.mem_singleton_self i)
      exact .inr ⟨i, hi, (hdecides.single i hi).2.trans hgood.2⟩
    · exact .inl (hdecides.failed hempty hone).2
  · by_cases hm : v.Masked isCalibrating
    · exact .inl hm
    · exact .inr ((hslot 2).trans ((ppo2Slots_copy (h.unmasked hm) hcopy).trans hconsensus.symm))
  · rw [hin] at hcell
    obtain ⟨i, hi, hcell⟩ := cell3Included_copy hcopy hcell
    exact ⟨i, hi, (hin i).trans hcell⟩
  · rw [hmillis, h.millis]

end Shown

/-! ## The runs -/

/-- What is between the channels and the history, from the boot on. -/
structure TxState.Kept (b : TxBuild) (s : TxState) : Prop where
  chan : ∀ i, s.cellChans i ∈ s.said i
  unread : ∀ i : Fin 3, s.next ≤ i → s.readOk i = false
  told : ∀ i, s.readOk i = true → s.snapshot i ∈ s.said i
  failed : ∀ i : Fin 3, (i : ℕ) < s.next → s.readOk i = false → s.snapshot i = failedCell
  unvoted : s.lastVote = none → s.consensusChan = initialConsensus
  voted : ∀ v, s.lastVote = some v → s.consensusChan = v.result b ∧ v.From b s.said

theorem TxState.kept_boot (b : TxBuild) : TxState.boot.Kept b where
  chan _ := List.mem_singleton_self _
  unread _ _ := rfl
  told _ h := absurd h Bool.false_ne_true
  failed i h := absurd h (Nat.not_lt_zero i)
  unvoted _ := rfl
  voted _ h := nomatch h

section Steps

variable {b : TxBuild} {s t : TxState}

theorem mem_update_said {said : PerCell (List OxygenCellMsg)} {cell : Fin 3} {msg : OxygenCellMsg}
    (i : Fin 3) : said i ⊆ Function.update said cell (msg :: said cell) i := by
  by_cases hi : i = cell
  · subst hi
    rw [Function.update_self]
    exact List.subset_cons_self ..
  · rw [Function.update_of_ne hi]
    exact List.Subset.refl _

theorem TxState.Kept.publish (h : s.Kept b) (cell : Fin 3) (msg : OxygenCellMsg) :
    TxState.Kept b { s with
      cellChans := Function.update s.cellChans cell msg
      said := Function.update s.said cell (msg :: s.said cell) } where
  chan i := by
    by_cases hi : i = cell
    · subst hi
      simp only [Function.update_self]
      exact List.mem_cons_self
    · simp only [Function.update_of_ne hi]
      exact h.chan i
  unread := h.unread
  told i hi := mem_update_said i (h.told i hi)
  failed := h.failed
  unvoted := h.unvoted
  voted v hv := ⟨(h.voted v hv).1, (h.voted v hv).2.mono mem_update_said⟩

theorem TxState.Kept.readCell (h : s.Kept b) {cell : Fin 3} (hcell : (cell : ℕ) = s.next)
    (ok : Bool) :
    TxState.Kept b { s with
      snapshot := Function.update s.snapshot cell (readCellOrFail (s.cellChans cell) ok)
      readOk := Function.update s.readOk cell ok
      next := s.next + 1 } where
  chan := h.chan
  unread i hi := by
    have hi : s.next + 1 ≤ i := hi
    have hne : i ≠ cell := by
      rintro rfl
      omega
    exact (Function.update_of_ne hne ..).trans (h.unread i (by omega))
  told i hi := by
    by_cases hne : i = cell
    · subst hne
      simp only [Function.update_self] at hi ⊢
      rw [readCellOrFail, if_pos hi]
      exact h.chan i
    · simp only [Function.update_of_ne hne] at hi ⊢
      exact h.told i hi
  failed i hlt hi := by
    have hlt : (i : ℕ) < s.next + 1 := hlt
    by_cases hne : i = cell
    · subst hne
      simp only [Function.update_self] at hi ⊢
      rw [readCellOrFail, hi, if_neg Bool.false_ne_true]
    · simp only [Function.update_of_ne hne] at hi ⊢
      have hlt : (i : ℕ) < s.next := by
        have hval : (i : ℕ) ≠ cell := fun heq => hne (Fin.ext heq)
        omega
      exact h.failed i hlt hi
  unvoted := h.unvoted
  voted := h.voted

/-- Once all the cells are read, what the vote is given comes from the channels. -/
theorem TxState.Kept.vote (h : s.Kept b) (hall : s.next = b.cellCount) (now : ℤ) :
    Vote.From b s.said ⟨cellsOf b s.snapshot, s.readOk, now⟩ := by
  have hlt : ∀ i, s.readOk i = true → (i : ℕ) < b.cellCount := by
    intro i hi
    by_contra hle
    rw [h.unread i (by omega)] at hi
    exact Bool.false_ne_true hi
  refine ⟨hlt, fun i hi => ?_, fun i hi => ?_⟩
  · show cellsOf b s.snapshot i ∈ s.said i
    rw [cellsOf, if_pos (hlt i hi)]
    exact h.told i hi
  · show cellsOf b s.snapshot i = failedCell
    unfold cellsOf
    split_ifs with hread
    · exact h.failed i (hall ▸ hread) hi
    · rfl

theorem TxState.Kept.reset (h : s.Kept b) : TxState.Kept b { s with
    snapshot := fun _ => zeroCell, readOk := fun _ => false, next := 0 } where
  chan := h.chan
  unread _ _ := rfl
  told _ hi := absurd hi Bool.false_ne_true
  failed i hi := absurd hi (Nat.not_lt_zero i)
  unvoted := h.unvoted
  voted := h.voted

/-- A turn of the transmitter shows what the channel holds. -/
theorem TxState.Kept.transmit (h : s.Kept b) (ok isCalibrating : Bool) :
    HonestTurn b s (.transmit ok isCalibrating) { s with
      bus := s.bus ++ ppo2Frames b (if ok = true then s.consensusChan else unreadConsensus)
        isCalibrating } := by
  generalize hc : (if ok = true then s.consensusChan else unreadConsensus) = c
  obtain ⟨ppo2, millivolts, state, hframes, hslot, hmillis, hin, hconsensus⟩ :=
    ppo2Frames_read b c isCalibrating
  refine ⟨ppo2, millivolts, state, by rw [hframes], ?_⟩
  have hnone : ∀ {value : UInt8}, (∀ i, c.includeArray i = false) → c.consensusPpo2 = ppo2Fail →
      (∀ i, c.statusArray i ≠ .needCal) →
      (∀ i, (if c.statusArray i = .fail then ppo2Fail else c.ppo2Array i) = value) →
      ShowsNone value b ppo2 state := by
    intro value hout hfail hcal hvalue
    have hmask : calibrationMasked c isCalibrating = false := Bool.eq_false_iff.mpr fun hm =>
      (calibrationMasked_iff.mp hm).2.elim hcal
    refine ⟨fun i hi => (hslot i).trans ((ppo2Slots_real hmask hi).trans (hvalue i)), fun i => ?_,
      hconsensus.trans hfail⟩
    rw [hin, insides]
    by_cases h2 : i = 2
    · subst h2
      rw [Function.update_self, cell3Included, hfail, hout]
      split_ifs <;> rfl
    · rw [Function.update_of_ne h2]
      exact hout i
  cases ok with
  | false =>
    subst hc
    exact hnone (fun _ => rfl) rfl (fun _ h => nomatch h) fun _ => rfl
  | true =>
    rw [if_pos rfl] at hc
    cases hv : s.lastVote with
    | none =>
      rw [h.unvoted hv] at hc
      subst hc
      exact hnone (fun _ => rfl) rfl (fun _ h => nomatch h) fun _ => rfl
    | some v =>
      obtain ⟨hchan, hfrom⟩ := h.voted v hv
      rw [hchan] at hc
      subst hc
      exact ⟨hfrom, shows_vote hfrom hslot hmillis hin hconsensus⟩

theorem TxState.Kept.step {e : TxEvent} (h : s.Kept b) (ht : txStep b s e = some t) :
    t.Kept b ∧ HonestTurn b s e t := by
  cases e with
  | publish cell msg =>
    obtain ⟨-, ht⟩ := Option.ite_none_right_eq_some.mp ht
    obtain rfl := Option.some.inj ht
    exact ⟨h.publish cell msg, rfl⟩
  | readCell cell ok =>
    obtain ⟨hcell, ht⟩ := Option.ite_none_right_eq_some.mp ht
    obtain rfl := Option.some.inj ht
    exact ⟨h.readCell hcell.1 ok, rfl⟩
  | vote now ok =>
    obtain ⟨hall, ht⟩ := Option.ite_none_right_eq_some.mp ht
    have hreset := h.reset
    cases ok with
    | false =>
      obtain rfl := Option.some.inj ht
      exact ⟨hreset, rfl⟩
    | true =>
      obtain rfl := Option.some.inj ht
      refine ⟨⟨h.chan, hreset.unread, hreset.told, hreset.failed, nofun, ?_⟩, rfl⟩
      intro v hv
      obtain rfl := Option.some.inj hv
      exact ⟨rfl, h.vote hall now⟩
  | transmit ok isCalibrating =>
    obtain rfl := Option.some.inj ht
    exact ⟨⟨h.chan, h.unread, h.told, h.failed, h.unvoted, h.voted⟩, h.transmit ok isCalibrating⟩

end Steps

/-- The event is not a publication of the cell's driver. -/
def TxEvent.LeavesAlone (i : Fin 3) : TxEvent → Prop
  | .publish cell _ => cell ≠ i
  | _ => True

instance (i : Fin 3) : ∀ e : TxEvent, Decidable (e.LeavesAlone i)
  | .publish cell _ => inferInstanceAs (Decidable (cell ≠ i))
  | .readCell .. | .vote .. | .transmit .. => inferInstanceAs (Decidable True)

/-- What a vote can be given of a cell whose channel holds a message. -/
def Holds (msg held : OxygenCellMsg) : Prop := held = msg ∨ held = failedCell

/-- The channel holds the message, and so does the array, if it was read in this round. -/
structure TxState.Silent (i : Fin 3) (msg : OxygenCellMsg) (s : TxState) : Prop where
  chan : s.cellChans i = msg
  read : (i : ℕ) < s.next → Holds msg (s.snapshot i)

/-- The last vote went on the message. -/
def TxState.VotedOn (i : Fin 3) (msg : OxygenCellMsg) (s : TxState) : Prop :=
  ∃ v, s.lastVote = some v ∧ Holds msg (v.cells i)

/-- Each turn shows of the cell the message or the failure, and has it in only if the message is
good, and was fresh at the vote. -/
def ShowsLast (b : TxBuild) (i : Fin 3) (msg : OxygenCellMsg) (s : TxState) (e : TxEvent)
    (t : TxState) : Prop :=
  match e with
  | .transmit .. => ∃ ppo2 millivolts state, t.bus = s.bus ++ [ppo2, millivolts, state] ∧
      (slot ppo2 i = ppo2Fail ∨ msg.status ≠ .fail ∧ slot ppo2 i = msg.ppo2) ∧
      (hasCell state i = true → msg.status = .ok ∧
        ∃ v, s.lastVote = some v ∧ v.now - msg.timestampTicks ≤ b.staleness)
  | _ => True

section Silent

variable {b : TxBuild} {s t : TxState} {i : Fin 3} {msg : OxygenCellMsg}

theorem holds_readCellOrFail (msg : OxygenCellMsg) (ok : Bool) :
    Holds msg (readCellOrFail msg ok) := by
  cases ok with
  | false => exact .inr rfl
  | true => exact .inl rfl

theorem TxState.Silent.step {e : TxEvent} (h : s.Silent i msg) (he : e.LeavesAlone i)
    (ht : txStep b s e = some t) : t.Silent i msg := by
  cases e with
  | publish cell msg' =>
    obtain ⟨-, ht⟩ := Option.ite_none_right_eq_some.mp ht
    obtain rfl := Option.some.inj ht
    exact ⟨(Function.update_of_ne (Ne.symm he) ..).trans h.chan, h.read⟩
  | readCell cell ok =>
    obtain ⟨⟨hcell, -⟩, ht⟩ := Option.ite_none_right_eq_some.mp ht
    obtain rfl := Option.some.inj ht
    refine ⟨h.chan, fun hlt => ?_⟩
    have hlt : (i : ℕ) < s.next + 1 := hlt
    by_cases hi : i = cell
    · subst hi
      simp only [Function.update_self]
      rw [h.chan]
      exact holds_readCellOrFail msg ok
    · simp only [Function.update_of_ne hi]
      have hval : (i : ℕ) ≠ cell := fun heq => hi (Fin.ext heq)
      exact h.read (by omega)
  | vote now ok =>
    obtain ⟨-, ht⟩ := Option.ite_none_right_eq_some.mp ht
    have hreset : ∀ {n : ℕ}, n < 0 → Holds msg zeroCell := fun hn => absurd hn (Nat.not_lt_zero _)
    cases ok with
    | false | true =>
      obtain rfl := Option.some.inj ht
      exact ⟨h.chan, hreset⟩
  | transmit ok isCalibrating =>
    obtain rfl := Option.some.inj ht
    exact ⟨h.chan, h.read⟩

/-- A vote that is published went on the message. -/
theorem TxState.Silent.votedOn {now : ℤ} (h : s.Silent i msg)
    (ht : txStep b s (.vote now true) = some t) : t.VotedOn i msg := by
  obtain ⟨hall, ht⟩ := Option.ite_none_right_eq_some.mp ht
  obtain rfl := Option.some.inj ht
  refine ⟨_, rfl, ?_⟩
  show Holds msg (cellsOf b s.snapshot i)
  unfold cellsOf
  split_ifs with hi
  · exact h.read (hall ▸ hi)
  · exact .inr rfl

theorem TxState.VotedOn.step {e : TxEvent} (h : s.VotedOn i msg) (hs : s.Silent i msg)
    (ht : txStep b s e = some t) : t.VotedOn i msg := by
  have hsame : t.lastVote = s.lastVote → t.VotedOn i msg := fun heq => by
    obtain ⟨v, hv, hholds⟩ := h
    exact ⟨v, heq.trans hv, hholds⟩
  cases e with
  | publish cell msg' =>
    obtain ⟨-, ht⟩ := Option.ite_none_right_eq_some.mp ht
    exact hsame (Option.some.inj ht ▸ rfl)
  | readCell cell ok =>
    obtain ⟨-, ht⟩ := Option.ite_none_right_eq_some.mp ht
    exact hsame (Option.some.inj ht ▸ rfl)
  | vote now ok =>
    cases ok with
    | false =>
      obtain ⟨-, ht⟩ := Option.ite_none_right_eq_some.mp ht
      exact hsame (Option.some.inj ht ▸ rfl)
    | true => exact hs.votedOn ht
  | transmit ok isCalibrating => exact hsame (Option.some.inj ht ▸ rfl)

theorem showsLast {e : TxEvent} (hi : b.Real i) (hvoted : s.VotedOn i msg)
    (h : HonestTurn b s e t) : ShowsLast b i msg s e t := by
  cases e with
  | transmit ok isCalibrating =>
    obtain ⟨ppo2, millivolts, state, hbus, hshown⟩ := h
    obtain ⟨v, hv, hholds⟩ := hvoted
    refine ⟨ppo2, millivolts, state, hbus, ?_⟩
    cases ok with
    | false =>
      exact ⟨.inl (hshown.value i hi), fun hcell =>
        absurd (hshown.outside i) (Bool.eq_false_iff.not_left.mpr hcell)⟩
    | true =>
      rw [hv] at hshown
      obtain ⟨-, hshown⟩ := hshown
      refine ⟨?_, fun hcell => ?_⟩
      · rcases hshown.value i hi with hfail | ⟨-, hstatus, hvalue⟩
        · exact .inl hfail
        · rcases hholds with hheld | hheld
          · rw [hheld] at hstatus hvalue
            exact .inr ⟨hstatus, hvalue⟩
          · rw [hheld] at hstatus
            exact absurd rfl hstatus
      · obtain ⟨-, hok, -, -, hage, -⟩ := hshown.inside i hi hcell
        rcases hholds with hheld | hheld
        · rw [hheld] at hok hage
          exact ⟨hok, v, hv, hage⟩
        · rw [hheld] at hok
          exact nomatch hok
  | _ => exact trivial

end Silent

/-- Once a driver is silent, from the next whole vote on the handset is shown its last message, or
the failure; the cell is in only where that message is good, and as long as it is fresh. -/
theorem silent_cell_expires {b : TxBuild} {i : Fin 3} {es round rest : List TxEvent}
    {s t u : TxState} {now : ℤ} (hi : b.Real i) (hs : exec (txStep b) .boot es = some s)
    (hstart : s.next = 0) (hround : ∀ e ∈ round, e.LeavesAlone i)
    (ht : exec (txStep b) s round = some t) (hu : txStep b t (.vote now true) = some u)
    (hrest : ∀ e ∈ rest, e.LeavesAlone i) :
    Steps (txStep b) (ShowsLast b i (s.cellChans i)) u rest := by
  have hkeep : ∀ {s e t}, TxState.Kept b s → txStep b s e = some t → TxState.Kept b t :=
    fun h ht => (h.step ht).1
  have hsilence : ∀ {s' e t'}, s'.Silent i (s.cellChans i) → e.LeavesAlone i →
      txStep b s' e = some t' → t'.Silent i (s.cellChans i) := fun h he ht => h.step he ht
  have hsilent : s.Silent i (s.cellChans i) :=
    ⟨rfl, fun hlt => absurd hlt (by rw [hstart]; exact Nat.not_lt_zero _)⟩
  have halone : Steps (txStep b) (fun _ e _ => e.LeavesAlone i) s round := Steps.of_mem hround
  have hsilent : t.Silent i (s.cellChans i) := Steps.inv_exec hsilence hsilent halone ht
  have hkept : u.Kept b :=
    hkeep (exec_inv hkeep (exec_inv hkeep (TxState.kept_boot b) hs) ht) hu
  have hstep : ∀ {s' e t'}, s'.Kept b ∧ s'.Silent i (s.cellChans i) ∧
      s'.VotedOn i (s.cellChans i) → e.LeavesAlone i → txStep b s' e = some t' →
      (t'.Kept b ∧ t'.Silent i (s.cellChans i) ∧ t'.VotedOn i (s.cellChans i)) ∧
        ShowsLast b i (s.cellChans i) s' e t' := by
    rintro s' e t' ⟨hk, hsil, hvoted⟩ he ht
    obtain ⟨hk', hhonest⟩ := hk.step ht
    exact ⟨⟨hk', hsil.step he ht, hvoted.step hsil ht⟩, showsLast hi hvoted hhonest⟩
  have hsilent' : u.Silent i (s.cellChans i) := hsilent.step (e := .vote now true) trivial hu
  exact Steps.of_inv hstep ⟨hkept, hsilent', hsilent.votedOn hu⟩ (Steps.of_mem hrest)

/-- A head of two cells with the copy. -/
def twoCellHead : TxBuild := ⟨2, true, 10000, .solo, by decide, fun _ => rfl⟩

/-- A good reading of 0.98 bar. -/
def goodCell : OxygenCellMsg := ⟨98, 98 / 100, 5000, .ok, 7⟩

theorem silent_cell_expires_good : ∃ s t u, s.cellChans 0 = goodCell ∧
    exec (txStep twoCellHead) .boot [.publish 0 goodCell] = some s ∧
    exec (txStep twoCellHead) s [.readCell 0 true, .readCell 1 true] = some t ∧
    txStep twoCellHead t (.vote 100 true) = some u ∧
    Steps (txStep twoCellHead) (ShowsLast twoCellHead 0 (s.cellChans 0)) u
      [.transmit true false, .readCell 0 true, .readCell 1 false, .vote 200000 true,
        .transmit true false] :=
  ⟨_, _, _, rfl, rfl, rfl, rfl, silent_cell_expires (by decide)
    (show exec (txStep twoCellHead) .boot [.publish 0 goodCell] = some _ from rfl) rfl (by decide)
    (show exec _ _ [.readCell 0 true, .readCell 1 true] = some _ from rfl) rfl (by decide)⟩

end DiveCANHead.Broadcast
