import DiveCANHead.IsoTp.TxQueue

/-!
# What the sender puts on the wire

The part of the payload that is still unsent determines the Consecutive Frames
still to come (`pendingFrames`). One frame takes the first of them, so a grant
sends a prefix of them: all of them, or as many as the block allows.
-/

namespace DiveCANHead.IsoTp

open DiveCANHead.Lib

/-- A Consecutive Frame with sequence number `i`. -/
def cfFrame (id : UInt32) (i : ℕ) (bytes : List UInt8) : DiveCANMessage :=
  .ofBytes id isotpCanFrameLen ((isotpPciCf ||| UInt8.ofNat i) :: bytes)

/-- The Consecutive Frames of the bytes `rest`, numbered from `i`. -/
def cfFrames (id : UInt32) (i : ℕ) (rest : List UInt8) : List DiveCANMessage :=
  (numbered 16 i (chunks isotpCfDataBytes rest)).map fun c => cfFrame id c.1 c.2

/-- The payload that has not been sent. -/
def remaining (sm : TxSm) : List UInt8 := sm.current.data.drop sm.txBytesSent

/-- How many Consecutive Frames are still to come. -/
def framesLeft (sm : TxSm) : ℕ := (chunks isotpCfDataBytes (remaining sm)).length

/-- The Consecutive Frames still to come. -/
def pendingFrames (sm : TxSm) : List DiveCANMessage :=
  cfFrames (canId sm.current) ((sm.txSequenceNumber.toNat + 1) % 16) (remaining sm)

@[simp] theorem cfFrames_nil (id : UInt32) (i : ℕ) : cfFrames id i [] = [] := by
  simp [cfFrames, numbered]

theorem cfFrames_of_ne_nil (id : UInt32) (i : ℕ) {rest : List UInt8} (h : rest ≠ []) :
    cfFrames id i rest = cfFrame id i (rest.take isotpCfDataBytes) ::
      cfFrames id ((i + 1) % 16) (rest.drop isotpCfDataBytes) := by
  simp only [cfFrames, chunks_of_ne_nil (show 0 < isotpCfDataBytes by decide) h, numbered,
    List.map_cons]

@[simp] theorem length_pendingFrames (sm : TxSm) : (pendingFrames sm).length = framesLeft sm := by
  simp [pendingFrames, cfFrames, framesLeft]

theorem framesLeft_eq_zero {sm : TxSm} : framesLeft sm = 0 ↔ remaining sm = [] := by
  rw [framesLeft, List.length_eq_zero_iff, chunks_eq_nil]

theorem remaining_ne_nil {sm : TxSm} : remaining sm ≠ [] ↔ sm.txBytesSent < sm.current.length := by
  simp [remaining, TxRequest.length]

/-- The frame the loop builds is the next pending one. -/
theorem consecutiveFrame_eq (tx : TxRequest) (s : UInt8) (bytes : List UInt8) :
    consecutiveFrame tx s bytes = cfFrame (canId tx) ((s.toNat + 1) % 16) bytes := by
  have hmask : (s + 1) &&& isotpSeqMask = UInt8.ofNat ((s.toNat + 1) % 16) := by
    rw [← seq_succ_toNat, UInt8.ofNat_toNat]
  rw [consecutiveFrame, cfFrame, hmask]

/-! ## Frames as padded segments -/

theorem cfFrame_data (id : UInt32) (i : ℕ) {bytes : List UInt8}
    (h : bytes.length ≤ isotpCfDataBytes) :
    (cfFrame id i bytes).data =
      (isotpPciCf ||| UInt8.ofNat i) :: padTo isotpCfDataBytes 0 bytes := by
  simp only [isotpCfDataBytes] at h
  rw [cfFrame, ofBytes_data (by simp only [List.length_cons]; omega)]
  simp [padTo, isotpCfDataBytes]

/-- The zeroed message pads a short segment. -/
theorem cfFrame_padTo (id : UInt32) (i : ℕ) {bytes : List UInt8}
    (h : bytes.length ≤ isotpCfDataBytes) :
    cfFrame id i (padTo isotpCfDataBytes 0 bytes) = cfFrame id i bytes := by
  have hdata : (cfFrame id i (padTo isotpCfDataBytes 0 bytes)).data =
      (cfFrame id i bytes).data := by
    rw [cfFrame_data id i h, cfFrame_data id i (length_padTo h).le,
      padTo_of_length_eq (length_padTo h)]
  simp only [cfFrame, DiveCANMessage.ofBytes, DiveCANMessage.mk.injEq, true_and] at hdata ⊢
  exact hdata

theorem cfFrames_eq (id : UInt32) (i : ℕ) (rest : List UInt8) :
    cfFrames id i rest =
      (numbered 16 i ((chunks isotpCfDataBytes rest).map (padTo isotpCfDataBytes 0))).map
        fun c => cfFrame id c.1 c.2 := by
  rw [numbered_map, List.map_map, cfFrames]
  refine List.map_congr_left fun c hc => ?_
  have hchunk : c.2 ∈ chunks isotpCfDataBytes rest := snd_mem_of_mem_numbered hc
  exact (cfFrame_padTo id c.1 (length_le_of_mem_chunks (by decide) hchunk)).symm

/-- The PCI byte of a Consecutive Frame. -/
theorem cfFrame_pci (id : UInt32) {i : ℕ} (hi : i < 16) (bytes : List UInt8) :
    (cfFrame id i bytes).byte 0 &&& isotpPciMask = isotpPciCf ∧
      (cfFrame id i bytes).byte 0 &&& isotpPciLenMask = UInt8.ofNat i :=
  pci_or_nibble ⟨i, hi⟩ isotpPciCf (by simp)

/-! ## One frame -/

section Frame

variable {sm : TxSm} (now : UInt32)

theorem remaining_afterFrame :
    remaining (afterFrame sm now) = (remaining sm).drop isotpCfDataBytes := by
  simp only [remaining, afterFrame, nextBytes, ← List.drop_drop, List.length_take]
  rcases Nat.le_total isotpCfDataBytes (sm.current.data.drop sm.txBytesSent).length with h | h
  · rw [Nat.min_eq_left h]
  · rw [Nat.min_eq_right h, List.drop_length, List.drop_eq_nil_of_le h]

theorem afterFrame_sent_le (h : sm.txBytesSent ≤ sm.current.length) :
    (afterFrame sm now).txBytesSent ≤ sm.current.length := by
  simp only [afterFrame, nextBytes, List.length_take, List.length_drop]
  simp only [TxRequest.length] at h ⊢
  omega

/-- A frame is the first of the pending ones and leaves the others. -/
theorem pendingFrames_cons (h : remaining sm ≠ []) :
    pendingFrames sm = consecutiveFrame sm.current sm.txSequenceNumber (nextBytes sm) ::
      pendingFrames (afterFrame sm now) := by
  rw [pendingFrames, cfFrames_of_ne_nil _ _ h, consecutiveFrame_eq, pendingFrames,
    remaining_afterFrame]
  simp only [afterFrame, seq_succ_toNat]
  rfl

theorem framesLeft_afterFrame (h : remaining sm ≠ []) :
    framesLeft sm = framesLeft (afterFrame sm now) + 1 := by
  rw [← length_pendingFrames, pendingFrames_cons now h, List.length_cons,
    length_pendingFrames]

/-- Every frame leaves fewer bytes. -/
theorem unsent_afterFrame (h : remaining sm ≠ []) :
    sm.current.length - (afterFrame sm now).txBytesSent < sm.current.length - sm.txBytesSent := by
  have hlt := remaining_ne_nil.mp h
  simp only [afterFrame, nextBytes, List.length_take, List.length_drop]
  simp only [TxRequest.length, isotpCfDataBytes] at hlt ⊢
  omega

end Frame

/-! ## One grant -/

/-- How many frames a grant may still send: as many as are left, or what is left
of the block. -/
def quota (sm : TxSm) : ℕ :=
  if sm.txBlockSize = 0 then framesLeft sm else sm.txBlockSize.toNat - sm.txBlockCounter

/-- What a run of the loop does: it sends a prefix of the pending frames, stops
at the end of the payload or of the block, and reports a block boundary exactly
when the block's last frame was sent. -/
structure SendsBlock (sm : TxSm) (run : CfRun) : Prop where
  frames : run.frames ++ pendingFrames run.sm = pendingFrames sm
  current : run.sm.current = sm.current
  state : run.sm.state = sm.state
  sent_le : run.sm.txBytesSent ≤ sm.current.length
  left : framesLeft run.sm = framesLeft sm - quota sm
  waiting : run.waitingForFC = true ↔ sm.txBlockSize ≠ 0 ∧ quota sm ≤ framesLeft sm

/-- With the payload exhausted nothing is sent. -/
theorem sendsBlock_nil {sm : TxSm} (now : UInt32) (h : remaining sm = [])
    (hsent : sm.txBytesSent ≤ sm.current.length)
    (hblock : sm.txBlockSize = 0 ∨ sm.txBlockCounter < sm.txBlockSize.toNat) :
    SendsBlock sm ⟨sm, now, [], false⟩ := by
  have hzero : framesLeft sm = 0 := framesLeft_eq_zero.mpr h
  refine ⟨rfl, rfl, rfl, hsent, by simp [hzero], ?_⟩
  rcases hblock with hb | hb
  · simp [hb]
  · simp only [Bool.false_eq_true, false_iff, not_and, not_le, hzero, quota]
    intro hne
    rw [if_neg hne]
    omega

theorem sendLoop_spec (left : ℕ) {sm : TxSm} (now : UInt32)
    (hleft : sm.current.length - sm.txBytesSent ≤ left)
    (hsent : sm.txBytesSent ≤ sm.current.length)
    (hblock : sm.txBlockSize = 0 ∨ sm.txBlockCounter < sm.txBlockSize.toNat) :
    SendsBlock sm (sendLoop left sm now) := by
  induction left generalizing sm now with
  | zero =>
    refine sendsBlock_nil now ?_ hsent hblock
    by_contra h
    have := remaining_ne_nil.mp h
    omega
  | succ left ih =>
    unfold sendLoop
    split
    case isFalse h =>
      exact sendsBlock_nil now (by_contra fun hne => h (remaining_ne_nil.mp hne)) hsent hblock
    next hlt =>
    have hne := remaining_ne_nil.mpr hlt
    simp only
    generalize now + stminMs sm = now'
    have hcount := framesLeft_afterFrame now' hne
    have hpend := pendingFrames_cons now' hne
    have hsent' := afterFrame_sent_le now' hsent
    have hunsent := unsent_afterFrame now' hne
    have hsize : (afterFrame sm now').txBlockSize = sm.txBlockSize := rfl
    have hcounter : (afterFrame sm now').txBlockCounter = sm.txBlockCounter + 1 := rfl
    split
    · next hbd =>
      -- the block's last frame
      simp only [blockDone, hsize, hcounter, Bool.and_eq_true, bne_iff_ne, ne_eq,
        decide_eq_true_eq] at hbd
      have hb := hblock.resolve_left hbd.1
      have hquota : quota sm = 1 := by
        rw [quota, if_neg hbd.1]
        omega
      refine ⟨hpend.symm, rfl, rfl, hsent', ?_, ?_⟩
      · simp only [hquota, hcount]
        rfl
      · simp only [hquota, hcount, true_iff]
        exact ⟨hbd.1, Nat.le_add_left _ _⟩
    · next hbd =>
      simp only [blockDone, hsize, hcounter, Bool.and_eq_true, bne_iff_ne, ne_eq,
        decide_eq_true_eq, not_and, not_le] at hbd
      have hblock' : (afterFrame sm now').txBlockSize = 0 ∨
          (afterFrame sm now').txBlockCounter < (afterFrame sm now').txBlockSize.toNat := by
        by_cases h0 : sm.txBlockSize = 0
        · exact .inl h0
        · exact .inr (hbd h0)
      have hleft' : (afterFrame sm now').current.length - (afterFrame sm now').txBytesSent ≤ left :=
        Nat.le_of_lt_succ (hunsent.trans_le hleft)
      have hrun := ih now' hleft' hsent' hblock'
      have hquota : quota sm = quota (afterFrame sm now') + 1 := by
        simp only [quota, hsize, hcounter]
        split
        · exact hcount
        · next h0 =>
          have := hbd h0
          omega
      refine ⟨?_, hrun.current, hrun.state, hrun.sent_le, ?_, ?_⟩
      · rw [hpend, List.cons_append, hrun.frames]
      · rw [hrun.left]
        omega
      · rw [hrun.waiting, hsize]
        refine and_congr_right fun _ => ?_
        omega

theorem sendConsecutiveFrames_spec {sm : TxSm} (now : UInt32)
    (hsent : sm.txBytesSent ≤ sm.current.length)
    (hblock : sm.txBlockSize = 0 ∨ sm.txBlockCounter < sm.txBlockSize.toNat) :
    SendsBlock sm (sendConsecutiveFrames sm now).2 :=
  sendLoop_spec _ now le_rfl hsent hblock

/-- The payload is exhausted when no frame is left. -/
theorem SendsBlock.exhausted_iff {sm : TxSm} {run : CfRun} (h : SendsBlock sm run) :
    run.sm.txBytesSent = run.sm.current.length ↔ framesLeft sm ≤ quota sm := by
  have hle := h.sent_le
  rw [← h.current] at hle
  rw [← Nat.sub_eq_zero_iff_le, ← h.left, framesLeft_eq_zero, ← not_iff_not, ← ne_eq,
    ← ne_eq, remaining_ne_nil]
  exact ⟨fun hne => Nat.lt_of_le_of_ne hle hne, Nat.ne_of_lt⟩

/-- A grant without a block size sends everything. -/
theorem SendsBlock.frames_of_unlimited {sm : TxSm} {run : CfRun} (h : SendsBlock sm run)
    (h0 : sm.txBlockSize = 0) : run.frames = pendingFrames sm := by
  have hzero : framesLeft run.sm = 0 := by rw [h.left, quota, if_pos h0, Nat.sub_self]
  have hnil : pendingFrames run.sm = [] := by
    rw [← List.length_eq_zero_iff, length_pendingFrames, hzero]
  rw [← h.frames, hnil, List.append_nil]

/-! ## Starting a transfer -/

/-- The frames a dequeued request puts on the wire at once. -/
def startFrames (r : TxRequest) : List DiveCANMessage :=
  if r.length ≤ isotpSfMaxWithPad then [singleFrame r]
  else if r.target = isotpBroadcastAddr then
    firstFrame r :: cfFrames (canId r) 1 (r.data.drop isotpFfDataWithPad)
  else [firstFrame r]

theorem startTransfer_wire {q : TxQueue} (hseq : q.sm.txSequenceNumber = 0) :
    (startTransfer q).wire = q.wire ++ startFrames q.sm.current := by
  simp only [startTransfer, startFrames]
  split_ifs with hsf hbc
  · rfl
  · -- a broadcast: an unlimited grant of what follows the First Frame
    set sm : TxSm := { q.sm with
      txBytesSent := isotpFfDataWithPad, txBlockSize := 0, txStmin := 0, txBlockCounter := 0 }
    have hsent : isotpFfDataWithPad ≤ q.sm.current.length := by
      simp only [isotpSfMaxWithPad, isotpFfDataWithPad] at hsf ⊢
      omega
    have hpend : pendingFrames sm =
        cfFrames (canId q.sm.current) 1 (q.sm.current.data.drop isotpFfDataWithPad) := by
      simp only [pendingFrames, sm, hseq]
      rfl
    rw [(sendConsecutiveFrames_spec q.now hsent (.inl rfl)).frames_of_unlimited rfl, hpend]
  · rfl

/-- An addressed request of more than a Single Frame is left waiting. -/
theorem startTransfer_addressed {q : TxQueue} (hlong : isotpSfMaxWithPad < q.sm.current.length)
    (htarget : q.sm.current.target ≠ isotpBroadcastAddr) :
    startTransfer q = { q with
      sm := setState { q.sm with
        txBytesSent := isotpFfDataWithPad, txLastFrameTime := q.now } .waitFc
      wire := q.wire ++ [firstFrame q.sm.current] } := by
  simp only [startTransfer, if_neg (not_le.mpr hlong), if_neg htarget]

/-- Any other request is sent at once and leaves the state alone. -/
theorem startTransfer_state {q : TxQueue}
    (h : q.sm.current.length ≤ isotpSfMaxWithPad ∨ q.sm.current.target = isotpBroadcastAddr) :
    (startTransfer q).sm.state = q.sm.state := by
  simp only [startTransfer]
  split_ifs with hsf hbc
  · rfl
  · have hsent : isotpFfDataWithPad ≤ q.sm.current.length := by
      simp only [isotpSfMaxWithPad, isotpFfDataWithPad] at hsf ⊢
      omega
    exact (sendConsecutiveFrames_spec q.now (by exact hsent) (.inl rfl)).state
  · exact absurd h (not_or.mpr ⟨hsf, hbc⟩)

theorem startTransfer_msgq (q : TxQueue) : (startTransfer q).msgq = q.msgq := by
  simp only [startTransfer]
  split_ifs <;> rfl

theorem startTransfer_scratch (q : TxQueue) : (startTransfer q).scratch = q.scratch := by
  simp only [startTransfer]
  split_ifs <;> rfl

end DiveCANHead.IsoTp
