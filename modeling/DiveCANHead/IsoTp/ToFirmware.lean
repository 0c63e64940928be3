import DiveCANHead.IsoTp.Client
import DiveCANHead.IsoTp.Rx
import DiveCANHead.IsoTp.Send

/-!
# From the client to the firmware

The frames of `_send` are a Single Frame, or a First Frame and the Consecutive
Frames of the rest (`sendFrames_wire`). Fed to a context they are addressed to,
at any times, they complete the payload behind its pad byte (`receive_sendFrames`).
-/

namespace DiveCANHead.IsoTp

open DiveCANHead.Lib

/-- A client frame as the firmware's CAN driver hands it over. -/
def ofCan (f : CanFrame) : DiveCANMessage := .ofBytes f.id (UInt8.ofNat f.data.length) f.data

/-- Feeds one frame to a context, at the next of the uptimes. -/
def receiveStep (s : IsotpContext × (ℕ → UInt32)) (m : DiveCANMessage) :
    IsotpContext × (ℕ → UInt32) :=
  ((isotpProcessRxFrame s.1 m (s.2 0)).2, s.2 ∘ Nat.succ)

/-- Feeds frames to a context; `times` is the uptime at each of them. -/
def receive (ctx : IsotpContext) (times : ℕ → UInt32) (ms : List DiveCANMessage) : IsotpContext :=
  (ms.foldl receiveStep (ctx, times)).1

/-! ## The wire of one send -/

section Wire

variable {c : Client} {data : List UInt8}

/-- A client frame has all its eight bytes. -/
theorem ofCan_frame {bytes : List UInt8} (h : bytes.length ≤ 8) :
    ofCan (c.frame bytes) = .ofBytes (c.idFor c.targetAddress) isotpCanFrameLen bytes := by
  have hlen : (padTo 8 0 bytes).length = 8 := length_padTo h
  unfold ofCan Client.frame
  simp only [DiveCANMessage.ofBytes, DiveCANMessage.mk.injEq, hlen, true_and]
  exact ⟨rfl, congrArg (List.take 8) (padTo_of_length_eq hlen)⟩

/-- The loop sends the Consecutive Frames of what is left, however the grants cut
them into blocks. -/
theorem sendLoop_wire (left : ℕ) {offset seq count : ℕ} {fc : Client.FcGrant}
    {grants : List Client.FcGrant} {frames : List CanFrame} (hleft : data.length - offset ≤ left)
    (hseq : seq < 16) (h : c.sendLoop data left offset seq count fc grants = some frames) :
    frames.map ofCan = cfFrames (c.idFor c.targetAddress) seq (data.drop offset) := by
  induction left generalizing offset seq count fc grants frames with
  | zero =>
    obtain rfl : frames = [] := by simpa [Client.sendLoop] using h.symm
    rw [List.drop_eq_nil_of_le (by omega), cfFrames_nil, List.map_nil]
  | succ left ih =>
    unfold Client.sendLoop at h
    split at h
    · next hlt =>
      have hne : data.drop offset ≠ [] := by
        rw [ne_eq, List.drop_eq_nil_iff]
        omega
      obtain ⟨⟨fc', count', grants'⟩, -, h⟩ := Option.bind_eq_some_iff.mp h
      obtain ⟨rest, hrest, rfl⟩ := Option.map_eq_some_iff.mp h
      have htake : (data.drop offset).take (min 7 (data.length - offset)) =
          (data.drop offset).take isotpCfDataBytes := by
        rw [List.take_eq_take_iff, List.length_drop]
        simp only [isotpCfDataBytes]
        omega
      have hdrop : data.drop (offset + min 7 (data.length - offset)) =
          (data.drop offset).drop isotpCfDataBytes := by
        rw [List.drop_drop]
        rcases Nat.le_total 7 (data.length - offset) with h7 | h7
        · rw [Nat.min_eq_left h7]
          rfl
        · rw [Nat.min_eq_right h7, List.drop_eq_nil_of_le (by omega),
            List.drop_eq_nil_of_le (by simp only [isotpCfDataBytes]; omega)]
      have hlen : ((data.drop offset).take isotpCfDataBytes).length ≤ 7 := List.length_take_le _ _
      have htail := ih (by omega) (Nat.mod_lt _ (by decide)) hrest
      rw [List.map_cons, cfFrames_of_ne_nil _ _ hne, htail, hdrop, htake, Nat.mod_eq_of_lt hseq,
        ofCan_frame (by simp only [List.length_cons]; omega)]
      rfl
    · next hend =>
      obtain rfl : frames = [] := by simpa using h.symm
      rw [List.drop_eq_nil_of_le (by omega), cfFrames_nil, List.map_nil]

/-- The First Frame of a payload. -/
def clientFirstFrame (id : UInt32) (data : List UInt8) : DiveCANMessage :=
  .ofBytes id isotpCanFrameLen ((isotpPciFf ||| UInt8.ofNat ((data.length + 1) / 256 % 16)) ::
    UInt8.ofNat ((data.length + 1) % 256) :: 0 :: data.take isotpFfDataWithPad)

def clientSingleFrame (id : UInt32) (data : List UInt8) : DiveCANMessage :=
  .ofBytes id isotpCanFrameLen (UInt8.ofNat (data.length + 1) :: 0 :: data)

/-- The frames of a send, however it is paced. -/
theorem sendFrames_wire {grants : List Client.FcGrant} {frames : List CanFrame}
    (h : c.sendFrames data grants = some frames) :
    frames.map ofCan =
      if data.length ≤ isotpSfMaxWithPad then [clientSingleFrame (c.idFor c.targetAddress) data]
      else clientFirstFrame (c.idFor c.targetAddress) data ::
        cfFrames (c.idFor c.targetAddress) 1 (data.drop isotpFfDataWithPad) := by
  unfold Client.sendFrames at h
  split at h
  · next hsf =>
    obtain rfl := Option.some.inj h
    rw [if_pos (show data.length ≤ isotpSfMaxWithPad from hsf), List.map_cons, List.map_nil,
      ofCan_frame (by simp only [List.length_cons]; omega)]
    rfl
  · next hlong =>
    rw [if_neg (show ¬ data.length ≤ isotpSfMaxWithPad from hlong)]
    cases grants with
    | nil => cases h
    | cons fc grants =>
      obtain ⟨rest, hrest, rfl⟩ := Option.map_eq_some_iff.mp h
      have htail := sendLoop_wire _ le_rfl (by decide) hrest
      have hlen : (data.take 5).length ≤ 5 := List.length_take_le _ _
      rw [List.map_cons, htail, ofCan_frame (by simp only [List.length_cons]; omega)]
      rfl

/-- A grant without a block size is never waited on again. -/
theorem sendLoop_isSome (left : ℕ) (offset seq count : ℕ) {fc : Client.FcGrant}
    (h : fc.blockSize = 0) (grants : List Client.FcGrant) :
    (c.sendLoop data left offset seq count fc grants).isSome := by
  induction left generalizing offset seq count with
  | zero => rfl
  | succ left ih =>
    unfold Client.sendLoop
    split
    · have hblock : Client.awaitBlock fc count grants = some (fc, count, grants) :=
        if_neg fun hb => hb.1 h
      rw [hblock, Option.bind_some, Option.isSome_map]
      exact ih _ _ _
    · rfl

/-- The grant of this firmware lets a send run to its end. -/
theorem sendFrames_isSome (c : Client) (data : List UInt8) :
    (c.sendFrames data [⟨isotpDefaultBlockSize, isotpDefaultStmin⟩]).isSome := by
  unfold Client.sendFrames
  split
  · rfl
  · rw [Option.isSome_map]
    exact sendLoop_isSome _ _ _ _ rfl _

end Wire

/-! ## Reassembly -/

/-- The context has completed the message `bytes`. -/
structure Completed (ctx : IsotpContext) (bytes : List UInt8) : Prop where
  complete : ctx.rxComplete = true
  length : ctx.rxDataLength = bytes.length
  buffer : ctx.rxBuffer.take ctx.rxDataLength = bytes

/-- The context is reassembling `p`. -/
structure Receives (id : UInt32) (ctx : IsotpContext) (p : Partial UInt8) : Prop where
  state : ctx.state = .receiving
  total : ctx.rxDataLength = p.total
  received : ctx.rxBytesReceived = p.bytes.length
  seq : ctx.rxSequenceNumber = UInt8.ofNat p.seq
  seq_lt : p.seq < 16
  buffer : ctx.rxBuffer.take p.bytes.length = p.bytes
  bytes_le : p.bytes.length ≤ p.total
  total_le : p.total ≤ ctx.rxBuffer.length
  size : ctx.rxBuffer.length = isotpMaxPayload
  target : msgTarget id = ctx.source

section Reassembly

variable {id : UInt32} {ctx : IsotpContext} {p : Partial UInt8} {data : List UInt8} {now : UInt32}

/-- A Consecutive Frame under the expected number reaches `appendFrame`. -/
theorem processRxFrame_cf (h : Receives id ctx p) (data : List UInt8) (now : UInt32) :
    (isotpProcessRxFrame ctx (cfFrame id p.seq data) now).2 =
      (handleConsecutiveFrame (retarget ctx (cfFrame id p.seq data))
        (cfFrame id p.seq data) now).2 := by
  obtain ⟨hpci, -⟩ := cfFrame_pci id h.seq_lt data
  have hevent : pciToEvent ((cfFrame id p.seq data).byte 0 &&& isotpPciMask) = .cf := by
    rw [hpci]
    rfl
  have hdispatch := processRxFrame_of_event (m := cfFrame id p.seq data) h.target
    (by decide) hevent now
  obtain ⟨target, hretarget⟩ := retarget_eq ctx (cfFrame id p.seq data)
  have hstate : (retarget ctx (cfFrame id p.seq data)).state = .receiving := by
    rw [hretarget]
    exact h.state
  rw [hdispatch, runState_cf_receiving hstate]

/-- The context appends a segment as `Partial.accept` does. -/
theorem Receives.append (h : Receives id ctx p) (hlen : data.length = isotpCfDataBytes)
    (now : UInt32) :
    (appendFrame ctx (cfFrame id p.seq data) now).rxBytesReceived =
        (p.accept 16 data).bytes.length ∧
      (appendFrame ctx (cfFrame id p.seq data) now).rxBuffer.length = isotpMaxPayload ∧
      (appendFrame ctx (cfFrame id p.seq data) now).rxBuffer.take (p.accept 16 data).bytes.length =
        (p.accept 16 data).bytes := by
  have hdata := cfFrame_data id p.seq (le_of_eq hlen)
  rw [padTo_of_length_eq hlen] at hdata
  have htotal := h.total_le
  have hle := h.bytes_le
  rw [h.size, isotpMaxPayload] at htotal
  have hsize := h.size
  simp only [isotpCfDataBytes, isotpMaxPayload] at hlen hsize
  have hmiss : bytesRemaining ctx = p.total - p.bytes.length := by
    rw [bytesRemaining, h.total, h.received]
    omega
  have htake : data.take (min (bytesRemaining ctx) isotpCfDataBytes) =
      data.take (p.total - p.bytes.length) := by
    rw [hmiss, List.take_eq_take_iff, hlen, isotpCfDataBytes]
    omega
  have hcopied : (data.take (p.total - p.bytes.length)).length =
      min (bytesRemaining ctx) isotpCfDataBytes := by
    rw [List.length_take, hmiss, hlen]
    rfl
  have hbuffer : (appendFrame ctx (cfFrame id p.seq data) now).rxBuffer =
      overlay ctx.rxBuffer p.bytes.length (data.take (p.total - p.bytes.length)) := by
    simp only [appendFrame, hdata, List.drop_succ_cons, List.drop_zero, htake, h.received]
  have hbytes : (p.accept 16 data).bytes = p.bytes ++ data.take (p.total - p.bytes.length) := rfl
  refine ⟨?_, ?_, ?_⟩
  · rw [hbytes, List.length_append, hcopied, ← h.received]
    rfl
  · rw [hbuffer, length_overlay, h.size]
    rw [List.length_take]
    omega
  · rw [hbuffer, hbytes, List.length_append, take_overlay (by omega) le_rfl, h.buffer,
      ← List.length_append, List.take_length]

/-- A frame only changes who is answered before it is handled. -/
theorem Receives.retarget (h : Receives id ctx p) (m : DiveCANMessage) :
    Receives id (retarget ctx m) p := by
  obtain ⟨target, hretarget⟩ := retarget_eq ctx m
  rw [hretarget]
  exact ⟨h.state, h.total, h.received, h.seq, h.seq_lt, h.buffer, h.bytes_le, h.total_le, h.size,
    h.target⟩

/-- The number of the frame is the expected one. -/
theorem Receives.expected (h : Receives id ctx p) (data : List UInt8) :
    (cfFrame id p.seq data).byte 0 &&& isotpPciLenMask = ctx.rxSequenceNumber := by
  rw [(cfFrame_pci id h.seq_lt data).2, h.seq]

theorem accept_bytes_le (h : p.bytes.length ≤ p.total) (data : List UInt8) :
    (p.accept 16 data).bytes.length ≤ p.total := by
  simp only [Partial.accept, List.length_append, List.length_take]
  omega

/-- A segment that leaves the message open is kept. -/
theorem Receives.more (h : Receives id ctx p) (hlen : data.length = isotpCfDataBytes)
    (hopen : ¬ (p.accept 16 data).complete) (now : UInt32) :
    Receives id (isotpProcessRxFrame ctx (cfFrame id p.seq data) now).2 (p.accept 16 data) := by
  have h' := h.retarget (cfFrame id p.seq data)
  obtain ⟨hreceived, hsize, hbuffer⟩ := h'.append hlen now
  have htotal := appendFrame_rxDataLength (IsoTp.retarget ctx (cfFrame id p.seq data))
    (cfFrame id p.seq data) now
  rw [processRxFrame_cf h, handleConsecutiveFrame_expected (h'.expected data), if_neg]
  · have hle := accept_bytes_le h.bytes_le data
    refine ⟨(appendFrame_state ..).trans h'.state, htotal.trans h'.total, hreceived, ?_,
      Nat.mod_lt _ (by decide), hbuffer, hle, ?_, hsize,
      h'.target.trans (appendFrame_source ..).symm⟩
    · apply UInt8.toNat_inj.mp
      have hlt := h.seq_lt
      have hmod : (p.seq + 1) % 16 < 16 := Nat.mod_lt _ (by decide)
      have hnow : p.seq % 256 = p.seq := Nat.mod_eq_of_lt (by omega)
      simp only [appendFrame_rxSequenceNumber, seq_succ_toNat, h'.seq, Partial.accept,
        UInt8.toNat_ofNat', hnow]
      omega
    · rw [hsize, ← h.size]
      exact h.total_le
  · rw [hreceived, htotal]
    exact fun hle => hopen (h'.total.symm.trans_le hle)

/-- The segment that completes the message completes the context. -/
theorem Receives.done (h : Receives id ctx p) (hlen : data.length = isotpCfDataBytes)
    (hfull : (p.accept 16 data).complete) (now : UInt32) :
    Completed (isotpProcessRxFrame ctx (cfFrame id p.seq data) now).2 (p.accept 16 data).bytes := by
  have h' := h.retarget (cfFrame id p.seq data)
  obtain ⟨hreceived, -, hbuffer⟩ := h'.append hlen now
  have hlength : (appendFrame (IsoTp.retarget ctx (cfFrame id p.seq data)) (cfFrame id p.seq data)
      now).rxDataLength = (p.accept 16 data).bytes.length :=
    (appendFrame_rxDataLength ..).trans
      (h'.total.trans (le_antisymm hfull (accept_bytes_le h.bytes_le data)))
  rw [processRxFrame_cf h, handleConsecutiveFrame_expected (h'.expected data),
    if_pos (hlength.trans hreceived.symm).le]
  obtain ⟨hcomplete, htotal, hkept, -⟩ := reset_complete
    (appendFrame (IsoTp.retarget ctx (cfFrame id p.seq data)) (cfFrame id p.seq data) now)
  refine ⟨hcomplete, htotal.trans hlength, ?_⟩
  rw [htotal, hkept, hlength, hbuffer]

/-! ## The first frame of a message -/

/-- The two length bytes, then the pad byte and the head of the payload. -/
theorem clientFirstFrame_data (id : UInt32) (hlong : isotpSfMaxWithPad < data.length) :
    (clientFirstFrame id data).data =
      (isotpPciFf ||| UInt8.ofNat ((data.length + 1) / 256 % 16)) ::
        UInt8.ofNat ((data.length + 1) % 256) :: 0 :: data.take isotpFfDataWithPad := by
  have hlen : (data.take isotpFfDataWithPad).length = 5 := by
    rw [List.length_take, min_eq_left]
    · rfl
    · simp only [isotpSfMaxWithPad] at hlong
      simp only [isotpFfDataWithPad]
      omega
  rw [clientFirstFrame, ofBytes_data (by simp [hlen]), padTo_of_length_eq (by simp [hlen])]

theorem clientFirstFrame_byte (id : UInt32) (hlong : isotpSfMaxWithPad < data.length) :
    (clientFirstFrame id data).byte 0 =
        isotpPciFf ||| UInt8.ofNat ((data.length + 1) / 256 % 16) ∧
      (clientFirstFrame id data).byte 1 = UInt8.ofNat ((data.length + 1) % 256) := by
  unfold DiveCANMessage.byte
  rw [clientFirstFrame_data id hlong]
  exact ⟨rfl, rfl⟩

theorem clientFirstFrame_pci (id : UInt32) (hlong : isotpSfMaxWithPad < data.length) :
    (clientFirstFrame id data).byte 0 &&& isotpPciMask = isotpPciFf ∧
      ((clientFirstFrame id data).byte 0 &&& isotpPciLenMask).toNat =
        (data.length + 1) / 256 % 16 := by
  have hmod : (data.length + 1) / 256 % 16 < 16 := Nat.mod_lt _ (by decide)
  have hnibble := pci_or_nibble ⟨(data.length + 1) / 256 % 16, hmod⟩ isotpPciFf (by simp)
  rw [(clientFirstFrame_byte id hlong).1, hnibble.2, UInt8.toNat_ofNat']
  exact ⟨hnibble.1, Nat.mod_eq_of_lt (hmod.trans (by decide))⟩

/-- The announced length counts the pad byte. -/
theorem ffDataLength_clientFirstFrame (id : UInt32) (hlong : isotpSfMaxWithPad < data.length)
    (hle : data.length < isotpMaxPayload) :
    ffDataLength (clientFirstFrame id data) = data.length + 1 := by
  rw [isotpMaxPayload] at hle
  rw [ffDataLength, (clientFirstFrame_pci id hlong).2, (clientFirstFrame_byte id hlong).2,
    UInt8.toNat_ofNat']
  omega

/-- A First Frame reaches its handler in every state. -/
theorem processRxFrame_ff (htarget : msgTarget id = ctx.source)
    (hlong : isotpSfMaxWithPad < data.length) (now : UInt32) :
    (isotpProcessRxFrame ctx (clientFirstFrame id data) now).2 =
      (handleFirstFrame (retarget ctx (clientFirstFrame id data))
        (clientFirstFrame id data) now).2 := by
  have hevent : pciToEvent ((clientFirstFrame id data).byte 0 &&& isotpPciMask) = .ff := by
    rw [(clientFirstFrame_pci id hlong).1]
    rfl
  rw [processRxFrame_of_event (m := clientFirstFrame id data) htarget (by decide) hevent now,
    runState_ff]

/-- A First Frame starts a reassembly behind the pad byte. -/
theorem processRxFrame_firstFrame (htarget : msgTarget id = ctx.source)
    (hsize : ctx.rxBuffer.length = isotpMaxPayload) (hlong : isotpSfMaxWithPad < data.length)
    (hle : data.length < isotpMaxPayload) (now : UInt32) :
    Receives id (isotpProcessRxFrame ctx (clientFirstFrame id data) now).2
      ⟨data.length + 1, 0 :: data.take isotpFfDataWithPad, 1⟩ := by
  have htotal := ffDataLength_clientFirstFrame id hlong hle
  obtain ⟨target, hretarget⟩ := retarget_eq ctx (clientFirstFrame id data)
  simp only [isotpMaxPayload] at hle
  have hrange : ¬ (data.length + 1 = 0 ∨ isotpMaxPayload < data.length + 1) := by
    rw [isotpMaxPayload]
    omega
  have hbytes : (0 :: data.take isotpFfDataWithPad).length = isotpFfDataBytes := by
    simp only [isotpSfMaxWithPad] at hlong
    simp only [List.length_cons, List.length_take, isotpFfDataWithPad, isotpFfDataBytes]
    omega
  have hwritten : ((clientFirstFrame id data).data.drop 2).take isotpFfDataBytes =
      0 :: data.take isotpFfDataWithPad := by
    rw [clientFirstFrame_data id hlong, ← hbytes]
    exact List.take_length
  rw [processRxFrame_ff htarget hlong, hretarget, handleFirstFrame, htotal]
  simp only
  rw [if_neg hrange]
  refine ⟨rfl, rfl, hbytes.symm, rfl, show 1 < 16 by decide, ?_, ?_, ?_, ?_, htarget⟩
  · simp only [sendFlowControl, hwritten]
    rw [take_overlay_zero le_rfl, List.take_length]
  · rw [hbytes]
    simp only [isotpSfMaxWithPad] at hlong
    simp only [isotpFfDataBytes]
    omega
  · simp only [sendFlowControl, hwritten]
    rw [length_overlay (by rw [hbytes, hsize]; decide), hsize, isotpMaxPayload]
    omega
  · simp only [sendFlowControl, hwritten]
    rw [length_overlay (by rw [hbytes, hsize]; decide), hsize]

/-- A Single Frame completes the payload behind its pad byte. -/
theorem processRxFrame_singleFrame (htarget : msgTarget id = ctx.source)
    (hle : data.length ≤ isotpSfMaxWithPad) (now : UInt32) :
    Completed (isotpProcessRxFrame ctx (clientSingleFrame id data) now).2 (0 :: data) := by
  have hbyte : ∀ n : Fin 7, UInt8.ofNat (n + 1) &&& isotpPciMask = isotpPciSf ∧
      (UInt8.ofNat (n + 1) &&& isotpPciLenMask).toNat = n + 1 := by decide
  simp only [isotpSfMaxWithPad] at hle
  obtain ⟨hpci, hnibble⟩ := hbyte ⟨data.length, by omega⟩
  have hdata : (clientSingleFrame id data).data =
      UInt8.ofNat (data.length + 1) :: 0 :: padTo 6 0 data := by
    rw [clientSingleFrame, ofBytes_data (by simp only [List.length_cons]; omega)]
    simp [padTo]
  have hb0 : (clientSingleFrame id data).byte 0 = UInt8.ofNat (data.length + 1) := by
    unfold DiveCANMessage.byte
    rw [hdata]
    rfl
  have hevent : pciToEvent ((clientSingleFrame id data).byte 0 &&& isotpPciMask) = .sf := by
    rw [hb0, hpci]
    rfl
  have hdispatch := processRxFrame_of_event (m := clientSingleFrame id data) htarget
    (by decide) hevent now
  have hhandle : (isotpProcessRxFrame ctx (clientSingleFrame id data) now).2 =
      (handleSingleFrame (retarget ctx (clientSingleFrame id data))
        (clientSingleFrame id data)).2 := by
    rw [hdispatch, runState_sf]
  have hshort : ¬ (data.length + 1 = 0 ∨ isotpSfMaxData < data.length + 1) := by
    rw [isotpSfMaxData]
    omega
  have hfits : ¬ (clientSingleFrame id data).length.toNat < data.length + 1 + 1 :=
    Nat.not_lt.mpr (show data.length + 1 + 1 ≤ 8 by omega)
  have hwritten : ((clientSingleFrame id data).data.drop 1).take (data.length + 1) = 0 :: data := by
    rw [hdata, List.drop_succ_cons, List.drop_zero, List.take_succ_cons, take_padTo le_rfl,
      List.take_length]
  rw [hhandle, handleSingleFrame, hb0, hnibble]
  simp only
  rw [if_neg hshort, if_neg hfits]
  refine ⟨rfl, rfl, ?_⟩
  simp only [setIdle, if_true, hwritten]
  change (overlay _ 0 (0 :: data)).take (0 :: data).length = 0 :: data
  rw [take_overlay_zero le_rfl, List.take_length]

end Reassembly

/-! ## A whole send -/

/-- A send that runs to its end completes the payload behind its pad byte. -/
theorem receive_sendFrames {c : Client} {ctx : IsotpContext} {data : List UInt8}
    (htarget : msgTarget (c.idFor c.targetAddress) = ctx.source)
    (hsize : ctx.rxBuffer.length = isotpMaxPayload) (hle : data.length < isotpMaxPayload)
    {grants : List Client.FcGrant} {frames : List CanFrame}
    (h : c.sendFrames data grants = some frames) (times : ℕ → UInt32) :
    Completed (receive ctx times (frames.map ofCan)) (0 :: data) := by
  rw [sendFrames_wire h]
  split
  · next hsf =>
    exact processRxFrame_singleFrame htarget hsf (times 0)
  · next hlong =>
    have hlong := not_le.mp hlong
    have hfirst := processRxFrame_firstFrame htarget hsize hlong hle (times 0)
    have hne : data.drop isotpFfDataWithPad ≠ [] := by
      simp only [isotpSfMaxWithPad, isotpFfDataWithPad] at hlong ⊢
      rw [ne_eq, List.drop_eq_nil_iff]
      omega
    have htotal : data.length + 1 = (0 :: data.take isotpFfDataWithPad).length +
        (data.drop isotpFfDataWithPad).length := by
      rw [List.length_cons, Nat.add_right_comm, ← List.length_append, List.take_append_drop]
    have hall := assemble
      (fun s (seg : ℕ × List UInt8) =>
        receiveStep s (cfFrame (c.idFor c.targetAddress) seg.1 seg.2))
      (fun s p => Receives (c.idFor c.targetAddress) s.1 p) (fun s bytes => Completed s.1 bytes)
      (a := 0) (show 0 < isotpCfDataBytes by decide)
      (fun s _ _ h hlen hopen => h.more hlen hopen (s.2 0))
      (fun s _ _ h hlen hfull => h.done hlen hfull (s.2 0))
      (s := receiveStep (ctx, times) (clientFirstFrame (c.idFor c.targetAddress) data))
      hfirst hne htotal
    rw [List.cons_append, List.take_append_drop] at hall
    rw [receive, List.foldl_cons, cfFrames_eq, List.foldl_map]
    exact hall

end DiveCANHead.IsoTp
