import DiveCANHead.IsoTp.Client
import DiveCANHead.IsoTp.Completion

/-!
# From the firmware's queue to the client

A transmission puts the frames of `wireFrames` on the wire whatever the block
sizes of the grants that pace it (`transmit_wire`), and a client that is
addressed turns these frames into one message (`deliver_wireFrames`).
-/

namespace DiveCANHead.IsoTp

open DiveCANHead.Lib

/-! ## The wire of one transmission -/

/-- Every frame of a request, in order. -/
def wireFrames (r : TxRequest) : List DiveCANMessage :=
  if r.length ≤ isotpSfMaxWithPad then [singleFrame r]
  else firstFrame r :: cfFrames (canId r) 1 (r.data.drop isotpFfDataWithPad)

/-- An idle queue with nothing pending. -/
structure Quiet (q : TxQueue) : Prop where
  state : q.sm.state = .idle
  items : q.msgq.items = []
  wire : q.wire = []

/-- A Continue To Send that the sender of `r` accepts. -/
structure CtsFor (r : TxRequest) (fc : DiveCANMessage) : Prop where
  status : fc.byte 0 = isotpFcCts
  target : msgTarget fc.id = r.source

/-- The grants allow `n` frames. -/
def Granted (n : ℕ) (blocks : List ℕ) : Prop := 0 ∈ blocks ∨ n ≤ blocks.sum

/-- Enqueues a request, polls, and processes the Flow Control frames. -/
def transmit (q : TxQueue) (r : TxRequest) (fcs : List DiveCANMessage) : TxQueue :=
  fcs.foldl (fun q fc => (txQueueProcessFC q fc).2)
    (txQueuePoll (txQueueEnqueue q r.source r.target r.messageId (some r.data)).2)

/-- Where a transmission stands: all of it is on the wire, or a waiting sender has
the rest pending. -/
inductive InFlight (r : TxRequest) (q : TxQueue) : ℕ → Prop
  | done (hs : q.sm.state = .idle) (hq : q.msgq.items = []) (hw : q.wire = wireFrames r) :
      InFlight r q 0
  | waiting {n : ℕ} (hw : Waiting q n) (hc : q.sm.current = r) (hq : q.msgq.items = [])
      (hp : q.wire ++ pendingFrames q.sm = wireFrames r) : InFlight r q n

theorem processFC_idle {q : TxQueue} (h : q.sm.state = .idle) (fc : DiveCANMessage) :
    (txQueueProcessFC q fc).2 = q := by
  simp only [txQueueProcessFC, if_pos h]

/-- An empty queue has nothing to start. -/
theorem tick_empty {q : TxQueue} (hs : q.sm.state = .idle) (hq : q.msgq.items = []) :
    smfRunState q .tick none = { q with scratch := .zero } := by
  simp only [smfRunState, hs, txIdleRun, if_true, BoundedQueue.get_eq_none.mpr hq]

theorem cts_wire {q : TxQueue} (h : q.sm.state = .waitFc) (fc : DiveCANMessage) :
    (smfRunState q .fcCts (some fc)).wire = q.wire ++ (grantRun q fc).2.frames := by
  simp only [smfRunState, h]
  rfl

theorem cts_msgq {q : TxQueue} (h : q.sm.state = .waitFc) (fc : DiveCANMessage) :
    (smfRunState q .fcCts (some fc)).msgq = q.msgq := by
  simp only [smfRunState, h]
  rfl

theorem processFC_cts {r : TxRequest} {q : TxQueue} (hs : q.sm.state = .waitFc)
    (hc : q.sm.current = r) {fc : DiveCANMessage} (hfc : CtsFor r fc) :
    (txQueueProcessFC q fc).2 =
      if (smfRunState q .fcCts (some fc)).sm.state = .idle then
        smfRunState (smfRunState q .fcCts (some fc)) .tick none
      else smfRunState q .fcCts (some fc) := by
  have hidle : ¬ q.sm.state = .idle := by simp [hs]
  have htarget : ¬ (msgTarget fc.id ≠ q.sm.current.source ∧
      msgTarget fc.id ≠ isotpBroadcastAddr) := by
    rw [hc]
    exact fun h => h.1 hfc.target
  have hevent : fcEvent (fc.byte 0) = .fcCts := by
    rw [hfc.status]
    rfl
  have hne : ¬ (TxEvent.fcCts = .none) := nofun
  simp only [txQueueProcessFC, if_neg hidle, if_neg htarget, hevent, if_neg hne]

/-- One grant takes the transmission on, or ends it. -/
theorem inFlight_cts {r : TxRequest} {q : TxQueue} {n : ℕ} (hw : Waiting q n)
    (hc : q.sm.current = r) (hq : q.msgq.items = [])
    (hp : q.wire ++ pendingFrames q.sm = wireFrames r) {fc : DiveCANMessage} (hfc : CtsFor r fc) :
    InFlight r (txQueueProcessFC q fc).2
      (if blockSize fc = 0 ∨ n < blockSize fc then 0 else n - blockSize fc) := by
  have hspec := grantRun_spec hw fc
  have hpend : pendingFrames (granted q.sm fc) = pendingFrames q.sm := rfl
  have hframes := hspec.frames
  have hwire := cts_wire hw.state fc
  have hmsgq := cts_msgq hw.state fc
  rw [processFC_cts hw.state hc hfc]
  split
  · -- the last frame went out, and nothing else is pending
    next hidle =>
    have hdone := (grant_complete_iff hw fc).mp ((grant_idle_iff hw fc).mp hidle)
    have hnil : pendingFrames (grantRun q fc).2.sm = [] := by
      have hleft : framesLeft (granted q.sm fc) = n := hw.left
      rw [← List.length_eq_zero_iff, length_pendingFrames, hspec.left, quota_granted hw, hleft]
      split
      · omega
      · next h0 =>
        have := hdone.resolve_left h0
        omega
    rw [if_pos hdone, tick_empty hidle (by rw [hmsgq]; exact hq)]
    refine .done hidle (by rw [← hq, ← hmsgq]) ?_
    rw [hnil, List.append_nil, hpend] at hframes
    rw [← hp, ← hframes]
    exact hwire
  · next hidle =>
    have hopen := mt (grant_idle_iff hw fc).mpr hidle
    have hnot := mt (grant_complete_iff hw fc).mpr hopen
    obtain ⟨hb, hle⟩ := not_or.mp hnot
    rw [if_neg hnot]
    have hsm := cts_sm hw.state fc
    rw [if_neg hopen] at hsm
    refine .waiting (grant_waiting hw fc hb (not_lt.mp hle)) ?_ (by rw [hmsgq, hq]) ?_
    · rw [hsm, hspec.current]
      exact hc
    · rw [hwire, hsm, List.append_assoc, hframes, hpend, hp]

/-- Grants that allow all the frames put the whole request on the wire. -/
theorem inFlight_run {r : TxRequest} {q : TxQueue} {n : ℕ} (h : InFlight r q n)
    {fcs : List DiveCANMessage} (hfc : ∀ fc ∈ fcs, CtsFor r fc)
    (hg : n = 0 ∨ Granted n (fcs.map blockSize)) :
    (fcs.foldl (fun q fc => (txQueueProcessFC q fc).2) q).wire = wireFrames r := by
  induction fcs generalizing q n with
  | nil =>
    have hn : n = 0 := by simpa [Granted] using hg
    subst hn
    cases h with
    | done _ _ hw => exact hw
    | waiting hw _ _ hp =>
      have hnil : pendingFrames q.sm = [] := by
        rw [← List.length_eq_zero_iff, length_pendingFrames, hw.left]
      rwa [hnil, List.append_nil] at hp
  | cons fc fcs ih =>
    have hhead := hfc fc List.mem_cons_self
    have htail : ∀ f ∈ fcs, CtsFor r f := fun f hf => hfc f (List.mem_cons_of_mem _ hf)
    rw [List.foldl_cons]
    cases h with
    | done hs hq hw =>
      rw [processFC_idle hs]
      exact ih (.done hs hq hw) htail (.inl rfl)
    | waiting hw hc hq hp =>
      refine ih (inFlight_cts hw hc hq hp hhead) htail ?_
      split
      · exact .inl rfl
      · next hnot =>
        obtain ⟨hb, hle⟩ := not_or.mp hnot
        simp only [Granted, List.map_cons, List.mem_cons, List.sum_cons] at hg
        rcases hg with rfl | (h0 | h0) | hsum
        · exact .inl (Nat.zero_sub _)
        · exact absurd h0.symm hb
        · exact .inr (.inl h0)
        · exact .inr (.inr (by omega))

/-- A poll starts the request that was enqueued in a quiet machine. -/
theorem poll_enqueue {q : TxQueue} (hq : Quiet q) {r : TxRequest} (hpos : 0 < r.length)
    (hle : r.length ≤ isotpTxBufferSize) :
    ∃ q', q'.sm = q.sm ∧ q'.msgq.items = [] ∧ q'.wire = [] ∧
      txQueuePoll (txQueueEnqueue q r.source r.target r.messageId (some r.data)).2 =
        startTransfer (makeCurrent q' r) := by
  have hlen : ¬(r.data.length = 0 ∨ r.data.length > isotpTxBufferSize) := by
    simp only [TxRequest.length] at hpos hle
    omega
  have hroom : q.msgq.full = false := by
    simp [BoundedQueue.full, hq.items, isotpTxQueueSize]
  obtain ⟨msgq, hput, hitems⟩ := BoundedQueue.put_of_not_full hroom r
  rw [hq.items, List.nil_append] at hitems
  obtain ⟨rest, hget, hrest⟩ : ∃ rest : BoundedQueue TxRequest isotpTxQueueSize,
      msgq.get = some (r, rest) ∧ rest.items = [] :=
    ⟨.empty, BoundedQueue.get_eq_some.mpr hitems, rfl⟩
  refine ⟨{ q with msgq := rest, scratch := r }, rfl, hrest, hq.wire, ?_⟩
  have henq : (txQueueEnqueue q r.source r.target r.messageId (some r.data)).2 =
      { q with scratch := r, msgq := msgq } := by
    simp only [txQueueEnqueue, if_neg hlen, putOrRecover, putScratch, hput, if_true]
  rw [henq, txQueuePoll]
  simp only [smfRunState, hq.state, txIdleRun, if_true, hget]

/-- Whatever the block sizes that pace it, a transmission puts the frames of its
request on the wire. -/
theorem transmit_wire {q : TxQueue} (hq : Quiet q) {r : TxRequest} (hpos : 0 < r.length)
    (hle : r.length ≤ isotpTxBufferSize) {fcs : List DiveCANMessage} (hfc : ∀ fc ∈ fcs, CtsFor r fc)
    (hg : r.length ≤ isotpSfMaxWithPad ∨ r.target = isotpBroadcastAddr ∨
      Granted (cfCount r.length) (fcs.map blockSize)) :
    (transmit q r fcs).wire = wireFrames r := by
  obtain ⟨q', hsm, hitems, hwire, hpoll⟩ := poll_enqueue hq hpos hle
  rw [transmit, hpoll]
  have hstart := startTransfer_wire (q := makeCurrent q' r) rfl
  have hmsgq : (startTransfer (makeCurrent q' r)).msgq.items = [] := by
    rw [startTransfer_msgq]
    exact hitems
  change _ = q'.wire ++ startFrames r at hstart
  rw [hwire, List.nil_append] at hstart
  by_cases hnow : r.length ≤ isotpSfMaxWithPad ∨ r.target = isotpBroadcastAddr
  · -- all of it went out at once
    refine inFlight_run (.done ?_ hmsgq ?_) hfc (.inl rfl)
    · rw [startTransfer_state hnow]
      exact (congrArg TxSm.state hsm).trans hq.state
    · rw [hstart, startFrames, wireFrames]
      split_ifs with h1 h2
      · rfl
      · rfl
      · exact absurd hnow (not_or.mpr ⟨h1, h2⟩)
  · obtain ⟨hlong, htarget⟩ := not_or.mp hnow
    have hsend := startTransfer_addressed (q := makeCurrent q' r) (not_le.mp hlong) htarget
    have hwait := begin_waiting q' (not_le.mp hlong) htarget
    refine inFlight_run (.waiting hwait ?_ hmsgq ?_) hfc
      (.inr ((hg.resolve_left hlong).resolve_left htarget))
    · rw [begin, hsend]
      rfl
    · rw [begin, hstart, startFrames, wireFrames, if_neg hlong, if_neg hlong, if_neg htarget, hsend]
      rfl

/-! ## The client -/

/-- A frame as the client's CAN layer hands it over. -/
def toCan (m : DiveCANMessage) : CanFrame := { id := m.id, data := m.data }

def deliver (c : Client) (m : DiveCANMessage) : Client := c.processFrame (toCan m)

/-- The client takes the frames of `r` as its peer's. -/
structure AddressedTo (c : Client) (r : TxRequest) : Prop where
  base : canId r &&& 0x1FFF0000 = c.messageId
  target : (canId r >>> 8).toUInt8 &&& 0x0F = c.sourceAddress &&& 0x0F
  source : (canId r).toUInt8 = c.targetAddress ∨ c.targetAddress = 0xFF

section Deliver

variable {c : Client} {r : TxRequest}

/-- An addressed frame that is not a Flow Control is dispatched on its PCI byte. -/
theorem processFrame_eq (ha : AddressedTo c r) {f : CanFrame} (hext : f.extended = true)
    (hrem : f.remote = false) (hid : f.id = canId r)
    (hfc : f.data.getD 0 0 &&& isotpPciMask ≠ isotpPciFc) :
    c.processFrame f =
      if f.data.getD 0 0 &&& isotpPciMask = isotpPciSf then c.handleSingleFrame f.data
      else if f.data.getD 0 0 &&& isotpPciMask = isotpPciFf then
        c.handleFirstFrame f.data (canId r).toUInt8
      else if f.data.getD 0 0 &&& isotpPciMask = isotpPciCf then
        match c.rx with
        | some rx =>
          if (canId r).toUInt8 = rx.source then c.handleConsecutiveFrame rx f.data else c
        | none => c
      else c := by
  have hfilter : ¬ (f.extended = false ∨ f.remote = true ∨ f.id &&& 0x1FFF0000 ≠ c.messageId ∨
      (f.id >>> 8).toUInt8 &&& 0x0F ≠ c.sourceAddress &&& 0x0F) := by
    rw [hext, hrem, hid]
    rintro (h | h | h | h)
    · cases h
    · cases h
    · exact h ha.base
    · exact h ha.target
  have hsource : ¬ (f.id.toUInt8 ≠ c.targetAddress ∧ c.targetAddress ≠ 0xFF) := by
    rw [hid]
    exact fun h => ha.source.elim h.1 h.2
  have hpci : ¬ f.data.getD 0 0 &&& 0xF0 = 0x30 := hfc
  unfold Client.processFrame
  rw [if_neg hfilter]
  simp only
  rw [if_neg hpci, if_neg hsource, hid]
  rfl

theorem deliver_eq (ha : AddressedTo c r) {m : DiveCANMessage} (hid : m.id = canId r)
    (hfc : m.byte 0 &&& isotpPciMask ≠ isotpPciFc) :
    deliver c m =
      if m.byte 0 &&& isotpPciMask = isotpPciSf then c.handleSingleFrame m.data
      else if m.byte 0 &&& isotpPciMask = isotpPciFf then
        c.handleFirstFrame m.data (canId r).toUInt8
      else if m.byte 0 &&& isotpPciMask = isotpPciCf then
        match c.rx with
        | some rx => if (canId r).toUInt8 = rx.source then c.handleConsecutiveFrame rx m.data else c
        | none => c
      else c :=
  processFrame_eq ha rfl rfl hid hfc

/-- A Single Frame is one message. -/
theorem deliver_singleFrame (ha : AddressedTo c r) (hpos : 0 < r.length)
    (hle : r.length ≤ isotpSfMaxWithPad) :
    deliver c (singleFrame r) = c.emit (.message r.data) := by
  have hbyte : ∀ n : Fin 7, (UInt8.ofNat n + 1) &&& isotpPciMask = isotpPciSf ∧
      ((UInt8.ofNat n + 1) &&& 0x0F).toNat = n + 1 := by decide
  simp only [TxRequest.length, isotpSfMaxWithPad] at hpos hle
  obtain ⟨hpci, hlen⟩ := hbyte ⟨r.data.length, by omega⟩
  have hdata : (singleFrame r).data =
      (UInt8.ofNat r.data.length + 1) :: 0 :: padTo 6 0 r.data := by
    rw [singleFrame, ofBytes_data (by simp only [List.length_cons]; omega)]
    simp [padTo, TxRequest.length]
  have hb0 : (singleFrame r).byte 0 = UInt8.ofNat r.data.length + 1 := by
    simp only [DiveCANMessage.byte, hdata]
    rfl
  rw [deliver_eq ha rfl (by rw [hb0, hpci]; decide), hb0, if_pos hpci]
  simp only [Client.handleSingleFrame, hdata, List.getD_cons_zero, hlen, List.drop_succ_cons,
    List.drop_zero]
  rw [if_pos (by push_cast; omega)]
  have htake : ((((r.data.length + 1 : ℕ) : ℤ)) - 1).toNat = r.data.length := by omega
  rw [htake, take_padTo le_rfl, List.take_length]

/-- The length a First Frame announces counts the pad byte. -/
theorem firstFrame_data (hlong : isotpSfMaxWithPad < r.length)
    (hle : r.length ≤ isotpTxBufferSize) :
    ∃ hi lo : UInt8, (firstFrame r).data = hi :: lo :: 0 :: r.data.take isotpFfDataWithPad ∧
      hi &&& isotpPciMask = isotpPciFf ∧ (hi &&& 0x0F).toNat * 256 + lo.toNat = r.length + 1 := by
  simp only [isotpSfMaxWithPad, isotpTxBufferSize] at hlong hle
  have hlen : (r.data.take isotpFfDataWithPad).length = 5 := by
    rw [List.length_take]
    simp only [TxRequest.length, isotpFfDataWithPad] at hlong ⊢
    omega
  have htotal : (UInt16.ofNat r.length + 1).toNat = r.length + 1 := by
    rw [UInt16.toNat_add, UInt16.toNat_ofNat_of_lt' (show r.length < 65536 by omega)]
    exact Nat.mod_eq_of_lt (show r.length + 1 < 65536 by omega)
  have hff : isotpPciFf ∈ [isotpPciSf, isotpPciFf, isotpPciCf] := by simp
  obtain ⟨hpci, hnibble⟩ := pci_or_masked ((UInt16.ofNat r.length + 1) >>> 8).toUInt8 hff
  refine ⟨isotpPciFf ||| (((UInt16.ofNat r.length + 1) >>> 8).toUInt8 &&& 0x0F),
    (UInt16.ofNat r.length + 1).toUInt8, ?_, hpci, ?_⟩
  · rw [firstFrame, ofBytes_data (by simp [hlen]), padTo_of_length_eq (by simp [hlen])]
    rfl
  · have hshift : ((UInt16.ofNat r.length + 1) >>> 8).toNat = (r.length + 1) / 256 := by
      rw [UInt16.toNat_shiftRight, htotal]
      exact Nat.shiftRight_eq_div_pow _ _
    change (_ &&& isotpPciLenMask).toNat * 256 + _ = _
    rw [hnibble, and_mask_toNat, UInt16.toNat_toUInt8, UInt16.toNat_toUInt8, hshift, htotal]
    omega

/-! ## Reassembly -/

/-- The client is reassembling `p`, and has emitted `events` so far. -/
structure Reassembling (r : TxRequest) (events : List ClientEvent) (c : Client)
    (p : Partial UInt8) : Prop where
  rx : c.rx = some ⟨p.total, p.bytes, p.seq, (canId r).toUInt8⟩
  seq_lt : p.seq < 16
  bytes_le : p.bytes.length ≤ p.total
  events_eq : c.events = events
  addressed : AddressedTo c r

/-- A First Frame starts a reassembly, whatever the client was doing. -/
theorem deliver_firstFrame (ha : AddressedTo c r) (hlong : isotpSfMaxWithPad < r.length)
    (hle : r.length ≤ isotpTxBufferSize) :
    Reassembling r c.events (deliver c (firstFrame r))
      ⟨r.length, r.data.take isotpFfDataWithPad, 1⟩ := by
  obtain ⟨hi, lo, hdata, hpci, htotal⟩ := firstFrame_data hlong hle
  have hb0 : (firstFrame r).byte 0 = hi := by
    unfold DiveCANMessage.byte
    rw [hdata]
    rfl
  have hnfc : isotpPciFf ≠ isotpPciFc := by decide
  have hnsf : isotpPciFf ≠ isotpPciSf := by decide
  have hmin : (min 5 ((r.length : ℤ))).toNat = isotpFfDataWithPad := by
    simp only [isotpSfMaxWithPad, isotpFfDataWithPad] at hlong ⊢
    omega
  have hff : deliver c (firstFrame r) =
      c.handleFirstFrame (firstFrame r).data (canId r).toUInt8 := by
    rw [deliver_eq ha rfl (by rw [hb0, hpci]; exact hnfc), hb0, hpci, if_neg hnsf, if_pos rfl]
  have hlen : ((hi &&& 0x0F).toNat : ℤ) * 256 + (lo.toNat : ℤ) - 1 = r.length := by omega
  have htake : ((r.data.take isotpFfDataWithPad).take isotpFfDataWithPad) =
      r.data.take isotpFfDataWithPad := by rw [List.take_take, Nat.min_self]
  rw [hff, hdata]
  refine ⟨?_, show 1 < 16 by decide, ?_, rfl, ⟨ha.base, ha.target, ha.source⟩⟩
  · simp only [Client.handleFirstFrame, List.getD_cons_zero, List.getD_cons_succ,
      List.drop_succ_cons, List.drop_zero, hlen, hmin, htake]
  · rw [List.length_take]
    exact Nat.min_le_right _ _

variable {events : List ClientEvent} {p : Partial UInt8}

/-- The client appends a segment as `Partial.accept` does. -/
theorem appendFrame_eq (hle : p.bytes.length ≤ p.total) (source b : UInt8) {data : List UInt8}
    (hlen : data.length = isotpCfDataBytes) :
    Client.appendFrame ⟨p.total, p.bytes, p.seq, source⟩ (b :: data) =
      ⟨(p.accept 16 data).total, (p.accept 16 data).bytes, (p.accept 16 data).seq, source⟩ := by
  simp only [isotpCfDataBytes] at hlen
  have htake : data.take (min 7 ((p.total : ℤ) - p.bytes.length)).toNat =
      data.take (p.total - p.bytes.length) := by
    rw [List.take_eq_take_iff, hlen]
    omega
  simp only [Client.appendFrame, Partial.accept, List.drop_succ_cons, List.drop_zero, htake]

theorem deliver_cfFrame (h : Reassembling r events c p) {data : List UInt8}
    (hlen : data.length = isotpCfDataBytes) :
    deliver c (cfFrame (canId r) p.seq data) =
      let q := p.accept 16 data
      if q.complete then ({ c with rx := none }).emit (.message (q.bytes.take q.total))
      else { c with rx := some ⟨q.total, q.bytes, q.seq, (canId r).toUInt8⟩ } := by
  obtain ⟨hpci, hseq⟩ := cfFrame_pci (canId r) h.seq_lt data
  have hdata := cfFrame_data (canId r) p.seq (le_of_eq hlen)
  rw [padTo_of_length_eq hlen] at hdata
  have hnfc : isotpPciCf ≠ isotpPciFc := by decide
  have hnsf : isotpPciCf ≠ isotpPciSf := by decide
  have hnff : isotpPciCf ≠ isotpPciFf := by decide
  have hb0 : (((isotpPciCf ||| UInt8.ofNat p.seq) &&& 0x0F)).toNat = p.seq := by
    have hmask : (isotpPciCf ||| UInt8.ofNat p.seq) &&& 0x0F = UInt8.ofNat p.seq := by
      rw [DiveCANMessage.byte, hdata] at hseq
      exact hseq
    have := h.seq_lt
    rw [hmask, UInt8.toNat_ofNat_of_lt' (show p.seq < 256 by omega)]
  rw [deliver_eq h.addressed rfl (by rw [hpci]; exact hnfc), hpci, if_neg hnsf, if_neg hnff,
    if_pos rfl, h.rx]
  simp only [if_true]
  unfold Client.handleConsecutiveFrame
  rw [hdata, List.getD_cons_zero, if_neg (by simpa using hb0), appendFrame_eq h.bytes_le _ _ hlen]
  have hiff : ((p.accept 16 data).total : ℤ) ≤ (p.accept 16 data).bytes.length ↔
      (p.accept 16 data).complete := Int.ofNat_le
  by_cases hfull : (p.accept 16 data).complete
  · simp only [if_pos hfull, if_pos (hiff.mpr hfull), Int.toNat_natCast]
  · simp only [if_neg hfull, if_neg (mt hiff.mp hfull)]

/-- A segment that leaves the message open is kept. -/
theorem Reassembling.more (h : Reassembling r events c p) {data : List UInt8}
    (hlen : data.length = isotpCfDataBytes) (hopen : ¬ (p.accept 16 data).complete) :
    Reassembling r events (deliver c (cfFrame (canId r) p.seq data)) (p.accept 16 data) := by
  rw [deliver_cfFrame h hlen]
  simp only [if_neg hopen]
  refine ⟨rfl, Nat.mod_lt _ (by decide), ?_, h.events_eq,
    ⟨h.addressed.base, h.addressed.target, h.addressed.source⟩⟩
  exact (not_le.mp hopen).le

/-- The segment that completes the message emits it. -/
theorem Reassembling.done (h : Reassembling r events c p) {data : List UInt8}
    (hlen : data.length = isotpCfDataBytes) (hfull : (p.accept 16 data).complete) :
    (deliver c (cfFrame (canId r) p.seq data)).events =
      events ++ [.message (p.accept 16 data).bytes] := by
  have hle : (p.accept 16 data).bytes.length ≤ (p.accept 16 data).total := by
    have := h.bytes_le
    simp only [Partial.accept, List.length_append, List.length_take]
    omega
  rw [deliver_cfFrame h hlen]
  simp only [if_pos hfull, Client.emit, h.events_eq, List.take_of_length_le hle]

/-- The frames of a request are one message to the client they are addressed to,
whatever it was receiving before. -/
theorem deliver_wireFrames (ha : AddressedTo c r) (hpos : 0 < r.length)
    (hle : r.length ≤ isotpTxBufferSize) :
    ((wireFrames r).foldl deliver c).events = c.events ++ [.message r.data] := by
  unfold wireFrames
  split
  · next hsf =>
    rw [List.foldl_cons, List.foldl_nil, deliver_singleFrame ha hpos hsf]
    rfl
  · next hlong =>
    have hlong := not_le.mp hlong
    have hfirst := deliver_firstFrame ha hlong hle
    have hne : r.data.drop isotpFfDataWithPad ≠ [] := by
      simp only [isotpSfMaxWithPad, isotpFfDataWithPad, TxRequest.length] at hlong ⊢
      rw [ne_eq, List.drop_eq_nil_iff]
      omega
    have htotal : r.length = (r.data.take isotpFfDataWithPad).length +
        (r.data.drop isotpFfDataWithPad).length := by
      rw [← List.length_append, List.take_append_drop]
      rfl
    have hall := assemble
      (fun c (seg : ℕ × List UInt8) => deliver c (cfFrame (canId r) seg.1 seg.2))
      (Reassembling r c.events) (fun d bytes => d.events = c.events ++ [.message bytes])
      (a := 0) (show 0 < isotpCfDataBytes by decide)
      (fun _ _ _ h hlen hopen => Reassembling.more h hlen hopen)
      (fun _ _ _ h hlen hfull => Reassembling.done h hlen hfull) hfirst hne htotal
    rw [List.foldl_cons, cfFrames_eq, List.foldl_map]
    rw [List.take_append_drop] at hall
    exact hall

end Deliver

end DiveCANHead.IsoTp
