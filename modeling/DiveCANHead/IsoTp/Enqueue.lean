import DiveCANHead.IsoTp.Send

/-!
# What an acknowledged enqueue leaves in the queue

`AckLaw` is the law of a queue in front of a wire: what was pending is either
sent, oldest first, or still pending, and the new request is the last one.
`enqueue_acknowledged_iff` says in which states the code keeps it. On the
recovery path the tick dequeues into the scratch buffer that holds the new
request, so the retried put repeats the request that was just sent.
-/

namespace DiveCANHead.IsoTp

open DiveCANHead.Lib

/-- From `q` to `q'` the pending requests `sent` went out and `r` was accepted. -/
def AckLaw (q : TxQueue) (r : TxRequest) (q' : TxQueue) : Prop :=
  ∃ sent rest, q.msgq.items = sent ++ rest ∧ q'.msgq.items = rest ++ [r] ∧
    q'.wire = q.wire ++ sent.flatMap startFrames

theorem AckLaw.last {q q' : TxQueue} {r : TxRequest} (h : AckLaw q r q') :
    q'.msgq.items.getLast? = some r := by
  obtain ⟨sent, rest, -, hitems, -⟩ := h
  rw [hitems, List.getLast?_concat]

/-- The queue is full behind a transfer whose Flow Control never came. -/
def stalled (q : TxQueue) : Bool := q.msgq.full && decide (q.sm.state = .waitFc) && timedOut q

/-! ## The put and its recovery -/

theorem putScratch_of_full {q : TxQueue} (h : q.msgq.full = true) : putScratch q = (false, q) := by
  rw [putScratch, BoundedQueue.put_of_full h]

theorem putScratch_of_not_full {q : TxQueue} (h : q.msgq.full = false) :
    ∃ q', putScratch q = (true, q') ∧ q'.msgq.items = q.msgq.items ++ [q.scratch] ∧
      q'.wire = q.wire := by
  obtain ⟨msgq, hput, hitems⟩ := BoundedQueue.put_of_not_full h q.scratch
  rw [putScratch, hput]
  exact ⟨_, rfl, hitems, rfl⟩

theorem putOrRecover_of_not_full {q : TxQueue} (h : q.msgq.full = false) :
    ∃ q', putOrRecover q = (true, q') ∧ q'.msgq.items = q.msgq.items ++ [q.scratch] ∧
      q'.wire = q.wire := by
  obtain ⟨q', hput, hq'⟩ := putScratch_of_not_full h
  refine ⟨q', ?_, hq'⟩
  simp only [putOrRecover, hput, if_true]

/-- A full queue that is not stalled refuses. -/
theorem putOrRecover_refused {q : TxQueue} (h : q.msgq.full = true) (hs : stalled q = false) :
    (putOrRecover q).1 = false := by
  have hwait : ¬(q.sm.state ≠ .idle ∧ timedOut q = true) := by
    rintro ⟨hstate, hto⟩
    cases hst : q.sm.state with
    | idle => exact hstate hst
    | waitFc => simp [stalled, h, hst, hto] at hs
  simp only [putOrRecover, putScratch_of_full h, Bool.false_eq_true, if_false, if_neg hwait]

/-- The tick of the recovery starts the oldest request. -/
theorem idle_tick {q : TxQueue} {oldest : TxRequest}
    {rest : BoundedQueue TxRequest isotpTxQueueSize}
    (hs : q.sm.state = .idle) (hget : q.msgq.get = some (oldest, rest)) :
    smfRunState q .tick none = startTransfer (makeCurrent { q with msgq := rest } oldest) := by
  simp only [smfRunState, hs, txIdleRun, if_true, hget]

/-- A stalled queue sends its oldest request and puts it in again. -/
theorem putOrRecover_stalled {q : TxQueue} (hs : stalled q = true) :
    ∃ oldest rest q', q.msgq.items = oldest :: rest ∧ putOrRecover q = (true, q') ∧
      q'.msgq.items = rest ++ [oldest] ∧ q'.wire = q.wire ++ startFrames oldest := by
  simp only [stalled, Bool.and_eq_true, decide_eq_true_eq] at hs
  obtain ⟨⟨hfull, hstate⟩, hto⟩ := hs
  have hwait : q.sm.state ≠ .idle ∧ timedOut q = true := ⟨by simp [hstate], hto⟩
  cases hget : q.msgq.get with
  | none =>
    rw [BoundedQueue.get_eq_none] at hget
    simp [BoundedQueue.full, hget, isotpTxQueueSize] at hfull
  | some p =>
    obtain ⟨oldest, rest⟩ := p
    have hstart := idle_tick (q := { q with sm := setState q.sm .idle }) rfl hget
    set started := startTransfer
      (makeCurrent { q with sm := setState q.sm .idle, msgq := rest } oldest)
    -- the scratch buffer now holds the request that was just started
    have hmsgq : started.msgq = rest := startTransfer_msgq _
    have hscratch : started.scratch = oldest := startTransfer_scratch _
    have hwire : started.wire = q.wire ++ startFrames oldest := startTransfer_wire rfl
    have hroom : started.msgq.full = false := by
      rw [hmsgq]
      exact BoundedQueue.not_full_of_get hget
    obtain ⟨q', hput, hitems', hwire'⟩ := putScratch_of_not_full hroom
    refine ⟨oldest, rest.items, q', BoundedQueue.get_eq_some.mp hget, ?_, ?_, ?_⟩
    · simp only [putOrRecover, putScratch_of_full hfull, Bool.false_eq_true, if_false,
        if_pos hwait, hstart, hput]
    · rw [hitems', hmsgq, hscratch]
    · rw [hwire', hwire]

/-! ## The acknowledgement -/

theorem enqueue_payload (q : TxQueue) (source target : UInt8) (messageId : UInt32)
    (payload : Payload isotpTxBufferSize) :
    txQueueEnqueue q source target messageId (some payload.bytes) =
      putOrRecover { q with scratch := ⟨payload.bytes, source, target, messageId⟩ } := by
  have hlen : ¬(payload.bytes.length = 0 ∨ payload.bytes.length > isotpTxBufferSize) := by
    have := payload.pos
    have := payload.le
    omega
  simp only [txQueueEnqueue, if_neg hlen]

/-- An enqueue that returns true keeps the law exactly when it did not take the
recovery path, or the request that path repeats is equal to the new one. -/
theorem enqueue_acknowledged_iff (q : TxQueue) (source target : UInt8) (messageId : UInt32)
    (payload : Payload isotpTxBufferSize) :
    (∀ q', txQueueEnqueue q source target messageId (some payload.bytes) = (true, q') →
      AckLaw q ⟨payload.bytes, source, target, messageId⟩ q') ↔
    (stalled q = false ∨
      q.msgq.items.head? = some ⟨payload.bytes, source, target, messageId⟩) := by
  rw [enqueue_payload]
  set r : TxRequest := ⟨payload.bytes, source, target, messageId⟩
  cases hs : stalled q with
  | true =>
    obtain ⟨oldest, rest, q', hitems, heq, hitems', hwire⟩ :=
      putOrRecover_stalled (q := { q with scratch := r }) hs
    rw [show q.msgq.items = oldest :: rest from hitems, List.head?_cons, heq]
    simp only [Bool.true_eq_false, false_or, Option.some.injEq]
    constructor
    · intro h
      have hlast := (h q' rfl).last
      rw [hitems', List.getLast?_concat] at hlast
      exact Option.some.inj hlast
    · rintro rfl q'' heq'
      obtain rfl : q' = q'' := congrArg Prod.snd heq'
      exact ⟨[r], rest, hitems, hitems', by simpa using hwire⟩
  | false =>
    simp only [true_or, iff_true]
    intro q' heq
    cases hfull : q.msgq.full with
    | true =>
      have hfalse := putOrRecover_refused (q := { q with scratch := r }) hfull hs
      rw [heq] at hfalse
      cases hfalse
    | false =>
      obtain ⟨q'', heq', hitems, hwire⟩ :=
        putOrRecover_of_not_full (q := { q with scratch := r }) hfull
      obtain rfl : q' = q'' := congrArg Prod.snd (heq.symm.trans heq')
      exact ⟨[], q.msgq.items, rfl, hitems, by simpa using hwire⟩

/-! ## A lost request -/

def addressedRequest (q : TxQueue) (data : List UInt8) : TxQueue :=
  (txQueueEnqueue q 4 1 menuId (some data)).2

/-- A multi-frame transfer whose Flow Control never comes, two requests behind
it, and the clock past the N_Bs deadline. -/
def expired : TxQueue :=
  let sending := txQueuePoll (addressedRequest (.boot 0) [1, 2, 3, 4, 5, 6, 7, 8])
  { addressedRequest (addressedRequest sending [0xB]) [0xC] with now := 1001 }

/-- The new request is acknowledged and lost; the oldest is sent and queued
again. -/
theorem enqueue_loses_request :
    (txQueueEnqueue expired 4 1 menuId (some [0xD])).1 = true ∧
      (txQueueEnqueue expired 4 1 menuId (some [0xD])).2.msgq.items =
        [⟨[0xC], 4, 1, menuId⟩, ⟨[0xB], 4, 1, menuId⟩] ∧
      ¬ AckLaw expired ⟨[0xD], 4, 1, menuId⟩
        (txQueueEnqueue expired 4 1 menuId (some [0xD])).2 := by
  refine ⟨by decide +kernel, by decide +kernel, fun h => ?_⟩
  have hlast := h.last
  revert hlast
  decide +kernel

end DiveCANHead.IsoTp
