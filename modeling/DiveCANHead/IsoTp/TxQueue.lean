import DiveCANHead.IsoTp.Message
import DiveCANHead.Lib.BoundedQueue

/-!
# The ISO-TP transmit queue (`isotp_tx_queue.c`)

One state machine serialises all transmissions: in `idle` a tick takes the
oldest request and sends it (a Single Frame, a whole broadcast, or the First
Frame of an addressed transfer); in `waitFc` a Continue To Send lets it send
Consecutive Frames. `wire` is every frame sent so far and `now` is
`k_uptime_get_32`, which a pacing sleep advances by its minimum.

`scratch` is the one static request buffer that `enqueue` fills and `txIdleRun`
dequeues into.
-/

namespace DiveCANHead.IsoTp

open DiveCANHead.Lib

def isotpTxQueueSize : ℕ := 2

def isotpTxBufferSize : ℕ := 256

/-- `ISOTPTxRequest_t`. The buffer's bytes from `length` on are zero, so `data`
is the part before them. -/
structure TxRequest where
  data : List UInt8
  source : UInt8
  target : UInt8
  messageId : UInt32
  deriving DecidableEq, Repr

def TxRequest.length (r : TxRequest) : ℕ := r.data.length

/-- Data that a buffer of `cap` bytes can hold, and that is not empty. -/
structure Payload (cap : ℕ) where
  bytes : List UInt8
  pos : 0 < bytes.length
  le : bytes.length ≤ cap

/-- The buffer after `memset`. -/
def TxRequest.zero : TxRequest := ⟨[], 0, 0, 0⟩

inductive TxState where
  | idle
  | waitFc
  deriving DecidableEq, Repr

inductive TxEvent where
  | none
  | tick
  | fcCts
  | fcWait
  | fcOvflw
  deriving DecidableEq, Repr

/-- `TxSmCtx_t`; the event and its message are passed to the run. -/
structure TxSm where
  state : TxState := .idle
  current : TxRequest := .zero
  txBytesSent : ℕ := 0
  txSequenceNumber : UInt8 := 0
  txBlockSize : UInt8 := 0
  txStmin : UInt8 := 0
  txBlockCounter : ℕ := 0
  txLastFrameTime : UInt32 := 0
  deriving DecidableEq, Repr

structure TxQueue where
  sm : TxSm
  msgq : BoundedQueue TxRequest isotpTxQueueSize
  scratch : TxRequest
  wire : List DiveCANMessage
  now : UInt32
  deriving DecidableEq, Repr

/-! ## Wire-format helpers -/

def canId (tx : TxRequest) : UInt32 :=
  tx.messageId ||| (tx.target.toUInt32 <<< 8) ||| tx.source.toUInt32

def singleFrame (tx : TxRequest) : DiveCANMessage :=
  .ofBytes (canId tx) isotpCanFrameLen ((UInt8.ofNat tx.length + 1) :: 0 :: tx.data)

def firstFrame (tx : TxRequest) : DiveCANMessage :=
  let totalLength := UInt16.ofNat tx.length + 1
  .ofBytes (canId tx) isotpCanFrameLen
    ((isotpPciFf ||| ((totalLength >>> 8).toUInt8 &&& isotpPciLenMask)) ::
      totalLength.toUInt8 :: 0 :: tx.data.take isotpFfDataWithPad)

/-- The frame that carries these bytes under the number after `sequenceNumber`. -/
def consecutiveFrame (tx : TxRequest) (sequenceNumber : UInt8) (bytes : List UInt8) :
    DiveCANMessage :=
  .ofBytes (canId tx) isotpCanFrameLen
    ((isotpPciCf ||| ((sequenceNumber + 1) &&& isotpSeqMask)) :: bytes)

/-! ## Consecutive Frames -/

/-- What `send_consecutive_frames` leaves: the state machine's context, the
clock, the frames it sent and whether it hit a block boundary. -/
structure CfRun where
  sm : TxSm
  now : UInt32
  frames : List DiveCANMessage
  waitingForFC : Bool

/-- The pacing sleep before a frame, in milliseconds. -/
def stminMs (sm : TxSm) : UInt32 :=
  if sm.txStmin ≤ isotpStminMsMax then sm.txStmin.toUInt32 else 0

/-- The bytes the next frame carries. -/
def nextBytes (sm : TxSm) : List UInt8 :=
  (sm.current.data.drop sm.txBytesSent).take isotpCfDataBytes

/-- The context after one Consecutive Frame sent at `now`. -/
def afterFrame (sm : TxSm) (now : UInt32) : TxSm :=
  { sm with
    txBytesSent := sm.txBytesSent + (nextBytes sm).length
    txLastFrameTime := now
    txSequenceNumber := (sm.txSequenceNumber + 1) &&& isotpSeqMask
    txBlockCounter := sm.txBlockCounter + 1 }

def blockDone (sm : TxSm) : Bool :=
  sm.txBlockSize != 0 && decide (sm.txBlockSize.toNat ≤ sm.txBlockCounter)

/-- The loop of `send_consecutive_frames`; every iteration sends a byte, so the
number of bytes left bounds it. -/
def sendLoop : ℕ → TxSm → UInt32 → CfRun
  | 0, sm, now => ⟨sm, now, [], false⟩
  | left + 1, sm, now =>
    if sm.txBytesSent < sm.current.length then
      let now := now + stminMs sm
      let cf := consecutiveFrame sm.current sm.txSequenceNumber (nextBytes sm)
      let sm := afterFrame sm now
      if blockDone sm then ⟨sm, now, [cf], true⟩
      else
        let run := sendLoop left sm now
        { run with frames := cf :: run.frames }
    else ⟨sm, now, [], false⟩

/-- The frames of one grant, and whether the loop reports the payload done. -/
def sendConsecutiveFrames (sm : TxSm) (now : UInt32) : Bool × CfRun :=
  let run := sendLoop (sm.current.length - sm.txBytesSent) sm now
  (!run.waitingForFC, run)

/-! ## State actions -/

def txIdleEntry (sm : TxSm) : TxSm :=
  { sm with
    txBytesSent := 0
    txSequenceNumber := 0
    txBlockSize := 0
    txStmin := 0
    txBlockCounter := 0
    txLastFrameTime := 0 }

/-- `smf_set_state` with the entry action of the new state. -/
def setState (sm : TxSm) : TxState → TxSm
  | .idle => { txIdleEntry sm with state := .idle }
  | .waitFc => { sm with state := .waitFc }

/-- Sends a request that was just made current. -/
def startTransfer (q : TxQueue) : TxQueue :=
  let tx := q.sm.current
  if tx.length ≤ isotpSfMaxWithPad then { q with wire := q.wire ++ [singleFrame tx] }
  else if tx.target = isotpBroadcastAddr then
    -- fire and forget: an implicit grant of the whole payload
    let sm := { q.sm with
      txBytesSent := isotpFfDataWithPad, txBlockSize := 0, txStmin := 0, txBlockCounter := 0 }
    let run := (sendConsecutiveFrames sm q.now).2
    { q with sm := run.sm, now := run.now, wire := q.wire ++ firstFrame tx :: run.frames }
  else
    { q with
      sm := setState { q.sm with
        txBytesSent := isotpFfDataWithPad, txLastFrameTime := q.now } .waitFc
      wire := q.wire ++ [firstFrame tx] }

/-- Copies a dequeued request from the scratch buffer into the context. -/
def makeCurrent (q : TxQueue) (request : TxRequest) : TxQueue :=
  { q with
    scratch := request
    sm := { q.sm with current := request, txBytesSent := 0, txSequenceNumber := 0 } }

def txIdleRun (q : TxQueue) (event : TxEvent) : TxQueue :=
  if event = .tick then
    match q.msgq.get with
    | some (request, rest) => startTransfer (makeCurrent { q with msgq := rest } request)
    | none => { q with scratch := .zero }
  else q

/-- The N_Bs deadline of the transfer in flight has passed. -/
def timedOut (q : TxQueue) : Bool := decide (isotpTimeoutNBs < q.now - q.sm.txLastFrameTime)

/-- The context with the block size and pacing of a Continue To Send. -/
def granted (sm : TxSm) (fc : DiveCANMessage) : TxSm :=
  { sm with txBlockSize := fc.byte 1, txStmin := fc.byte 2, txBlockCounter := 0 }

def txWaitFcRun (q : TxQueue) (event : TxEvent) (fc : Option DiveCANMessage) : TxQueue :=
  match event, fc with
  | .fcCts, some fc =>
    let (payloadComplete, run) := sendConsecutiveFrames (granted q.sm fc) q.now
    { q with
      sm := if payloadComplete then setState run.sm .idle else run.sm
      now := run.now
      wire := q.wire ++ run.frames }
  | .fcWait, _ | .fcOvflw, _ => { q with sm := setState q.sm .idle }
  | .tick, _ => if timedOut q then { q with sm := setState q.sm .idle } else q
  | _, _ => q

def smfRunState (q : TxQueue) (event : TxEvent) (fc : Option DiveCANMessage) : TxQueue :=
  match q.sm.state with
  | .idle => txIdleRun q event
  | .waitFc => txWaitFcRun q event fc

/-! ## Public interface -/

def txQueueInit (q : TxQueue) : TxQueue :=
  { q with sm := setState q.sm .idle, msgq := .empty }

/-- The queue as it is before the first call, at some uptime. -/
def TxQueue.boot (now : UInt32) : TxQueue := ⟨{}, .empty, .zero, [], now⟩

/-- Puts the scratch buffer, whatever it holds by now. -/
def putScratch (q : TxQueue) : Bool × TxQueue :=
  match q.msgq.put q.scratch with
  | some msgq => (true, { q with msgq := msgq })
  | none => (false, q)

/-- The put of the scratch buffer, with the recovery of a stalled queue: reap the
dead transfer, drain one request and retry. -/
def putOrRecover (q : TxQueue) : Bool × TxQueue :=
  let (ok, q) := putScratch q
  if ok then (true, q)
  else if q.sm.state ≠ .idle ∧ timedOut q = true then
    putScratch (smfRunState { q with sm := setState q.sm .idle } .tick none)
  else (false, q)

/-- `data` is `none` for a null pointer. -/
def txQueueEnqueue (q : TxQueue) (source target : UInt8) (messageId : UInt32)
    (data : Option (List UInt8)) : Bool × TxQueue :=
  match data with
  | none => (false, q)
  | some data =>
    if data.length = 0 ∨ data.length > isotpTxBufferSize then (false, q)
    else putOrRecover { q with scratch := ⟨data, source, target, messageId⟩ }

/-- The event of a Flow Control status byte. -/
def fcEvent (flowStatus : UInt8) : TxEvent :=
  if flowStatus = isotpFcCts then .fcCts
  else if flowStatus = isotpFcWait then .fcWait
  else if flowStatus = isotpFcOvflw then .fcOvflw
  else .none

def txQueueProcessFC (q : TxQueue) (fc : DiveCANMessage) : Bool × TxQueue :=
  if q.sm.state = .idle then (false, q)
  else if msgTarget fc.id ≠ q.sm.current.source ∧ msgTarget fc.id ≠ isotpBroadcastAddr then
    (false, q)
  else
    let event := fcEvent (fc.byte 0)
    if event = .none then (true, { q with sm := setState q.sm .idle })
    else
      let q := smfRunState q event (some fc)
      -- back in idle: start the next request at once
      (true, if q.sm.state = .idle then smfRunState q .tick none else q)

def txQueuePoll (q : TxQueue) : TxQueue := smfRunState q .tick none

def txQueueIsBusy (q : TxQueue) : Bool := q.sm.state ≠ .idle

def txQueueGetPendingCount (q : TxQueue) : ℕ := q.msgq.items.length

end DiveCANHead.IsoTp
