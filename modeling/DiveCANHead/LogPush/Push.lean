import Mathlib.Data.Nat.Notation
import Mathlib.Logic.Function.Basic
import DiveCANHead.Lib.BoundedQueue
import DiveCANHead.Lib.Runs

/-!
# Pushing log messages (`uds_log_push.c`)

The log thread puts messages into a queue, and takes the oldest out when it is full; the DiveCAN
thread takes them out and hands them to ISO-TP. Both take out into one item buffer. The threads
are interleaved step by step; what was accepted, overwritten and handed on is recorded beside.
-/

namespace DiveCANHead.LogPush

open DiveCANHead.Lib

/-- `UDS_LOG_MAX_PAYLOAD`. -/
def udsLogMaxPayload : ℕ := 253

/-- `UDS_LOG_QUEUE_LENGTH`. -/
def udsLogQueueLength : ℕ := 10

/-- `LOG_PUSH_QUIESCENT_MS`. -/
def logPushQuiescentMs : UInt32 := 75

/-! ## State -/

/-- `UDSLogQueueItem_t`; the bytes behind the data are zero. -/
structure QueueItem where
  length : ℕ := 0
  data : List UInt8 := []
  deriving DecidableEq

/-- The item of a message, which is cut at the end of the buffer. -/
def QueueItem.ofMessage (message : List UInt8) : QueueItem :=
  ⟨min message.length udsLogMaxPayload, message.take udsLogMaxPayload⟩

/-- The message for which `UDS_LogPush_SendLogMessage` returned true for the `id`-th time. -/
structure Accepted where
  id : ℕ
  message : List UInt8
  deriving DecidableEq

/-- An item in the queue, and what it was made of. -/
structure Queued where
  item : QueueItem
  source : Accepted
  deriving DecidableEq

/-- Where the log thread is in `UDS_LogPush_SendLogMessage`. -/
inductive SendPc where
  | idle
  | filled (message : List UInt8)
  | full (message : List UInt8)
  | putting (message : List UInt8)
  deriving DecidableEq

/-- Where the DiveCAN thread is in `UDS_LogPush_Poll`, with the message that it has popped. -/
inductive PollPc where
  | idle
  | allowed
  | popped (source : Accepted)
  | copying (source : Accepted) (copied length : ℕ)
  deriving DecidableEq

/-- `LogPushState_t`, the queue and the two item buffers. `txBuffer` is the part behind the WDBI
header; the fields from `accepted` on are a record of the run. -/
structure LogPushState where
  queue : BoundedQueue Queued udsLogQueueLength := .empty
  txItem : QueueItem := {}
  rxItem : QueueItem := {}
  txBuffer : ℕ → UInt8 := fun _ => 0
  txPending : Bool := false
  suspended : Bool := false
  lastDialogActivityMs : UInt32 := 0
  send : SendPc := .idle
  poll : PollPc := .idle
  accepted : List Accepted := []
  overwritten : List ℕ := []
  handed : List (List UInt8) := []

/-- What the poll sees of ISO-TP: whether it has a context, and the state of that and of the TX
queue. -/
structure Transport where
  bound : Bool := true
  txComplete : Bool := false
  idle : Bool := true
  busy : Bool := false
  pendingCount : ℕ := 0
  deriving DecidableEq

/-! ## Steps -/

inductive PushEvent where
  | beginSend (message : List UInt8)
  | checkFree
  | dropOldest
  | put
  | setSuspended (suspended : Bool)
  | noteDialogActivity (now : UInt32)
  | beginPoll (now : UInt32) (transport : Transport)
  | pop
  | readLength
  | copyByte
  | transmit (sent : Bool)
  deriving DecidableEq

namespace LogPushState

/-- The reentrancy guard, and the message copied into the item buffer of the log thread. -/
def beginSend (s : LogPushState) (message : List UInt8) : LogPushState :=
  if s.send = .idle ∧ message ≠ [] then
    { s with txItem := .ofMessage message, send := .filled message }
  else s

/-- `k_msgq_num_free_get`. -/
def checkFree (s : LogPushState) : Option LogPushState :=
  match s.send with
  | .filled message =>
    some { s with send := if s.queue.full then .full message else .putting message }
  | _ => none

/-- `k_msgq_get` into the item buffer of the poll. An entry counts as overwritten when the queue
is full. -/
def dropOldest (s : LogPushState) : Option LogPushState :=
  match s.send with
  | .full message =>
    match s.queue.get with
    | none => some { s with send := .putting message }
    | some (oldest, queue) =>
      some { s with
        queue := queue
        rxItem := oldest.item
        send := .putting message
        overwritten :=
          if s.queue.full then oldest.source.id :: s.overwritten else s.overwritten }
  | _ => none

/-- `k_msgq_put`, and what `UDS_LogPush_SendLogMessage` returns. -/
def put (s : LogPushState) : Option LogPushState :=
  match s.send with
  | .putting message =>
    match s.queue.put ⟨s.txItem, s.accepted.length, message⟩ with
    | none => some { s with send := .idle }
    | some queue =>
      some { s with
        queue := queue
        send := .idle
        accepted := s.accepted ++ [⟨s.accepted.length, message⟩] }
  | _ => none

/-- `checkTxPending`: whether the context is free, and `tx_pending` afterwards. -/
def checkTxPending (s : LogPushState) (t : Transport) : Bool × Bool :=
  if s.txPending then
    if t.txComplete then (true, false) else if t.idle then (true, false) else (false, true)
  else (true, false)

/-- `UDS_LogPush_Poll` up to the queue. -/
def beginPoll (s : LogPushState) (now : UInt32) (t : Transport) : Option LogPushState :=
  if s.poll ≠ .idle then none
  else if t.bound = false ∨ s.suspended = true then some s
  else if now - s.lastDialogActivityMs < logPushQuiescentMs then some s
  else
    let free := s.checkTxPending t
    let allowed := free.1 && t.idle && !t.busy && t.pendingCount == 0
    some { s with txPending := free.2, poll := if allowed then .allowed else .idle }

/-- `k_msgq_get` into the item buffer. -/
def pop (s : LogPushState) : Option LogPushState :=
  match s.poll with
  | .allowed =>
    match s.queue.get with
    | none => some { s with poll := .idle }
    | some (oldest, queue) =>
      some { s with queue := queue, rxItem := oldest.item, poll := .popped oldest.source }
  | _ => none

/-- `sendQueuedItem`: the length for `memcpy`. -/
def readLength (s : LogPushState) : Option LogPushState :=
  match s.poll with
  | .popped source => some { s with poll := .copying source 0 s.rxItem.length }
  | _ => none

/-- One byte of `memcpy`. -/
def copyByte (s : LogPushState) : Option LogPushState :=
  match s.poll with
  | .copying source copied length =>
    if copied < length then
      some { s with
        txBuffer := Function.update s.txBuffer copied (s.rxItem.data.getD copied 0)
        poll := .copying source (copied + 1) length }
    else none
  | _ => none

/-- `ISOTP_Send`, which reads the length again. -/
def transmit (s : LogPushState) (sent : Bool) : Option LogPushState :=
  match s.poll with
  | .copying _ copied length =>
    if copied < length then none
    else if sent then
      some { s with
        txPending := true
        poll := .idle
        handed := s.handed ++ [(List.range s.rxItem.length).map s.txBuffer] }
    else some { s with poll := .idle }
  | _ => none

end LogPushState

/-- One step of one of the threads. -/
def pushStep (s : LogPushState) : PushEvent → Option LogPushState
  | .beginSend message => some (s.beginSend message)
  | .checkFree => s.checkFree
  | .dropOldest => s.dropOldest
  | .put => s.put
  | .setSuspended suspended => some { s with suspended := suspended }
  | .noteDialogActivity now => some { s with lastDialogActivityMs := now }
  | .beginPoll now transport => s.beginPoll now transport
  | .pop => s.pop
  | .readLength => s.readLength
  | .copyByte => s.copyByte
  | .transmit sent => s.transmit sent

end DiveCANHead.LogPush
