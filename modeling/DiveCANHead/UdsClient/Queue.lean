import Mathlib.Data.Int.Basic
import DiveCANHead.Lib.Runs
import DiveCANHead.UdsClient.Service

/-!
# The request queue of the client (`UDSClient.js`)

Callers take turns: a queue of jobs, and one exchange at a time with its timer and its pending
fields. What the event loop may run next is one event: a call of a service, a timer, the end of a
send, a message or an error of the transport, or the continuation that pumps the queue once an
exchange has settled. A promise settles once; `settled` is what each one settled with.
-/

namespace DiveCANHead.UdsClient

open DiveCANHead.Uds

/-! ## Jobs and what they settle with -/

/-- A queued request; the id stands for its promise. -/
structure Job where
  id : ℕ
  service : Service
  deriving DecidableEq, Repr

/-- A received message; `origin` is the job that the head answered with it. -/
structure Message where
  data : List UInt8
  origin : Option ℕ
  deriving DecidableEq, Repr

/-- The errors that are no negative response. -/
inductive Failure where
  | timeout
  | sendFailed
  | transportUnavailable
  | alreadyPending
  | transportError
  | aborted
  | unexpectedSid
  deriving DecidableEq, Repr

/-- What the promise of a service call ends with; `malformed` is a reply that its method refuses. -/
inductive Outcome where
  | resolved (m : Message)
  | malformed (m : Message)
  | nrc (code : UInt8) (m : Message)
  | failed (reason : Failure)
  deriving DecidableEq, Repr

/-- What the method makes of the reply that resolved its request. -/
def Service.conclude (s : Service) (m : Message) : Outcome :=
  if s.accepts m.data then .resolved m else .malformed m

/-- The message is a negative response to this service id. -/
def Message.refuses (m : Message) (sid : UInt8) : Option UInt8 :=
  match m.data with
  | tag :: requestedSid :: code :: _ =>
    if tag = sidNegativeResponse ∧ requestedSid = sid then some code else none
  | _ => none

/-- The guard, where there is one, lets the reply through. -/
def guardPasses (responseMatcher : Option (List UInt8 → Bool)) (data : List UInt8) : Bool :=
  match responseMatcher with
  | some responseMatcher => responseMatcher data
  | none => true

/-! ## The client -/

/-- Between `_dispatchRequest` and the end of its promise. -/
inductive Phase where
  | delaying
  | armed
  | settled
  deriving DecidableEq, Repr

structure Exchange where
  job : Job
  phase : Phase
  deriving DecidableEq, Repr

/-- The five pending fields: `resolve` and `reject` stand for the promise of a job,
`responseMatcher` for the guard of a service. -/
structure Pending where
  request : Option Service := none
  resolve : Option Job := none
  reject : Option Job := none
  timer : Option ℕ := none
  responseMatcher : Option Service := none
  deriving DecidableEq, Repr

/-- The fields of an exchange in flight. -/
def Pending.of (job : Job) : Pending :=
  ⟨some job.service, some job, some job, some job.id, some job.service⟩

/-- `running` are the exchanges that have been dispatched and have not given the queue back,
`timers` the timers that will fire, `sending` the sends that have not ended. -/
structure Client where
  queue : List Job := []
  busy : Bool := false
  transportAvailable : Bool := true
  requestDelay : ℤ := 0
  lastRequestTime : ℤ := 0
  lastResponseTime : ℤ := 0
  pending : Pending := {}
  running : List Exchange := []
  timers : List ℕ := []
  sending : List ℕ := []
  nextId : ℕ := 0
  dispatched : List ℕ := []
  sent : List Job := []
  settled : List (Job × Outcome) := []
  deriving DecidableEq, Repr

namespace Client

/-- The exchange leaves its phase for another. -/
def setPhase (running : List Exchange) (id : ℕ) (phase : Phase) : List Exchange :=
  running.map fun x => if x.job.id = id then { x with phase := phase } else x

/-- The promise of the exchange settles, unless it has. -/
def settle (c : Client) (id : ℕ) (o : Outcome) : Client :=
  match c.running.find? fun x => x.job.id = id ∧ x.phase ≠ .settled with
  | some x =>
    { c with
      running := setPhase c.running id .settled
      settled := c.settled ++ [(x.job, o)] }
  | none => c

/-- `clearTimeout(this.pendingTimer)`. -/
def clearPendingRequest (c : Client) : Client :=
  { c with
    timers := c.timers.filter fun t => some t ≠ c.pending.timer
    pending := { c.pending with timer := none } }

/-- The pending fields are cleared. -/
def forget (c : Client) : Client := { c with pending := {} }

/-- The end of `_dispatchRequest`: the fields, the timer and the send. -/
def arm (c : Client) (job : Job) : Client :=
  { c with
    pending := .of job
    running := setPhase c.running job.id .armed
    timers := c.timers ++ [job.id]
    sending := c.sending ++ [job.id]
    sent := c.sent ++ [job] }

/-- `_dispatchRequest` after the inter-request delay. -/
def transmit (c : Client) (job : Job) : Client :=
  if c.transportAvailable then c.arm job else c.settle job.id (.failed .transportUnavailable)

/-- `_dispatchRequest`. -/
def dispatch (c : Client) (job : Job) (now : ℤ) : Client :=
  let c := { c with
    running := c.running ++ [Exchange.mk job .delaying]
    dispatched := c.dispatched ++ [job.id] }
  if ¬c.transportAvailable then c.settle job.id (.failed .transportUnavailable)
  else if c.pending.request.isSome then c.settle job.id (.failed .alreadyPending)
  else if now - c.lastRequestTime < c.requestDelay then c
  else c.transmit job

/-- `_pumpRequestQueue`. -/
def pump (c : Client) (now : ℤ) : Client :=
  if c.busy then c
  else
    match c.queue with
    | [] => c
    | job :: queue => { c with queue := queue, busy := true }.dispatch job now

/-- `_sendRequest`. -/
def sendRequest (c : Client) (service : Service) (now : ℤ) : Client :=
  if c.transportAvailable then
    { c with queue := c.queue ++ [Job.mk c.nextId service], nextId := c.nextId + 1 }.pump now
  else c

/-- The job in flight is rejected, and its fields are cleared. -/
def rejectPending (c : Client) (reason : Failure) : Client :=
  match c.pending.reject with
  | some job => (c.settle job.id (.failed reason)).forget
  | none => c

/-- A response settles the promise that it is for. -/
def respondTo (c : Client) (promise : Option Job) (o : Job → Outcome) (now : ℤ) : Client :=
  match promise with
  | some job => { c.settle job.id (o job) with lastRequestTime := now }.forget
  | none => c

/-- `_handleNegativeResponse`; its log line throws unless all three bytes are there. -/
def handleNegativeResponse (c : Client) (s : Service) (m : Message) (now : ℤ) : Client :=
  match m.refuses s.sid with
  | some code =>
    let c := c.clearPendingRequest
    c.respondTo c.pending.reject (fun _ => .nrc code m) now
  | none => c

/-- `_handlePositiveResponse`. -/
def handlePositiveResponse (c : Client) (s : Service) (m : Message) (sid : UInt8) (now : ℤ) :
    Client :=
  if sid ≠ s.sid + responseSidOffset then
    let c := c.clearPendingRequest
    c.respondTo c.pending.reject (fun _ => .failed .unexpectedSid) now
  else if ¬guardPasses (c.pending.responseMatcher.bind Service.responseMatcher) m.data then c
  else
    let c := c.clearPendingRequest
    c.respondTo c.pending.resolve (fun job => job.service.conclude m) now

/-- `_handleResponse`; a message without a service id throws before anything else. -/
def handleResponse (c : Client) (m : Message) (now : ℤ) : Client :=
  let c := { c with lastResponseTime := now }
  match m.data.head? with
  | none => c
  | some sid =>
    if sid = sidWriteDataById then c
    else
      match c.pending.request with
      | none => c
      | some s =>
        if sid = sidNegativeResponse then c.handleNegativeResponse s m now
        else c.handlePositiveResponse s m sid now

/-- The transport reports an error. -/
def handleError (c : Client) : Client :=
  if c.pending.reject.isSome then c.clearPendingRequest.rejectPending .transportError else c

/-- The timer of an exchange fires. -/
def handleTimeout (c : Client) (id : ℕ) : Client :=
  { c with timers := c.timers.erase id }.forget.settle id (.failed .timeout)

/-- The send of an exchange fails; the fields are cleared whatever they are about. -/
def handleSendFailure (c : Client) (id : ℕ) : Client :=
  { c with sending := c.sending.erase id }.clearPendingRequest.forget.settle id
    (.failed .sendFailed)

/-- `abortPending`. -/
def abortPending (c : Client) : Client :=
  let c := { c with
    queue := []
    settled := c.settled ++ c.queue.map fun job => (job, Outcome.failed .aborted) }
  c.clearPendingRequest.rejectPending .aborted

/-- `setTransportAvailable`. -/
def setTransportAvailable (c : Client) (available : Bool) : Client :=
  let c := { c with transportAvailable := available }
  if available then c else c.abortPending

end Client

/-! ## The event loop -/

inductive ClientEvent where
  | request (service : Service) (now : ℤ)
  | delayOver (id : ℕ)
  | sendDone (id : ℕ)
  | sendFailed (id : ℕ)
  | message (m : Message) (now : ℤ)
  | error
  | timeout (id : ℕ)
  | abort
  | available (up : Bool)
  | advance (id : ℕ) (now : ℤ)
  deriving DecidableEq, Repr

namespace Client

/-- The exchange of this job in this phase. -/
def exchange? (c : Client) (id : ℕ) (phase : Phase) : Option Exchange :=
  c.running.find? fun x => x.job.id = id ∧ x.phase = phase

/-- The queue goes on once an exchange has settled. -/
def giveBack (c : Client) (x : Exchange) (now : ℤ) : Client :=
  { c with running := c.running.erase x, busy := false }.pump now

end Client

def clientStep (c : Client) : ClientEvent → Option Client
  | .request service now => some (c.sendRequest service now)
  | .delayOver id => (c.exchange? id .delaying).map fun x => c.transmit x.job
  | .sendDone id =>
    if id ∈ c.sending then some { c with sending := c.sending.erase id } else none
  | .sendFailed id => if id ∈ c.sending then some (c.handleSendFailure id) else none
  | .message m now => some (c.handleResponse m now)
  | .error => some c.handleError
  | .timeout id => if id ∈ c.timers then some (c.handleTimeout id) else none
  | .abort => some c.abortPending
  | .available up => some (c.setTransportAvailable up)
  | .advance id now => (c.exchange? id .settled).map fun x => c.giveBack x now

/-- An idle client with this inter-request delay. -/
def Client.start (requestDelay : ℤ) : Client := { requestDelay }

end DiveCANHead.UdsClient
