import DiveCANHead.Lib.Runs
import DiveCANHead.Staging.Manager
import DiveCANHead.Uds.Dispatch

/-!
# The manager and the head over a lossy link

A request that the client has transmitted reaches the head once, at any later time, or never; so
do the head's answers reach the client, in any order. `slot` is what the head has acknowledged
since it last erased slot1: the blocks that it has answered with 0x76.
-/

namespace DiveCANHead.Staging

open DiveCANHead.Uds DiveCANHead.UdsClient

/-! ## What the head does with a request -/

/-- The request as the head receives it: the pad byte, and what the client sent. -/
def wire (job : Job) : Request := .ofBytes (0 :: job.service.request)

/-- The payloads that are answered. -/
def answers (effects : List Effect) : List (List UInt8) :=
  effects.filterMap fun
    | .respond payload => some payload
    | _ => none

/-- The blocks that are written. -/
def writes (effects : List Effect) : List (List UInt8) :=
  effects.filterMap fun
    | .writeSlot1 data => some data
    | _ => none

/-- A TransferData is answered positively. -/
def acknowledges (effects : List Effect) : Bool :=
  (answers effects).any fun payload => payload.head? = some (sidTransferData + responseSidOffset)

/-- What is acknowledged as written to slot1 after these effects. -/
def slotAfter (slot : List (List UInt8)) (effects : List Effect) : List (List UInt8) :=
  let slot := if .eraseSlot1 ∈ effects then [] else slot
  if acknowledges effects then slot ++ writes effects else slot

/-! ## The link -/

/-- Both ends, the requests that have reached the head, and the answers on their way back. -/
structure Link where
  stager : Stager
  head : Head
  reached : List ℕ := []
  replies : List Message := []
  slot : List (List UInt8) := []
  deriving DecidableEq

inductive LinkEvent where
  | client (e : ClientEvent)
  | toHead (id : ℕ) (env : RequestEnv)
  | toClient (i : ℕ) (now : ℤ)
  | restartHead
  | proceed (now : ℤ)
  | recover (now : ℤ) (reconnected : Bool)
  | staleOver (now : ℤ)
  | abort

/-- An event of the client alone: no call of a service and no message. -/
def ofClient : ClientEvent → Bool
  | .request _ _ | .message _ _ => false
  | _ => true

namespace Link

/-- The client moves. -/
def withClient (s : Link) (client : Client) : Link :=
  { s with stager := { s.stager with client := client } }

/-- The head serves a request that reaches it. -/
def reach (s : Link) (job : Job) (env : RequestEnv) : Link :=
  let served := serve env s.head (wire job)
  { s with
    head := if served.effects.any Effect.restarts then .boot else served
    reached := s.reached ++ [job.id]
    replies := s.replies ++ (answers served.effects).map fun data => ⟨data, some job.id⟩
    slot := slotAfter s.slot served.effects }

/-- `stageImage` is called, with nothing under way. -/
def start (plan : Plan) (head : Head) (requestDelay now : ℤ) : Link :=
  { stager := .start plan (.start requestDelay) now, head }

end Link

def linkStep (plan : Plan) (s : Link) : LinkEvent → Option Link
  | .client e =>
    if ofClient e then (clientStep s.stager.client e).map s.withClient else none
  | .toHead id env =>
    if id ∈ s.reached then none
    else (s.stager.client.sent.find? fun job => job.id = id).map fun job => s.reach job env
  | .toClient i now =>
    (s.replies[i]?).map fun m =>
      { s with replies := s.replies.eraseIdx i }.withClient
        (s.stager.client.handleResponse m now)
  | .restartHead => some { s with head := .boot }
  | .proceed now => (s.stager.proceed plan now).map fun stager => { s with stager }
  | .recover now reconnected =>
    (s.stager.recover plan now reconnected).map fun stager => { s with stager }
  | .staleOver now => (s.stager.staleOver plan now).map fun stager => { s with stager }
  | .abort => some { s with stager := { s.stager with aborted := true } }

end DiveCANHead.Staging
