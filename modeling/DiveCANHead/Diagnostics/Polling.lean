import DiveCANHead.Lib.Runs
import DiveCANHead.UdsClient.StateDids

/-!
# Polling of the head's state (`DataStore.js`)

The store fetches every DID once and then polls the subscribed ones from a timer. What runs between
two awaits is one event: a call, a tick of the timer, the end of a request, or the continuation that
goes on after it. `tasks` are the calls of `initialize` and the poll cycles that have not returned,
each where it waits.
-/

namespace DiveCANHead.Diagnostics

open Lib UdsClient

/-! ## What is read -/

def CELL_TYPE_DIVEO2 : ℕ := 0

def CELL_TYPE_ANALOG : ℕ := 1

/-- `cellTypes`, by cell number. -/
structure CellTypes where
  cell0 : ℕ := 0
  cell1 : ℕ := 0
  cell2 : ℕ := 0
  deriving DecidableEq, Repr

/-- The type of the cell with this number. -/
def CellTypes.get (types : CellTypes) (cellNum : ℕ) : Option ℕ :=
  [types.cell0, types.cell1, types.cell2][cellNum]?

def typeDIDs : List ℕ := [0xF401, 0xF411, 0xF421]

/-- The `cellType` of the entry at this place among those of a cell. -/
def entryCellType (offset : ℕ) : Option ℕ :=
  if offset < 4 then none else if offset < 6 then some CELL_TYPE_ANALOG else some CELL_TYPE_DIVEO2

/-- The DIDs of `getValidCellDIDs`, for the cell whose first DID is `base`. -/
def getValidCellDIDs (base cellType : ℕ) : List ℕ :=
  ((cellStateDids base).map DidInfo.did).filter fun did =>
    (entryCellType (did - base)).all fun type => type = cellType

/-- `_collectAllStateDIDs`. -/
def collectAllStateDIDs (types : CellTypes) : List ℕ :=
  controlStateDids.map DidInfo.did ++ getValidCellDIDs 0xF400 types.cell0 ++
    getValidCellDIDs 0xF410 types.cell1 ++ getValidCellDIDs 0xF420 types.cell2

theorem length_getValidCellDIDs_le (base cellType : ℕ) :
    (getValidCellDIDs base cellType).length ≤ 13 :=
  List.length_filter_le _ _

/-- An initial fetch reads so many DIDs at most. -/
def maxStateDIDs : ℕ := controlStateDids.length + 3 * 13

theorem length_collectAllStateDIDs_le (types : CellTypes) :
    (collectAllStateDIDs types).length ≤ maxStateDIDs := by
  have h0 := length_getValidCellDIDs_le 0xF400 types.cell0
  have h1 := length_getValidCellDIDs_le 0xF410 types.cell1
  have h2 := length_getValidCellDIDs_le 0xF420 types.cell2
  simp only [collectAllStateDIDs, maxStateDIDs, List.length_append, List.length_map]
  omega

/-- A key of `subscriptions`, with what the registry has for it: a state DID, and the cell number
and type it needs, an extra DID, or nothing. -/
inductive Subscription where
  | state (did : ℕ) (cell : Option (ℕ × ℕ))
  | extra (did : ℕ)
  | unknown
  deriving DecidableEq, Repr

/-- The DID that `_collectSubscribedDIDs` takes. -/
def Subscription.did? (types : CellTypes) : Subscription → Option ℕ
  | .state did none => some did
  | .state did (some (cellNum, type)) => if types.get cellNum = some type then some did else none
  | .extra _ | .unknown => none

/-- The DID that `_collectSubscribedExtraDIDs` takes. -/
def Subscription.extraDid? : Subscription → Option ℕ
  | .extra did => some did
  | .state _ _ | .unknown => none

/-! ## The store -/

/-- A request, and what it ended with: `none` where it failed, else the cell types, where the
request was for them. -/
inductive Await where
  | outstanding
  | settled (reply : Option CellTypes)
  deriving DecidableEq, Repr

/-- Where a call of `initialize` or a poll cycle waits: the first five are `initialize`, the others
a poll cycle. `rest` is what the loop has still to read. -/
inductive Task where
  | quiescing
  | types (a : Await)
  | chunk (a : Await) (dids rest : List ℕ)
  | single (a : Await) (dids rest : List ℕ)
  | fetched (ok : Bool)
  | bundled (a : Await) (rest : List ℕ)
  | extra (a : Await) (rest : List ℕ)
  | polled
  deriving DecidableEq, Repr

namespace Task

def await? : Task → Option Await
  | types a | chunk a _ _ | single a _ _ | bundled a _ | extra a _ => some a
  | quiescing | fetched _ | polled => none

/-- The task waits for a request. -/
def Outstanding (t : Task) : Prop := t.await? = some .outstanding

instance (t : Task) : Decidable t.Outstanding := inferInstanceAs (Decidable (_ = _))

def isInitialize : Task → Bool
  | quiescing | types _ | chunk _ _ _ | single _ _ _ | fetched _ => true
  | bundled _ _ | extra _ _ | polled => false

/-- The task once its request has ended. -/
def settle (reply : Option CellTypes) : Task → Option Task
  | types .outstanding => some (types (.settled reply))
  | chunk .outstanding dids rest => some (chunk (.settled reply) dids rest)
  | single .outstanding dids rest => some (single (.settled reply) dids rest)
  | bundled .outstanding rest => some (bundled (.settled reply) rest)
  | extra .outstanding rest => some (extra (.settled reply) rest)
  | _ => none

end Task

/-- The fields of the store. `woken` are the calls of `pausePolling` whose wait is over, `resolved`
those whose promise has been resolved; `granted` says that no call has started anything since one
was. `issued` are the requests made. -/
structure DataStore where
  subscriptions : List Subscription := []
  cellTypes : CellTypes := {}
  pollTimer : Bool := false
  isPolling : Bool := false
  pollInFlight : Bool := false
  initializing : Bool := false
  pollingPaused : Bool := false
  idleWaiters : List ℕ := []
  tasks : List Task := []
  woken : List ℕ := []
  resolved : List ℕ := []
  granted : Bool := false
  nextPause : ℕ := 0
  issued : List (List ℕ) := []
  deriving DecidableEq, Repr

def DIDS_PER_REQUEST : ℕ := 4

namespace DataStore

def issue (s : DataStore) (dids : List ℕ) : DataStore := { s with issued := s.issued ++ [dids] }

def startPolling (s : DataStore) : DataStore :=
  if s.isPolling then s else { s with pollingPaused := false, isPolling := true, pollTimer := true }

def stopPolling (s : DataStore) : DataStore := { s with isPolling := false, pollTimer := false }

/-- `_resolveIdleWaiters`. -/
def resolveIdleWaiters (s : DataStore) : DataStore :=
  if s.initializing ∨ s.pollInFlight then s
  else { s with idleWaiters := [], woken := s.woken ++ s.idleWaiters }

/-- `waitForIdle`, called by the call `id` of `pausePolling`. -/
def waitForIdle (s : DataStore) (id : ℕ) : DataStore :=
  if ¬ s.initializing ∧ ¬ s.pollInFlight then { s with woken := s.woken ++ [id] }
  else { s with idleWaiters := s.idleWaiters ++ [id] }

def pausePolling (s : DataStore) : DataStore :=
  ({ s with pollingPaused := true, nextPause := s.nextPause + 1 }.stopPolling).waitForIdle
    s.nextPause

/-! ### The initial fetch

`throws` says that the progress callback throws, or the handling of what has been read. -/

/-- A pass of the loop of `fetchAllState`, or its end. -/
def fetchRest (s : DataStore) (throws : Bool) : List ℕ → DataStore × Task
  | [] => (s, .fetched !throws)
  | did :: dids =>
    if throws then (s, .fetched false)
    else
      let chunk := (did :: dids).take DIDS_PER_REQUEST
      (s.issue chunk, .chunk .outstanding chunk ((did :: dids).drop DIDS_PER_REQUEST))

/-- The loop of `_fetchChunkWithFallback` over the DIDs of a chunk that failed. -/
def fetchSingles (s : DataStore) (throws : Bool) (rest : List ℕ) : List ℕ → DataStore × Task
  | [] => s.fetchRest throws rest
  | did :: dids => (s.issue [did], .single .outstanding dids rest)

/-- The end of `initialize`. -/
def finishInitialize (s : DataStore) (ok : Bool) : DataStore :=
  let s := if ok ∧ ¬ s.pollingPaused then s.startPolling else s
  { s with initializing := false }.resolveIdleWaiters

/-! ### The poll cycle -/

/-- The loop of `_pollSubscribedExtraDIDs`. -/
def pollExtras (s : DataStore) : List ℕ → DataStore × Task
  | [] => (s, .polled)
  | did :: rest =>
    if s.pollingPaused then (s, .polled) else (s.issue [did], .extra .outstanding rest)

/-- The loop of `_pollSubscribedDIDs`, and what follows it. -/
def pollRest (s : DataStore) (rest : List ℕ) : DataStore × Task :=
  if rest ≠ [] ∧ ¬ s.pollingPaused then
    (s.issue (rest.take DIDS_PER_REQUEST), .bundled .outstanding (rest.drop DIDS_PER_REQUEST))
  else if s.pollingPaused then (s, .polled)
  else s.pollExtras (s.subscriptions.filterMap Subscription.extraDid?)

/-- `_pollSubscribedDIDs`, up to its first await. -/
def pollSubscribedDIDs (s : DataStore) : DataStore × Task :=
  if s.subscriptions.isEmpty then (s, .polled)
  else s.pollRest (s.subscriptions.filterMap (Subscription.did? s.cellTypes))

/-- The end of the timer's callback. -/
def finishPoll (s : DataStore) : DataStore := { s with pollInFlight := false }.resolveIdleWaiters

/-- The timer's callback, up to its first await. -/
def tick (s : DataStore) : DataStore :=
  if ¬ s.isPolling then s
  else if s.pollInFlight then s
  else
    let (s, task) := { s with pollInFlight := true }.pollSubscribedDIDs
    { s with tasks := s.tasks ++ [task] }

/-- The task `i` goes on as this one, or has ended. -/
def setTask (s : DataStore) (i : ℕ) : Option Task → DataStore
  | some task => { s with tasks := s.tasks.set i task }
  | none => { s with tasks := s.tasks.eraseIdx i }

/-- How a task goes on; `none` for its last step. -/
def goOn (s : DataStore) (throws : Bool) : Task → Option (DataStore × Option Task)
  | .quiescing => some (s.issue typeDIDs, some (.types .outstanding))
  | .types (.settled reply) =>
    let s := { s with cellTypes := reply.getD {} }
    let (s, task) := s.fetchRest throws (collectAllStateDIDs s.cellTypes)
    some (s, some task)
  | .chunk (.settled (some _)) _ rest =>
    let (s, task) := s.fetchRest throws rest
    some (s, some task)
  | .chunk (.settled none) dids rest | .single (.settled _) dids rest =>
    let (s, task) := s.fetchSingles throws rest dids
    some (s, some task)
  | .fetched ok => some (s.finishInitialize ok, none)
  | .bundled (.settled none) _ => some (s, some .polled)
  | .bundled (.settled (some _)) rest =>
    if throws then some (s, some .polled)
    else
      let (s, task) := s.pollRest rest
      some (s, some task)
  | .extra (.settled _) rest =>
    let (s, task) := s.pollExtras rest
    some (s, some task)
  | .polled => some (s.finishPoll, none)
  | _ => none

end DataStore

/-! ## Events -/

inductive Event where
  | callInitialize
  | startPolling
  | resumePolling
  | stopPolling
  | pausePolling
  | subscribe (subscriptions : List Subscription)
  | tick
  | settle (i : ℕ) (reply : Option CellTypes)
  | goOn (i : ℕ) (throws : Bool)
  | resolve (id : ℕ)
  deriving DecidableEq, Repr

/-- The calls that end the exclusive use. -/
def Event.starts : Event → Bool
  | .callInitialize | .startPolling | .resumePolling => true
  | _ => false

/-- The events by which what is in progress goes on. -/
def Event.goesOn : Event → Bool
  | .settle _ _ | .goOn _ _ => true
  | _ => false

/-- What an event does; an event that cannot happen is refused. -/
def step (s : DataStore) : Event → Option DataStore
  | .callInitialize =>
    some { s with initializing := true, granted := false, tasks := s.tasks ++ [.quiescing] }
  | .startPolling | .resumePolling => some { s.startPolling with granted := false }
  | .stopPolling => some s.stopPolling
  | .pausePolling => some s.pausePolling
  | .subscribe subscriptions => some { s with subscriptions }
  | .tick => if s.pollTimer then some s.tick else none
  | .settle i reply =>
    (s.tasks[i]?.bind (Task.settle reply)).map fun task => s.setTask i (some task)
  | .goOn i throws =>
    (s.tasks[i]?.bind (s.goOn throws)).map fun (t, task) => t.setTask i task
  | .resolve id =>
    if id ∈ s.woken then
      some { s with woken := s.woken.erase id, resolved := s.resolved ++ [id], granted := true }
    else none

end DiveCANHead.Diagnostics
