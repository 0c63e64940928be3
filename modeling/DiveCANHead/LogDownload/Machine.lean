import DiveCANHead.LogDownload.Selector

/-!
# The log-download state machine (`uds_log_download.c`)

The handler thread answers RoutineControl requests; the resolve worker takes a
snapshot of the request in flight, walks the log, and publishes what it found. Each
of the two sections that the worker runs under the mutex is one step, and so is each
request: `fl_resolve_lock` keeps the sections apart, and the handler thread has the
higher priority.
-/

namespace DiveCANHead.LogDownload

open DiveCANHead.FlashLog

/-- The negative response codes of RoutineControl. -/
inductive Nrc where
  | subfuncNotSupported
  | incorrectMsgLen
  | busyRepeatRequest
  | conditionsNotCorrect
  | requestSequenceErr
  | requestOutOfRange
  deriving DecidableEq, Repr

inductive LogDownloadState where
  | idle
  | selected
  | streaming
  deriving DecidableEq, Repr

/-- `FlashLogReader_t` with the destination of its range. -/
structure LogReader where
  dest : FlashLogDest
  cursor : FlashLogReader
  deriving DecidableEq, Repr

/-- `flash_log_reader_open`. -/
def LogReader.open (r : LogRange) : LogReader := ⟨r.dest, readerOpen r.range⟩

/-- `LogDownloadSM_t` and the semaphore of the worker. -/
structure LogDownloadSM where
  state : LogDownloadState := .idle
  range : LogRange := {}
  reader : LogReader := LogReader.open {}
  headerSent : Bool := false
  nextSeq : UInt8 := 0
  resolveActive : Bool := false
  resolveDone : Bool := false
  resolveRc : Option Errno := none
  resolveRequest : ResolveRequest := {}
  resolveSem : Bool := false
  deriving DecidableEq

/-- What a request finds: whether the maintenance arena can be claimed for the stream,
and whether this boot has written its marker. -/
structure Surroundings where
  arenaFree : Bool := true
  bootMarkerFlushed : Bool := true
  deriving DecidableEq, Repr

/-- The response to a request (`none` is the positive one) and the state it leaves. -/
abbrev Handled := Option Nrc × LogDownloadSM

/-! ## RoutineControl -/

/-- `fl_stop_streaming`. -/
def stopStreaming (next : LogDownloadState) (sm : LogDownloadSM) : LogDownloadSM :=
  { sm with state := next }

/-- `fl_finish_selector`. -/
def finishSelector (sm : LogDownloadSM) (rc : Option Errno) : Handled :=
  match rc with
  | none => (none, { sm with state := .selected, headerSent := false, nextSeq := 1 })
  | some .noent => (some .conditionsNotCorrect, sm)
  | some .busy => (some .busyRepeatRequest, sm)
  | some .io | some .inval | some .notsup => (some .requestOutOfRange, sm)

/-- `fl_async_selector`. -/
def asyncSelector (sm : LogDownloadSM) (rid : UInt16) (data : List UInt8) : Handled :=
  let request := ResolveRequest.ofData rid data
  if sm.resolveActive = true ∧ sm.resolveRequest = request then
    if sm.resolveDone then
      finishSelector { sm with resolveActive := false, resolveDone := false } sm.resolveRc
    else (some .busyRepeatRequest, sm)
  else
    (some .busyRepeatRequest,
      { sm with
        resolveRequest := request, resolveActive := true, resolveDone := false,
        resolveSem := true })

/-- `fl_resolve_selector`. -/
def resolveSelector (env : Surroundings) (sm : LogDownloadSM) (rid : UInt16)
    (data : List UInt8) : Handled :=
  if data.length < 1 then (some .incorrectMsgLen, sm)
  else
    match FlashLogDest.ofByte (data.getD 0 0) with
    | none => (some .requestOutOfRange, sm)
    | some stream =>
      if rid = ridSelectAll then finishSelector { sm with range := ⟨stream, resolveAll⟩ } none
      else if env.bootMarkerFlushed = false then (some .busyRepeatRequest, sm)
      else if rid = ridSelectByBoot then
        if data.length < logSelectBootMinLen then (some .incorrectMsgLen, sm)
        else asyncSelector sm rid data
      else if rid = ridSelectByDive then
        if data.length < logSelectDiveMinLen then (some .incorrectMsgLen, sm)
        else asyncSelector sm rid data
      else if rid = ridSelectLatestBoot ∨ rid = ridSelectLatestDive then asyncSelector sm rid data
      else finishSelector sm (some .notsup)

/-- The branch of `fl_start_routine` for `RID_BEGIN_STREAM`, with `fl_start_streaming`. -/
def beginStream (env : Surroundings) (sm : LogDownloadSM) : Handled :=
  if sm.state ≠ .selected then (some .requestSequenceErr, sm)
  else if env.arenaFree = false then (some .conditionsNotCorrect, sm)
  else
    (none, { sm with state := .streaming, reader := LogReader.open sm.range, headerSent := false })

/-- `fl_start_routine`. -/
def startRoutine (env : Surroundings) (sm : LogDownloadSM) (rid : UInt16)
    (data : List UInt8) : Handled :=
  if rid = ridBeginStream then beginStream env sm
  else if ridSelectByRange ≤ rid ∧ rid ≤ ridSelectAll then
    resolveSelector env (stopStreaming .idle sm) rid data
  else (some .requestOutOfRange, sm)

def routineControlMinReqLen : ℕ := 5

def routineSubfuncStart : UInt8 := 1

/-- The routine id of a request `[pad, SID, subfunction, RID, RID, payload]`. -/
def requestRid (request : List UInt8) : UInt16 :=
  ((request.getD 3 0).toUInt16 <<< 8) ||| (request.getD 4 0).toUInt16

def requestData (request : List UInt8) : List UInt8 := request.drop routineControlMinReqLen

/-- `UDS_LogDownload_HandleRoutine`. -/
def handleRoutine (env : Surroundings) (sm : LogDownloadSM) (request : List UInt8) : Handled :=
  if request.length < routineControlMinReqLen then (some .incorrectMsgLen, sm)
  else if request.getD 2 0 ≠ routineSubfuncStart then (some .subfuncNotSupported, sm)
  else startRoutine env sm (requestRid request) (requestData request)

/-! ## The resolve worker -/

/-- Where `fl_resolve_worker` is: at the semaphore, before its snapshot, or resolving
the request it copied. -/
inductive Worker where
  | waiting
  | woken
  | walking (request : ResolveRequest)
  deriving DecidableEq

/-- The first section under the mutex. -/
def snapshot (sm : LogDownloadSM) : Worker :=
  if sm.resolveActive = true ∧ sm.resolveDone = false then .walking sm.resolveRequest else .waiting

/-- The second section: the request is still the active one. -/
def publish (sm : LogDownloadSM) (request : ResolveRequest) (outcome : Outcome) : LogDownloadSM :=
  if sm.resolveActive = true ∧ sm.resolveDone = false ∧ sm.resolveRequest = request then
    { sm with range := outcome.range, resolveRc := outcome.rc, resolveDone := true }
  else sm

/-! ## Both threads -/

structure System where
  sm : LogDownloadSM := {}
  worker : Worker := .waiting
  deriving DecidableEq

inductive Event where
  | routine (env : Surroundings) (request : List UInt8)
  | transferExit
  | poll (idleMs : UInt32)
  | wake
  | snapshot
  | publish (views : ℕ → FlashView)

def logStreamInactivityMs : UInt32 := 10000

/-- `fl_handle_transfer_exit`, and what `UDS_LogDownload_Poll` does to a stalled stream. -/
def leaveStream (sm : LogDownloadSM) : LogDownloadSM :=
  { stopStreaming .idle sm with headerSent := false, nextSeq := 0 }

def System.step (y : System) : Event → Option System
  | .routine env request => some { y with sm := (handleRoutine env y.sm request).2 }
  | .transferExit =>
    -- outside a stream the request goes to the firmware update
    if y.sm.state = .streaming then some { y with sm := leaveStream y.sm } else none
  | .poll idleMs =>
    if y.sm.state = .streaming ∧ logStreamInactivityMs < idleMs then
      some { y with sm := leaveStream y.sm }
    else some y
  | .wake =>
    if y.worker = .waiting ∧ y.sm.resolveSem = true then
      some ⟨{ y.sm with resolveSem := false }, .woken⟩
    else none
  | .snapshot =>
    if y.worker = .woken then some { y with worker := LogDownload.snapshot y.sm } else none
  | .publish views =>
    match y.worker with
    | .walking request =>
      some ⟨LogDownload.publish y.sm request (workerResolve request views), .waiting⟩
    | .waiting | .woken => none

/-! ## What a selector request can do -/

/-- The results of a selector request: it is refused, it selects the whole ring, it
puts a request in flight, or it collects the result of the one in flight. -/
inductive SelectorStep (sm : LogDownloadSM) (rid : UInt16) (data : List UInt8) : Handled → Prop
  | refused (nrc : Nrc) : SelectorStep sm rid data (some nrc, sm)
  | all {stream : FlashLogDest} (hrid : rid = ridSelectAll) (hlen : 1 ≤ data.length)
      (hstream : FlashLogDest.ofByte (data.getD 0 0) = some stream) :
      SelectorStep sm rid data (none,
        { sm with
          range := ⟨stream, resolveAll⟩, state := .selected, headerSent := false, nextSeq := 1 })
  | kicked (hindexed : Indexed (ResolveRequest.ofData rid data)) :
      SelectorStep sm rid data (some .busyRepeatRequest,
        { sm with
          resolveRequest := ResolveRequest.ofData rid data, resolveActive := true,
          resolveDone := false, resolveSem := true })
  | failed (nrc : Nrc) : SelectorStep sm rid data
      (some nrc, { sm with resolveActive := false, resolveDone := false })
  | collected (hrid : rid ≠ ridSelectAll)
      (hrequest : sm.resolveRequest = ResolveRequest.ofData rid data)
      (hdone : sm.resolveDone = true) (hrc : sm.resolveRc = none) :
      SelectorStep sm rid data (none,
        { sm with
          resolveActive := false, resolveDone := false, state := .selected, headerSent := false,
          nextSeq := 1 })

/-- Only a resolver's failure is answered negatively, and it changes nothing. -/
theorem finishSelector_cases (sm : LogDownloadSM) (rc : Option Errno) :
    (rc = none ∧ finishSelector sm rc =
        (none, { sm with state := .selected, headerSent := false, nextSeq := 1 })) ∨
      ∃ nrc, finishSelector sm rc = (some nrc, sm) := by
  cases rc with
  | none => exact .inl ⟨rfl, rfl⟩
  | some e => cases e <;> exact .inr ⟨_, rfl⟩

theorem asyncSelector_step (sm : LogDownloadSM) {rid : UInt16} {data : List UInt8}
    (hindexed : Indexed (ResolveRequest.ofData rid data)) :
    SelectorStep sm rid data (asyncSelector sm rid data) := by
  have hrid : rid ≠ ridSelectAll := by
    rcases hindexed.rid with h | h | h | h
    all_goals
      rw [show rid = _ from h]
      decide
  unfold asyncSelector
  by_cases hsame : sm.resolveActive = true ∧ sm.resolveRequest = ResolveRequest.ofData rid data
  · simp only [if_pos hsame]
    split
    · next hdone =>
      rcases finishSelector_cases { sm with resolveActive := false, resolveDone := false }
        sm.resolveRc with ⟨hrc, h⟩ | ⟨nrc, h⟩
      · rw [h]
        exact .collected hrid hsame.2 hdone hrc
      · rw [h]
        exact .failed nrc
    · exact .refused _
  · simp only [if_neg hsame]
    exact .kicked hindexed

theorem resolveSelector_step (env : Surroundings) (sm : LogDownloadSM) (rid : UInt16)
    (data : List UInt8) : SelectorStep sm rid data (resolveSelector env sm rid data) := by
  unfold resolveSelector
  split
  · exact .refused _
  · next hlen =>
    cases hstream : FlashLogDest.ofByte (data.getD 0 0) with
    | none => exact .refused _
    | some stream =>
      have hasync : (rid = ridSelectByBoot ∨ rid = ridSelectByDive ∨ rid = ridSelectLatestBoot ∨
          rid = ridSelectLatestDive) → minParams rid ≤ data.length →
          SelectorStep sm rid data (asyncSelector sm rid data) := by
        intro hrid hmin
        refine asyncSelector_step sm ⟨hrid, ?_, ?_⟩
        · show minParams rid ≤ (data.take resolveParamsSize).length
          rw [List.length_take]
          refine le_min ?_ hmin
          unfold minParams
          split
          · decide
          split
          · decide
          · decide
        · rw [ResolveRequest.param_ofData, hstream]
          rfl
      by_cases hrid : rid = ridSelectAll
      · simp only [if_pos hrid]
        exact .all hrid (not_lt.mp hlen) hstream
      · simp only [if_neg hrid]
        split
        · exact .refused _
        split
        · next hboot =>
          split
          · exact .refused _
          · next hmin => exact hasync (.inl hboot) (by rw [hboot]; exact not_lt.mp hmin)
        split
        · next hdive =>
          split
          · exact .refused _
          · next hmin => exact hasync (.inr (.inl hdive)) (by rw [hdive]; exact not_lt.mp hmin)
        split
        · next hlatest =>
          refine hasync (.inr (.inr hlatest)) ?_
          rcases hlatest with h | h
          all_goals
            rw [h]
            exact not_lt.mp hlen
        · exact .refused _

/-- A request the handler acts on at all. -/
def Starts (request : List UInt8) : Prop :=
  routineControlMinReqLen ≤ request.length ∧ request.getD 2 0 = routineSubfuncStart

instance (request : List UInt8) : Decidable (Starts request) := inferInstanceAs (Decidable (_ ∧ _))

/-- A request is refused and changes nothing, or it begins a stream, or it is a
selector's. -/
theorem handleRoutine_cases (env : Surroundings) (sm : LogDownloadSM) (request : List UInt8) :
    (∃ nrc, handleRoutine env sm request = (some nrc, sm)) ∨
      (requestRid request = ridBeginStream ∧ sm.state = .selected ∧
        handleRoutine env sm request = (none,
          { sm with
            state := .streaming, reader := LogReader.open sm.range, headerSent := false })) ∨
      (requestRid request ≠ ridBeginStream ∧ Starts request ∧
        SelectorStep (stopStreaming .idle sm) (requestRid request) (requestData request)
          (handleRoutine env sm request)) := by
  unfold handleRoutine
  split
  · exact .inl ⟨_, rfl⟩
  split
  · exact .inl ⟨_, rfl⟩
  next hlen hstart =>
  unfold startRoutine
  split
  · next hrid =>
    unfold beginStream
    split
    · exact .inl ⟨_, rfl⟩
    split
    · exact .inl ⟨_, rfl⟩
    next hstate _ => exact .inr (.inl ⟨hrid, not_not.mp hstate, rfl⟩)
  · next hrid =>
    split
    · exact .inr (.inr ⟨hrid, ⟨not_lt.mp hlen, not_not.mp hstart⟩, resolveSelector_step ..⟩)
    · exact .inl ⟨_, rfl⟩

/-! ## What either thread can do -/

inductive SystemStep (y : System) : Event → System → Prop
  | routine (env : Surroundings) (request : List UInt8) :
      SystemStep y (.routine env request) { y with sm := (handleRoutine env y.sm request).2 }
  | transferExit : SystemStep y .transferExit { y with sm := leaveStream y.sm }
  | stalled (idleMs : UInt32) : SystemStep y (.poll idleMs) { y with sm := leaveStream y.sm }
  | quiet (idleMs : UInt32) : SystemStep y (.poll idleMs) y
  | wake (hworker : y.worker = .waiting) (hsem : y.sm.resolveSem = true) :
      SystemStep y .wake ⟨{ y.sm with resolveSem := false }, .woken⟩
  | snapshot (hworker : y.worker = .woken) :
      SystemStep y .snapshot { y with worker := snapshot y.sm }
  | publish {q : ResolveRequest} (hworker : y.worker = .walking q) (views : ℕ → FlashView) :
      SystemStep y (.publish views) ⟨publish y.sm q (workerResolve q views), .waiting⟩

theorem System.step_of {y y' : System} {e : Event} (h : y.step e = some y') :
    SystemStep y e y' := by
  cases e with
  | routine env request =>
    cases h
    exact .routine env request
  | transferExit =>
    simp only [System.step] at h
    split at h
    · cases h
      exact .transferExit
    · cases h
  | poll idleMs =>
    simp only [System.step] at h
    split at h
    · cases h
      exact .stalled idleMs
    · cases h
      exact .quiet idleMs
  | wake =>
    simp only [System.step] at h
    split at h
    · next hwake =>
      cases h
      exact .wake hwake.1 hwake.2
    · cases h
  | snapshot =>
    simp only [System.step] at h
    split at h
    · next hworker =>
      cases h
      exact .snapshot hworker
    · cases h
  | publish views =>
    simp only [System.step] at h
    split at h
    · next q hworker =>
      cases h
      exact .publish hworker views
    · cases h
    · cases h

end DiveCANHead.LogDownload
