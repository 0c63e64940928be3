import DiveCANHead.UdsClient.Queue

/-!
# Whose turn it is

The exchange in flight decides the fields that the handlers share. `Turn` is that exchange with
how far it has come, `Client.inTurn` a client in a turn, and there is one equation for what each
handler does in a turn. In the turn `lost` the exchange waits for a reply that nothing listens
for any more, and no timer is left to end it.
-/

namespace DiveCANHead.UdsClient

open DiveCANHead.Uds

inductive Turn where
  | idle
  | delaying (job : Job)
  | armed (job : Job)
  | lost (job : Job)
  | settled (job : Job)
  deriving DecidableEq, Repr

namespace Turn

/-- The job whose promise is still to settle. -/
def current : Turn → Option Job
  | delaying job | armed job | lost job => some job
  | idle | settled _ => none

def running : Turn → List Exchange
  | idle => []
  | delaying job => [⟨job, .delaying⟩]
  | armed job | lost job => [⟨job, .armed⟩]
  | settled job => [⟨job, .settled⟩]

def pending : Turn → Pending
  | armed job => .of job
  | idle | delaying _ | lost _ | settled _ => {}

def timers : Turn → List ℕ
  | armed job => [job.id]
  | idle | delaying _ | lost _ | settled _ => []

def busy (t : Turn) : Bool := decide (t ≠ idle)

/-- The fields are cleared under an exchange in flight. -/
def lose : Turn → Turn
  | armed job => lost job
  | t => t

end Turn

namespace Client

/-- The client in this turn. -/
def inTurn (c : Client) (t : Turn) : Client :=
  { c with running := t.running, pending := t.pending, timers := t.timers, busy := t.busy }

/-- One more promise has settled. -/
def record (c : Client) (job : Job) (o : Outcome) : Client :=
  { c with settled := c.settled ++ [(job, o)] }

variable (c : Client) (t : Turn) (job : Job)

/-! ## Settling -/

theorem settle_of_current {c : Client} {t : Turn} {job : Job} (hr : c.running = t.running)
    (ht : t.current = some job) (o : Outcome) :
    c.settle job.id o =
      { c with running := [⟨job, .settled⟩], settled := c.settled ++ [(job, o)] } := by
  cases t with
  | idle | settled j => cases ht
  | delaying j | armed j | lost j =>
    obtain rfl := Option.some.inj ht
    simp [settle, setPhase, hr, Turn.running]

theorem settle_of_other {c : Client} {t : Turn} {id : ℕ} (hr : c.running = t.running)
    (ht : ∀ job, t.current = some job → job.id ≠ id) (o : Outcome) : c.settle id o = c := by
  cases t with
  | idle | settled j => simp [settle, hr, Turn.running]
  | delaying j | armed j | lost j =>
    have hid := ht j rfl
    simp [settle, hr, Turn.running, hid]

theorem settle_delaying (o : Outcome) :
    (c.inTurn (.delaying job)).settle job.id o = (c.record job o).inTurn (.settled job) := by
  rw [settle_of_current (t := .delaying job) rfl rfl]
  simp [inTurn, record, Turn.timers, Turn.running, Turn.pending, Turn.busy]

/-! ## Timers and sends -/

theorem handleTimeout_armed :
    (c.inTurn (.armed job)).handleTimeout job.id =
      (c.record job (.failed .timeout)).inTurn (.settled job) := by
  rw [handleTimeout, forget, settle_of_current (t := .armed job) rfl rfl]
  simp [inTurn, record, Turn.timers, Turn.running, Turn.pending, Turn.busy]

theorem handleSendFailure_current {t : Turn} (ht : t.current = some job) :
    (c.inTurn t).handleSendFailure job.id =
      ({ c with sending := c.sending.erase job.id }.record job (.failed .sendFailed)).inTurn
        (.settled job) := by
  rw [handleSendFailure, settle_of_current (t := t) rfl ht]
  cases t <;> first | cases ht; done | simp [inTurn, record, clearPendingRequest, forget,
    Turn.timers, Turn.running, Turn.pending, Turn.busy, Pending.of]

/-- The failure of a send that is not the current one's. -/
theorem handleSendFailure_other {t : Turn} {id : ℕ}
    (ht : ∀ job, t.current = some job → job.id ≠ id) :
    (c.inTurn t).handleSendFailure id =
      { c with sending := c.sending.erase id }.inTurn t.lose := by
  rw [handleSendFailure, settle_of_other (t := t) rfl ht]
  cases t <;> simp [inTurn, clearPendingRequest, forget, Turn.timers, Turn.running, Turn.pending,
    Turn.busy, Turn.lose, Pending.of]

/-! ## Errors and aborts -/

theorem rejectPending_armed (reason : Failure) :
    (c.inTurn (.armed job)).clearPendingRequest.rejectPending reason =
      (c.record job (.failed reason)).inTurn (.settled job) := by
  show ((c.inTurn (.armed job)).clearPendingRequest.settle job.id _).forget = _
  rw [settle_of_current (t := .armed job) rfl rfl]
  simp [inTurn, record, clearPendingRequest, forget, Turn.timers, Turn.running, Turn.pending,
    Turn.busy, Pending.of]

/-- Outside of the armed turn there is nothing to reject. -/
theorem rejectPending_other (ht : t.pending = {}) (reason : Failure) :
    (c.inTurn t).clearPendingRequest.rejectPending reason = c.inTurn t := by
  cases t with
  | armed j => cases ht
  | idle | delaying j | lost j | settled j => rfl

theorem handleError_armed :
    (c.inTurn (.armed job)).handleError =
      (c.record job (.failed .transportError)).inTurn (.settled job) :=
  rejectPending_armed c job .transportError

theorem handleError_other (ht : t.pending = {}) : (c.inTurn t).handleError = c.inTurn t := by
  rw [handleError, if_neg]
  simp [inTurn, ht]

/-- The queue is empty, and its jobs are rejected. -/
def flush (c : Client) : Client :=
  { c with
    queue := []
    settled := c.settled ++ c.queue.map fun job => (job, Outcome.failed .aborted) }

theorem abortPending_armed :
    (c.inTurn (.armed job)).abortPending =
      (c.flush.record job (.failed .aborted)).inTurn (.settled job) :=
  rejectPending_armed c.flush job .aborted

theorem abortPending_other (ht : t.pending = {}) :
    (c.inTurn t).abortPending = c.flush.inTurn t :=
  rejectPending_other c.flush t ht .aborted

/-! ## Messages -/

end Client

/-- What the outstanding request would settle with on this message, if with anything. -/
def Job.reply (job : Job) (m : Message) : Option Outcome :=
  match m.data.head? with
  | none => none
  | some sid =>
    if sid = sidWriteDataById then none
    else if sid = sidNegativeResponse then
      (m.refuses job.service.sid).map fun code => .nrc code m
    else if sid ≠ job.service.sid + responseSidOffset then some (.failed .unexpectedSid)
    else if guardPasses job.service.responseMatcher m.data then some (job.service.conclude m)
    else none

namespace Client

variable (c : Client) (t : Turn) (job : Job)

/-- A response has arrived, and has settled the outstanding request with `o`. -/
def heard (c : Client) (now : ℤ) (o : Option Outcome) (job : Job) : Client :=
  match o with
  | some o =>
    ({ c with lastResponseTime := now, lastRequestTime := now }.record job o).inTurn (.settled job)
  | none => { c with lastResponseTime := now }.inTurn (.armed job)

theorem respondTo_armed (o : Job → Outcome) (now : ℤ) :
    (c.inTurn (.armed job)).clearPendingRequest.respondTo (some job) o now =
      ({ c with lastRequestTime := now }.record job (o job)).inTurn (.settled job) := by
  rw [respondTo, settle_of_current (t := .armed job) rfl rfl]
  simp [inTurn, record, clearPendingRequest, forget, Turn.timers, Turn.running, Turn.pending,
    Turn.busy, Pending.of]

theorem handleResponse_armed (m : Message) (now : ℤ) :
    (c.inTurn (.armed job)).handleResponse m now = c.heard now (job.reply m) job := by
  unfold handleResponse Job.reply
  cases m.data.head? with
  | none => rfl
  | some sid =>
    show (if sid = sidWriteDataById then _ else _) = _
    by_cases hpush : sid = sidWriteDataById
    · simp only [if_pos hpush]
      rfl
    simp only [if_neg hpush]
    show (if sid = sidNegativeResponse then
      ({ c with lastResponseTime := now }.inTurn (.armed job)).handleNegativeResponse _ _ _ else
      ({ c with lastResponseTime := now }.inTurn (.armed job)).handlePositiveResponse _ _ _ _) = _
    by_cases hneg : sid = sidNegativeResponse
    · simp only [if_pos hneg, handleNegativeResponse]
      cases m.refuses job.service.sid with
      | none => rfl
      | some code => exact respondTo_armed _ job _ now
    simp only [if_neg hneg, handlePositiveResponse]
    by_cases hsid : sid = job.service.sid + responseSidOffset
    · simp only [hsid, ne_eq, not_true_eq_false, if_false]
      show (if ¬guardPasses job.service.responseMatcher m.data = true then _ else _) = _
      cases guardPasses job.service.responseMatcher m.data with
      | false => rfl
      | true =>
        simp only [not_true_eq_false, if_false, if_true]
        exact respondTo_armed _ job _ now
    · simp only [ne_eq, hsid, not_false_eq_true, if_true]
      exact respondTo_armed _ job _ now

theorem handleResponse_other (ht : t.pending = {}) (m : Message) (now : ℤ) :
    (c.inTurn t).handleResponse m now = { c with lastResponseTime := now }.inTurn t := by
  unfold handleResponse
  cases m.data.head? with
  | none => rfl
  | some sid =>
    simp only [inTurn, ht]
    split
    · rfl
    · rfl

/-! ## The queue -/

/-- What `_dispatchRequest` makes of an idle client: the job leaves the queue, and is delayed,
sent, or turned down. -/
inductive Dispatched (c : Client) (job : Job) (now : ℤ) : Client → Prop
  | down (h : c.transportAvailable = false) :
      Dispatched c job now ((c.record job (.failed .transportUnavailable)).inTurn (.settled job))
  | delayed (h : c.transportAvailable = true) (hdelay : now - c.lastRequestTime < c.requestDelay) :
      Dispatched c job now (c.inTurn (.delaying job))
  | sent (h : c.transportAvailable = true) (hdelay : ¬now - c.lastRequestTime < c.requestDelay) :
      Dispatched c job now
        ({ c with sending := c.sending ++ [job.id], sent := c.sent ++ [job] }.inTurn (.armed job))

/-- The job has left the queue. -/
def taken (c : Client) (queue : List Job) (job : Job) : Client :=
  { c with queue := queue, dispatched := c.dispatched ++ [job.id] }

theorem transmit_delaying :
    (c.inTurn (.delaying job)).transmit job =
      if c.transportAvailable then
        { c with sending := c.sending ++ [job.id], sent := c.sent ++ [job] }.inTurn (.armed job)
      else (c.record job (.failed .transportUnavailable)).inTurn (.settled job) := by
  unfold transmit
  show (if c.transportAvailable = true then _ else _) = _
  split
  · simp [arm, inTurn, setPhase, Turn.running, Turn.pending, Turn.timers, Turn.busy]
  · exact settle_delaying c job _

theorem dispatch_idle (queue : List Job) (now : ℤ) :
    Dispatched (c.taken queue job) job now
      ({ c.inTurn .idle with queue := queue, busy := true }.dispatch job now) := by
  have hdispatch : ({ c.inTurn .idle with queue := queue, busy := true }.dispatch job now) =
      if ¬c.transportAvailable then
        ((c.taken queue job).inTurn (.delaying job)).settle job.id (.failed .transportUnavailable)
      else if now - c.lastRequestTime < c.requestDelay then
        (c.taken queue job).inTurn (.delaying job)
      else ((c.taken queue job).inTurn (.delaying job)).transmit job := rfl
  rw [hdispatch]
  cases havail : c.transportAvailable with
  | false =>
    rw [if_pos (by decide), settle_delaying]
    exact .down havail
  | true =>
    have hup : (c.taken queue job).transportAvailable = true := havail
    rw [if_neg (by decide), transmit_delaying, if_pos hup]
    split
    · next hdelay => exact .delayed havail hdelay
    · next hdelay => exact .sent havail hdelay

theorem pump_idle {c : Client} {job : Job} {queue : List Job} (h : c.queue = job :: queue)
    (now : ℤ) : Dispatched (c.taken queue job) job now ((c.inTurn .idle).pump now) := by
  have hqueue : (c.inTurn .idle).queue = job :: queue := h
  unfold pump
  rw [hqueue]
  exact dispatch_idle c job queue now

theorem pump_empty {c : Client} (h : c.queue = []) (now : ℤ) :
    (c.inTurn .idle).pump now = c.inTurn .idle := by
  have hqueue : (c.inTurn .idle).queue = [] := h
  unfold pump
  rw [hqueue]
  exact ite_self _

theorem pump_busy (ht : t ≠ .idle) (now : ℤ) : (c.inTurn t).pump now = c.inTurn t := by
  rw [pump, if_pos]
  show decide (t ≠ .idle) = true
  simpa using ht

end Client

end DiveCANHead.UdsClient
