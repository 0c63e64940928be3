import DiveCANHead.Lib.Runs
import DiveCANHead.Uds.Write

/-!
# The calibration guard (`calibration.c`, `divecan_rx.c`, `uds.c`)

The receive thread lets calibration requests through, from the CAL frame with
`calibration_try_acquire` and from the UDS DID with `calibration_is_running`; the calibration
thread takes them off its subscriber queue one by one and ends each run with
`calibration_release`. Each atomic operation and each queue operation is a step of its own, so
every interleaving of the two threads is a run. Tickets and histories are for the results only.
-/

namespace DiveCANHead.Calibration

open DiveCANHead.Lib DiveCANHead.Uds

/-- `CalRequest_t`; the method is the byte of the cal-mode setting. -/
structure CalRequest where
  method : UInt8
  fo2 : UInt8
  pressureMbar : UInt16
  deriving DecidableEq, Repr

inductive CalSource where
  | canFrame
  | uds
  deriving DecidableEq, Repr

/-- A valid request, numbered as it arrived. -/
structure Ticket where
  number : ℕ
  source : CalSource
  request : CalRequest
  deriving DecidableEq, Repr

/-- What the requester is told. -/
inductive CalReply where
  | calAck
  | positive
  | negative (nrc : Nrc)
  deriving DecidableEq, Repr

/-- Where the receive thread is. A CAL frame is `acquiring`, a UDS request `checking`, then either
is `publishing`; `releasing` and `clearing` are the two halves of `calibration_release`. -/
inductive RxThread where
  | idle
  | acquiring (t : Ticket)
  | checking (t : Ticket)
  | publishing (t : Ticket)
  | releasing (t : Ticket)
  | clearing (t : Ticket)
  deriving DecidableEq, Repr

/-- Where the calibration thread is. -/
inductive CalThread where
  | waiting
  | suppressing (t : Ticket)
  | running (t : Ticket)
  | restoring (t : Ticket)
  | releasing (t : Ticket)
  | clearing (t : Ticket)
  deriving DecidableEq, Repr

/-- The two threads, the running flag and the subscriber queue. `holder` is the request whose
acquisition set the flag. -/
structure CalGuard where
  flag : Bool
  holder : Option ℕ
  queue : List Ticket
  rx : RxThread
  cal : CalThread
  arrivals : ℕ
  replies : List CalReply
  accepted : List Ticket
  executed : List Ticket
  deriving DecidableEq, Repr

def CalGuard.init : CalGuard where
  flag := false
  holder := none
  queue := []
  rx := .idle
  cal := .waiting
  arrivals := 0
  replies := []
  accepted := []
  executed := []

/-! ## Steps of the receive thread -/

/-- `FO2_MAX_PERCENT`. -/
def fo2MaxPercent : UInt8 := 100

/-- `RespCal` up to the acquisition: an out-of-range FO2 is ignored, anything else is
acknowledged. -/
def respCal (s : CalGuard) (request : CalRequest) : CalGuard :=
  if fo2MaxPercent < request.fo2 then s
  else
    { s with
      replies := .calAck :: s.replies
      rx := .acquiring ⟨s.arrivals, .canFrame, request⟩
      arrivals := s.arrivals + 1 }

/-- The verdict of `writeCalibrationTriggerDID` (`none` lets the request through). -/
def triggerVerdict (running : Bool) (q : Request) : Option Nrc :=
  if q.length ≠ udsSingleValueLen then some .incorrectMsgLen
  else if fo2MaxPercent < q.data 0 then some .requestOutOfRange
  else if running then some .conditionsNotCorrect
  else none

/-- `writeCalibrationTriggerDID` up to its check of the flag. -/
def triggerArrives (s : CalGuard) (method : UInt8) (pressure : UInt16) (q : Request) : CalGuard :=
  match triggerVerdict false q with
  | some nrc => { s with replies := .negative nrc :: s.replies }
  | none =>
    { s with
      rx := .checking ⟨s.arrivals, .uds, ⟨method, q.data 0, pressure⟩⟩
      arrivals := s.arrivals + 1 }

/-- `calibration_try_acquire`: a compare-and-swap of the flag. -/
def tryAcquire (s : CalGuard) (t : Ticket) : CalGuard :=
  if s.flag then { s with rx := .idle }
  else { s with flag := true, holder := some t.number, rx := .publishing t }

def checkRunning (s : CalGuard) (t : Ticket) : CalGuard :=
  if s.flag then { s with rx := .idle, replies := .negative .conditionsNotCorrect :: s.replies }
  else { s with rx := .publishing t }

/-- The publication to `chan_cal_request`. A CAL frame that cannot be published is given up and its
acquisition taken back; a UDS request is answered positively either way. -/
def publish (s : CalGuard) (t : Ticket) (published : Bool) : CalGuard :=
  let queue := if published then s.queue ++ [t] else s.queue
  match t.source with
  | .uds =>
    { s with queue, rx := .idle, replies := .positive :: s.replies, accepted := s.accepted ++ [t] }
  | .canFrame =>
    if published then { s with queue, rx := .idle, accepted := s.accepted ++ [t] }
    else { s with rx := .releasing t }

/-- The next step of the receive thread inside a handler. -/
def rxStep (s : CalGuard) (published : Bool) : Option CalGuard :=
  match s.rx with
  | .idle => none
  | .acquiring t => some (tryAcquire s t)
  | .checking t => some (checkRunning s t)
  | .publishing t => some (publish s t published)
  | .releasing t => some { s with rx := if s.flag then .clearing t else .idle }
  | .clearing _ => some { s with flag := false, holder := none, rx := .idle }

/-! ## Steps of the calibration thread -/

/-- The next step of `cal_thread_fn`. -/
def calStep (s : CalGuard) : Option CalGuard :=
  match s.cal with
  | .waiting =>
    match s.queue with
    | [] => none
    | t :: queue => some { s with queue, cal := .suppressing t }
  | .suppressing t => some { s with cal := .running t }
  | .running t => some { s with cal := .restoring t, executed := s.executed ++ [t] }
  | .restoring t => some { s with cal := .releasing t }
  | .releasing t => some { s with cal := if s.flag then .clearing t else .waiting }
  | .clearing _ => some { s with flag := false, holder := none, cal := .waiting }

/-- A request arrives while the receive thread is free, or a thread takes its next step. -/
inductive GuardEvent where
  | canFrame (request : CalRequest)
  | udsWrite (method : UInt8) (pressure : UInt16) (q : Request)
  | rx (published : Bool)
  | cal
  deriving DecidableEq, Repr

def guardStep (s : CalGuard) : GuardEvent → Option CalGuard
  | .canFrame request => if s.rx = .idle then some (respCal s request) else none
  | .udsWrite method pressure q =>
    if s.rx = .idle then some (triggerArrives s method pressure q) else none
  | .rx published => rxStep s published
  | .cal => calStep s

/-- The UDS handler gives the verdict that the steps give. -/
theorem writeCalibrationTriggerDID_verdict (env : WriteEnv) (h : Head) (q : Request) :
    writeCalibrationTriggerDID env h q =
      match triggerVerdict env.calRunning q with
      | some nrc => h.rejectWrite nrc
      | none =>
        (h.emit (.publishCalRequest env.calMethod (q.data 0)
          (env.pressure.getD 1013))).acceptWrite q := by
  simp only [writeCalibrationTriggerDID, triggerVerdict]
  by_cases hlen : q.length ≠ udsSingleValueLen
  · rw [if_pos hlen, if_pos hlen]
  rw [if_neg hlen, if_neg hlen]
  by_cases hfo2 : fo2MaxPercent < q.data 0
  · have hover : 100 < q.data 0 := hfo2
    rw [if_pos hfo2, if_pos hover]
  have hwithin : ¬ 100 < q.data 0 := hfo2
  rw [if_neg hfo2, if_neg hwithin]
  cases env.calRunning <;> rfl

/-- What one step does. -/
inductive GuardStep (s : CalGuard) : GuardEvent → CalGuard → Prop where
  | answered {e : GuardEvent} (replies : List CalReply) (h : s.rx = .idle)
      (he : ∀ p, e ≠ .rx p) (hc : e ≠ .cal) : GuardStep s e { s with replies }
  | frame {request : CalRequest} (h : s.rx = .idle) :
      GuardStep s (.canFrame request)
        { s with
          replies := .calAck :: s.replies
          rx := .acquiring ⟨s.arrivals, .canFrame, request⟩
          arrivals := s.arrivals + 1 }
  | trigger {method : UInt8} {pressure : UInt16} {q : Request} (h : s.rx = .idle) :
      GuardStep s (.udsWrite method pressure q)
        { s with
          rx := .checking ⟨s.arrivals, .uds, ⟨method, q.data 0, pressure⟩⟩
          arrivals := s.arrivals + 1 }
  | refused {p : Bool} (replies : List CalReply) {u : Ticket}
      (h : s.rx = .acquiring u ∨ s.rx = .checking u) (hf : s.flag = true) :
      GuardStep s (.rx p) { s with rx := .idle, replies }
  | acquired {p : Bool} {u : Ticket} (h : s.rx = .acquiring u) (hf : s.flag = false) :
      GuardStep s (.rx p) { s with flag := true, holder := some u.number, rx := .publishing u }
  | checked {p : Bool} {u : Ticket} (h : s.rx = .checking u) (hf : s.flag = false) :
      GuardStep s (.rx p) { s with rx := .publishing u }
  | queued (replies : List CalReply) {u : Ticket} (h : s.rx = .publishing u) :
      GuardStep s (.rx true)
        { s with
          queue := s.queue ++ [u], rx := .idle, replies, accepted := s.accepted ++ [u] }
  | lost (replies : List CalReply) {u : Ticket} (h : s.rx = .publishing u)
      (hu : u.source = .uds) :
      GuardStep s (.rx false) { s with rx := .idle, replies, accepted := s.accepted ++ [u] }
  | unpublished {u : Ticket} (h : s.rx = .publishing u) (hu : u.source = .canFrame) :
      GuardStep s (.rx false) { s with rx := .releasing u }
  | givingUp {p : Bool} {u : Ticket} (h : s.rx = .releasing u) (hf : s.flag = true) :
      GuardStep s (.rx p) { s with rx := .clearing u }
  | givenUp {p : Bool} {u : Ticket} (h : s.rx = .releasing u) (hf : s.flag = false) :
      GuardStep s (.rx p) { s with rx := .idle }
  | rxCleared {p : Bool} {u : Ticket} (h : s.rx = .clearing u) :
      GuardStep s (.rx p) { s with flag := false, holder := none, rx := .idle }
  | taken {u : Ticket} {queue : List Ticket} (h : s.cal = .waiting) (hq : s.queue = u :: queue) :
      GuardStep s .cal { s with queue, cal := .suppressing u }
  | begun {u : Ticket} (h : s.cal = .suppressing u) : GuardStep s .cal { s with cal := .running u }
  | ran {u : Ticket} (h : s.cal = .running u) :
      GuardStep s .cal { s with cal := .restoring u, executed := s.executed ++ [u] }
  | restored {u : Ticket} (h : s.cal = .restoring u) :
      GuardStep s .cal { s with cal := .releasing u }
  | releasing {u : Ticket} (h : s.cal = .releasing u) (hf : s.flag = true) :
      GuardStep s .cal { s with cal := .clearing u }
  | released {u : Ticket} (h : s.cal = .releasing u) (hf : s.flag = false) :
      GuardStep s .cal { s with cal := .waiting }
  | calCleared {u : Ticket} (h : s.cal = .clearing u) :
      GuardStep s .cal { s with flag := false, holder := none, cal := .waiting }

theorem rxStep_cases {s t : CalGuard} {p : Bool} (h : rxStep s p = some t) :
    GuardStep s (.rx p) t := by
  unfold rxStep at h
  split at h
  · cases h
  · rename_i u hu
    cases Option.some.inj h
    unfold tryAcquire
    split
    · rename_i hf
      exact .refused s.replies (.inl hu) hf
    · rename_i hf
      exact .acquired hu (Bool.eq_false_iff.mpr hf)
  · rename_i u hu
    cases Option.some.inj h
    unfold checkRunning
    split
    · rename_i hf
      exact .refused _ (.inr hu) hf
    · rename_i hf
      exact .checked hu (Bool.eq_false_iff.mpr hf)
  · rename_i u hu
    cases Option.some.inj h
    unfold publish
    cases p <;> cases hs : u.source
    · exact .unpublished hu hs
    · exact .lost _ hu hs
    · exact .queued _ hu
    · exact .queued _ hu
  · rename_i u hu
    cases Option.some.inj h
    split
    · rename_i hf
      exact .givingUp hu hf
    · rename_i hf
      exact .givenUp hu (Bool.eq_false_iff.mpr hf)
  · rename_i u hu
    exact Option.some.inj h ▸ .rxCleared hu

theorem calStep_cases {s t : CalGuard} (h : calStep s = some t) : GuardStep s .cal t := by
  unfold calStep at h
  split at h
  · rename_i hc
    split at h
    · cases h
    · rename_i hq
      exact Option.some.inj h ▸ .taken hc hq
  · rename_i hc
    exact Option.some.inj h ▸ .begun hc
  · rename_i hc
    exact Option.some.inj h ▸ .ran hc
  · rename_i hc
    exact Option.some.inj h ▸ .restored hc
  · rename_i hc
    cases Option.some.inj h
    split
    · rename_i hf
      exact .releasing hc hf
    · rename_i hf
      exact .released hc (Bool.eq_false_iff.mpr hf)
  · rename_i hc
    exact Option.some.inj h ▸ .calCleared hc

theorem guardStep_cases {s t : CalGuard} {e : GuardEvent} (h : guardStep s e = some t) :
    GuardStep s e t := by
  cases e with
  | canFrame request =>
    simp only [guardStep, Option.ite_none_right_eq_some, Option.some.injEq] at h
    obtain ⟨hidle, rfl⟩ := h
    unfold respCal
    split
    · exact .answered s.replies hidle (by simp) (by simp)
    · exact .frame hidle
  | udsWrite method pressure q =>
    simp only [guardStep, Option.ite_none_right_eq_some, Option.some.injEq] at h
    obtain ⟨hidle, rfl⟩ := h
    unfold triggerArrives
    split
    · exact .answered _ hidle (by simp) (by simp)
    · exact .trigger hidle
  | rx p => exact rxStep_cases h
  | cal => exact calStep_cases h

end DiveCANHead.Calibration
