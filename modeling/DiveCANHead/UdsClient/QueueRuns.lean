import Mathlib.Data.List.Nodup
import DiveCANHead.UdsClient.Turn

/-!
# Runs of the client's queue (`UDSClient.js`)

Jobs are numbered as they are accepted and leave the queue in that order, one at a time, and each
promise settles once. Five handlers clear the same pending fields; four of them do it for the
exchange that these belong to, and the fifth, the failure of a send, for whichever is in flight
when the failure is reported.
-/

namespace DiveCANHead.UdsClient

open DiveCANHead.Lib

/-! ## The books of the queue -/

/-- What was accepted, dispatched and settled adds up; `J` holds of every job that has not settled,
and `P` of every outcome. -/
structure Ledger (J : Job → Prop) (P : Job → Outcome → Prop) (queue : List Job)
    (dispatched : List ℕ) (nextId : ℕ) (settled : List (Job × Outcome)) (current : Option Job) :
    Prop where
  order : (dispatched ++ queue.map Job.id).Pairwise (· < ·)
  accepted : ∀ i ∈ dispatched ++ queue.map Job.id, i < nextId
  known : ∀ p ∈ settled, p.1.id < nextId
  once : (settled.map fun p => p.1.id).Nodup
  waiting : ∀ job ∈ queue, ∀ p ∈ settled, p.1.id ≠ job.id
  running : ∀ job ∈ current, job.id ∈ dispatched ∧ ∀ p ∈ settled, p.1.id ≠ job.id
  done : ∀ i ∈ dispatched, (∃ job ∈ current, job.id = i) ∨ ∃ p ∈ settled, p.1.id = i
  queued : ∀ job ∈ queue, J job
  inFlight : ∀ job ∈ current, J job
  outcomes : ∀ p ∈ settled, P p.1 p.2

namespace Ledger

variable {J : Job → Prop} {P : Job → Outcome → Prop} {queue : List Job} {dispatched : List ℕ}
  {nextId : ℕ} {settled : List (Job × Outcome)} {current : Option Job} {job : Job}

theorem start : Ledger J P [] [] 0 [] none where
  order := List.Pairwise.nil
  accepted := List.forall_mem_nil _
  known := List.forall_mem_nil _
  once := List.nodup_nil
  waiting := List.forall_mem_nil _
  running := fun _ hcurrent => absurd hcurrent (Option.not_mem_none _)
  done := List.forall_mem_nil _
  queued := List.forall_mem_nil _
  inFlight := fun _ hcurrent => absurd hcurrent (Option.not_mem_none _)
  outcomes := List.forall_mem_nil _

/-- A job is accepted. -/
theorem push (h : Ledger J P queue dispatched nextId settled current) {s : Service}
    (hJ : J ⟨nextId, s⟩) :
    Ledger J P (queue ++ [⟨nextId, s⟩]) dispatched (nextId + 1) settled current where
  order := by
    rw [List.map_append, ← List.append_assoc, List.pairwise_append]
    refine ⟨h.order, List.pairwise_singleton _ _, fun i hi j hj => ?_⟩
    obtain rfl := List.mem_singleton.mp hj
    exact h.accepted i hi
  accepted := by
    intro i hi
    rw [List.map_append, ← List.append_assoc] at hi
    rcases List.mem_append.mp hi with hi | hi
    · exact Nat.lt_succ_of_lt (h.accepted i hi)
    · obtain rfl := List.mem_singleton.mp hi
      exact Nat.lt_succ_self _
  known := fun p hp => Nat.lt_succ_of_lt (h.known p hp)
  once := h.once
  waiting := by
    intro j hj p hp
    rcases List.mem_append.mp hj with hj | hj
    · exact h.waiting j hj p hp
    · obtain rfl := List.mem_singleton.mp hj
      exact Nat.ne_of_lt (h.known p hp)
  running := h.running
  done := h.done
  queued := by
    intro j hj
    rcases List.mem_append.mp hj with hj | hj
    · exact h.queued j hj
    · exact List.mem_singleton.mp hj ▸ hJ
  inFlight := h.inFlight
  outcomes := h.outcomes

/-- The first job of the queue is dispatched. -/
theorem take (h : Ledger J P (job :: queue) dispatched nextId settled none) :
    Ledger J P queue (dispatched ++ [job.id]) nextId settled (some job) where
  order := by
    rw [List.append_assoc]
    exact h.order
  accepted := by
    rw [List.append_assoc]
    exact h.accepted
  known := h.known
  once := h.once
  waiting := fun j hj => h.waiting j (List.mem_cons_of_mem _ hj)
  running := by
    rintro j ⟨⟩
    exact ⟨List.mem_append_right _ List.mem_cons_self, h.waiting job List.mem_cons_self⟩
  done := by
    intro i hi
    rcases List.mem_append.mp hi with hi | hi
    · exact (h.done i hi).imp (fun ⟨_, hj, _⟩ => nomatch hj) id
    · exact .inl ⟨job, rfl, (List.mem_singleton.mp hi).symm⟩
  queued := fun j hj => h.queued j (List.mem_cons_of_mem _ hj)
  inFlight := by
    rintro j ⟨⟩
    exact h.queued job List.mem_cons_self
  outcomes := h.outcomes

/-- The promise of the job in flight settles. -/
theorem record (h : Ledger J P queue dispatched nextId settled (some job)) {o : Outcome}
    (ho : P job o) : Ledger J P queue dispatched nextId (settled ++ [(job, o)]) none := by
  obtain ⟨hmem, hfresh⟩ := h.running job rfl
  have hsettled : ∀ p ∈ settled ++ [(job, o)], p ∈ settled ∨ p = (job, o) := fun p hp =>
    (List.mem_append.mp hp).imp id List.mem_singleton.mp
  refine ⟨h.order, h.accepted, fun p hp => ?_, ?_, fun j hj p hp => ?_, nofun, fun i hi => ?_,
    h.queued, nofun, fun p hp => ?_⟩
  · rcases hsettled p hp with hp | rfl
    · exact h.known p hp
    · exact h.accepted _ (List.mem_append_left _ hmem)
  · rw [List.map_append]
    refine List.nodup_append.mpr ⟨h.once, List.nodup_singleton _, fun i hi k hk => ?_⟩
    obtain rfl := List.mem_singleton.mp hk
    obtain ⟨p, hp, rfl⟩ := List.mem_map.mp hi
    exact hfresh p hp
  · rcases hsettled p hp with hp | rfl
    · exact h.waiting j hj p hp
    · have hlt := (List.pairwise_append.mp h.order).2.2 job.id hmem j.id
        (List.mem_map_of_mem hj)
      exact Nat.ne_of_lt hlt
  · rcases h.done i hi with ⟨j, hj, rfl⟩ | ⟨p, hp, hid⟩
    · obtain rfl := Option.some.inj hj
      exact .inr ⟨(job, o), List.mem_append_right _ List.mem_cons_self, rfl⟩
    · exact .inr ⟨p, List.mem_append_left _ hp, hid⟩
  · rcases hsettled p hp with hp | rfl
    · exact h.outcomes p hp
    · exact ho

/-- Every queued job is rejected. -/
theorem flush (h : Ledger J P queue dispatched nextId settled current)
    (hP : ∀ job, J job → P job (.failed .aborted)) :
    Ledger J P [] dispatched nextId
      (settled ++ queue.map fun job => (job, Outcome.failed .aborted)) current := by
  have hsettled : ∀ p ∈ settled ++ queue.map (fun job => (job, Outcome.failed .aborted)),
      p ∈ settled ∨ ∃ j ∈ queue, (j, Outcome.failed .aborted) = p := fun p hp =>
    (List.mem_append.mp hp).imp id List.mem_map.mp
  have hqueued : ∀ j ∈ queue, ∀ i ∈ dispatched, i < j.id := fun j hj i hi =>
    (List.pairwise_append.mp h.order).2.2 i hi j.id (List.mem_map_of_mem hj)
  refine ⟨?_, fun i hi => ?_, fun p hp => ?_, ?_, nofun, fun j hj => ?_, fun i hi => ?_, nofun,
    h.inFlight, fun p hp => ?_⟩
  · rw [List.map_nil, List.append_nil]
    exact (List.pairwise_append.mp h.order).1
  · rw [List.map_nil, List.append_nil] at hi
    exact h.accepted i (List.mem_append_left _ hi)
  · rcases hsettled p hp with hp | ⟨j, hj, rfl⟩
    · exact h.known p hp
    · exact h.accepted _ (List.mem_append_right _ (List.mem_map_of_mem hj))
  · rw [List.map_append, List.map_map]
    refine List.nodup_append.mpr ⟨h.once, ?_, fun i hi k hk => ?_⟩
    · exact (List.pairwise_append.mp h.order).2.1.imp Nat.ne_of_lt
    · obtain ⟨p, hp, rfl⟩ := List.mem_map.mp hi
      obtain ⟨j, hj, rfl⟩ := List.mem_map.mp hk
      exact h.waiting j hj p hp
  · obtain ⟨hmem, hfresh⟩ := h.running j hj
    refine ⟨hmem, fun p hp => ?_⟩
    rcases hsettled p hp with hp | ⟨k, hk, rfl⟩
    · exact hfresh p hp
    · exact Nat.ne_of_gt (hqueued k hk j.id hmem)
  · exact (h.done i hi).imp id fun ⟨p, hp, hid⟩ => ⟨p, List.mem_append_left _ hp, hid⟩
  · rcases hsettled p hp with hp | ⟨j, hj, rfl⟩
    · exact h.outcomes p hp
    · exact hP j (h.queued j hj)

end Ledger

/-! ## One step -/

/-- The books of a client in this turn; an idle client has nothing queued. -/
structure Kept (J : Job → Prop) (P : Job → Outcome → Prop) (c : Client) (t : Turn) : Prop where
  ledger : Ledger J P c.queue c.dispatched c.nextId c.settled t.current
  sent : ∀ job ∈ c.sent, J job ∧ job.id ∈ c.dispatched
  empty : t = .idle → c.queue = []

/-- A send has failed that is not the one of the exchange in flight. -/
def LateFailure (c : Client) : ClientEvent → Prop
  | .sendFailed id => ∃ job ∈ c.pending.reject, job.id ≠ id
  | _ => False

/-- What the callers ask for is as `J` says, and what the messages settle is as `P` says. -/
def Admits (J : Job → Prop) (P : Job → Outcome → Prop) (c : Client) : ClientEvent → Prop
  | .request service _ => J ⟨c.nextId, service⟩
  | .message m _ => ∀ job ∈ c.pending.resolve, J job → ∀ o ∈ job.reply m, P job o
  | _ => True

/-- What a step leads to: a turn with its books, and a lost one only through a late failure. -/
def Leads (J : Job → Prop) (P : Job → Outcome → Prop) (c : Client) (t : Turn) (e : ClientEvent)
    (d : Client) : Prop :=
  ∃ c' t', d = c'.inTurn t' ∧ Kept J P c' t' ∧ c.nextId ≤ c'.nextId ∧
    ∀ job, t' = .lost job → t = .lost job ∨ t = .armed job ∧ LateFailure (c.inTurn t) e

section Step

variable {J : Job → Prop} {P : Job → Outcome → Prop} {b c d : Client} {s t : Turn}
  {e : ClientEvent} {job : Job}

/-- The terms may change, for the jobs that there are. -/
theorem Kept.imp {J' : Job → Prop} {P' : Job → Outcome → Prop} (h : Kept J P c t)
    (hJ : ∀ job, job.id < c.nextId → J job → J' job)
    (hP : ∀ job o, job.id < c.nextId → P job o → P' job o) : Kept J' P' c t := by
  have haccepted := h.ledger.accepted
  have hqueued : ∀ job ∈ c.queue, job.id < c.nextId := fun job hjob =>
    haccepted _ (List.mem_append_right _ (List.mem_map_of_mem hjob))
  have hdispatched : ∀ i ∈ c.dispatched, i < c.nextId := fun i hi =>
    haccepted i (List.mem_append_left _ hi)
  refine ⟨{ h.ledger with queued := fun job hjob => ?_, inFlight := fun job hjob => ?_,
                          outcomes := fun p hp => ?_ }, fun job hjob => ?_, h.empty⟩
  · exact hJ job (hqueued job hjob) (h.ledger.queued job hjob)
  · exact hJ job (hdispatched _ (h.ledger.running job hjob).1) (h.ledger.inFlight job hjob)
  · exact hP p.1 p.2 (h.ledger.known p hp) (h.ledger.outcomes p hp)
  · obtain ⟨hjob', hid⟩ := h.sent job hjob
    exact ⟨hJ job (hdispatched _ hid) hjob', hid⟩

theorem Kept.leads (h : Kept J P c t) (hb : b.nextId ≤ c.nextId) : Leads J P b t e (c.inTurn t) :=
  ⟨c, t, rfl, h, hb, fun _ ht => .inl ht⟩

/-- The promise of the job in flight settles. -/
theorem Kept.settles (h : Kept J P c t) (hb : b.nextId ≤ c.nextId) (ht : t.current = some job)
    {o : Outcome} (ho : J job → P job o) :
    Leads J P b s e ((c.record job o).inTurn (.settled job)) := by
  have hledger := h.ledger
  rw [ht] at hledger
  exact ⟨_, _, rfl, ⟨hledger.record (ho (hledger.inFlight job rfl)), h.sent, nofun⟩, hb, nofun⟩

theorem leads_message (h : Kept J P c t) (m : Message) (now : ℤ)
    (hm : Admits J P (c.inTurn t) (.message m now)) :
    Leads J P c t e ((c.inTurn t).handleResponse m now) := by
  by_cases ht : t.pending = {}
  · rw [Client.handleResponse_other c t ht]
    refine Kept.leads ?_ (Nat.le_refl _)
    exact ⟨h.ledger, h.sent, h.empty⟩
  · cases t with
    | idle | delaying j | lost j | settled j => exact absurd rfl ht
    | armed job =>
      rw [Client.handleResponse_armed]
      cases hreply : job.reply m with
      | none =>
        refine Kept.leads ?_ (Nat.le_refl _)
        exact ⟨h.ledger, h.sent, h.empty⟩
      | some o =>
        refine Kept.settles (t := .armed job) ?_ (Nat.le_refl _) rfl fun hjob =>
          hm job rfl hjob o hreply
        exact ⟨h.ledger, h.sent, h.empty⟩

variable (hP : ∀ job reason, J job → P job (.failed reason))

include hP

theorem Kept.flush (h : Kept J P c t) : Kept J P c.flush t :=
  ⟨h.ledger.flush fun job => hP job .aborted, h.sent, fun _ => rfl⟩

/-- A job that is taken from the queue is delayed, sent or turned down. -/
theorem leads_dispatched {queue : List Job} {now : ℤ} (hb : b.nextId ≤ c.nextId)
    (h : Ledger J P (job :: queue) c.dispatched c.nextId c.settled none)
    (hsent : ∀ job ∈ c.sent, J job ∧ job.id ∈ c.dispatched)
    (hd : (c.taken queue job).Dispatched job now d) : Leads J P b s e d := by
  have htake := h.take
  have hsent' : ∀ j ∈ c.sent, J j ∧ j.id ∈ c.dispatched ++ [job.id] := fun j hj =>
    ⟨(hsent j hj).1, List.mem_append_left _ (hsent j hj).2⟩
  have htaken : Kept J P (c.taken queue job) (.delaying job) := ⟨htake, hsent', nofun⟩
  cases hd with
  | down => exact htaken.settles hb rfl (hP _ _)
  | delayed => exact ⟨_, _, rfl, htaken, hb, nofun⟩
  | sent =>
    refine ⟨_, _, rfl, ⟨htake, fun j hj => ?_, nofun⟩, hb, nofun⟩
    rcases List.mem_append.mp hj with hj | hj
    · exact hsent' j hj
    · obtain rfl := List.mem_singleton.mp hj
      exact ⟨htake.inFlight j rfl, (htake.running j rfl).1⟩

theorem leads_request (h : Kept J P c t) (service : Service) (now : ℤ)
    (hJ : J ⟨c.nextId, service⟩) : Leads J P c t e ((c.inTurn t).sendRequest service now) := by
  unfold Client.sendRequest
  show Leads J P c t e (if c.transportAvailable = true then
    (({ c with
      queue := c.queue ++ [Job.mk c.nextId service]
      nextId := c.nextId + 1 } : Client).inTurn t).pump now else _)
  split
  · have hpush := h.ledger.push hJ
    by_cases ht : t = .idle
    · have hnil := h.empty ht
      subst ht
      rw [hnil] at hpush ⊢
      refine leads_dispatched hP ?_ ?_ ?_ (Client.pump_idle rfl now)
      · exact Nat.le_succ _
      · exact hpush
      · exact h.sent
    · rw [Client.pump_busy _ _ ht]
      refine Kept.leads ?_ (Nat.le_succ _)
      exact ⟨hpush, h.sent, fun hidle => absurd hidle ht⟩
  · exact h.leads (Nat.le_refl _)

theorem leads_delayOver (h : Kept J P c (.delaying job)) :
    Leads J P c (.delaying job) e ((c.inTurn (.delaying job)).transmit job) := by
  rw [Client.transmit_delaying]
  split
  · refine ⟨_, _, rfl, ⟨h.ledger, fun j hj => ?_, nofun⟩, Nat.le_refl _, nofun⟩
    rcases List.mem_append.mp hj with hj | hj
    · exact h.sent j hj
    · obtain rfl := List.mem_singleton.mp hj
      exact ⟨h.ledger.inFlight j rfl, (h.ledger.running j rfl).1⟩
  · exact h.settles (Nat.le_refl _) rfl (hP _ _)

theorem leads_sendFailed (h : Kept J P c t) (id : ℕ) :
    Leads J P c t (.sendFailed id) ((c.inTurn t).handleSendFailure id) := by
  by_cases hcurrent : ∃ job, t.current = some job ∧ job.id = id
  · obtain ⟨job, ht, rfl⟩ := hcurrent
    rw [Client.handleSendFailure_current c job ht]
    refine Kept.settles ?_ ?_ ht (hP _ _)
    · exact ⟨h.ledger, h.sent, h.empty⟩
    · exact Nat.le_refl _
  · have hother : ∀ job, t.current = some job → job.id ≠ id := fun job ht hid =>
      hcurrent ⟨job, ht, hid⟩
    rw [Client.handleSendFailure_other c hother]
    cases t with
    | idle | delaying j | lost j | settled j =>
      refine Kept.leads ?_ (Nat.le_refl _)
      exact ⟨h.ledger, h.sent, h.empty⟩
    | armed j =>
      refine ⟨_, _, rfl, ⟨h.ledger, h.sent, nofun⟩, Nat.le_refl _, fun k hk => ?_⟩
      obtain rfl := Turn.lost.inj hk
      exact .inr ⟨rfl, j, rfl, hother j rfl⟩

theorem leads_error (h : Kept J P c t) : Leads J P c t e (c.inTurn t).handleError := by
  by_cases ht : t.pending = {}
  · rw [Client.handleError_other c t ht]
    exact h.leads (Nat.le_refl _)
  · cases t with
    | idle | delaying j | lost j | settled j => exact absurd rfl ht
    | armed job =>
      rw [Client.handleError_armed]
      exact h.settles (Nat.le_refl _) rfl (hP _ _)

theorem leads_abort (h : Kept J P c t) (hb : b.nextId ≤ c.nextId) :
    Leads J P b t e (c.inTurn t).abortPending := by
  have hflush := h.flush hP
  by_cases ht : t.pending = {}
  · rw [Client.abortPending_other c t ht]
    exact hflush.leads hb
  · cases t with
    | idle | delaying j | lost j | settled j => exact absurd rfl ht
    | armed job =>
      rw [Client.abortPending_armed]
      exact hflush.settles hb rfl (hP _ _)

theorem leads_giveBack (h : Kept J P c (.settled job)) (now : ℤ) :
    Leads J P c (.settled job) e ((c.inTurn (.settled job)).giveBack ⟨job, .settled⟩ now) := by
  have hidle : (c.inTurn (.settled job)).giveBack ⟨job, .settled⟩ now =
      (c.inTurn .idle).pump now := by
    simp [Client.giveBack, Client.inTurn, Turn.running, Turn.pending, Turn.timers, Turn.busy]
  rw [hidle]
  cases hqueue : c.queue with
  | nil =>
    rw [Client.pump_empty hqueue]
    refine ⟨_, _, rfl, ⟨h.ledger, h.sent, fun _ => hqueue⟩, Nat.le_refl _, fun j hj => ?_⟩
    cases hj
  | cons job queue =>
    have hledger := h.ledger
    rw [hqueue] at hledger
    exact leads_dispatched hP (Nat.le_refl _) hledger h.sent (Client.pump_idle hqueue now)

/-- What a step leads to, while the callers and the messages keep to the terms. -/
theorem clientStep_leads (h : Kept J P c t) (he : Admits J P (c.inTurn t) e)
    (hstep : clientStep (c.inTurn t) e = some d) : Leads J P c t e d := by
  cases e with
  | request service now =>
    obtain rfl := Option.some.inj hstep
    exact leads_request hP h service now he
  | delayOver id =>
    obtain ⟨x, hx, rfl⟩ := Option.map_eq_some_iff.mp hstep
    cases t with
    | delaying job =>
      obtain rfl := List.mem_singleton.mp (List.mem_of_find?_eq_some hx)
      exact leads_delayOver hP h
    | idle | armed job | lost job | settled job =>
      simp [Client.exchange?, Client.inTurn, Turn.running] at hx
  | sendDone id =>
    simp only [clientStep] at hstep
    split at hstep
    · obtain rfl := Option.some.inj hstep
      exact Kept.leads (c := { c with sending := c.sending.erase id })
        ⟨h.ledger, h.sent, h.empty⟩ (Nat.le_refl _)
    · cases hstep
  | sendFailed id =>
    simp only [clientStep] at hstep
    split at hstep
    · obtain rfl := Option.some.inj hstep
      exact leads_sendFailed hP h id
    · cases hstep
  | message m now =>
    obtain rfl := Option.some.inj hstep
    exact leads_message h m now he
  | error =>
    obtain rfl := Option.some.inj hstep
    exact leads_error hP h
  | timeout id =>
    simp only [clientStep] at hstep
    split at hstep
    · next hid =>
      obtain rfl := Option.some.inj hstep
      cases t with
      | idle | delaying job | lost job | settled job => cases hid
      | armed job =>
        obtain rfl := List.mem_singleton.mp hid
        rw [Client.handleTimeout_armed]
        exact h.settles (Nat.le_refl _) rfl (hP _ _)
    · cases hstep
  | abort =>
    obtain rfl := Option.some.inj hstep
    exact leads_abort hP h (Nat.le_refl _)
  | available up =>
    obtain rfl := Option.some.inj hstep
    have hup : Kept J P { c with transportAvailable := up } t := ⟨h.ledger, h.sent, h.empty⟩
    cases up with
    | true => exact hup.leads (Nat.le_refl _)
    | false => exact leads_abort hP hup (Nat.le_refl _)
  | advance id now =>
    obtain ⟨x, hx, rfl⟩ := Option.map_eq_some_iff.mp hstep
    cases t with
    | settled job =>
      obtain rfl := List.mem_singleton.mp (List.mem_of_find?_eq_some hx)
      exact leads_giveBack hP h now
    | idle | delaying job | armed job | lost job =>
      simp [Client.exchange?, Client.inTurn, Turn.running] at hx

end Step

/-! ## Runs -/

/-- Promises settle once, jobs are dispatched in the order of acceptance and one at a time, what is
dispatched has settled or will be ended by its delay or its timer, and the queue waits for an
exchange. -/
structure Moving (c : Client) : Prop where
  once : (c.settled.map fun p => p.1.id).Nodup
  order : (c.dispatched ++ c.queue.map Job.id).Pairwise (· < ·)
  single : c.running.length ≤ 1
  ends : ∀ i ∈ c.dispatched, (∃ p ∈ c.settled, p.1.id = i) ∨
    (∃ x ∈ c.running, x.job.id = i ∧ x.phase = .delaying) ∨ i ∈ c.timers
  waits : c.queue ≠ [] → c.running ≠ []

/-- A client whose books are kept and whose turn is not lost. -/
structure QueueInv (c : Client) : Prop where
  turn : ∃ c' t, c = c'.inTurn t ∧ Kept (fun _ => True) (fun _ _ => True) c' t ∧
    ∀ job, t ≠ .lost job

variable {c d : Client} {t : Turn} {e : ClientEvent} {J : Job → Prop} {P : Job → Outcome → Prop}

theorem queueInv_start (requestDelay : ℤ) : QueueInv (.start requestDelay) :=
  ⟨.start requestDelay, .idle, rfl, ⟨.start, nofun, fun _ => rfl⟩, nofun⟩

/-- Nothing but a lost turn stops the queue. -/
theorem Kept.moving (h : Kept J P c t) (ht : ∀ job, t ≠ .lost job) : Moving (c.inTurn t) where
  once := h.ledger.once
  order := h.ledger.order
  single := by cases t <;> simp [Client.inTurn, Turn.running]
  ends := by
    intro i hi
    rcases h.ledger.done i hi with ⟨job, hjob, rfl⟩ | hdone
    · right
      cases t with
      | idle | settled j => cases hjob
      | lost j => exact absurd rfl (ht j)
      | delaying j =>
        obtain rfl := Option.some.inj hjob
        exact .inl ⟨_, List.mem_singleton_self _, rfl, rfl⟩
      | armed j =>
        obtain rfl := Option.some.inj hjob
        exact .inr (List.mem_singleton_self _)
    · exact .inl hdone
  waits := by
    intro hqueue
    cases t with
    | idle => exact absurd (h.empty rfl) hqueue
    | delaying j | armed j | lost j | settled j => exact List.cons_ne_nil _ _

/-- The job of a lost turn is left pending. -/
theorem Kept.not_moving {job : Job} (h : Kept J P c (.lost job)) :
    ¬Moving (c.inTurn (.lost job)) := by
  intro hmoving
  obtain ⟨hmem, hopen⟩ := h.ledger.running job rfl
  rcases hmoving.ends job.id hmem with ⟨p, hp, hid⟩ | ⟨x, hx, -, hphase⟩ | htimer
  · exact hopen p hp hid
  · obtain rfl := List.mem_singleton.mp hx
    cases hphase
  · cases htimer

/-- A late failure loses the turn. -/
theorem Kept.lateFailure (h : Kept J P c t) (he : LateFailure (c.inTurn t) e)
    (hstep : clientStep (c.inTurn t) e = some d) : ¬Moving d := by
  cases e with
  | sendFailed id =>
    obtain ⟨job, hjob, hid⟩ := he
    cases t with
    | idle | delaying j | lost j | settled j => cases hjob
    | armed j =>
      obtain rfl := Option.some.inj hjob
      simp only [clientStep] at hstep
      split at hstep
      · obtain rfl := Option.some.inj hstep
        rw [Client.handleSendFailure_other]
        · exact Kept.not_moving ⟨h.ledger, h.sent, nofun⟩
        · rintro k ⟨⟩
          exact hid
      · cases hstep
  | request | delayOver | sendDone | message | error | timeout | abort | available | advance =>
    exact he.elim

theorem admits_trivial (c : Client) (e : ClientEvent) :
    Admits (fun _ => True) (fun _ _ => True) c e := by
  cases e <;> first | trivial | exact fun _ _ _ _ _ => trivial

theorem queueInv_step (hi : QueueInv c) (hstep : clientStep c e = some d) :
    (Moving d ↔ ¬LateFailure c e) ∧ (¬LateFailure c e → QueueInv d) := by
  obtain ⟨c, t, rfl, hk, ht⟩ := hi
  obtain ⟨c', t', rfl, hk', -, hlost⟩ :=
    clientStep_leads (fun _ _ _ => trivial) hk (admits_trivial _ e) hstep
  have hturn : ¬LateFailure (c.inTurn t) e → ∀ job, t' ≠ .lost job := fun hlate job hjob =>
    (hlost job hjob).elim (ht job) fun h => hlate h.2
  refine ⟨⟨fun hmoving hlate => ?_, fun hlate => hk'.moving (hturn hlate)⟩, fun hlate => ?_⟩
  · exact hk.lateFailure hlate hstep hmoving
  · exact ⟨c', t', rfl, hk', hturn hlate⟩

instance decidableMoving (c : Client) : Decidable (Moving c) :=
  decidable_of_iff ((c.settled.map fun p => p.1.id).Nodup ∧
      (c.dispatched ++ c.queue.map Job.id).Pairwise (· < ·) ∧ c.running.length ≤ 1 ∧
      (∀ i ∈ c.dispatched, (∃ p ∈ c.settled, p.1.id = i) ∨
        (∃ x ∈ c.running, x.job.id = i ∧ x.phase = .delaying) ∨ i ∈ c.timers) ∧
      (c.queue ≠ [] → c.running ≠ []))
    ⟨fun ⟨a, b, c, d, e⟩ => ⟨a, b, c, d, e⟩, fun ⟨a, b, c, d, e⟩ => ⟨a, b, c, d, e⟩⟩

/-- The queue keeps moving exactly in the runs where no send fails while an exchange other than
its own is in flight. -/
theorem queue_moves_iff (requestDelay : ℤ) (es : List ClientEvent) :
    Steps clientStep (fun _ _ d => Moving d) (.start requestDelay) es ↔
      Steps clientStep (fun c e _ => ¬LateFailure c e) (.start requestDelay) es :=
  Steps.iff_of_inv queueInv_step (queueInv_start requestDelay)

/-- The send of a request that has timed out fails while the next one is in flight. -/
def lateFailure : List ClientEvent :=
  [.request (.readDataByIdentifier 0xF000) 0, .timeout 0, .advance 0 5000,
    .request (.readDataByIdentifier 0xF001) 5000, .sendFailed 0]

theorem late_failure_wedges :
    ¬Steps clientStep (fun _ _ d => Moving d) (.start 0) lateFailure := by
  decide +kernel

end DiveCANHead.UdsClient
