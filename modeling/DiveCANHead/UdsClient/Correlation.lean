import DiveCANHead.UdsClient.QueueRuns

/-!
# Which reply a request gets (`UDSClient.js`)

A reply carries no number of its request. The client takes a positive one by its service id, and
for TransferData by its block number, and a negative one by the service id that it repeats; what
arrives late for an earlier request of the same service is taken for the answer to a later one.
-/

namespace DiveCANHead.UdsClient

open DiveCANHead.Lib DiveCANHead.Uds

/-! ## Replies to one request -/

/-- A positive reply to this request, with its DID, routine or block number. -/
structure PositiveReply (m : Message) (job : Job) : Prop where
  origin : m.origin = some job.id
  echo : (job.service.sid + responseSidOffset) :: job.service.echo <+: m.data

/-- A negative reply to this request. -/
structure NegativeReply (m : Message) (job : Job) : Prop where
  origin : m.origin = some job.id
  echo : [sidNegativeResponse, job.service.sid] <+: m.data

/-- A request is completed, with success or with an NRC, only by a reply to itself. -/
def Correlated (job : Job) : Outcome → Prop
  | .resolved m | .malformed m => PositiveReply m job
  | .nrc _ m => NegativeReply m job
  | .failed _ => True

/-- The message looks like a positive reply: the service id, and a block number that passes the
guard. -/
def LooksPositive (m : Message) (job : Job) : Prop :=
  m.data.head? = some (job.service.sid + responseSidOffset) ∧
    guardPasses job.service.responseMatcher m.data = true

/-- The message looks like a negative reply: it repeats the service id. -/
def LooksNegative (m : Message) (job : Job) : Prop := (m.refuses job.service.sid).isSome = true

/-- While a request is outstanding, what looks like a reply to it is one. -/
def Timely (c : Client) : ClientEvent → Prop
  | .message m _ => ∀ job ∈ c.pending.resolve,
      (LooksPositive m job → PositiveReply m job) ∧ (LooksNegative m job → NegativeReply m job)
  | _ => True

theorem sid_ne (s : Service) : s.sid + responseSidOffset ≠ sidWriteDataById ∧
    s.sid + responseSidOffset ≠ sidNegativeResponse := by
  cases s <;> simp only [Service.sid] <;> decide

theorem refuses_head {m : Message} {sid : UInt8} (h : (m.refuses sid).isSome = true) :
    m.data.head? = some sidNegativeResponse := by
  unfold Message.refuses at h
  split at h
  · next tag requestedSid code rest hdata =>
    split at h
    · next htag => rw [hdata, htag.1, List.head?_cons]
    · cases h
  · cases h

/-- What looks like a positive reply is taken for one. -/
theorem reply_of_looksPositive {job : Job} {m : Message} (h : LooksPositive m job) :
    job.reply m = some (job.service.conclude m) := by
  obtain ⟨hwrite, hnegative⟩ := sid_ne job.service
  simp [Job.reply, h.1, h.2, hwrite, hnegative]

/-- What looks like a negative reply is taken for one. -/
theorem reply_of_looksNegative {job : Job} {m : Message} (h : LooksNegative m job) :
    ∃ code, job.reply m = some (.nrc code m) := by
  obtain ⟨code, hcode⟩ := Option.isSome_iff_exists.mp h
  have htag : sidNegativeResponse ≠ sidWriteDataById := by decide
  exact ⟨code, by simp [Job.reply, refuses_head h, htag, hcode]⟩

/-- Nothing else completes a request with a reply. -/
theorem reply_cases {job : Job} {m : Message} {o : Outcome} (h : job.reply m = some o) :
    (∃ reason, o = .failed reason) ∨ (LooksPositive m job ∧ o = job.service.conclude m) ∨
      ∃ code, m.refuses job.service.sid = some code ∧ o = .nrc code m := by
  unfold Job.reply at h
  split at h
  · cases h
  next sid hsid =>
  split at h
  · cases h
  split at h
  · obtain ⟨code, hcode, rfl⟩ := Option.map_eq_some_iff.mp h
    exact .inr (.inr ⟨code, hcode, rfl⟩)
  split at h
  · exact .inl ⟨_, (Option.some.inj h).symm⟩
  next heq =>
  split at h
  · next hguard =>
    exact .inr (.inl ⟨⟨hsid.trans (congrArg some (not_not.mp heq)), hguard⟩,
      (Option.some.inj h).symm⟩)
  · cases h

theorem correlated_conclude {job : Job} {m : Message} :
    Correlated job (job.service.conclude m) ↔ PositiveReply m job := by
  unfold Service.conclude
  split <;> rfl

/-- The outcomes are correlated exactly when what looks like a reply is one. -/
theorem reply_correlated (job : Job) (m : Message) :
    (∀ o ∈ job.reply m, Correlated job o) ↔
      (LooksPositive m job → PositiveReply m job) ∧
        (LooksNegative m job → NegativeReply m job) := by
  constructor
  · intro h
    refine ⟨fun hpos => correlated_conclude.mp (h _ (reply_of_looksPositive hpos)), fun hneg => ?_⟩
    obtain ⟨code, hcode⟩ := reply_of_looksNegative hneg
    exact h _ hcode
  · rintro ⟨hpos, hneg⟩ o ho
    rcases reply_cases ho with ⟨reason, rfl⟩ | ⟨hlooks, rfl⟩ | ⟨code, hcode, rfl⟩
    · trivial
    · exact correlated_conclude.mpr (hpos hlooks)
    · exact hneg (Option.isSome_iff_exists.mpr ⟨code, hcode⟩)

/-! ## Runs -/

/-- Every outcome so far is correlated. -/
def AllCorrelated (c : Client) : Prop := ∀ p ∈ c.settled, Correlated p.1 p.2

structure CorrelationInv (c : Client) : Prop where
  turn : ∃ c' t, c = c'.inTurn t ∧ Kept (fun _ => True) Correlated c' t

theorem correlationInv_start (requestDelay : ℤ) : CorrelationInv (.start requestDelay) :=
  ⟨.start requestDelay, .idle, rfl, ⟨.start, nofun, fun _ => rfl⟩⟩

theorem timely_iff {c : Client} {e : ClientEvent} : Timely c e ↔
    Admits (fun _ => True) Correlated c e := by
  cases e with
  | message m now =>
    refine forall₂_congr fun job _ => ?_
    rw [← reply_correlated, true_imp_iff]
  | request | delayOver | sendDone | sendFailed | error | timeout | abort | available | advance =>
    exact Iff.rfl

/-- A message that does not answer the request in flight goes into its outcome. -/
theorem not_allCorrelated {c d : Client} {t : Turn} {e : ClientEvent}
    (he : ¬Admits (fun _ => True) Correlated (c.inTurn t) e)
    (hstep : clientStep (c.inTurn t) e = some d) :
    ¬AllCorrelated d := by
  intro hall
  refine he ?_
  cases e with
  | message m now =>
    intro job hjob _ o ho
    obtain rfl := Option.some.inj hstep
    cases t with
    | idle | delaying j | lost j | settled j => cases hjob
    | armed j =>
      obtain rfl := Option.some.inj hjob
      rw [Client.handleResponse_armed, show j.reply m = some o from ho] at hall
      exact hall (j, o) (List.mem_append_right _ List.mem_cons_self)
  | request | delayOver | sendDone | sendFailed | error | timeout | abort | available | advance =>
    trivial

theorem correlationInv_step {c d : Client} {e : ClientEvent} (hi : CorrelationInv c)
    (hstep : clientStep c e = some d) :
    (AllCorrelated d ↔ Timely c e) ∧ (Timely c e → CorrelationInv d) := by
  obtain ⟨c, t, rfl, hk⟩ := hi
  have hkeep : Timely (c.inTurn t) e →
      ∃ c' t', d = c'.inTurn t' ∧ Kept (fun _ => True) Correlated c' t' := by
    intro he
    obtain ⟨c', t', hd, hk', -⟩ :=
      clientStep_leads (fun _ _ _ => trivial) hk (timely_iff.mp he) hstep
    exact ⟨c', t', hd, hk'⟩
  refine ⟨⟨fun hall => ?_, fun he => ?_⟩, fun he => ⟨hkeep he⟩⟩
  · by_contra he
    exact not_allCorrelated (fun h => he (timely_iff.mpr h)) hstep hall
  · obtain ⟨c', t', rfl, hk'⟩ := hkeep he
    exact hk'.ledger.outcomes

/-- Requests are completed by their own replies exactly in the runs where what looks like a reply
to the outstanding request is one. -/
theorem replies_correlated_iff (requestDelay : ℤ) (es : List ClientEvent) :
    Steps clientStep (fun _ _ d => AllCorrelated d) (.start requestDelay) es ↔
      Steps clientStep (fun c e _ => Timely c e) (.start requestDelay) es :=
  Steps.iff_of_inv correlationInv_step (correlationInv_start requestDelay)

/-- The reply to a write that has timed out arrives when another DID is being written. -/
def lateWrite : List ClientEvent :=
  [.request (.writeDataByIdentifier 0xF261 [1]) 0, .sendDone 0, .timeout 0, .advance 0 5000,
    .request (.writeDataByIdentifier 0x9111 [2]) 5000, .sendDone 1,
    .message ⟨[0x6E, 0xF2, 0x61], some 0⟩ 5100]

instance decidablePositiveReply (m : Message) (job : Job) : Decidable (PositiveReply m job) :=
  decidable_of_iff (m.origin = some job.id ∧
      (job.service.sid + responseSidOffset) :: job.service.echo <+: m.data)
    ⟨fun ⟨horigin, hecho⟩ => ⟨horigin, hecho⟩, fun ⟨horigin, hecho⟩ => ⟨horigin, hecho⟩⟩

instance decidableNegativeReply (m : Message) (job : Job) : Decidable (NegativeReply m job) :=
  decidable_of_iff (m.origin = some job.id ∧ [sidNegativeResponse, job.service.sid] <+: m.data)
    ⟨fun ⟨horigin, hecho⟩ => ⟨horigin, hecho⟩, fun ⟨horigin, hecho⟩ => ⟨horigin, hecho⟩⟩

instance decidableCorrelated (job : Job) : ∀ o, Decidable (Correlated job o)
  | .resolved m | .malformed m => inferInstanceAs (Decidable (PositiveReply m job))
  | .nrc _ m => inferInstanceAs (Decidable (NegativeReply m job))
  | .failed _ => isTrue trivial

instance decidableAllCorrelated (c : Client) : Decidable (AllCorrelated c) :=
  inferInstanceAs (Decidable (∀ p ∈ c.settled, Correlated p.1 p.2))

theorem late_write_completes :
    ¬Steps clientStep (fun _ _ d => AllCorrelated d) (.start 0) lateWrite := by
  decide +kernel

end DiveCANHead.UdsClient
