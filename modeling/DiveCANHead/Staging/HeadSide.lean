import DiveCANHead.Staging.Link
import DiveCANHead.Uds.Lengths
import DiveCANHead.Uds.OtaRuns
import DiveCANHead.UdsClient.Correlation

/-!
# The head's side of the link

What one request of the manager does to the update and to what is acknowledged of slot1, and what
the answers to it say.
-/

namespace DiveCANHead.Staging

open DiveCANHead.Uds DiveCANHead.UdsClient DiveCANHead.Maintenance

/-! ## Requests -/

theorem wire_sid (job : Job) : (wire job).sid = job.service.sid := rfl

theorem wire_length_ne (job : Job) : (wire job).length ≠ 0 := Nat.succ_ne_zero _

/-- A TransferData with its sequence number and its data. -/
theorem wire_transferData {job : Job} {seq : ℕ} {data : List UInt8}
    (h : job.service = .transferData seq data) : (wire job).sid = sidTransferData ∧
      (wire job).byte 2 = UInt8.ofNat seq ∧ (wire job).payload otaTransferOverhead = data := by
  refine ⟨?_, ?_, ?_⟩
  · rw [wire_sid, h]
    rfl
  · simp [wire, h, Request.ofBytes, Request.byte, Service.request, Service.body]
  · simp [wire, h, Request.ofBytes, Request.payload, Service.request, Service.body,
      otaTransferOverhead]

/-! ## The head before the request -/

/-- An idle update has no context, and no log is being streamed. -/
structure Ready (h : Head) : Prop where
  null : IdleNull h
  quiet : h.log.sm.state ≠ .streaming

theorem ready_boot : Ready .boot := ⟨idleNull_start, by decide⟩

theorem ready_maintained {h : Head} (hr : Ready h) (env : RequestEnv) :
    Ready (maintained env h) := by
  refine ⟨idleNull_maintained env hr.null, ?_⟩
  rw [maintained, log_maintainSession]
  exact hr.quiet

/-- The maintenance leaves a download alone, or ends it. -/
theorem ota_maintained {h : Head} {env : RequestEnv}
    (hstate : (maintained env h).ota.state = .downloading) : (maintained env h).ota = h.ota := by
  unfold maintained at hstate ⊢
  rcases maintainSession_cases env { h with effects := [] } with ⟨-, heq⟩ | ⟨-, hlapsed⟩
  · rw [heq]
  · rw [hlapsed.idle] at hstate
    cases hstate

theorem toLogDownload_false {h : Head} (hr : Ready h) (env : RequestEnv) (q : Request) :
    toLogDownload env h q = false := by
  have hstate : decide (h.log.sm.state = .streaming) = false := decide_eq_false hr.quiet
  unfold toLogDownload LogDownload.claims
  rw [hstate]
  cases env.build.flashLog <;> simp

/-- A transfer service goes to the update. -/
theorem serve_ota {h : Head} {q : Request} (hr : Ready h) (env : RequestEnv) (hlen : q.length ≠ 0)
    (hsid : isTransferSid q.sid = true) :
    serve env h q = otaHandle env.toOtaEnv (maintained env h) q := by
  rcases serve_cases env h q with ⟨hzero, -⟩ | ⟨-, heq⟩
  · exact absurd hzero hlen
  · rw [heq, dispatch_ota hsid (toLogDownload_false (ready_maintained hr env) env q)]

/-! ## Effects -/

section Effects

variable {es es' : List Effect} {slot : List (List UInt8)}

theorem mem_answers {payload : List UInt8} : payload ∈ answers es ↔ .respond payload ∈ es := by
  unfold answers
  rw [List.mem_filterMap]
  constructor
  · rintro ⟨e, he, hp⟩
    cases e <;> simp_all
  · exact fun h => ⟨_, h, rfl⟩

/-- Nothing of this has to do with slot1, nor is it an answer. -/
def Silent (e : Effect) : Prop :=
  match e with
  | .respond _ | .writeSlot1 _ | .eraseSlot1 => False
  | _ => True

theorem answers_silent (h : ∀ e ∈ es, Silent e) : answers es = [] := by
  refine List.filterMap_eq_nil_iff.mpr fun e he => ?_
  have hsilent := h e he
  cases e <;> first | rfl | exact hsilent.elim

theorem writes_silent (h : ∀ e ∈ es, Silent e) : writes es = [] := by
  refine List.filterMap_eq_nil_iff.mpr fun e he => ?_
  have hsilent := h e he
  cases e <;> first | rfl | exact hsilent.elim

theorem answers_append : answers (es ++ es') = answers es ++ answers es' := List.filterMap_append

theorem writes_append : writes (es ++ es') = writes es ++ writes es' := List.filterMap_append

theorem slotAfter_silent (h : ∀ e ∈ es, Silent e) :
    slotAfter slot (es ++ es') = slotAfter slot es' := by
  have herase : Effect.eraseSlot1 ∉ es := fun he => (h _ he).elim
  have hmem : Effect.eraseSlot1 ∈ es ++ es' ↔ Effect.eraseSlot1 ∈ es' := by
    rw [List.mem_append, or_iff_right herase]
  have hack : acknowledges (es ++ es') = acknowledges es' := by
    rw [acknowledges, answers_append, answers_silent h, List.nil_append, acknowledges]
  have hwrites : writes (es ++ es') = writes es' := by
    rw [writes_append, writes_silent h, List.nil_append]
  unfold slotAfter
  rw [hack, hwrites]
  by_cases he : Effect.eraseSlot1 ∈ es'
  · simp only [he, hmem.mpr he]
  · simp only [he, mt hmem.mp he]

/-- What is turned down does not touch the slot. -/
theorem not_acknowledges (h : ∀ payload ∈ answers es,
    payload.head? ≠ some (sidTransferData + responseSidOffset)) : acknowledges es = false := by
  rw [acknowledges, List.any_eq_false]
  intro payload hp
  exact fun heq => h payload hp (of_decide_eq_true heq)

end Effects

/-! ## What a request does -/

/-- What one request does to the update and to what is acknowledged, and what it can be answered
with besides. -/
inductive HeadMove (env : RequestEnv) (h : Head) (q : Request) (slot : List (List UInt8)) :
    Head → List (List UInt8) → List (List UInt8) → Prop
  | kept {h' : Head} {replies : List (List UInt8)}
      (hkept : h'.ota.state = .downloading →
        h.ota.state = .downloading ∧ h'.ota.nextSeq = h.ota.nextSeq)
      (hreplies : ∀ payload ∈ replies,
        payload.head? ≠ some (sidRequestDownload + responseSidOffset) ∧
          payload.head? ≠ some (sidTransferData + responseSidOffset)) :
      HeadMove env h q slot h' slot replies
  | erased {h' : Head} {replies : List (List UInt8)} (hsid : q.sid = sidRequestDownload)
      (hidle : (maintained env h).ota.state = .idle)
      (hadm : Admitted env.toOtaEnv (maintained env h))
      (hseq : h'.ota.state = .downloading → h'.ota.nextSeq = 1)
      (hreplies : ∀ payload ∈ replies,
        payload.head? ≠ some (sidTransferData + responseSidOffset)) :
      HeadMove env h q slot h' [] replies
  | wrote {h' : Head} {replies : List (List UInt8)}
      (hack : Acknowledges env.toOtaEnv (maintained env h) q)
      (hstate : h.ota.state = .downloading) (hseq : q.byte 2 = h.ota.nextSeq)
      (hnext : h'.ota.nextSeq = h.ota.nextSeq + 1)
      (hreplies : ∀ payload ∈ replies,
        payload.head? ≠ some (sidRequestDownload + responseSidOffset)) :
      HeadMove env h q slot h' (slot ++ [q.payload otaTransferOverhead]) replies

section Move

variable {env : RequestEnv} {h h' : Head} {q : Request} {es : List Effect}
  {slot : List (List UInt8)}

theorem silent_maintained (env : RequestEnv) (h : Head) :
    ∀ e ∈ (maintained env h).effects, Silent e := fun e he =>
  effects_maintained env h e he ▸ trivial

theorem answers_maintained :
    answers ((maintained env h).effects ++ es) = answers es := by
  rw [answers_append, answers_silent (silent_maintained env h), List.nil_append]

/-- What is turned down does not touch the slot, and is answered negatively. -/
theorem turnedDown_slot (hes : ∀ e ∈ es, TurnedDown e) :
    slotAfter slot ((maintained env h).effects ++ es) = slot ∧
      ∀ payload ∈ answers ((maintained env h).effects ++ es),
        payload.head? = some sidNegativeResponse := by
  have hanswers : ∀ payload ∈ answers es, payload.head? = some sidNegativeResponse := fun p hp =>
    hes _ (mem_answers.mp hp)
  rw [slotAfter_silent (silent_maintained env h), answers_maintained]
  refine ⟨?_, hanswers⟩
  have herase : Effect.eraseSlot1 ∉ es := fun he => (hes _ he).elim
  have hack : acknowledges es = false := by
    refine not_acknowledges fun payload hp => ?_
    rw [hanswers payload hp]
    decide
  simp only [slotAfter, herase, hack, if_false, Bool.false_eq_true]

theorem kept_maintained {h' : Head} (hota : h'.ota = (maintained env h).ota) :
    h'.ota.state = .downloading → h.ota.state = .downloading ∧ h'.ota.nextSeq = h.ota.nextSeq := by
  intro hstate
  rw [hota] at hstate
  rw [hota, ota_maintained hstate]
  exact ⟨ota_maintained hstate ▸ hstate, rfl⟩

/-- A failed RequestDownload has erased the slot, or has not got that far. -/
theorem failed_slot (hes : ∀ e ∈ es, e = .eraseSlot1 ∨ TurnedDown e) :
    (slotAfter slot ((maintained env h).effects ++ es) = slot ∨
        slotAfter slot ((maintained env h).effects ++ es) = []) ∧
      ∀ payload ∈ answers ((maintained env h).effects ++ es),
        payload.head? = some sidNegativeResponse := by
  have hanswers : ∀ payload ∈ answers es, payload.head? = some sidNegativeResponse := by
    intro payload hp
    rcases hes _ (mem_answers.mp hp) with he | he
    · cases he
    · exact he
  have hack : acknowledges es = false := by
    refine not_acknowledges fun payload hp => ?_
    rw [hanswers payload hp]
    decide
  rw [slotAfter_silent (silent_maintained env h), answers_maintained]
  refine ⟨?_, hanswers⟩
  by_cases herase : Effect.eraseSlot1 ∈ es
  · exact .inr (by simp only [slotAfter, herase, hack, if_true, Bool.false_eq_true, if_false])
  · exact .inl (by simp only [slotAfter, herase, hack, if_false, Bool.false_eq_true])

/-- What the update does with a transfer service. -/
theorem otaStep_move (hsid : isTransferSid q.sid = true)
    (hstep : OtaStep env.toOtaEnv (maintained env h) q h') :
    HeadMove env h q slot h' (slotAfter slot h'.effects) (answers h'.effects) := by
  have hturned : ∀ {payload : List UInt8}, payload.head? = some sidNegativeResponse →
      payload.head? ≠ some (sidRequestDownload + responseSidOffset) ∧
        payload.head? ≠ some (sidTransferData + responseSidOffset) := by
    rintro payload hp
    rw [hp]
    decide
  cases hstep with
  | refused es hes =>
    obtain ⟨hslot, hanswers⟩ : slotAfter slot ((maintained env h).effects ++ es) = slot ∧ _ :=
      turnedDown_slot hes
    rw [hslot]
    exact .kept (kept_maintained rfl) fun payload hp => hturned (hanswers payload hp)
  | failed es hes hidle hadm hgrants hdown =>
    obtain ⟨hslot, hanswers⟩ : (slotAfter slot ((maintained env h).effects ++ es) = slot ∨ _) ∧ _ :=
      failed_slot hes
    rcases hslot with hslot | hslot
    · rw [hslot]
      exact .kept (kept_maintained rfl) fun payload hp => hturned (hanswers payload hp)
    · rw [hslot]
      refine .erased hdown hidle hadm (fun hstate => ?_) fun payload hp =>
        (hturned (hanswers payload hp)).2
      exact absurd (hidle.symm.trans hstate) nofun
  | download hdown hidle hadm hgrants =>
    rw [slotAfter_silent (silent_maintained env h), answers_maintained]
    refine .erased hdown hidle hadm (fun _ => rfl) fun payload hp => ?_
    obtain rfl := List.mem_singleton.mp hp
    decide
  | block hdata hstate hlen hseq hwrite =>
    rw [slotAfter_silent (silent_maintained env h), answers_maintained]
    have hota := ota_maintained hstate
    refine .wrote ⟨hdata, hstate, hlen, hseq, hwrite⟩ ?_ ?_ ?_ fun payload hp => ?_
    · rw [← hota]
      exact hstate
    · rw [hseq, hota]
    · rw [← hota]
    · obtain rfl := List.mem_singleton.mp hp
      simp only [List.head?_cons, ne_eq, Option.some.injEq]
      decide
  | exit hexit hstate hlen hflush hheader =>
    have hslot : slotAfter slot ((maintained env h).effects ++ [.flushSlot1,
        .respond [sidRequestTransferExit + responseSidOffset]]) = slot := by
      rw [slotAfter_silent (silent_maintained env h)]
      rfl
    rw [hslot, answers_maintained]
    refine .kept nofun fun payload hp => ?_
    obtain rfl := List.mem_singleton.mp hp
    decide
  | unstaged es hes hstate hadm hroutine | activated hroutine hstate hadm =>
    rw [hroutine] at hsid
    exact absurd hsid (by decide)

theorem quiet_otaStep (hr : Ready h) (hstep : OtaStep env.toOtaEnv (maintained env h) q h') :
    Ready h' := by
  have hm := ready_maintained hr env
  refine ⟨idleNull_otaStep hm.null hstep, ?_⟩
  cases hstep <;> exact hm.quiet

/-- A transfer service does not restart the head. -/
theorem restarts_otaStep (hsid : isTransferSid q.sid = true)
    (hstep : OtaStep env.toOtaEnv (maintained env h) q h') :
    h'.effects.any Effect.restarts = false := by
  have hmaintained : ∀ e ∈ (maintained env h).effects, e.restarts = false := fun e he =>
    effects_maintained env h e he ▸ rfl
  have hturned : ∀ {e : Effect}, TurnedDown e → e.restarts = false := by
    intro e he
    cases e <;> first | rfl | exact he.elim
  have happend : ∀ {es : List Effect}, (∀ e ∈ es, e.restarts = false) →
      ((maintained env h).effects ++ es).any Effect.restarts = false := by
    intro es hes
    rw [List.any_eq_false]
    intro e he
    rw [Bool.not_eq_true]
    exact (List.mem_append.mp he).elim (hmaintained e) (hes e)
  cases hstep with
  | refused es hes => exact happend fun e he => hturned (hes e he)
  | failed es hes => exact happend fun e he => (hes e he).elim (fun h => h ▸ rfl) hturned
  | download | block | exit => exact happend (by simp [Effect.restarts])
  | unstaged _ _ _ _ hroutine | activated hroutine =>
    rw [hroutine] at hsid
    exact absurd hsid (by decide)

/-- A change of the session leaves the update alone. -/
theorem session_move (hr : Ready h) (hsid : q.sid = sidDiagSessionCtrl) (hlen : q.length ≠ 0) :
    (serve env h q).effects.any Effect.restarts = false ∧ Ready (serve env h q) ∧
      HeadMove env h q slot (serve env h q) (slotAfter slot (serve env h q).effects)
        (answers (serve env h q).effects) := by
  have hm := ready_maintained hr env
  have hserve : serve env h q = handleDiagnosticSessionControl env (maintained env h) q := by
    rcases serve_cases env h q with ⟨hzero, -⟩ | ⟨-, heq⟩
    · exact absurd hzero hlen
    · rw [heq, dispatch, if_pos hsid]
  have hcases : ∃ session es, serve env h q =
      { maintained env h with session := session, effects := (maintained env h).effects ++ es } ∧
      ((∃ b, es = [.respond [sidDiagSessionCtrl + responseSidOffset, b]]) ∨
        ∃ nrc, es = [.opError .udsNrc (Nrc.code nrc).toUInt32,
          .respond (negativeResponse sidDiagSessionCtrl nrc)]) := by
    rw [hserve]
    unfold handleDiagnosticSessionControl
    split
    · exact ⟨_, _, (maintained env h).emits_reject _ _, .inr ⟨_, rfl⟩⟩
    split
    · exact ⟨_, _, rfl, .inl ⟨_, rfl⟩⟩
    split
    · split
      · exact ⟨_, _, (maintained env h).emits_reject _ _, .inr ⟨_, rfl⟩⟩
      · exact ⟨_, _, rfl, .inl ⟨_, rfl⟩⟩
    · exact ⟨_, _, (maintained env h).emits_reject _ _, .inr ⟨_, rfl⟩⟩
  obtain ⟨session, es, hes, hshape⟩ := hcases
  have hslot : slotAfter slot es = slot ∧ (∀ e ∈ es, e.restarts = false) ∧
      ∀ payload ∈ answers es, payload.head? ≠ some (sidRequestDownload + responseSidOffset) ∧
        payload.head? ≠ some (sidTransferData + responseSidOffset) := by
    rcases hshape with ⟨b, rfl⟩ | ⟨nrc, rfl⟩
    · refine ⟨rfl, by simp [Effect.restarts], fun payload hp => ?_⟩
      obtain rfl := List.mem_singleton.mp hp
      simp only [List.head?_cons, ne_eq, Option.some.injEq]
      decide
    · refine ⟨rfl, by simp [Effect.restarts], fun payload hp => ?_⟩
      obtain rfl := List.mem_singleton.mp hp
      simp only [negativeResponse, List.head?_cons, ne_eq, Option.some.injEq]
      decide
  obtain ⟨hslot, hrestarts, hanswers⟩ := hslot
  rw [hes]
  refine ⟨?_, ⟨hm.null, hm.quiet⟩, ?_⟩
  · rw [List.any_eq_false]
    intro e he
    rw [Bool.not_eq_true]
    exact (List.mem_append.mp he).elim (fun h => effects_maintained env _ e h ▸ rfl) (hrestarts e)
  · rw [slotAfter_silent (silent_maintained env h), hslot, answers_maintained]
    exact .kept (kept_maintained rfl) hanswers

/-- What a request of the manager does. -/
theorem serve_move (hr : Ready h) (hlen : q.length ≠ 0)
    (hsid : isTransferSid q.sid = true ∨ q.sid = sidDiagSessionCtrl) :
    (serve env h q).effects.any Effect.restarts = false ∧ Ready (serve env h q) ∧
      HeadMove env h q slot (serve env h q) (slotAfter slot (serve env h q).effects)
        (answers (serve env h q).effects) := by
  rcases hsid with hsid | hsid
  · have hstep := otaHandle_step env.toOtaEnv (maintained env h) q (ready_maintained hr env).null
    rw [← serve_ota hr env hlen hsid] at hstep
    exact ⟨restarts_otaStep hsid hstep, quiet_otaStep hr hstep, otaStep_move hsid hstep⟩
  · exact session_move hr hsid hlen

/-! ## A block refused for its number -/

theorem answers_reject (h : Head) (sid : UInt8) (nrc : Nrc) :
    answers (h.reject sid nrc).effects = answers h.effects ++ [negativeResponse sid nrc] := by
  rw [h.emits_reject sid nrc, answers_append]
  rfl

theorem answers_rejectFlash (h : Head) (sid : UInt8) (rc : ℤ) (nrc : Nrc) :
    answers (h.rejectFlash sid rc nrc).effects =
      answers h.effects ++ [negativeResponse sid nrc] := by
  rw [h.emits_rejectFlash sid rc nrc, answers_append]
  rfl

theorem answers_under (h : Head) (c : FlashCall) (e : Effect) (he : answers [e] = []) :
    answers (h.under c e).effects = answers h.effects := by
  unfold Head.under
  split
  · rw [Head.emit, answers_append, he, List.append_nil]
  · rfl

/-- A negative answer, where 0x73 says that the open download expects another block. -/
def BlockRefusal (h : Head) (q : Request) (payload : List UInt8) : Prop :=
  ∃ nrc, payload = negativeResponse q.sid nrc ∧
    (nrc = .wrongBlockSeqCounter → q.sid = sidTransferData ∧ h.ota.state = .downloading ∧
      q.byte 2 ≠ h.ota.nextSeq)

theorem blockRefusal_reject {nrc : Nrc} {payload : List UInt8} (hnone : answers h.effects = [])
    (hp : payload ∈ answers (h.reject q.sid nrc).effects)
    (hnrc : nrc = .wrongBlockSeqCounter → q.sid = sidTransferData ∧ h.ota.state = .downloading ∧
      q.byte 2 ≠ h.ota.nextSeq) : BlockRefusal h q payload := by
  rw [answers_reject, hnone] at hp
  exact ⟨nrc, List.mem_singleton.mp hp, hnrc⟩

theorem answers_transferData {env : OtaEnv} (hnone : answers h.effects = [])
    (hsid : q.sid = sidTransferData) (hstate : h.ota.state = .downloading) {payload : List UInt8}
    (hp : payload ∈ answers (otaHandleTransferData env h q).effects) :
    payload = [sidTransferData + responseSidOffset, q.byte 2] ∨ BlockRefusal h q payload := by
  unfold otaHandleTransferData at hp
  rw [← hsid] at hp
  split at hp
  · exact .inr (blockRefusal_reject hnone hp nofun)
  split at hp
  · next hseq => exact .inr (blockRefusal_reject hnone hp fun _ => ⟨hsid, hstate, hseq⟩)
  split at hp
  · rw [answers_rejectFlash, answers_under _ _ _ rfl, hnone] at hp
    exact .inr ⟨_, List.mem_singleton.mp hp, nofun⟩
  · simp only [Head.respond, Head.emit, answers_append, answers_under _ _ _ (rfl :
      answers [.writeSlot1 _] = []), hnone] at hp
    left
    rw [← hsid]
    exact List.mem_singleton.mp hp

theorem answers_transferExit {env : OtaEnv} (hnone : answers h.effects = [])
    (hsid : q.sid = sidRequestTransferExit) {payload : List UInt8}
    (hp : payload ∈ answers (otaHandleTransferExit env h q).effects) :
    payload = [sidRequestTransferExit + responseSidOffset] ∨ BlockRefusal h q payload := by
  have hset : ∀ g : Head, (otaSetState g .awaitingActivate).effects = g.effects := by
    intro g
    unfold otaSetState
    cases g.ota.state <;> rfl
  unfold otaHandleTransferExit at hp
  rw [← hsid] at hp
  split at hp
  · exact .inr (blockRefusal_reject hnone hp nofun)
  split at hp
  · rw [answers_rejectFlash, answers_under _ _ _ rfl, hnone] at hp
    exact .inr ⟨_, List.mem_singleton.mp hp, nofun⟩
  split at hp
  · rw [answers_rejectFlash, answers_under _ _ _ rfl, hnone] at hp
    exact .inr ⟨_, List.mem_singleton.mp hp, nofun⟩
  · simp only [hset, Head.respond, Head.emit, answers_append, answers_under _ _ _ (rfl :
      answers [.flushSlot1] = []), hnone] at hp
    left
    rw [← hsid]
    exact List.mem_singleton.mp hp

/-- What the update answers to a block or to the exit. -/
theorem answers_otaHandle {env : OtaEnv} (hnone : answers h.effects = []) (hlen : q.length ≠ 0)
    (hsid : q.sid = sidTransferData ∨ q.sid = sidRequestTransferExit) {payload : List UInt8}
    (hp : payload ∈ answers (otaHandle env h q).effects) :
    payload.head? ≠ some sidNegativeResponse ∨ BlockRefusal h q payload := by
  rw [otaHandle, if_neg hlen] at hp
  unfold otaRun at hp
  have hevent : sidToEvent q.sid = some .transferData ∧ q.sid = sidTransferData ∨
      sidToEvent q.sid = some .transferExit ∧ q.sid = sidRequestTransferExit := by
    rcases hsid with hsid | hsid
    · exact .inl ⟨by rw [hsid]; rfl, hsid⟩
    · exact .inr ⟨by rw [hsid]; rfl, hsid⟩
  split at hp
  · rw [hnone] at hp
    cases hp
  · next he => rcases hevent with ⟨h, -⟩ | ⟨h, -⟩ <;> cases h.symm.trans he
  · next hstate he =>
    rcases hevent with ⟨-, hsid⟩ | ⟨h, -⟩
    · rcases answers_transferData hnone hsid hstate hp with rfl | href
      · left
        rw [List.head?_cons]
        decide
      · exact .inr href
    · cases h.symm.trans he
  · next hstate he =>
    rcases hevent with ⟨h, -⟩ | ⟨-, hsid⟩
    · cases h.symm.trans he
    · rcases answers_transferExit hnone hsid hp with rfl | href
      · exact .inl (by decide)
      · exact .inr href
  · next he => rcases hevent with ⟨h, -⟩ | ⟨h, -⟩ <;> cases h.symm.trans he
  · exact .inr (blockRefusal_reject hnone hp fun h => absurd h (by decide))
  · exact .inr (blockRefusal_reject hnone hp fun h => absurd h (by decide))

/-- The code of a wrong block number comes for a block of an open download that expects another
one. -/
theorem wrongBlock_of_answer {id : ℕ} (hr : Ready h) (hlen : q.length ≠ 0)
    (hsid : q.sid = sidTransferData ∨ q.sid = sidRequestTransferExit) {payload : List UInt8}
    (hp : payload ∈ answers (serve env h q).effects)
    (hnrc : (Message.mk payload (some id)).refuses sidTransferData = some nrcWrongBlockSequence) :
    q.sid = sidTransferData ∧ h.ota.state = .downloading ∧ q.byte 2 ≠ h.ota.nextSeq := by
  have htransfer : isTransferSid q.sid = true := by
    rcases hsid with h | h <;> rw [h] <;> decide
  rw [serve_ota hr env hlen htransfer] at hp
  have hnone : answers (maintained env h).effects = [] := answers_silent (silent_maintained env h)
  rcases answers_otaHandle hnone hlen hsid hp with hhead | ⟨nrc, rfl, hwrong⟩
  · have hsome : ((Message.mk payload (some id)).refuses sidTransferData).isSome = true := by
      rw [hnrc]
      rfl
    exact absurd (refuses_head hsome) hhead
  · have hcode : nrc.code = nrcWrongBlockSequence := by
      simp only [Message.refuses, negativeResponse] at hnrc
      split at hnrc
      · exact Option.some.inj hnrc
      · cases hnrc
    obtain ⟨hdata, hstate, hseq⟩ := hwrong (by
      cases nrc <;> first | rfl | exact absurd hcode (by decide))
    have hota := ota_maintained hstate
    rw [hota] at hstate hseq
    exact ⟨hdata, hstate, hseq⟩

end Move

end DiveCANHead.Staging
