import DiveCANHead.Uds.Dispatch
import DiveCANHead.Uds.OtaRuns

/-!
# The update and its session

Over any requests, restarts and whatever other threads do, a firmware update is in
progress only in the programming session, unless the client itself leaves that session in
the middle of it: a lapse resets the update, an accepted change to the default session does
not.
-/

namespace DiveCANHead.Uds

open DiveCANHead.LogDownload DiveCANHead.Maintenance DiveCANHead.Lib DiveCANHead.FlashLog

variable {env : RequestEnv} {h h' : Head} {q : Request}

/-- An update that is not idle is in its session. -/
def InSession (h : Head) : Prop := h.ota.state ≠ .idle → h.session = .programming

theorem inSession_start : InSession {} := fun hne => absurd rfl hne

/-- The request takes the head out of the programming session while it is updating. -/
def LeavesUpdate (env : RequestEnv) (h : Head) (q : Request) : Prop :=
  q.sid = sidDiagSessionCtrl ∧ sessionCtrlReqLen ≤ q.length ∧ q.byte 2 = subfuncDefault ∧
    h.ota.state ≠ .idle ∧ ¬ Lapses env h

/-- The update has answered a transfer service, or an image is to be activated. -/
def AcksUpdate (env : RequestEnv) (h : Head) (q : Request) (effects : List Effect) : Prop :=
  (isTransferSid q.sid = true ∧ toLogDownload env h q = false ∧
    ∃ payload, .respond payload ∈ effects ∧ payload.head? = some (q.sid + responseSidOffset)) ∨
  .requestUpgrade ∈ effects

/-! ## One request -/

theorem InSession.of_same (hi : InSession h) (hsame : SameSession h h') : InSession h' := by
  rw [InSession, hsame.session, hsame.ota]
  exact hi

theorem inSession_maintained (env : RequestEnv) (hi : InSession h) :
    InSession (maintained env h) := by
  unfold maintained
  rcases maintainSession_cases env { h with effects := [] } with ⟨-, heq⟩ | ⟨-, hlapsed⟩
  · rw [heq]
    exact hi
  · exact fun hne => absurd hlapsed.idle hne

/-- The maintenance ends the update before an accepted change of the session can orphan it. -/
theorem idle_of_left (hleaves : ¬ LeavesUpdate env h q) (hsid : q.sid = sidDiagSessionCtrl)
    (hlen : sessionCtrlReqLen ≤ q.length) (hsub : q.byte 2 = subfuncDefault) :
    (maintained env h).ota.state = .idle := by
  unfold maintained
  rcases maintainSession_cases env { h with effects := [] } with ⟨hkept, heq⟩ | ⟨-, hlapsed⟩
  · rw [heq]
    by_contra hne
    exact hleaves ⟨hsid, hlen, hsub, hne, hkept⟩
  · exact hlapsed.idle

theorem inSession_otaStep {env : OtaEnv} (hi : InSession h) (hstep : OtaStep env h q h') :
    InSession h' := by
  cases hstep with
  | refused | failed | block | unstaged => exact hi
  | download _ _ hadm | activated _ _ hadm => exact fun _ => hadm.session
  | exit _ hstate => exact fun _ => hi (by rw [hstate]; nofun)

/-- Only an accepted change to the default session can take an update out of its session. -/
theorem inSession_dispatch (hi : InSession h) (hnull : IdleNull h) (hlen : q.length ≠ 0)
    (hleft : q.sid = sidDiagSessionCtrl → sessionCtrlReqLen ≤ q.length →
      q.byte 2 = subfuncDefault → h.ota.state = .idle) :
    InSession (dispatch env h q) := by
  have hstep := @dispatch_step env h q hlen hnull
  generalize dispatch env h q = h' at hstep
  cases hstep with
  | refused => exact hi
  | quiet hquiet => exact hi.of_same hquiet.toSameSession
  | left hsid hlen hsub => exact fun hne => absurd (hleft hsid hlen hsub) hne
  | entered => exact fun _ => rfl
  | update hstep => exact inSession_otaStep hi hstep
  | ordered _ _ hsame => exact hi.of_same hsame

/-- A negative answer is none of the positive ones to the transfer services. -/
theorem ne_negative_of_transfer {sid : UInt8} (h : isTransferSid sid = true) :
    some sidNegativeResponse ≠ some (sid + responseSidOffset) := by
  rcases of_decide_eq_true h with rfl | rfl | rfl <;> decide

theorem programming_of_ack {payload : List UInt8} (hi : InSession h)
    (hnone : ∀ e ∈ h.effects, e = .abortAutotune .dive) (htransfer : isTransferSid q.sid = true)
    (hstep : OtaStep env.toOtaEnv h q h') (hpayload : .respond payload ∈ h'.effects)
    (hack : payload.head? = some (q.sid + responseSidOffset)) : h'.session = .programming := by
  cases hstep with
  | refused es hes =>
    rcases List.mem_append.mp hpayload with hold | hnew
    · exact absurd (hnone _ hold) nofun
    · exact absurd ((hes _ hnew).symm.trans hack) (ne_negative_of_transfer htransfer)
  | failed _ _ _ hadm => exact hadm.session
  | download _ _ hadm => exact hadm.session
  | block _ hstate => exact hi (by rw [hstate]; nofun)
  | exit _ hstate => exact hi (by rw [hstate]; nofun)
  | unstaged _ _ _ hadm => exact hadm.session
  | activated _ _ hadm => exact hadm.session

theorem programming_of_upgrade (hi : InSession h)
    (hnone : ∀ e ∈ h.effects, e = .abortAutotune .dive) (hstep : ServiceStep env h q h')
    (hupgrade : .requestUpgrade ∈ h'.effects) : h'.session = .programming := by
  have hold : Effect.requestUpgrade ∉ h.effects := by
    intro hmem
    cases hnone _ hmem
  cases hstep with
  | refused nrc =>
    rw [h.emits_reject] at hupgrade
    simp [hold] at hupgrade
  | quiet hquiet _ =>
    rcases hquiet.effects _ hupgrade with hmem | hneeds
    · exact absurd hmem hold
    · cases hneeds
  | left | entered => simp [Head.respond, Head.emit, hold] at hupgrade
  | ordered hadm _ hsame => exact hsame.session.trans hadm.session
  | update hstep _ =>
    cases hstep with
    | refused es hes =>
      rcases List.mem_append.mp hupgrade with hmem | hnew
      · exact absurd hmem hold
      · exact (hes _ hnew).elim
    | failed _ _ _ hadm => exact hadm.session
    | download _ _ hadm => exact hadm.session
    | block _ hstate => exact hi (by rw [hstate]; decide)
    | exit _ hstate => exact hi (by rw [hstate]; decide)
    | unstaged _ _ _ hadm => exact hadm.session
    | activated _ _ hadm => exact hadm.session

/-- What the update acknowledges, it acknowledges in the programming session. -/
theorem programming_of_acks (hi : InSession h) (hnull : IdleNull h)
    (hnone : ∀ e ∈ h.effects, e = .abortAutotune .dive) (hlen : q.length ≠ 0)
    (hacks : AcksUpdate env h q (dispatch env h q).effects) :
    (dispatch env h q).session = .programming := by
  rcases hacks with ⟨htransfer, hto, payload, hpayload, hack⟩ | hupgrade
  · rw [dispatch_ota htransfer hto] at hpayload ⊢
    exact programming_of_ack hi hnone htransfer (otaHandle_step _ h q hnull) hpayload hack
  · exact programming_of_upgrade hi hnone (dispatch_step hlen hnull) hupgrade

/-! ## Runs -/

/-- What the update acknowledges at a step, it acknowledges in the programming session. -/
def AcksInSession (h : Head) : HeadEvent → Prop
  | .request env q =>
    AcksUpdate env (maintained env h) q (serve env h q).effects →
      (serve env h q).session = .programming
  | .others _ _ _ _ | .restart => True

/-- What the update promises at a step: in the state it leads to, it is idle or in its session,
and what it acknowledges, it acknowledges there. -/
structure UpdateInSession (h : Head) (e : HeadEvent) (h' : Head) : Prop where
  state : h'.ota.state ≠ .idle → h'.session = .programming
  acks : AcksInSession h e

/-- The client does not leave the session during an update. -/
def StaysInSession (h : Head) : HeadEvent → Prop
  | .request env q => ¬ LeavesUpdate env h q
  | .others _ _ _ _ | .restart => True

theorem inSession_serve (hi : InSession h) (hnull : IdleNull h)
    (hstays : ¬ LeavesUpdate env h q) :
    InSession (serve env h q) ∧ AcksInSession h (.request env q) := by
  rw [AcksInSession]
  rcases serve_cases env h q with ⟨-, hserve⟩ | ⟨hlen, hserve⟩
  · rw [hserve]
    refine ⟨hi, fun hacks => ?_⟩
    rcases hacks with ⟨-, -, payload, hpayload, -⟩ | hupgrade
    · exact absurd (List.mem_singleton.mp hpayload) nofun
    · exact absurd (List.mem_singleton.mp hupgrade) nofun
  · have hi' := inSession_maintained env hi
    have hnull' := idleNull_maintained env hnull
    rw [hserve]
    exact ⟨inSession_dispatch hi' hnull' hlen (idle_of_left hstays),
      programming_of_acks hi' hnull' (effects_maintained env h) hlen⟩

theorem inSession_step {e : HeadEvent} (hi : InSession h ∧ IdleNull h)
    (hstays : StaysInSession h e) (hstep : headStep h e = some h') :
    (InSession h' ∧ IdleNull h') ∧ UpdateInSession h e h' := by
  have hserve : ∀ env q, e = .request env q →
      InSession (serve env h q) ∧ AcksInSession h (.request env q) := by
    rintro env q rfl
    exact inSession_serve hi.1 hi.2 hstays
  have hnext : InSession h' :=
    headStep_inv inSession_start (fun env q he => (hserve env q he).1) (fun _ _ _ _ => hi.1) hstep
  refine ⟨⟨hnext, idleNull_step hi.2 hstep⟩, hnext, ?_⟩
  cases e with
  | request env q => exact (hserve env q rfl).2
  | others | restart => trivial

/-- As long as the client does not leave the programming session in the middle of an update, the
update is in that session in every state, and acknowledges and activates only there. -/
theorem update_inSession {events : List HeadEvent}
    (hstays : Steps headStep (fun h e _ => StaysInSession h e) {} events) :
    Steps headStep UpdateInSession {} events :=
  Steps.of_inv inSession_step ⟨inSession_start, idleNull_start⟩ hstays

/-- Everything works, at the surface. -/
def calmEnv : RequestEnv := { log := shortLog }

def sessionRequest (subfunction : UInt8) : Request :=
  .ofBytes [0, sidDiagSessionCtrl, subfunction]

/-- The client changes to the default session between the start of a download and its blocks. -/
def leftUpdate : List HeadEvent :=
  [.request calmEnv (sessionRequest subfuncProgramming), .request calmEnv otaRequest,
    .request calmEnv (sessionRequest subfuncDefault)]

/-- The update goes on outside of its session, and acknowledges what arrives. -/
theorem leftUpdate_orphaned : ¬ Steps headStep UpdateInSession {} leftUpdate ∧
    ∃ h, exec headStep {} leftUpdate = some h ∧ h.session = .default ∧
      h.ota.state = .downloading ∧ (serve calmEnv h (otaBlock 1 [1, 2, 3, 4])).effects =
        [.writeSlot1 [1, 2, 3, 4], .respond [sidTransferData + responseSidOffset, 1]] := by
  constructor
  · refine not_steps_cons rfl (not_steps_cons rfl fun hsteps => ?_)
    have hstate := ((steps_cons_some rfl).mp hsteps).1.state (by decide +kernel)
    revert hstate
    decide +kernel
  · exact ⟨_, rfl, by decide +kernel, by decide +kernel, by decide +kernel⟩

/-- The last request comes too late, so that the session and the update have ended before it. -/
def keptUpdate : List HeadEvent :=
  [.request calmEnv (sessionRequest subfuncProgramming), .request calmEnv otaRequest,
    .request calmEnv (otaBlock 1 [1, 2, 3, 4]),
    .request { calmEnv with now := 40000 } (sessionRequest subfuncDefault)]

theorem keptUpdate_inSession : Steps headStep UpdateInSession {} keptUpdate := by
  refine update_inSession ⟨?_, ?_, ?_, ?_, trivial⟩
  · exact fun h => absurd h.2.2.1 (by decide)
  · exact fun h => absurd h.1 (by decide)
  · exact fun h => absurd h.1 (by decide)
  · exact fun h => h.2.2.2.2 ⟨by decide +kernel, .inl (by decide +kernel)⟩

end DiveCANHead.Uds
