import DiveCANHead.Uds.Sessions

/-!
# Who may start what

What erases, stages, fires or faults is for the programming session at the surface, and each
handler checks both by itself. The dive check reads the pressure for a bounded time, and a
read that fails counts as the surface. Wherever the pressure is known to the handler, nothing
gets past the checks, and a request that fails one is answered and does nothing else.
-/

namespace DiveCANHead.Uds

open DiveCANHead.Lib

variable {env : RequestEnv} {h h' : Head} {q : Request} {e : Effect}

/-- The pressure is known to be that of the surface. -/
def AtSurface (env : OtaEnv) : Prop :=
  ∃ mbar, env.pressure = some mbar ∧ mbar ≤ diveAmbientPressureThresholdMbar

structure Authorised (env : OtaEnv) (h : Head) : Prop where
  session : h.session = .programming
  surface : AtSurface env

/-- The handler's own check falls short of it by the reads that fail. -/
theorem authorised_of_admitted {env : OtaEnv} (hadm : Admitted env h)
    (hknown : env.pressure ≠ none) : Authorised env h := by
  obtain ⟨mbar, hmbar⟩ := Option.ne_none_iff_exists'.mp hknown
  have hsurface := hadm.surface
  rw [hmbar] at hsurface
  exact ⟨hadm.session, mbar, hmbar, UInt16.not_lt.mp (of_decide_eq_false hsurface)⟩

/-- Where a guarded action is ordered in the programming session, the pressure can be read. -/
def PressureRead (env : RequestEnv) (h : Head) (q : Request) : Prop :=
  orders env h q = true → h.session = .programming → env.pressure ≠ none

/-! ## One request -/

theorem not_guarded_of_turnedDown (hturned : TurnedDown e) : e.guarded = false := by
  cases e <;> first | rfl | cases hturned

theorem not_guarded_of_abort (habort : e = .abortAutotune .dive) : e.guarded = false := by
  rw [habort]
  rfl

/-- Only the start and the end of an update are guarded. -/
theorem started_otaStep {env : OtaEnv} (hstep : OtaStep env h q h') (he : e ∈ h'.effects)
    (hguarded : e.guarded = true) : e ∈ h.effects ∨ startsOta h q = true := by
  have hnew : ∀ es, (∀ e ∈ es, e.guarded = false) → e ∈ h.effects ++ es → e ∈ h.effects := by
    intro es hes hmem
    refine (List.mem_append.mp hmem).resolve_right fun hin => ?_
    rw [hes e hin] at hguarded
    cases hguarded
  cases hstep with
  | refused es hes => exact .inl (hnew es (fun e he => not_guarded_of_turnedDown (hes e he)) he)
  | block =>
    refine .inl (hnew [.writeSlot1 _, .respond _] (fun e he => ?_) he)
    rcases List.mem_cons.mp he with rfl | he
    · rfl
    · exact List.mem_singleton.mp he ▸ rfl
  | exit =>
    refine .inl (hnew [.flushSlot1, .respond _] (fun e he => ?_) he)
    rcases List.mem_cons.mp he with rfl | he
    · rfl
    · exact List.mem_singleton.mp he ▸ rfl
  | failed _ _ hidle _ _ hsid | download hsid hidle =>
    exact .inr (decide_eq_true (.inl ⟨hsid, hidle⟩))
  | unstaged _ _ hstate _ hsid | activated hsid hstate =>
    exact .inr (decide_eq_true (.inr ⟨hsid, hstate⟩))

theorem started_service (hread : PressureRead env h q) (hstep : ServiceStep env h q h')
    (he : e ∈ h'.effects) (hguarded : e.guarded = true) :
    e ∈ h.effects ∨ Authorised env.toOtaEnv h := by
  cases hstep with
  | refused nrc =>
    rw [h.emits_reject] at he
    refine .inl ((List.mem_append.mp he).resolve_right fun hin => ?_)
    have hturned := turnedDown_reject .udsNrc nrc.code.toUInt32 q.sid nrc e hin
    rw [not_guarded_of_turnedDown hturned] at hguarded
    cases hguarded
  | quiet hquiet =>
    refine .inl ((hquiet.effects e he).resolve_right fun hneeds => ?_)
    rw [Effect.needsProgramming_of_guarded hguarded] at hneeds
    cases hneeds
  | left | entered =>
    refine .inl ((List.mem_append.mp he).resolve_right fun hin => ?_)
    rw [List.mem_singleton.mp hin] at hguarded
    cases hguarded
  | update hstep _ hadm =>
    refine (started_otaStep hstep he hguarded).imp id fun hstarts => ?_
    obtain ⟨hadm, horder⟩ := hadm hstarts
    exact authorised_of_admitted hadm (hread horder hadm.session)
  | ordered hadm horder =>
    exact .inr (authorised_of_admitted hadm (hread horder hadm.session))

theorem refused_service (hread : PressureRead env h q) (hstep : ServiceStep env h q h')
    (hasks : asks env h q = true) (hnot : ¬ Authorised env.toOtaEnv h) :
    ∃ nrc, h' = h.reject q.sid nrc := by
  have hsession : q.sid ≠ sidDiagSessionCtrl := by
    intro hsid
    have hota : asksOta env h q = false := by
      apply asksOta_of_sid <;>
        · rw [hsid]
          decide
    rw [quiet_asks_false hota (by rw [hsid]; decide)] at hasks
    cases hasks
  cases hstep with
  | refused nrc => exact ⟨nrc, rfl⟩
  | quiet _ hquiet =>
    rw [hquiet] at hasks
    cases hasks
  | left hsid | entered hsid => exact absurd hsid hsession
  | update _ hstarts hadm =>
    obtain ⟨hadm, horder⟩ := hadm (hstarts.symm.trans hasks)
    exact absurd (authorised_of_admitted hadm (hread horder hadm.session)) hnot
  | ordered hadm horder =>
    exact absurd (authorised_of_admitted hadm (hread horder hadm.session)) hnot

/-! ## Runs -/

/-- A request starts guarded actions only when it is authorised, and one that asks for them
without being so is answered with an error and does nothing else. -/
structure GuardedRequest (env : RequestEnv) (h : Head) (q : Request) : Prop where
  started : ∀ e ∈ (serve env h q).effects, e.guarded = true →
    Authorised env.toOtaEnv (maintained env h)
  refused : q.length ≠ 0 → asks env (maintained env h) q = true →
    ¬ Authorised env.toOtaEnv (maintained env h) →
    ∃ nrc, serve env h q = (maintained env h).reject q.sid nrc

def Guarded (h : Head) : HeadEvent → Prop
  | .request env q => GuardedRequest env h q
  | .others _ _ _ _ | .restart => True

/-- No order for a guarded action meets a pressure that cannot be read. -/
def PressureKnown (h : Head) : HeadEvent → Prop
  | .request env q => PressureRead env (maintained env h) q
  | .others _ _ _ _ | .restart => True

theorem guarded_serve (hnull : IdleNull h) (hread : PressureRead env (maintained env h) q) :
    GuardedRequest env h q := by
  rcases serve_cases env h q with ⟨hzero, hserve⟩ | ⟨hlen, hserve⟩
  · refine ⟨fun e he hguarded => ?_, fun hlen => absurd hzero hlen⟩
    rw [hserve] at he
    rw [List.mem_singleton.mp he] at hguarded
    cases hguarded
  · have hstep := @dispatch_step env (maintained env h) q hlen (idleNull_maintained env hnull)
    rw [← hserve] at hstep
    refine ⟨fun e he hguarded => ?_, fun _ => refused_service hread hstep⟩
    refine (started_service hread hstep he hguarded).resolve_left fun hold => ?_
    rw [not_guarded_of_abort (effects_maintained env h e hold)] at hguarded
    cases hguarded

theorem guarded_step {e : HeadEvent} (hnull : IdleNull h) (hknown : PressureKnown h e)
    (hstep : headStep h e = some h') : IdleNull h' ∧ Guarded h e := by
  refine ⟨idleNull_step hnull hstep, ?_⟩
  cases e with
  | request env q => exact guarded_serve hnull hknown
  | others | restart => trivial

/-- As long as the pressure can be read wherever a guarded action is ordered, guarded actions are
started in the programming session at the surface only. -/
theorem guarded_run {events : List HeadEvent}
    (hknown : Steps headStep (fun h e _ => PressureKnown h e) {} events) :
    Steps headStep (fun h e _ => Guarded h e) {} events :=
  Steps.of_inv guarded_step idleNull_start hknown

/-- The pressure is not to be had any more. -/
def unreadEnv : RequestEnv := { calmEnv with pressure := none, sessionPressure := none }

/-- An erase of both log streams. -/
def logEraseRequest : Request := .ofBytes [0, sidWriteDataById, 0xF2, 0x82, 3, logEraseMagic]

def unreadErase : List HeadEvent :=
  [.request calmEnv (sessionRequest subfuncProgramming), .request unreadEnv logEraseRequest]

/-- The log is erased at an unknown pressure. -/
theorem unreadErase_unguarded : ¬ Steps headStep (fun h e _ => Guarded h e) {} unreadErase := by
  refine not_steps_cons rfl fun hsteps => ?_
  have hguarded := ((steps_cons_some rfl).mp hsteps).1
  obtain ⟨-, mbar, hmbar, -⟩ := hguarded.started (.eraseLog 3) (by decide +kernel) rfl
  cases hmbar

/-- The erase is ordered in a dive, and again after it. -/
def divingErase : List HeadEvent :=
  [.request calmEnv (sessionRequest subfuncProgramming),
    .request { calmEnv with pressure := some 2000 } logEraseRequest,
    .request calmEnv logEraseRequest]

theorem divingErase_guarded : Steps headStep (fun h e _ => Guarded h e) {} divingErase :=
  guarded_run ⟨fun _ _ => nofun, fun _ _ => nofun, fun _ _ => nofun, trivial⟩

end DiveCANHead.Uds
