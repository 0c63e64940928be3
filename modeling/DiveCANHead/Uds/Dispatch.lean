import DiveCANHead.Lib.Runs
import DiveCANHead.Uds.ReadBounds
import DiveCANHead.Uds.Write

/-!
# Requests (`uds.c`)

A request first maintains the session: the S3 timeout and a dive end the programming
session, and with it the firmware update. Then the service id picks the handler. The log
download takes the transfer services while it streams, and the routines F1xx always.
-/

namespace DiveCANHead.Uds

open DiveCANHead.FlashLog DiveCANHead.Maintenance DiveCANHead.LogDownload DiveCANHead.Lib

/-- What a request finds. The session maintenance reads the pressure on its own, before the
handler does. -/
structure RequestEnv extends WriteEnv where
  now : UInt32 := 0
  sessionPressure : Option UInt16 := some 1013
  log : FlashLogDest → Fcb
  bootMarkerFlushed : Bool := true

/-! ## The session -/

/-- `UDS_S3_TIMEOUT_MS`. -/
def udsS3TimeoutMs : UInt32 := 30000

/-- `UDS_MaintainSession`. -/
def maintainSession (env : RequestEnv) (h : Head) : Head :=
  let (h, downgraded) :=
    if h.session = .programming ∧ udsS3TimeoutMs < env.now - h.lastActivityMs then
      ({ h with session := .default }, true)
    else (h, false)
  let (h, downgraded) :=
    if h.session = .programming ∧ isInDive env.sessionPressure = true then
      ({ h with session := .default }.emit (.abortAutotune .dive), true)
    else (h, downgraded)
  let h := if downgraded then otaReset h else h
  { h with lastActivityMs := env.now }

/-- `UDS_SESSION_CTRL_REQ_LEN`. -/
def sessionCtrlReqLen : ℕ := 2

/-- `UDS_SESSION_DEFAULT`. -/
def subfuncDefault : UInt8 := 0x01

/-- `UDS_SESSION_PROGRAMMING`. -/
def subfuncProgramming : UInt8 := 0x02

/-- `HandleDiagnosticSessionControl`. -/
def handleDiagnosticSessionControl (env : RequestEnv) (h : Head) (q : Request) : Head :=
  if q.length < sessionCtrlReqLen then h.reject sidDiagSessionCtrl .incorrectMsgLen
  else if q.byte 2 = subfuncDefault then
    { h with session := .default }.respond [sidDiagSessionCtrl + responseSidOffset, q.byte 2]
  else if q.byte 2 = subfuncProgramming then
    if isInDive env.pressure then h.reject sidDiagSessionCtrl .conditionsNotCorrect
    else
      { h with session := .programming }.respond
        [sidDiagSessionCtrl + responseSidOffset, q.byte 2]
  else h.reject sidDiagSessionCtrl .subfuncNotSupported

/-! ## The log download in the head -/

/-- The log download moves to `d`: `fl_start_streaming` claims the arena and quiets the log,
`fl_stop_streaming` hands both back. -/
def Head.moveLog (h : Head) (d : Download) : Head :=
  if h.log.sm.state ≠ .streaming ∧ d.sm.state = .streaming then
    { h with
      log := d
      arena := (maintArenaClaim h.arena (some .logStream)).1
      flashLogPaused := true
      logPushSuspended := true }
  else if h.log.sm.state = .streaming ∧ d.sm.state ≠ .streaming then
    { h with
      log := d
      arena := maintArenaRelease h.arena (some .logStream)
      flashLogPaused := false
      logPushSuspended := false }
  else { h with log := d }

/-- `UDS_LogDownload_Handle`. -/
def handleLogDownload (env : RequestEnv) (h : Head) (q : Request) : Head :=
  let (reply, d) := logDownloadHandle env.log env.now h.log q
  (h.moveLog d).respond reply

/-- The codes that `UDS_LogDownload_HandleRoutine` reports: those of a routine that was started,
but for the busy one. -/
def reportsRoutine (q : Request) (nrc : LogDownload.Nrc) : Bool :=
  routineControlMinReqLen ≤ q.length ∧ q.byte 2 = LogDownload.routineSubfuncStart ∧
    nrc ≠ .busyRepeatRequest

/-- `UDS_LogDownload_HandleRoutine`. -/
def handleLogRoutine (env : RequestEnv) (h : Head) (q : Request) : Head :=
  let (code, d) :=
    logDownloadRoutine ⟨grants h.arena .logStream, env.bootMarkerFlushed⟩ env.now h.log q
  let h := h.moveLog d
  let h :=
    match code with
    | some nrc =>
      if reportsRoutine q nrc then h.emit (.opError .udsNrc nrc.toUds.code.toUInt32) else h
    | none => h
  h.respond (routineReply q code)

/-! ## Dispatch -/

/-- Whether a transfer service goes to the log download. -/
def toLogDownload (env : RequestEnv) (h : Head) (q : Request) : Bool :=
  env.build.flashLog && claims h.log q.sid q

/-- `dispatchOtaOrLogDownload`. -/
def dispatchOtaOrLogDownload (env : RequestEnv) (h : Head) (q : Request) : Head :=
  if toLogDownload env h q then handleLogDownload env h q else otaHandle env.toOtaEnv h q

/-- Whether a routine goes to the log download. -/
def toLogRoutine (env : RequestEnv) (q : Request) : Bool :=
  env.build.flashLog && decide (routineControlMinReqLen ≤ q.length ∧ 0xF100 ≤ q.word 3 ∧
    q.word 3 ≤ 0xF1FF)

/-- `dispatchRoutineControl`. -/
def dispatchRoutineControl (env : RequestEnv) (h : Head) (q : Request) : Head :=
  if toLogRoutine env q then handleLogRoutine env h q else otaHandle env.toOtaEnv h q

/-- The services that may belong to the log download. -/
def isTransferSid (sid : UInt8) : Bool :=
  sid = sidRequestDownload ∨ sid = sidTransferData ∨ sid = sidRequestTransferExit

/-- The switch of `UDS_ProcessRequest`. -/
def dispatch (env : RequestEnv) (h : Head) (q : Request) : Head :=
  if q.sid = sidDiagSessionCtrl then handleDiagnosticSessionControl env h q
  else if q.sid = sidReadDataById then handleReadDataByIdentifier env.toReadEnv h q
  else if q.sid = sidWriteDataById then handleWriteDataByIdentifier env.toWriteEnv h q
  else if isTransferSid q.sid then dispatchOtaOrLogDownload env h q
  else if q.sid = sidRoutineControl then dispatchRoutineControl env h q
  else h.reject q.sid .serviceNotSupported

/-- `UDS_ProcessRequest`. -/
def processRequest (env : RequestEnv) (h : Head) (q : Request) : Head :=
  if q.length = 0 then h.emit (.opError .nullPtr 0)
  else dispatch env (maintainSession env h) q

/-! ## Runs -/

/-- What happens to the head: a request, something that other threads do to the arena and to the
log, or a restart. -/
inductive HeadEvent where
  | request (env : RequestEnv) (q : Request)
  | others (log : Download) (arena : Arena) (flashLogPaused logPushSuspended : Bool)
  | restart

/-- The handling of one request; the effects are its own. -/
def serve (env : RequestEnv) (h : Head) (q : Request) : Head :=
  processRequest env { h with effects := [] } q

/-- The unit comes up anew after a reboot or an injected fault. -/
def Effect.restarts : Effect → Bool
  | .reboot | .injectFault _ => true
  | _ => false

/-- The unit as it comes up. -/
def Head.boot : Head := {}

def headStep (h : Head) : HeadEvent → Option Head
  | .request env q =>
    let h' := serve env h q
    some (if h'.effects.any Effect.restarts then {} else h')
  | .others log arena flashLogPaused logPushSuspended =>
    some { h with log, arena, flashLogPaused, logPushSuspended }
  | .restart => some {}

/-! ## What the session maintenance does -/

/-- The programming session has timed out, or a dive is noticed in it. -/
def Lapses (env : RequestEnv) (h : Head) : Prop :=
  h.session = .programming ∧
    (udsS3TimeoutMs < env.now - h.lastActivityMs ∨ isInDive env.sessionPressure = true)

/-- The session has ended, and the update with it. -/
structure Lapsed (h h' : Head) : Prop where
  session : h'.session = .default
  idle : h'.ota.state = .idle
  null : h'.ota.flashCtx = false
  effects : ∀ e ∈ h'.effects, e ∈ h.effects ∨ e = .abortAutotune .dive

theorem effects_otaReset (h : Head) : (otaReset h).effects = h.effects := by
  unfold otaReset otaSetState
  cases h.ota.state <;> rfl

theorem session_otaReset (h : Head) : (otaReset h).session = h.session := by
  unfold otaReset otaSetState
  cases h.ota.state <;> rfl

theorem lapsed_reset (h h' : Head) (hsession : h'.session = .default)
    (heffects : ∀ e ∈ h'.effects, e ∈ h.effects ∨ e = .abortAutotune .dive) (now : UInt32) :
    Lapsed h { otaReset h' with lastActivityMs := now } := by
  refine ⟨?_, rfl, rfl, fun e he => heffects e ?_⟩
  · rw [← hsession]
    exact session_otaReset h'
  · rw [← effects_otaReset h']
    exact he

/-- The session lapses, or only the time of the request is noted. -/
theorem maintainSession_cases (env : RequestEnv) (h : Head) :
    ¬ Lapses env h ∧ maintainSession env h = { h with lastActivityMs := env.now } ∨
      Lapses env h ∧ Lapsed h (maintainSession env h) := by
  unfold maintainSession
  by_cases hsession : h.session = .programming
  · by_cases htime : udsS3TimeoutMs < env.now - h.lastActivityMs
    · right
      simp only [hsession, htime, and_self, if_true, reduceCtorEq, false_and, if_false]
      refine ⟨⟨hsession, .inl htime⟩, ?_⟩
      exact lapsed_reset h { h with session := .default } rfl (fun e he => .inl he) _
    · by_cases hdive : isInDive env.sessionPressure = true
      · right
        simp only [hsession, htime, hdive, and_false, if_false, and_self, if_true]
        refine ⟨⟨hsession, .inr hdive⟩, lapsed_reset h
          ({ h with session := .default }.emit (.abortAutotune .dive)) rfl (fun e he => ?_) _⟩
        rcases List.mem_append.mp he with he | he
        · exact .inl he
        · exact .inr (List.mem_singleton.mp he)
      · left
        simp only [htime, hdive, and_false, if_false, Bool.false_eq_true]
        refine ⟨fun hlapses => ?_, trivial⟩
        rcases hlapses.2 with ht | hd
        · exact htime ht
        · exact hdive hd
  · left
    simp only [hsession, false_and, if_false, Bool.false_eq_true]
    exact ⟨fun hlapses => hsession hlapses.1, trivial⟩

/-- The head that a request is dispatched in. -/
def maintained (env : RequestEnv) (h : Head) : Head := maintainSession env { h with effects := [] }

/-- Nothing has been done yet but to end a session. -/
theorem effects_maintained (env : RequestEnv) (h : Head) :
    ∀ e ∈ (maintained env h).effects, e = .abortAutotune .dive := by
  intro e he
  unfold maintained at he
  rcases maintainSession_cases env { h with effects := [] } with ⟨-, heq⟩ | ⟨-, hlapsed⟩
  · rw [heq] at he
    cases he
  · rcases hlapsed.effects e he with he | he
    · cases he
    · exact he

/-! ## What a service does -/

/-- The request goes to the firmware update and asks for its start or its end. -/
def asksOta (env : RequestEnv) (h : Head) (q : Request) : Bool :=
  (q.sid = sidRequestDownload ∧ toLogDownload env h q = false ∧ h.ota.state = .idle) ∨
    (q.sid = sidRoutineControl ∧ toLogRoutine env q = false ∧ h.ota.state = .awaitingActivate)

/-- Where the update handles the request, it asks for its start or its end. -/
def startsOta (h : Head) (q : Request) : Bool :=
  (q.sid = sidRequestDownload ∧ h.ota.state = .idle) ∨
    (q.sid = sidRoutineControl ∧ h.ota.state = .awaitingActivate)

/-- The request asks for a guarded action, well formed or not. -/
def asks (env : RequestEnv) (h : Head) (q : Request) : Bool :=
  asksOta env h q || (decide (q.sid = sidWriteDataById) && asksWrite q)

/-- A well-formed request of the firmware update. -/
def otaOrder (q : Request) : Bool :=
  (q.sid = sidRequestDownload ∧ otaDownloadReqLen ≤ q.length) ∨
    (q.sid = sidRoutineControl ∧ otaRoutineMinReqLen ≤ q.length ∧
      q.byte 2 = routineSubfuncStart ∧ q.word 3 = routineRidActivate)

/-- A well-formed request for a guarded action. -/
def orders (env : RequestEnv) (h : Head) (q : Request) : Bool :=
  (asksOta env h q && otaOrder q) || (decide (q.sid = sidWriteDataById) && writeOrder q)

/-- What the switch over the service ids can do to the head. -/
inductive ServiceStep (env : RequestEnv) (h : Head) (q : Request) : Head → Prop where
  | refused (nrc : Nrc) : ServiceStep env h q (h.reject q.sid nrc)
  | quiet {h' : Head} (hquiet : Quiet h h') (hasks : asks env h q = false) :
      ServiceStep env h q h'
  | left (hsid : q.sid = sidDiagSessionCtrl) (hlen : sessionCtrlReqLen ≤ q.length)
      (hsub : q.byte 2 = subfuncDefault) :
      ServiceStep env h q ({ h with session := .default }.respond
        [sidDiagSessionCtrl + responseSidOffset, q.byte 2])
  | entered (hsid : q.sid = sidDiagSessionCtrl) (hsub : q.byte 2 = subfuncProgramming)
      (hsurface : isInDive env.pressure = false) :
      ServiceStep env h q ({ h with session := .programming }.respond
        [sidDiagSessionCtrl + responseSidOffset, q.byte 2])
  | update {h' : Head} (hstep : OtaStep env.toOtaEnv h q h')
      (hasks : asks env h q = startsOta h q)
      (hadm : startsOta h q = true → Admitted env.toOtaEnv h ∧ orders env h q = true) :
      ServiceStep env h q h'
  | ordered {h' : Head} (hadm : Admitted env.toOtaEnv h) (horder : orders env h q = true)
      (hsame : SameSession h h') : ServiceStep env h q h'

theorem quiet_read (env : ReadEnv) (h : Head) (q : Request) :
    Quiet h (handleReadDataByIdentifier env h q) := by
  refine ⟨⟨rfl, rfl⟩, fun e he => ?_⟩
  rcases List.mem_append.mp he with he | he
  · exact .inl he
  obtain ⟨reports, answer, heffects, hreports, -⟩ := readDataByIdentifier_answeredOnce env q
  rw [heffects] at he
  rcases List.mem_append.mp he with he | he
  · have hreport := hreports e he
    right
    cases e <;> first | rfl | cases hreport
  · exact .inr (List.mem_singleton.mp he ▸ rfl)

theorem quiet_moveLog (h : Head) (d : Download) : Quiet h (h.moveLog d) := by
  unfold Head.moveLog
  split
  · exact ⟨⟨rfl, rfl⟩, fun _ he => .inl he⟩
  split
  · exact ⟨⟨rfl, rfl⟩, fun _ he => .inl he⟩
  · exact ⟨⟨rfl, rfl⟩, fun _ he => .inl he⟩

theorem quiet_logDownload (env : RequestEnv) (h : Head) (q : Request) :
    Quiet h (handleLogDownload env h q) := (quiet_moveLog h _).respond _

theorem quiet_logRoutine (env : RequestEnv) (h : Head) (q : Request) :
    Quiet h (handleLogRoutine env h q) := by
  unfold handleLogRoutine
  dsimp only
  split
  · split
    · exact ((quiet_moveLog h _).emit rfl).respond _
    · exact (quiet_moveLog h _).respond _
  · exact (quiet_moveLog h _).respond _

/-- A guard that refuses goes before what is admitted. -/
theorem reject_or {h x : Head} {sid : UInt8} {nrc : Nrc} {c admitted : Prop} [Decidable c]
    (hgoesOn : ¬c → (∃ nrc, x = h.reject sid nrc) ∨ admitted) :
    (∃ code, (if c then h.reject sid nrc else x) = h.reject sid code) ∨ admitted := by
  by_cases hc : c
  · rw [if_pos hc]
    exact .inl ⟨nrc, rfl⟩
  · rw [if_neg hc]
    exact hgoesOn hc

/-- A RequestDownload in the idle state and a RoutineControl in the last one are refused, or they
are orders in the programming session at the surface. -/
theorem otaHandle_starts {env : OtaEnv} {h : Head} {q : Request} (hlen : q.length ≠ 0)
    (hstarts : startsOta h q = true) :
    (∃ nrc, otaHandle env h q = h.reject q.sid nrc) ∨ Admitted env h ∧ otaOrder q = true := by
  rw [otaHandle, if_neg hlen]
  rcases of_decide_eq_true hstarts with ⟨hsid, hstate⟩ | ⟨hsid, hstate⟩
  · have hrun : otaRun env h q = otaHandleRequestDownload env h q := by
      rw [otaRun, hstate, hsid]
      rfl
    rw [hrun, hsid]
    unfold otaHandleRequestDownload
    refine reject_or fun hshort => reject_or fun hsession => reject_or fun hdive => .inr ?_
    exact ⟨admitted_of hsession hdive, decide_eq_true (.inl ⟨hsid, not_lt.mp hshort⟩)⟩
  · have hrun : otaRun env h q = otaHandleRoutineControl env h q := by
      rw [otaRun, hstate, hsid]
      rfl
    rw [hrun, hsid]
    unfold otaHandleRoutineControl
    refine reject_or fun hshort => reject_or fun hsub => reject_or fun hrid =>
      reject_or fun hsession => reject_or fun hdive => .inr ?_
    refine ⟨admitted_of hsession hdive, decide_eq_true (.inr ⟨hsid, ?_⟩)⟩
    exact ⟨not_lt.mp hshort, not_not.mp hsub, not_not.mp hrid⟩

theorem quiet_asks_false {env : RequestEnv} {h : Head} {q : Request}
    (hota : asksOta env h q = false) (hwrite : q.sid ≠ sidWriteDataById) :
    asks env h q = false := by
  rw [asks, hota, decide_eq_false hwrite]
  rfl

theorem asksOta_of_sid {env : RequestEnv} {h : Head} {q : Request}
    (hdownload : q.sid ≠ sidRequestDownload) (hroutine : q.sid ≠ sidRoutineControl) :
    asksOta env h q = false := by
  refine decide_eq_false ?_
  rintro (⟨hsid, -⟩ | ⟨hsid, -⟩)
  · exact hdownload hsid
  · exact hroutine hsid

/-- What goes to the firmware update. -/
theorem otaHandle_service {env : RequestEnv} {h : Head} {q : Request} (hlen : q.length ≠ 0)
    (hnull : h.ota.state = .idle → h.ota.flashCtx = false) (hwrite : q.sid ≠ sidWriteDataById)
    (hdownload : q.sid = sidRequestDownload → toLogDownload env h q = false)
    (hroutine : q.sid = sidRoutineControl → toLogRoutine env q = false) :
    ServiceStep env h q (otaHandle env.toOtaEnv h q) := by
  have hota : asksOta env h q = startsOta h q := by
    refine decide_eq_decide.mpr (or_congr (and_congr_right fun hsid => ?_)
      (and_congr_right fun hsid => ?_))
    · exact and_iff_right (hdownload hsid)
    · exact and_iff_right (hroutine hsid)
  have hasks : asks env h q = startsOta h q := by
    rw [asks, hota, decide_eq_false hwrite, Bool.false_and, Bool.or_false]
  cases hstarts : startsOta h q with
  | false =>
    refine .update (otaHandle_step _ h q hnull) hasks fun h => ?_
    cases hstarts.symm.trans h
  | true =>
    rcases otaHandle_starts hlen hstarts with ⟨nrc, hrefused⟩ | ⟨hadm, horder⟩
    · rw [hrefused]
      exact .refused nrc
    · refine .update (otaHandle_step _ h q hnull) hasks fun _ => ⟨hadm, ?_⟩
      rw [orders, hota, hstarts, horder]
      rfl

/-- What a request does after the session maintenance. -/
theorem dispatch_step {env : RequestEnv} {h : Head} {q : Request} (hlen : q.length ≠ 0)
    (hnull : h.ota.state = .idle → h.ota.flashCtx = false) :
    ServiceStep env h q (dispatch env h q) := by
  unfold dispatch
  split
  · next hsid =>
    unfold handleDiagnosticSessionControl
    split
    · rw [← hsid]
      exact .refused _
    next hshort =>
    split
    · next hsub => exact .left hsid (not_lt.mp hshort) hsub
    split
    · next hsub =>
      split
      · rw [← hsid]
        exact .refused _
      · next hdive => exact .entered hsid hsub (Bool.eq_false_iff.mpr hdive)
    · rw [← hsid]
      exact .refused _
  split
  · next hsid =>
    refine .quiet (quiet_read _ h q) (quiet_asks_false (asksOta_of_sid ?_ ?_) ?_) <;>
      · rw [hsid]
        decide
  split
  · next hsid =>
    have hota : asksOta env h q = false := by
      apply asksOta_of_sid <;>
        · rw [hsid]
          decide
    have hstep := handleWriteDataByIdentifier_step env.toWriteEnv h q
    generalize handleWriteDataByIdentifier env.toWriteEnv h q = h' at hstep
    cases hstep with
    | refused nrc =>
      rw [Head.rejectWrite, ← hsid]
      exact .refused nrc
    | quiet hquiet hasks =>
      refine .quiet hquiet ?_
      rw [asks, hota, hasks, Bool.and_false]
      rfl
    | ordered hadm horder hsame =>
      refine .ordered hadm ?_ hsame
      rw [orders, horder, decide_eq_true hsid, hota]
      rfl
  next hwrite =>
  split
  · next htransfer =>
    unfold dispatchOtaOrLogDownload
    split
    · next hlog =>
      refine .quiet (quiet_logDownload env h q) (quiet_asks_false (decide_eq_false ?_) hwrite)
      rintro (⟨-, hto, -⟩ | ⟨hsid, -⟩)
      · rw [hlog] at hto
        cases hto
      · rw [hsid] at htransfer
        exact absurd htransfer (by decide)
    · next hto =>
      refine otaHandle_service hlen hnull hwrite (fun _ => Bool.eq_false_iff.mpr hto) fun hsid => ?_
      rw [hsid] at htransfer
      exact absurd htransfer (by decide)
  split
  · next hsid =>
    unfold dispatchRoutineControl
    split
    · next hlog =>
      refine .quiet (quiet_logRoutine env h q) (quiet_asks_false (decide_eq_false ?_) hwrite)
      rintro (⟨hdownload, -⟩ | ⟨-, hto, -⟩)
      · rw [hdownload] at hsid
        exact absurd hsid (by decide)
      · rw [hlog] at hto
        cases hto
    · next hto =>
      refine otaHandle_service hlen hnull hwrite (fun hdownload => ?_) fun _ =>
        Bool.eq_false_iff.mpr hto
      rw [hdownload] at hsid
      exact absurd hsid (by decide)
  · exact .refused _

/-- What goes to the update is handled by it. -/
theorem dispatch_ota {env : RequestEnv} {h : Head} {q : Request}
    (htransfer : isTransferSid q.sid = true) (hto : toLogDownload env h q = false) :
    dispatch env h q = otaHandle env.toOtaEnv h q := by
  have hne : ∀ sid, isTransferSid sid = false → q.sid ≠ sid := by
    rintro sid hsid rfl
    rw [htransfer] at hsid
    cases hsid
  rw [dispatch, if_neg (hne _ (by decide)), if_neg (hne _ (by decide)),
    if_neg (hne _ (by decide)), if_pos htransfer, dispatchOtaOrLogDownload, hto,
    if_neg Bool.false_ne_true]

/-! ## What every event keeps -/

/-- An idle update has no context. -/
def IdleNull (h : Head) : Prop := h.ota.state = .idle → h.ota.flashCtx = false

theorem idleNull_start : IdleNull {} := fun _ => rfl

theorem IdleNull.of_same {h h' : Head} (hi : IdleNull h) (hsame : SameSession h h') :
    IdleNull h' := by
  rw [IdleNull, hsame.ota]
  exact hi

theorem idleNull_maintained {h : Head} (env : RequestEnv) (hi : IdleNull h) :
    IdleNull (maintained env h) := by
  unfold maintained
  rcases maintainSession_cases env { h with effects := [] } with ⟨-, heq⟩ | ⟨-, hlapsed⟩
  · rw [heq]
    exact hi
  · exact fun _ => hlapsed.null

theorem idleNull_otaStep {env : OtaEnv} {h h' : Head} {q : Request} (hi : IdleNull h)
    (hstep : OtaStep env h q h') : IdleNull h' := by
  cases hstep with
  | refused | failed | unstaged => exact hi
  | download | exit | activated => exact nofun
  | block _ hstate =>
    intro hidle
    rw [show h.ota.state = .idle from hidle] at hstate
    cases hstate

theorem idleNull_dispatch {env : RequestEnv} {h : Head} {q : Request} (hlen : q.length ≠ 0)
    (hi : IdleNull h) : IdleNull (dispatch env h q) := by
  have hstep := @dispatch_step env h q hlen hi
  generalize dispatch env h q = h' at hstep
  cases hstep with
  | refused | left | entered => exact hi
  | quiet hquiet => exact hi.of_same hquiet.toSameSession
  | update hstep => exact idleNull_otaStep hi hstep
  | ordered _ _ hsame => exact hi.of_same hsame

/-- A request reports that it is empty, or it is dispatched in the maintained head. -/
theorem serve_cases (env : RequestEnv) (h : Head) (q : Request) :
    q.length = 0 ∧ serve env h q = { h with effects := [.opError .nullPtr 0] } ∨
      q.length ≠ 0 ∧ serve env h q = dispatch env (maintained env h) q := by
  unfold serve processRequest
  split
  · next hlen => exact .inl ⟨hlen, rfl⟩
  · next hlen => exact .inr ⟨hlen, rfl⟩

theorem headStep_request (env : RequestEnv) (h : Head) (q : Request) :
    headStep h (.request env q) =
      some (if (serve env h q).effects.any Effect.restarts then {} else serve env h q) := rfl

/-- What a request, a restart and the other threads keep, every event keeps. -/
theorem headStep_inv {Inv : Head → Prop} {h h' : Head} {e : HeadEvent} (hstart : Inv {})
    (hserve : ∀ env q, e = .request env q → Inv (serve env h q))
    (hothers : ∀ log arena paused suspended,
      Inv { h with log, arena, flashLogPaused := paused, logPushSuspended := suspended })
    (hstep : headStep h e = some h') : Inv h' := by
  cases e with
  | request env q =>
    rw [headStep_request, Option.some.injEq] at hstep
    rw [← hstep]
    split
    · exact hstart
    · exact hserve env q rfl
  | others log arena paused suspended =>
    obtain rfl := Option.some.inj hstep
    exact hothers log arena paused suspended
  | restart =>
    obtain rfl := Option.some.inj hstep
    exact hstart

theorem idleNull_step {h h' : Head} {e : HeadEvent} (hi : IdleNull h)
    (hstep : headStep h e = some h') : IdleNull h' := by
  refine headStep_inv idleNull_start (fun env q _ => ?_) (fun _ _ _ _ => hi) hstep
  rcases serve_cases env h q with ⟨-, hserve⟩ | ⟨hlen, hserve⟩
  · rw [hserve]
    exact hi
  · rw [hserve]
    exact idleNull_dispatch hlen (idleNull_maintained env hi)

end DiveCANHead.Uds
