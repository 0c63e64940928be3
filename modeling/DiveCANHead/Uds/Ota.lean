import DiveCANHead.Uds.Head

/-!
# The firmware update (`uds_ota.c`)

A flat state machine: the service id of a request is the event, the state decides which
event it handles, and a transition runs the exit action of the state it leaves and the
entry action of the one it enters. What the flash answers is the handler's environment;
the image check of the activation is one of its results. `OtaStep` says what a request
can do.
-/

namespace DiveCANHead.Uds

open DiveCANHead.Maintenance

/-- What the handlers find: the pressure, and the results of the flash calls. -/
structure OtaEnv where
  pressure : Option UInt16 := some 1013
  areaOpen : ℤ := 0
  slotSize : UInt32 := 0x80000
  erase : ℤ := 0
  imgInit : ℤ := 0
  write : FlashCall := {}
  flush : FlashCall := {}
  bankHeader : FlashCall := {}
  validate : ℤ := 0
  upgrade : FlashCall := {}
  deriving DecidableEq, Repr

def otaDownloadReqLen : ℕ := 12

def otaDownloadDataFmtNone : UInt8 := 0x00

def otaDownloadAddrLenFmt : UInt8 := 0x44

def otaDownloadLengthFmt : UInt8 := 0x20

def otaMaxBlockLength : ℕ := maxRequestLength

def otaTransferMinReqLen : ℕ := 3

/-- `OTA_TRANSFER_OVERHEAD`: pad, SID and sequence number. -/
def otaTransferOverhead : ℕ := 3

def otaExitMinReqLen : ℕ := 2

def otaRoutineMinReqLen : ℕ := 5

def routineSubfuncStart : UInt8 := 0x01

def routineRidActivate : UInt16 := 0xF001

/-- `OtaEvent_e`, where `none` is `OTA_EVT_NONE`. -/
inductive OtaEvent where
  | requestDownload
  | transferData
  | transferExit
  | routineControl
  deriving DecidableEq, Repr

def sidToEvent (sid : UInt8) : Option OtaEvent :=
  if sid = sidRequestDownload then some .requestDownload
  else if sid = sidTransferData then some .transferData
  else if sid = sidRequestTransferExit then some .transferExit
  else if sid = sidRoutineControl then some .routineControl
  else none

/-! ## Transitions -/

/-- The exit action of a state. -/
def otaExit : OtaState → Head → Head
  | .downloading, h => h.resumeLog.suspendPush false
  | .idle, h | .awaitingActivate, h | .activating, h => h

/-- The entry action of a state. -/
def otaEntry : OtaState → Head → Head
  | .idle, h =>
    { h with
      ota := { h.ota with bytesExpected := 0, bytesReceived := 0, nextSeq := 1, flashCtx := false }
      arena := maintArenaRelease h.arena (some .ota) }
  | .downloading, h => h.pauseLog.suspendPush true
  | .awaitingActivate, h => h
  | .activating, h => h.emit .reboot

/-- `smf_set_state`. -/
def otaSetState (h : Head) (next : OtaState) : Head :=
  let h := otaExit h.ota.state h
  otaEntry next { h with ota := { h.ota with state := next } }

/-- `UDS_OTA_Reset`. -/
def otaReset (h : Head) : Head := otaSetState h .idle

/-! ## Handlers -/

/-- `ota_erase_and_init_download`, and whether it succeeded. -/
def otaEraseAndInitDownload (env : OtaEnv) (h : Head) (length : UInt32) : Head × Bool :=
  let h := (h.pauseLog.emit .eraseSlot1).resumeLog
  if env.erase ≠ 0 then (h.rejectFlash sidRequestDownload env.erase .generalProgFail, false)
  else if env.imgInit ≠ 0 then
    (h.rejectFlash sidRequestDownload env.imgInit .generalProgFail, false)
  else
    ({ h with
        ota := { h.ota with bytesExpected := length, bytesReceived := 0, nextSeq := 1 } }, true)

/-- The arena is claimed into `flash_ctx` before slot1 is erased. -/
def otaClaimAndErase (env : OtaEnv) (h : Head) (length : UInt32) : Head × Bool :=
  let (arena, granted) := maintArenaClaim h.arena (some .ota)
  let h := { h with arena := arena, ota := { h.ota with flashCtx := granted } }
  if granted then otaEraseAndInitDownload env h length
  else (h.reject sidRequestDownload .conditionsNotCorrect, false)

/-- The length field; the address before it is ignored. -/
def declaredLength (q : Request) : UInt32 := q.longBE 8

/-- `ota_handle_request_download`. -/
def otaHandleRequestDownload (env : OtaEnv) (h : Head) (q : Request) : Head :=
  if q.length < otaDownloadReqLen then h.reject sidRequestDownload .incorrectMsgLen
  else if h.session ≠ .programming then h.reject sidRequestDownload .serviceNotInSession
  else if isInDive env.pressure then h.reject sidRequestDownload .conditionsNotCorrect
  else
    let (h, ok) :=
      if q.byte 2 ≠ otaDownloadDataFmtNone ∨ q.byte 3 ≠ otaDownloadAddrLenFmt then
        (h.reject sidRequestDownload .requestOutOfRange, false)
      else if env.areaOpen ≠ 0 then
        (h.rejectFlash sidRequestDownload env.areaOpen .generalProgFail, false)
      else if env.slotSize < declaredLength q then
        (h.reject sidRequestDownload .requestOutOfRange, false)
      else otaClaimAndErase env h (declaredLength q)
    if ok then
      otaSetState (h.respond [sidRequestDownload + responseSidOffset, otaDownloadLengthFmt,
        UInt8.ofNat (otaMaxBlockLength / 256), UInt8.ofNat otaMaxBlockLength]) .downloading
    else if h.ota.flashCtx then
      -- the state stays idle, so its entry action does not hand the claim back
      { h with
        ota := { h.ota with flashCtx := false }
        arena := maintArenaRelease h.arena (some .ota) }
    else h

/-- `ota_handle_transfer_data`. -/
def otaHandleTransferData (env : OtaEnv) (h : Head) (q : Request) : Head :=
  if q.length < otaTransferMinReqLen then h.reject sidTransferData .incorrectMsgLen
  else if q.byte 2 ≠ h.ota.nextSeq then h.reject sidTransferData .wrongBlockSeqCounter
  else
    let h := h.under env.write (.writeSlot1 (q.payload otaTransferOverhead))
    if env.write.rc ≠ 0 then h.rejectFlash sidTransferData env.write.rc .generalProgFail
    else
      let h := { h with
        ota := { h.ota with
          bytesReceived := h.ota.bytesReceived + UInt32.ofNat (q.length - otaTransferOverhead)
          nextSeq := h.ota.nextSeq + 1 } }
      h.respond [sidTransferData + responseSidOffset, q.byte 2]

/-- `ota_handle_transfer_exit`. -/
def otaHandleTransferExit (env : OtaEnv) (h : Head) (q : Request) : Head :=
  if q.length < otaExitMinReqLen then h.reject sidRequestTransferExit .incorrectMsgLen
  else
    let h := h.under env.flush .flushSlot1
    if env.flush.rc ≠ 0 then h.rejectFlash sidRequestTransferExit env.flush.rc .generalProgFail
    else if env.bankHeader.rc ≠ 0 then
      h.rejectFlash sidRequestTransferExit env.bankHeader.rc .generalProgFail
    else
      otaSetState (h.respond [sidRequestTransferExit + responseSidOffset]) .awaitingActivate

/-- `ota_handle_routine_control`. -/
def otaHandleRoutineControl (env : OtaEnv) (h : Head) (q : Request) : Head :=
  if q.length < otaRoutineMinReqLen then h.reject sidRoutineControl .incorrectMsgLen
  else if q.byte 2 ≠ routineSubfuncStart then h.reject sidRoutineControl .subfuncNotSupported
  else if q.word 3 ≠ routineRidActivate then h.reject sidRoutineControl .requestOutOfRange
  else if h.session ≠ .programming then h.reject sidRoutineControl .serviceNotInSession
  else if isInDive env.pressure then h.reject sidRoutineControl .conditionsNotCorrect
  else if env.validate ≠ 0 then h.reject sidRoutineControl .conditionsNotCorrect
  else
    let h := (h.pauseLog.under env.upgrade .requestUpgrade).resumeLog
    if env.upgrade.rc ≠ 0 then h.rejectFlash sidRoutineControl env.upgrade.rc .generalProgFail
    else
      otaSetState (h.respond [sidRoutineControl + responseSidOffset, q.byte 2, q.byte 3, q.byte 4])
        .activating

/-- The run function of a state; `OTA_STATE_ACTIVATING` has none. -/
def otaRun (env : OtaEnv) (h : Head) (q : Request) : Head :=
  match h.ota.state, sidToEvent q.sid with
  | .activating, _ => h
  | .idle, some .requestDownload => otaHandleRequestDownload env h q
  | .downloading, some .transferData => otaHandleTransferData env h q
  | .downloading, some .transferExit => otaHandleTransferExit env h q
  | .awaitingActivate, some .routineControl => otaHandleRoutineControl env h q
  | _, none => h.reject q.sid .serviceNotSupported
  | _, some _ => h.reject q.sid .requestSequenceErr

/-- `UDS_OTA_Handle`. -/
def otaHandle (env : OtaEnv) (h : Head) (q : Request) : Head :=
  if q.length = 0 then h.emit (.opError .nullPtr 0) else otaRun env h q

/-! ## What a request can do -/

/-- What a request that is turned down leaves: reports, negative answers, and flash calls that no
answer acknowledges. -/
def TurnedDown : Effect → Prop
  | .respond payload => payload.head? = some sidNegativeResponse
  | .opError _ _ | .writeSlot1 _ | .flushSlot1 => True
  | _ => False

/-- The answer to an accepted RequestDownload. -/
def otaDownloadGrant : List UInt8 :=
  [sidRequestDownload + responseSidOffset, otaDownloadLengthFmt,
    UInt8.ofNat (otaMaxBlockLength / 256), UInt8.ofNat otaMaxBlockLength]

/-- The request is handled at all: in the programming session and at the surface. -/
structure Admitted (env : OtaEnv) (h : Head) : Prop where
  session : h.session = .programming
  surface : isInDive env.pressure = false

/-- What `UDS_OTA_Handle` can do to the head, where an idle state has no context. -/
inductive OtaStep (env : OtaEnv) (h : Head) (q : Request) : Head → Prop
  | refused (es : List Effect) (hes : ∀ e ∈ es, TurnedDown e) :
      OtaStep env h q { h with effects := h.effects ++ es }
  | failed (es : List Effect) (hes : ∀ e ∈ es, e = .eraseSlot1 ∨ TurnedDown e)
      (hidle : h.ota.state = .idle) (hadm : Admitted env h) (hgrants : grants h.arena .ota = true)
      (hsid : q.sid = sidRequestDownload) :
      OtaStep env h q
        { h with
          arena := maintArenaRelease (handOver h.arena .ota) (some .ota)
          flashLogPaused := false
          effects := h.effects ++ es }
  | download (hsid : q.sid = sidRequestDownload) (hidle : h.ota.state = .idle)
      (hadm : Admitted env h) (hgrants : grants h.arena .ota = true) :
      OtaStep env h q
        { h with
          ota := ⟨.downloading, true, declaredLength q, 0, 1⟩
          arena := handOver h.arena .ota
          flashLogPaused := true
          logPushSuspended := true
          effects := h.effects ++ [.eraseSlot1, .respond otaDownloadGrant] }
  | block (hsid : q.sid = sidTransferData) (hstate : h.ota.state = .downloading)
      (hlen : otaTransferMinReqLen ≤ q.length) (hseq : q.byte 2 = h.ota.nextSeq)
      (hwrite : env.write.rc = 0) :
      OtaStep env h q
        { h with
          ota := { h.ota with
            bytesReceived := h.ota.bytesReceived + UInt32.ofNat (q.length - otaTransferOverhead)
            nextSeq := h.ota.nextSeq + 1 }
          effects := h.effects ++ [.writeSlot1 (q.payload otaTransferOverhead),
            .respond [sidTransferData + responseSidOffset, q.byte 2]] }
  | exit (hsid : q.sid = sidRequestTransferExit) (hstate : h.ota.state = .downloading)
      (hlen : otaExitMinReqLen ≤ q.length) (hflush : env.flush.rc = 0)
      (hheader : env.bankHeader.rc = 0) :
      OtaStep env h q
        { h with
          ota := { h.ota with state := .awaitingActivate }
          flashLogPaused := false
          logPushSuspended := false
          effects := h.effects ++ [.flushSlot1,
            .respond [sidRequestTransferExit + responseSidOffset]] }
  | unstaged (es : List Effect) (hes : ∀ e ∈ es, e = .requestUpgrade ∨ TurnedDown e)
      (hstate : h.ota.state = .awaitingActivate) (hadm : Admitted env h)
      (hsid : q.sid = sidRoutineControl) :
      OtaStep env h q { h with flashLogPaused := false, effects := h.effects ++ es }
  | activated (hsid : q.sid = sidRoutineControl) (hstate : h.ota.state = .awaitingActivate)
      (hadm : Admitted env h) :
      OtaStep env h q
        { h with
          ota := { h.ota with state := .activating }
          flashLogPaused := false
          effects := h.effects ++ [.requestUpgrade,
            .respond [sidRoutineControl + responseSidOffset, q.byte 2, q.byte 3, q.byte 4],
            .reboot] }

variable {env : OtaEnv} {h : Head} {q : Request}

theorem turnedDown_reject (code : OpError) (detail : UInt32) (sid : UInt8) (nrc : Nrc) :
    ∀ e ∈ [Effect.opError code detail, .respond (negativeResponse sid nrc)], TurnedDown e := by
  intro e he
  rcases List.mem_cons.mp he with rfl | he
  · trivial
  · obtain rfl := List.mem_singleton.mp he
    rfl

theorem OtaStep.reject (sid : UInt8) (nrc : Nrc) : OtaStep env h q (h.reject sid nrc) := by
  rw [h.emits_reject sid nrc]
  exact .refused _ (turnedDown_reject _ _ sid nrc)

theorem OtaStep.rejectFlash (sid : UInt8) (rc : ℤ) (nrc : Nrc) :
    OtaStep env h q (h.rejectFlash sid rc nrc) := by
  rw [h.emits_rejectFlash sid rc nrc]
  exact .refused _ (turnedDown_reject _ _ sid nrc)

/-- A call that succeeded was made. -/
theorem Head.under_of_rc {c : FlashCall} (h : Head) (e : Effect) (hc : c.rc = 0) :
    h.under c e = h.emit e := by
  unfold FlashCall.rc at hc
  split at hc
  · next hacquire => rw [Head.under, if_pos hacquire]
  · next hacquire => exact absurd hc hacquire

/-- A call that failed is reported and answered. -/
theorem OtaStep.under {c : FlashCall} (e : Effect) (he : TurnedDown e) (sid : UInt8) (rc : ℤ)
    (nrc : Nrc) : OtaStep env h q ((h.under c e).rejectFlash sid rc nrc) := by
  obtain ⟨es, hes, hall⟩ := h.emits_under c e
  rw [hes, Head.emits_rejectFlash]
  simp only [List.append_assoc]
  refine .refused _ fun e' he' => ?_
  rcases List.mem_append.mp he' with he' | he'
  · exact hall e' he' ▸ he
  · exact turnedDown_reject _ _ sid nrc e' he'

theorem transferData_step (hsid : q.sid = sidTransferData) (hstate : h.ota.state = .downloading) :
    OtaStep env h q (otaHandleTransferData env h q) := by
  unfold otaHandleTransferData
  split
  · exact .reject _ _
  split
  · exact .reject _ _
  next hlen hseq =>
  by_cases hwrite : env.write.rc = 0
  · simp only [hwrite, ne_eq, not_true_eq_false, if_false, Head.under_of_rc _ _ hwrite]
    have hstep := OtaStep.block hsid hstate (not_lt.mp hlen) (not_not.mp hseq) hwrite
    rw [List.append_cons] at hstep
    exact hstep
  · simp only [ne_eq, hwrite, not_false_eq_true, if_true]
    exact .under (.writeSlot1 _) trivial _ _ _

theorem transferExit_step (hsid : q.sid = sidRequestTransferExit)
    (hstate : h.ota.state = .downloading) : OtaStep env h q (otaHandleTransferExit env h q) := by
  unfold otaHandleTransferExit
  split
  · exact .reject _ _
  next hlen =>
  by_cases hflush : env.flush.rc = 0
  · by_cases hheader : env.bankHeader.rc = 0
    · simp only [hflush, hheader, ne_eq, not_true_eq_false, if_false, Head.under_of_rc _ _ hflush]
      have hstep := OtaStep.exit hsid hstate (not_lt.mp hlen) hflush hheader
      rw [List.append_cons] at hstep
      simp only [otaSetState, Head.respond, Head.emit, hstate, otaExit, otaEntry]
      exact hstep
    · simp only [hflush, ne_eq, not_true_eq_false, if_false, hheader, not_false_eq_true, if_true]
      exact .under .flushSlot1 trivial _ _ _
  · simp only [ne_eq, hflush, not_false_eq_true, if_true]
    exact .under .flushSlot1 trivial _ _ _

/-- The two handlers that are gated reject without the gate. -/
theorem admitted_of {env : OtaEnv} {h : Head} (hsession : ¬h.session ≠ .programming)
    (hdive : ¬isInDive env.pressure = true) : Admitted env h :=
  ⟨not_not.mp hsession, Bool.eq_false_iff.mpr hdive⟩

theorem routineControl_step (hsid : q.sid = sidRoutineControl)
    (hstate : h.ota.state = .awaitingActivate) :
    OtaStep env h q (otaHandleRoutineControl env h q) := by
  unfold otaHandleRoutineControl
  split
  · exact .reject _ _
  split
  · exact .reject _ _
  split
  · exact .reject _ _
  split
  · exact .reject _ _
  next hsession =>
  split
  · exact .reject _ _
  next hdive =>
  have hadm := admitted_of hsession hdive
  split
  · exact .reject _ _
  by_cases hupgrade : env.upgrade.rc = 0
  · simp only [hupgrade, ne_eq, not_true_eq_false, if_false, Head.under_of_rc _ _ hupgrade]
    have hstep := OtaStep.activated hsid hstate hadm
    rw [List.append_cons, List.append_cons] at hstep
    simp only [otaSetState, Head.respond, Head.emit, Head.pauseLog, Head.resumeLog, hstate, otaExit,
      otaEntry]
    exact hstep
  · simp only [ne_eq, hupgrade, not_false_eq_true, if_true]
    obtain ⟨es, hes, hall⟩ := h.pauseLog.emits_under env.upgrade .requestUpgrade
    rw [hes, Head.emits_rejectFlash]
    simp only [Head.pauseLog, Head.resumeLog, List.append_assoc]
    refine .unstaged _ (fun e he => ?_) hstate hadm hsid
    rcases List.mem_append.mp he with he | he
    · exact .inl (hall e he)
    · exact .inr (turnedDown_reject _ _ _ _ e he)

/-- Without success the claim is handed back. -/
theorem otaClaimAndErase_step (env : OtaEnv) (h : Head) (length : UInt32) :
    (∃ es, (∀ e ∈ es, TurnedDown e) ∧ otaClaimAndErase env h length =
        ({ h with ota := { h.ota with flashCtx := false }, effects := h.effects ++ es }, false)) ∨
      grants h.arena .ota = true ∧ (
        (∃ es, (∀ e ∈ es, e = .eraseSlot1 ∨ TurnedDown e) ∧ otaClaimAndErase env h length =
          ({ h with
            ota := { h.ota with flashCtx := true }
            arena := handOver h.arena .ota
            flashLogPaused := false
            effects := h.effects ++ es }, false)) ∨
        otaClaimAndErase env h length =
          ({ h with
            ota := ⟨h.ota.state, true, length, 0, 1⟩
            arena := handOver h.arena .ota
            flashLogPaused := false
            effects := h.effects ++ [.eraseSlot1] }, true)) := by
  unfold otaClaimAndErase
  cases hgrants : grants h.arena .ota with
  | false =>
    left
    rw [maintArenaClaim_denied hgrants]
    have hreject := turnedDown_reject .udsNrc Nrc.conditionsNotCorrect.code.toUInt32
      sidRequestDownload .conditionsNotCorrect
    refine ⟨_, hreject, ?_⟩
    simp only [Bool.false_eq_true, if_false]
    rw [Head.emits_reject]
  | true =>
    right
    refine ⟨rfl, ?_⟩
    rw [maintArenaClaim_granted hgrants]
    have hturned : ∀ rc : ℤ, ∀ e ∈ [Effect.eraseSlot1, .opError .flash (errDetail rc),
        .respond (negativeResponse sidRequestDownload .generalProgFail)],
        e = .eraseSlot1 ∨ TurnedDown e := by
      intro rc e he
      rcases List.mem_cons.mp he with rfl | he
      · exact .inl rfl
      · exact .inr (turnedDown_reject _ _ _ _ e he)
    simp only [if_true, otaEraseAndInitDownload]
    split
    · left
      refine ⟨_, hturned env.erase, ?_⟩
      rw [Head.emits_rejectFlash]
      simp only [Head.emit, Head.pauseLog, Head.resumeLog, List.append_assoc, List.singleton_append]
    split
    · left
      refine ⟨_, hturned env.imgInit, ?_⟩
      rw [Head.emits_rejectFlash]
      simp only [Head.emit, Head.pauseLog, Head.resumeLog, List.append_assoc, List.singleton_append]
    · exact .inr rfl

theorem requestDownload_step (hsid : q.sid = sidRequestDownload) (hidle : h.ota.state = .idle)
    (hnull : h.ota.flashCtx = false) : OtaStep env h q (otaHandleRequestDownload env h q) := by
  unfold otaHandleRequestDownload
  split
  · exact .reject _ _
  split
  · exact .reject _ _
  next hsession =>
  split
  · exact .reject _ _
  next hdive =>
  have hadm := admitted_of hsession hdive
  have hctx : ({ h.ota with flashCtx := false } : OtaSmCtx) = h.ota := by rw [← hnull]
  have hkept : ∀ sid nrc, (h.reject sid nrc).ota.flashCtx = false := fun _ _ => hnull
  split
  rename_i g ok hg
  split at hg
  · obtain ⟨rfl, rfl⟩ := Prod.mk.inj hg
    rw [if_neg Bool.false_ne_true, hkept, if_neg Bool.false_ne_true]
    exact .reject _ _
  split at hg
  · obtain ⟨rfl, rfl⟩ := Prod.mk.inj hg
    rw [if_neg Bool.false_ne_true, show (h.rejectFlash _ _ _).ota.flashCtx = false from hnull,
      if_neg Bool.false_ne_true]
    exact .rejectFlash _ _ _
  split at hg
  · obtain ⟨rfl, rfl⟩ := Prod.mk.inj hg
    rw [if_neg Bool.false_ne_true, hkept, if_neg Bool.false_ne_true]
    exact .reject _ _
  rcases otaClaimAndErase_step env h (declaredLength q) with
    ⟨es, hes, heq⟩ | ⟨hgrants, ⟨es, hes, heq⟩ | heq⟩
  · obtain ⟨rfl, rfl⟩ := Prod.mk.inj (hg.symm.trans heq)
    rw [if_neg Bool.false_ne_true, if_neg Bool.false_ne_true, hctx]
    exact .refused es hes
  · obtain ⟨rfl, rfl⟩ := Prod.mk.inj (hg.symm.trans heq)
    simp only [Bool.false_eq_true, if_false, if_true, hctx]
    exact .failed es hes hidle hadm hgrants hsid
  · obtain ⟨rfl, rfl⟩ := Prod.mk.inj (hg.symm.trans heq)
    have hstep := OtaStep.download hsid hidle hadm hgrants
    rw [List.append_cons] at hstep
    simp only [if_true, otaSetState, Head.respond, Head.emit, hidle, otaExit, otaEntry,
      Head.pauseLog, Head.suspendPush]
    exact hstep

def OtaEvent.sid : OtaEvent → UInt8
  | .requestDownload => sidRequestDownload
  | .transferData => sidTransferData
  | .transferExit => sidRequestTransferExit
  | .routineControl => sidRoutineControl

theorem sidToEvent_eq {sid : UInt8} {e : OtaEvent} (h : sidToEvent sid = some e) : sid = e.sid := by
  unfold sidToEvent at h
  split at h
  · cases h
    assumption
  split at h
  · cases h
    assumption
  split at h
  · cases h
    assumption
  split at h
  · cases h
    assumption
  · cases h

/-- What a request to the firmware update can do. -/
theorem otaHandle_step (env : OtaEnv) (h : Head) (q : Request)
    (hnull : h.ota.state = .idle → h.ota.flashCtx = false) :
    OtaStep env h q (otaHandle env h q) := by
  unfold otaHandle
  split
  · refine .refused [.opError .nullPtr 0] fun e he => ?_
    obtain rfl := List.mem_singleton.mp he
    trivial
  unfold otaRun
  split
  · have hstep : OtaStep env h q { h with effects := h.effects ++ [] } := .refused [] nofun
    rwa [List.append_nil] at hstep
  · next hstate he => exact requestDownload_step (sidToEvent_eq he) hstate (hnull hstate)
  · next hstate he => exact transferData_step (sidToEvent_eq he) hstate
  · next hstate he => exact transferExit_step (sidToEvent_eq he) hstate
  · next hstate he => exact routineControl_step (sidToEvent_eq he) hstate
  · exact .reject _ _
  · exact .reject _ _

end DiveCANHead.Uds
