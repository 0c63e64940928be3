import DiveCANHead.Uds.Sessions

/-!
# The length of a request

The receive buffer keeps the bytes of earlier, longer messages. A handler that checks the
length before it reads is a function of the message alone, which is `Request.message`. Three
reads come before their check: the service id, the session of SID 0x10, and the address by
which the log download claims a RequestDownload.
-/

namespace DiveCANHead.Uds

open DiveCANHead.LogDownload

variable {env : RequestEnv} {h : Head} {q q' : Request} {i : ℕ}

namespace Request

/-- The request without what is behind it in the buffer. -/
def message (q : Request) : Request := .ofBytes (q.buffer.take q.length)

@[simp] theorem length_message (q : Request) : q.message.length = q.length := by
  show (q.buffer.take q.length).length = q.length
  rw [List.length_take, Nat.min_eq_left q.fits]

theorem byte_message (hi : i < q.length) : q.message.byte i = q.byte i := by
  show (q.buffer.take q.length).getD i 0 = q.buffer.getD i 0
  rw [List.getD_eq_getElem?_getD, List.getD_eq_getElem?_getD, List.getElem?_take_of_lt hi]

theorem take_message (q : Request) :
    q.message.buffer.take q.message.length = q.buffer.take q.length := by
  rw [length_message]
  show (q.buffer.take q.length).take q.length = q.buffer.take q.length
  rw [List.take_take, Nat.min_self]

theorem payload_message (q : Request) (i : ℕ) : q.message.payload i = q.payload i := by
  rw [payload, payload, take_message]

theorem sid_message (hlen : 2 ≤ q.length) : q.message.sid = q.sid := byte_message hlen

theorem word_message (hi : i + 1 < q.length) : q.message.word i = q.word i := by
  rw [word, word, byte_message (by omega), byte_message hi]

theorem longBE_message (hi : i + 3 < q.length) : q.message.longBE i = q.longBE i := by
  rw [longBE, longBE, byte_message (by omega), byte_message (by omega), byte_message (by omega),
    byte_message hi]

theorem longLE_message (hi : i + 3 < q.length) : q.message.longLE i = q.longLE i := by
  rw [longLE, longLE, byte_message (by omega), byte_message (by omega), byte_message (by omega),
    byte_message hi]

theorem did_message (hlen : 4 ≤ q.length) : q.message.did = q.did := word_message hlen

theorem data_message (hi : 4 + i < q.length) : q.message.data i = q.data i := byte_message hi

end Request

/-! ## The firmware update -/

theorem requestDownload_message (env : OtaEnv) (h : Head) (q : Request) :
    otaHandleRequestDownload env h q.message = otaHandleRequestDownload env h q := by
  unfold otaHandleRequestDownload
  rw [q.length_message]
  refine ite_congr rfl (fun _ => rfl) fun hshort => ?_
  have hlen : 12 ≤ q.length := not_lt.mp hshort
  have hlength : declaredLength q.message = declaredLength q := Request.longBE_message (by omega)
  rw [hlength, Request.byte_message (by omega), Request.byte_message (by omega)]

theorem transferData_message (env : OtaEnv) (h : Head) (q : Request) :
    otaHandleTransferData env h q.message = otaHandleTransferData env h q := by
  unfold otaHandleTransferData
  rw [q.length_message]
  split
  · rfl
  · next hshort =>
    have hlen : 3 ≤ q.length := not_lt.mp hshort
    rw [Request.payload_message, Request.byte_message (by omega)]

theorem transferExit_message (env : OtaEnv) (h : Head) (q : Request) :
    otaHandleTransferExit env h q.message = otaHandleTransferExit env h q := by
  unfold otaHandleTransferExit
  rw [q.length_message]

theorem routineControl_message (env : OtaEnv) (h : Head) (q : Request) :
    otaHandleRoutineControl env h q.message = otaHandleRoutineControl env h q := by
  unfold otaHandleRoutineControl
  rw [q.length_message]
  refine ite_congr rfl (fun _ => rfl) fun hshort => ?_
  have hlen : 5 ≤ q.length := not_lt.mp hshort
  rw [Request.word_message (by omega), Request.byte_message (by omega),
    Request.byte_message (by omega), Request.byte_message (by omega)]

theorem otaHandle_message (env : OtaEnv) (h : Head) (hlen : 2 ≤ q.length) :
    otaHandle env h q.message = otaHandle env h q := by
  unfold otaHandle otaRun
  rw [q.length_message, Request.sid_message hlen, requestDownload_message, transferData_message,
    transferExit_message, routineControl_message]

/-! ## ReadDataByIdentifier -/

theorem requestedDids_message (q : Request) : requestedDids q.message = requestedDids q := by
  unfold requestedDids
  rw [q.length_message]
  refine List.map_congr_left fun i hi => ?_
  have hlt := List.mem_range.mp hi
  exact Request.word_message (by omega)

theorem handleRead_message (env : ReadEnv) (h : Head) (q : Request) :
    handleReadDataByIdentifier env h q.message = handleReadDataByIdentifier env h q := by
  have hlength : readLengthOk q.message = readLengthOk q := by
    rw [readLengthOk, readLengthOk, q.length_message]
  simp only [handleReadDataByIdentifier, readDataByIdentifier, hlength, requestedDids_message]

/-! ## WriteDataByIdentifier -/

/-- A write handler reads the message only, once the DID is in it. -/
def ReadsMessage (handler : WriteHandler) : Prop :=
  ∀ env h (q : Request), 4 ≤ q.length → handler env h q.message = handler env h q

theorem acceptWrite_message (hmin : 4 ≤ q.length) (h : Head) :
    h.acceptWrite q.message = h.acceptWrite q := by
  rw [Head.acceptWrite, Head.acceptWrite, Request.byte_message (by omega),
    Request.byte_message (by omega)]

theorem readsMessage_setpoint : ReadsMessage writeSetpointDID := by
  intro env h q hmin
  unfold writeSetpointDID
  rw [q.length_message, acceptWrite_message hmin]
  split
  · rfl
  · next hne =>
    have hlen : q.length = 5 := not_not.mp hne
    rw [Request.data_message (by omega)]

theorem readsMessage_calibrationTrigger : ReadsMessage writeCalibrationTriggerDID := by
  intro env h q hmin
  unfold writeCalibrationTriggerDID
  rw [q.length_message, acceptWrite_message hmin]
  split
  · rfl
  · next hne =>
    have hlen : q.length = 5 := not_not.mp hne
    rw [Request.data_message (by omega)]

theorem readsMessage_histogramClear : ReadsMessage writeHistogramClearDID := by
  intro env h q hmin
  simp only [writeHistogramClearDID, acceptWrite_message hmin]

theorem readsMessage_logByte (set : UInt8 → Effect) (rc : WriteEnv → ℤ) :
    ReadsMessage (writeLogByte set rc) := by
  intro env h q hmin
  simp only [writeLogByte, q.length_message, acceptWrite_message hmin]
  split
  · rfl
  · next hne =>
    have hlen : q.length = 5 := not_not.mp hne
    rw [Request.data_message (by omega)]

theorem readsMessage_cellBroadcast : ReadsMessage writeCellBroadcastDID := by
  intro env h q hmin
  simp only [writeCellBroadcastDID, q.length_message, acceptWrite_message hmin,
    Request.did_message hmin]
  split
  · rfl
  · next hne =>
    have hlen : q.length = 5 := not_not.mp hne
    rw [Request.data_message (by omega)]

theorem settingValueOf_message (q : Request) : settingValueOf q.message = settingValueOf q := by
  rw [settingValueOf, settingValueOf, Request.payload_message]

theorem readsMessage_settingSave : ReadsMessage writeSettingSaveDID := by
  intro env h q hmin
  simp only [writeSettingSaveDID, acceptWrite_message hmin, Request.did_message hmin,
    settingValueOf_message]

theorem readsMessage_settingValue : ReadsMessage writeSettingValueDID := by
  intro env h q hmin
  simp only [writeSettingValueDID, q.length_message, acceptWrite_message hmin,
    Request.did_message hmin, settingValueOf_message]

theorem readsMessage_solenoidOverride : ReadsMessage writeSolenoidOverrideDID := by
  intro env h q hmin
  unfold writeSolenoidOverrideDID
  rw [q.length_message]
  -- a message of another length is refused before a byte of it is read
  refine ite_congr rfl (fun _ => rfl) fun hne => ?_
  have hlen : q.length = 6 := not_not.mp hne
  simp only [acceptWrite_message hmin, Request.data_message (show 4 + 0 < q.length by omega),
    Request.data_message (show 4 + 1 < q.length by omega)]

theorem readsMessage_autotuneControl : ReadsMessage writeAutotuneControlDID := by
  intro env h q hmin
  unfold writeAutotuneControlDID
  rw [q.length_message]
  refine ite_congr rfl (fun _ => rfl) fun hshort => ?_
  have hlen : 6 ≤ q.length := not_lt.mp hshort
  simp only [acceptWrite_message hmin, Request.data_message (show 4 + 0 < q.length by omega),
    Request.data_message (show 4 + 1 < q.length by omega)]
  by_cases hstart : q.length = autotuneStartLen
  · have hten : q.length = 10 := hstart
    rw [Request.data_message (show 4 + 2 < q.length by omega),
      Request.data_message (show 4 + 3 < q.length by omega),
      Request.word_message (show 8 + 1 < q.length by omega)]
  · simp only [hstart, ne_eq, not_false_eq_true, if_true]

theorem checkOtaWritePrecondition_message (env : WriteEnv) (h : Head) (q : Request) :
    checkOtaWritePrecondition env h q.message = checkOtaWritePrecondition env h q := by
  unfold checkOtaWritePrecondition
  rw [q.length_message]
  split
  · rfl
  · next hne =>
    have hlen : q.length = 5 := not_not.mp hne
    rw [Request.data_message (by omega)]

theorem checkTwoBytePrecondition_message (magic : UInt8) (kindOk : UInt8 → Bool) (env : WriteEnv)
    (h : Head) (q : Request) : checkTwoBytePrecondition magic kindOk env h q.message =
      checkTwoBytePrecondition magic kindOk env h q := by
  unfold checkTwoBytePrecondition
  rw [q.length_message]
  split
  · rfl
  · next hne =>
    have hlen : q.length = 6 := not_not.mp hne
    rw [Request.data_message (by omega), Request.data_message (by omega)]

/-- What comes after a check reads the message, if it does so once the check has passed. -/
theorem readsMessage_checked {check : WriteEnv → Head → Request → Option Nrc}
    {act : WriteEnv → Request → Head → Head}
    (hcheck : ∀ env h (q : Request), check env h q.message = check env h q)
    (hact : ∀ env h (q : Request), 4 ≤ q.length → check env h q = none →
      act env q.message h = act env q h) :
    ReadsMessage fun env h q => h.checked (check env h q) (act env q) := by
  intro env h q hmin
  dsimp only
  rw [hcheck]
  cases hcode : check env h q with
  | some nrc => rfl
  | none => exact hact env h q hmin hcode

theorem readsMessage_forceRevert : ReadsMessage writeForceRevertDID :=
  readsMessage_checked checkOtaWritePrecondition_message fun env h q hmin _ => by
    simp only [acceptWrite_message hmin]

theorem readsMessage_factoryFlashErase : ReadsMessage writeFactoryFlashEraseDID :=
  readsMessage_checked checkOtaWritePrecondition_message fun env h q hmin _ => by
    simp only [acceptWrite_message hmin]

theorem readsMessage_nvsErase : ReadsMessage writeNvsEraseDID :=
  readsMessage_checked checkOtaWritePrecondition_message fun env h q hmin _ => by
    simp only [acceptWrite_message hmin]

theorem readsMessage_restoreFactory : ReadsMessage writeRestoreFactoryDID :=
  readsMessage_checked checkOtaWritePrecondition_message fun env h q hmin _ => by
    simp only [acceptWrite_message hmin]

theorem readsMessage_factoryCapture : ReadsMessage writeFactoryCaptureDID :=
  readsMessage_checked checkOtaWritePrecondition_message fun env h q hmin _ => by
    simp only [acceptWrite_message hmin]

/-- The byte before the magic byte. -/
theorem data_message_of_check {magic : UInt8} {kindOk : UInt8 → Bool} {env : WriteEnv}
    (hcheck : checkTwoBytePrecondition magic kindOk env h q = none) :
    q.message.data 0 = q.data 0 := by
  have horder := (checkTwoBytePrecondition_none hcheck).2
  have hlen : q.length = 6 := (of_decide_eq_true horder).1
  exact Request.data_message (by omega)

theorem readsMessage_faultInjection : ReadsMessage writeFaultInjectionDID :=
  readsMessage_checked (checkTwoBytePrecondition_message _ _) fun env h q hmin hcheck => by
    simp only [acceptWrite_message hmin, data_message_of_check hcheck]

theorem readsMessage_logErase : ReadsMessage writeLogEraseDID :=
  readsMessage_checked (checkTwoBytePrecondition_message _ _) fun env h q hmin hcheck => by
    simp only [acceptWrite_message hmin, data_message_of_check hcheck]

theorem readsMessage_table (b : Build) : ∀ e ∈ writeDidTable b, ReadsMessage e.2 := by
  simp only [writeDidTable, List.forall_mem_append, List.forall_mem_cons, List.not_mem_nil,
    false_implies, implies_true, and_true]
  refine ⟨⟨⟨⟨readsMessage_setpoint, readsMessage_calibrationTrigger⟩, ?_⟩,
    readsMessage_histogramClear, readsMessage_forceRevert, readsMessage_restoreFactory,
    readsMessage_factoryCapture, readsMessage_factoryFlashErase, readsMessage_nvsErase,
    readsMessage_faultInjection⟩, ?_⟩
  · split
    · simp only [List.forall_mem_cons, List.not_mem_nil, false_implies, implies_true, and_true]
      exact ⟨readsMessage_solenoidOverride, readsMessage_autotuneControl⟩
    · exact fun e he => absurd he List.not_mem_nil
  · split
    · simp only [List.forall_mem_cons, List.not_mem_nil, false_implies, implies_true, and_true]
      exact ⟨readsMessage_logErase, readsMessage_logByte _ _, readsMessage_logByte _ _⟩
    · exact fun e he => absurd he List.not_mem_nil

theorem readsMessage_handler (env : WriteEnv) (did : UInt16) :
    ReadsMessage (writeHandler env did) := by
  unfold writeHandler
  cases hlookup : (writeDidTable env.build).lookup did with
  | some handler =>
    obtain ⟨l₁, l₂, htable, -⟩ := List.lookup_eq_some_iff.mp hlookup
    exact readsMessage_table env.build (did, handler) (by rw [htable]; simp)
  | none =>
    dsimp only
    split
    · exact readsMessage_cellBroadcast
    split
    · exact fun _ _ _ _ => rfl
    split
    · exact readsMessage_settingSave
    split
    · exact readsMessage_settingValue
    · exact fun _ _ _ _ => rfl

theorem handleWrite_message (env : WriteEnv) (h : Head) (q : Request) :
    handleWriteDataByIdentifier env h q.message = handleWriteDataByIdentifier env h q := by
  unfold handleWriteDataByIdentifier
  rw [q.length_message]
  split
  · rfl
  · next hshort =>
    have hmin : 4 ≤ q.length := not_lt.mp hshort
    rw [Request.did_message hmin]
    exact readsMessage_handler env q.did env h q hmin

/-! ## The log download -/

theorem logDownloadHandle_message (log : FlashLogDest → FlashLog.Fcb) (now : UInt32) (d : Download)
    (hlen : 2 ≤ q.length) :
    logDownloadHandle log now d q.message = logDownloadHandle log now d q := by
  have hdownload : handleRequestDownload d q.message = handleRequestDownload d q := by
    unfold handleRequestDownload negotiatedBlock
    rw [q.length_message]
    split
    · rfl
    · next hne =>
      have hlen : q.length = 12 := not_not.mp hne
      rw [Request.byte_message (by omega), Request.longLE_message (by omega)]
  have htransfer : handleTransferData log now d q.message = handleTransferData log now d q := by
    unfold handleTransferData
    rw [q.length_message]
    split
    · rfl
    · next hshort =>
      have hlen : 3 ≤ q.length := not_lt.mp hshort
      rw [Request.byte_message (by omega)]
  have hexit : handleTransferExit d q.message = handleTransferExit d q := by
    unfold handleTransferExit
    rw [q.length_message]
  rw [logDownloadHandle, logDownloadHandle, Request.sid_message hlen, hdownload, htransfer, hexit]

theorem handleLogRoutine_message (env : RequestEnv) (h : Head) (hlen : 5 ≤ q.length) :
    handleLogRoutine env h q.message = handleLogRoutine env h q := by
  have hroutine : ∀ surroundings, logDownloadRoutine surroundings env.now h.log q.message =
      logDownloadRoutine surroundings env.now h.log q := by
    intro surroundings
    rw [logDownloadRoutine, logDownloadRoutine, Request.take_message]
  have hreports : ∀ nrc, reportsRoutine q.message nrc = reportsRoutine q nrc := by
    intro nrc
    rw [reportsRoutine, reportsRoutine, q.length_message, Request.byte_message (by omega)]
  have hreply : ∀ code, routineReply q.message code = routineReply q code := by
    intro code
    cases code with
    | none =>
      rw [routineReply, routineReply, Request.byte_message (by omega),
        Request.byte_message (by omega), Request.byte_message (by omega)]
    | some nrc => rfl
  simp only [handleLogRoutine, hroutine, hreports, hreply]

theorem toLogRoutine_message (env : RequestEnv) (q : Request) :
    toLogRoutine env q.message = toLogRoutine env q := by
  unfold toLogRoutine
  rw [q.length_message]
  by_cases hlen : 5 ≤ q.length
  · rw [Request.word_message (by omega)]
  · simp only [LogDownload.routineControlMinReqLen, hlen, false_and]

/-- The bytes of the log download's address in a request. -/
def sentinelByte (i : ℕ) : UInt8 := if i = 4 then 0xFE else 0xFF

/-- The bytes of a little-endian field. -/
theorem longLE_bytes (q : Request) (i : ℕ) :
    (q.longLE i).toUInt8 = q.byte i ∧ (q.longLE i >>> 8).toUInt8 = q.byte (i + 1) ∧
      (q.longLE i >>> 16).toUInt8 = q.byte (i + 2) ∧
      (q.longLE i >>> 24).toUInt8 = q.byte (i + 3) := by
  have hext : ∀ {x y : UInt8}, (∀ k < 8, x.toBitVec.getLsbD k = y.toBitVec.getLsbD k) → x = y :=
    fun heq => UInt8.toBitVec_inj.mp (BitVec.eq_of_getLsbD_eq heq)
  refine ⟨hext fun k hk => ?_, hext fun k hk => ?_, hext fun k hk => ?_, hext fun k hk => ?_⟩ <;>
    simp [Request.longLE] <;> grind

theorem longLE_eq_sentinel :
    q.longLE 4 = logDownloadSentinelAddr ↔ ∀ i, 4 ≤ i → i < 8 → q.byte i = sentinelByte i := by
  constructor
  · intro heq i hi hlt
    obtain ⟨h₄, h₅, h₆, h₇⟩ := longLE_bytes q 4
    rw [heq] at h₄ h₅ h₆ h₇
    obtain rfl | rfl | rfl | rfl : i = 4 ∨ i = 5 ∨ i = 6 ∨ i = 7 := by omega
    · exact h₄.symm
    · exact h₅.symm
    · exact h₆.symm
    · exact h₇.symm
  · intro hbytes
    rw [Request.longLE, hbytes 4 (by omega) (by omega), hbytes 5 (by omega) (by omega),
      hbytes 6 (by omega) (by omega), hbytes 7 (by omega) (by omega)]
    decide

/-! ## The whole request -/

/-- The message has all that the request is dispatched by. -/
structure Contained (env : RequestEnv) (h : Head) (q : Request) : Prop where
  sid : 2 ≤ q.length
  session : q.sid = sidDiagSessionCtrl → 3 ≤ q.length
  address : q.sid = sidRequestDownload → env.build.flashLog = true →
    h.log.sm.state = .streaming →
    8 ≤ q.length ∨ ∃ i, 4 ≤ i ∧ i < q.length ∧ q.byte i ≠ sentinelByte i

theorem toLogDownload_message (hc : Contained env h q) :
    toLogDownload env h q.message = toLogDownload env h q := by
  unfold toLogDownload claims
  rw [Request.sid_message hc.sid]
  cases hlog : env.build.flashLog with
  | false => rfl
  | true =>
    by_cases hsid : q.sid = sidRequestDownload
    · rw [if_pos hsid, if_pos hsid]
      by_cases hstreaming : h.log.sm.state = .streaming
      · rcases hc.address hsid hlog hstreaming with hlen | ⟨i, hi, hlt, hne⟩
        · rw [Request.longLE_message (by omega)]
        · by_cases hlen : 8 ≤ q.length
          · rw [Request.longLE_message (by omega)]
          · have hne' : q.message.byte i ≠ sentinelByte i := by rwa [Request.byte_message hlt]
            have hq : q.longLE 4 ≠ logDownloadSentinelAddr := fun heq =>
              hne (longLE_eq_sentinel.mp heq i hi (by omega))
            have hq' : q.message.longLE 4 ≠ logDownloadSentinelAddr := fun heq =>
              hne' (longLE_eq_sentinel.mp heq i hi (by omega))
            rw [beq_false_of_ne hq, beq_false_of_ne hq']
      · rw [decide_eq_false hstreaming, Bool.false_and, Bool.false_and]
    · rw [if_neg hsid, if_neg hsid]

theorem dispatch_message (hc : Contained env h q) :
    dispatch env h q.message = dispatch env h q := by
  have hlen := hc.sid
  unfold dispatch
  rw [Request.sid_message hlen]
  split
  · next hsid =>
    have hthree := hc.session hsid
    unfold handleDiagnosticSessionControl
    rw [q.length_message, Request.byte_message (by omega)]
  split
  · exact handleRead_message _ h q
  split
  · exact handleWrite_message _ h q
  split
  · unfold dispatchOtaOrLogDownload handleLogDownload
    rw [toLogDownload_message hc, logDownloadHandle_message _ _ _ hlen, otaHandle_message _ _ hlen]
  split
  · unfold dispatchRoutineControl
    rw [toLogRoutine_message, otaHandle_message _ _ hlen]
    split
    · next hto =>
      have hfive := (of_decide_eq_true (Bool.and_eq_true_iff.mp hto).2).1
      exact handleLogRoutine_message env h hfive
    · rfl
  · rfl

theorem log_maintainSession (env : RequestEnv) (h : Head) :
    (maintainSession env h).log = h.log := by
  have hreset : ∀ h, (otaReset h).log = h.log := by
    intro h
    unfold otaReset otaSetState
    cases h.ota.state <;> rfl
  unfold maintainSession
  dsimp only
  split <;> split <;> simp [hreset, Head.emit]

/-- A request that is contained in its message is handled by it. -/
theorem processRequest_message (hc : q.length = 0 ∨ Contained env h q) :
    processRequest env h q.message = processRequest env h q := by
  unfold processRequest
  rw [q.length_message]
  rcases hc with hzero | hc
  · rw [if_pos hzero, if_pos hzero]
  · have hmaintained : Contained env (maintainSession env h) q := by
      refine ⟨hc.sid, hc.session, ?_⟩
      rw [log_maintainSession]
      exact hc.address
    rw [dispatch_message hmaintained]

/-! ## Noninterference -/

/-- A message in the receive buffer. -/
structure Received extends Request where
  full : buffer.length = maxRequestLength

/-- The same message, with anything behind it. -/
structure SameMessage (q q' : Request) : Prop where
  length : q'.length = q.length
  agree : ∀ i < q.length, q'.byte i = q.byte i

theorem SameMessage.message_eq (hsame : SameMessage q q') : q'.message = q.message := by
  have htake : q'.buffer.take q'.length = q.buffer.take q.length := by
    have hlen := q.length_message
    have hlen' := q'.length_message
    rw [hsame.length] at hlen'
    refine List.ext_getElem (hlen'.trans hlen.symm) fun i hi' hi => ?_
    have hlt : i < q.length := hlen ▸ hi
    have hbyte := hsame.agree i hlt
    rw [← Request.byte_message hlt, ← Request.byte_message (hsame.length ▸ hlt)] at hbyte
    have hget : ∀ (xs : List UInt8) (hx : i < xs.length), xs[i] = xs.getD i 0 := by
      intro xs hx
      rw [List.getD_eq_getElem?_getD, List.getElem?_eq_getElem hx]
      rfl
    rw [hget _ hi', hget _ hi]
    exact hbyte
  rw [Request.message, Request.message, htake]

theorem SameMessage.contained (hsame : SameMessage q q') (hc : Contained env h q) :
    Contained env h q' := by
  have hsid : q'.sid = q.sid := hsame.agree 1 hc.sid
  refine ⟨?_, ?_, ?_⟩
  · rw [hsame.length]
    exact hc.sid
  · rw [hsame.length, hsid]
    exact hc.session
  · rw [hsame.length, hsid]
    intro hdownload hlog hstreaming
    refine (hc.address hdownload hlog hstreaming).imp id ?_
    rintro ⟨i, hi, hlt, hne⟩
    exact ⟨i, hi, hlt, hsame.agree i hlt ▸ hne⟩

/-- The outcome is the same whatever is left in the buffer: the next state, the answers and the
reported errors. -/
def Noninterfering (env : RequestEnv) (h : Head) (q : Received) : Prop :=
  ∀ q' : Received, SameMessage q.toRequest q'.toRequest →
    processRequest env h q'.toRequest = processRequest env h q.toRequest

namespace Received

/-- The message with `f` behind it. -/
def refill (q : Received) (f : ℕ → UInt8) : Received where
  buffer := (List.range maxRequestLength).map fun i => if i < q.length then q.byte i else f i
  length := q.length
  fits := by
    rw [List.length_map, List.length_range, ← q.full]
    exact q.fits
  full := by rw [List.length_map, List.length_range]

variable {q : Received} {f : ℕ → UInt8}

theorem byte_refill (q : Received) (f : ℕ → UInt8) (hi : i < maxRequestLength) :
    (q.refill f).byte i = if i < q.length then q.byte i else f i := by
  show (List.map _ _).getD i 0 = _
  rw [List.getD_eq_getElem?_getD, List.getElem?_map, List.getElem?_range hi]
  rfl

theorem sameMessage_refill (q : Received) (f : ℕ → UInt8) :
    SameMessage q.toRequest (q.refill f).toRequest := by
  refine ⟨rfl, fun i hi => ?_⟩
  rw [byte_refill q f (q.full ▸ Nat.lt_of_lt_of_le hi q.fits), if_pos hi]

end Received

theorem reject_ne {sid sid' : UInt8} {nrc nrc' : Nrc} (hne : sid ≠ sid') :
    h.reject sid nrc ≠ h.reject sid' nrc' := by
  intro heq
  have heffects := congrArg Head.effects heq
  rw [h.emits_reject, h.emits_reject] at heffects
  have htail := List.append_cancel_left heffects
  simp only [negativeResponse, List.cons.injEq, Effect.respond.injEq] at htail
  exact hne htail.2.1.2.1

/-- An unknown service is refused by its id. -/
theorem dispatch_unknown (env : RequestEnv) (h : Head) {sid : UInt8} (hsid : q.sid = sid)
    (hsmall : sid < 0x10) : dispatch env h q = h.reject sid .serviceNotSupported := by
  have hne : ∀ known : UInt8, 0x10 ≤ known → q.sid ≠ known := by
    rintro known hknown rfl
    exact absurd (hsid ▸ hsmall) (UInt8.not_lt.mpr hknown)
  have htransfer : isTransferSid q.sid = false := by
    refine decide_eq_false ?_
    rintro (heq | heq | heq)
    · exact hne _ (by decide) heq
    · exact hne _ (by decide) heq
    · exact hne _ (by decide) heq
  rw [dispatch, if_neg (hne _ (by decide)), if_neg (hne _ (by decide)), if_neg (hne _ (by decide)),
    htransfer, if_neg Bool.false_ne_true, if_neg (hne _ (by decide)), hsid]

theorem length_effects_logDownload (env : RequestEnv) (h : Head) (q : Request) :
    (handleLogDownload env h q).effects.length = h.effects.length + 1 := by
  have hmove : ∀ d, (h.moveLog d).effects = h.effects := by
    intro d
    unfold Head.moveLog
    split
    · rfl
    · split <;> rfl
  show ((h.moveLog _).effects ++ [_]).length = _
  rw [hmove, List.length_append, List.length_singleton]

/-- The firmware update reports what it refuses. -/
theorem length_effects_otaHandle {env : OtaEnv} (hsid : q.sid = sidRequestDownload)
    (hlen : q.length ≠ 0) (hshort : q.length < otaDownloadReqLen) :
    (otaHandle env h q).effects.length ≠ h.effects.length + 1 := by
  have hreject : ∀ nrc, (h.reject q.sid nrc).effects.length = h.effects.length + 2 := by
    intro nrc
    rw [h.emits_reject, List.length_append]
    rfl
  rw [otaHandle, if_neg hlen, otaRun, hsid]
  cases h.ota.state with
  | idle =>
    show (otaHandleRequestDownload env h q).effects.length ≠ _
    rw [otaHandleRequestDownload, if_pos hshort, ← hsid, hreject]
    omega
  | downloading | awaitingActivate =>
    show (h.reject sidRequestDownload .requestSequenceErr).effects.length ≠ _
    rw [← hsid, hreject]
    omega
  | activating =>
    show h.effects.length ≠ _
    omega

section Interference

variable {q : Received}

theorem Noninterfering.refill_eq (hn : Noninterfering env h q) (hlen : q.length ≠ 0)
    (f g : ℕ → UInt8) :
    dispatch env (maintainSession env h) (q.refill f).toRequest =
      dispatch env (maintainSession env h) (q.refill g).toRequest := by
  have hprocess : ∀ f, dispatch env (maintainSession env h) (q.refill f).toRequest =
      processRequest env h q.toRequest := by
    intro f
    have hlen' : (q.refill f).toRequest.length ≠ 0 := hlen
    rw [← hn _ (q.sameMessage_refill f), processRequest, if_neg hlen']
  rw [hprocess f, hprocess g]

/-- The service id is read from behind a message of one byte. -/
theorem two_le_of_noninterfering (hn : Noninterfering env h q) (hlen : q.length ≠ 0) :
    2 ≤ q.length := by
  by_contra hshort
  have hsid : ∀ b, (q.refill fun _ => b).toRequest.sid = b := by
    intro b
    rw [Request.sid, q.byte_refill _ (by decide), if_neg (by omega)]
  have heq := hn.refill_eq hlen (fun _ => 0) (fun _ => 1)
  rw [dispatch_unknown env _ (hsid 0) (by decide), dispatch_unknown env _ (hsid 1) (by decide)]
    at heq
  exact reject_ne (by decide) heq

/-- The session is read from behind a message of two bytes. -/
theorem three_le_of_noninterfering (hn : Noninterfering env h q) (hlen : 2 ≤ q.length)
    (hsid : q.sid = sidDiagSessionCtrl) : 3 ≤ q.length := by
  by_contra hshort
  have htwo : q.length = 2 := by omega
  have hdispatch : ∀ b h, dispatch env h (q.refill fun _ => b).toRequest =
      handleDiagnosticSessionControl env h (q.refill fun _ => b).toRequest := by
    intro b h
    have hsid' : (q.refill fun _ => b).toRequest.sid = sidDiagSessionCtrl := by
      rw [← hsid]
      exact (q.sameMessage_refill _).agree 1 (by omega)
    rw [dispatch, if_pos hsid']
  have hbyte : ∀ b, (q.refill fun _ => b).toRequest.byte 2 = b := by
    intro b
    rw [q.byte_refill _ (by decide), if_neg (by omega)]
  have hlength : ∀ b, ¬(q.refill fun _ => b).toRequest.length < sessionCtrlReqLen := by
    intro b
    exact not_lt.mpr hlen
  have heq := hn.refill_eq (by omega) (fun _ => 1) (fun _ => 3)
  rw [hdispatch, hdispatch, handleDiagnosticSessionControl, handleDiagnosticSessionControl,
    if_neg (hlength 1), if_neg (hlength 3), hbyte, hbyte, if_pos (by decide), if_neg (by decide),
    if_neg (by decide)] at heq
  have heffects := congrArg (fun h => h.effects.length) heq
  rw [Head.emits_reject] at heffects
  simp [Head.respond, Head.emit] at heffects

/-- The address is read from behind a message that ends before it. -/
theorem address_of_noninterfering (hn : Noninterfering env h q) (hlen : 2 ≤ q.length)
    (hsid : q.sid = sidRequestDownload) (hlog : env.build.flashLog = true)
    (hstreaming : h.log.sm.state = .streaming) :
    8 ≤ q.length ∨ ∃ i, 4 ≤ i ∧ i < q.length ∧ q.byte i ≠ sentinelByte i := by
  by_contra hnone
  simp only [not_or, not_exists, not_and, not_le, not_not] at hnone
  obtain ⟨hshort, hmatch⟩ := hnone
  have hsid' : ∀ f, (q.refill f).toRequest.sid = sidRequestDownload := by
    intro f
    rw [← hsid]
    exact (q.sameMessage_refill _).agree 1 (by omega)
  have hto : ∀ f, toLogDownload env (maintainSession env h) (q.refill f).toRequest = true ↔
      ∀ i, 4 ≤ i → i < 8 → (q.refill f).toRequest.byte i = sentinelByte i := by
    intro f
    rw [← longLE_eq_sentinel, toLogDownload, claims, if_pos (hsid' f), hlog, log_maintainSession,
      decide_eq_true hstreaming, Bool.true_and, Bool.true_and, beq_iff_eq]
  have hdispatch : ∀ f h, dispatch env h (q.refill f).toRequest =
      dispatchOtaOrLogDownload env h (q.refill f).toRequest := by
    intro f h
    rw [dispatch, hsid' f]
    rfl
  have heq := hn.refill_eq (by omega) sentinelByte (fun _ => 0)
  rw [hdispatch, hdispatch, dispatchOtaOrLogDownload, dispatchOtaOrLogDownload, if_pos, if_neg]
    at heq
  · have heffects := congrArg (fun h => h.effects.length) heq
    rw [length_effects_logDownload] at heffects
    have hten : (q.refill fun _ => 0).toRequest.length < otaDownloadReqLen :=
      Nat.lt_trans hshort (by decide)
    have hlen' : (q.refill fun _ => 0).toRequest.length ≠ 0 := by
      show q.length ≠ 0
      omega
    exact length_effects_otaHandle (hsid' _) hlen' hten heffects.symm
  · rw [hto]
    intro hbytes
    have hseven := hbytes 7 (by omega) (by omega)
    rw [q.byte_refill _ (by decide), if_neg (by omega)] at hseven
    exact absurd hseven (by decide)
  · rw [hto]
    intro i hi hlt
    rw [q.byte_refill _ (Nat.lt_trans hlt (by decide))]
    split
    · next hin => exact hmatch i hi hin
    · rfl

end Interference

/-- What is left in the receive buffer has no influence exactly when the request is empty, or its
message has all that it is dispatched by. -/
theorem noninterfering_iff (env : RequestEnv) (h : Head) (q : Received) :
    Noninterfering env h q ↔ q.length = 0 ∨ Contained env h q.toRequest := by
  constructor
  · intro hn
    by_cases hlen : q.length = 0
    · exact .inl hlen
    · have htwo := two_le_of_noninterfering hn hlen
      exact .inr ⟨htwo, three_le_of_noninterfering hn htwo, address_of_noninterfering hn htwo⟩
  · intro hc q' hsame
    have hc' : q'.length = 0 ∨ Contained env h q'.toRequest :=
      hc.imp hsame.length.trans hsame.contained
    rw [← processRequest_message hc, ← processRequest_message hc', hsame.message_eq]

/-- A SID 0x10 without a session, in a buffer that still has one. -/
def leftBehind (session : UInt8) : Received where
  buffer := [0, sidDiagSessionCtrl, session] ++ List.replicate 253 0
  length := 2
  fits := Nat.le_add_left _ _
  full := by rw [List.length_append, List.length_replicate]; rfl

/-- The session that is entered is that of an earlier message. -/
theorem leftBehind_interferes : ¬ Noninterfering calmEnv {} (leftBehind subfuncDefault) := by
  intro hn
  have heq := hn (leftBehind subfuncProgramming) ⟨rfl, by decide⟩
  have hsession := congrArg Head.session heq
  revert hsession
  decide +kernel

end DiveCANHead.Uds
