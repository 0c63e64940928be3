import DiveCANHead.Uds.Ota
import DiveCANHead.Uds.Read

/-!
# WriteDataByIdentifier (`uds.c`)

Every write handler answers by itself. The ones that erase, stage, fire or fault check the
session and the dive in their own code, each in its own order; `Gated` says what these
checks have in common, and `Harmless` what the other handlers do.
-/

namespace DiveCANHead.Uds

open DiveCANHead.Maintenance

/-- What the write handlers find, and the results of their calls; 0 is success. The two
setting calls say whether the value was taken. -/
structure WriteEnv extends OtaEnv, ReadEnv where
  calRunning : Bool := false
  calMethod : UInt8 := 0
  modeLatched : Bool := true
  modeOff : Bool := true
  solenoidChannels : ℕ := 4
  solenoidFire : ℤ := 0
  autotuneStart : ℤ := 0
  histogramClear : ℤ := 0
  massErase : ℤ := 0
  storageOpen : ℤ := 0
  storageErase : ℤ := 0
  logErase : ℤ := 0
  setRttLevel : ℤ := 0
  setCanVerbose : ℤ := 0
  setSetting : ℕ → UInt64 → Bool := fun _ _ => true
  saveSetting : ℕ → UInt64 → Bool := fun _ _ => true

/-- A write handler. -/
abbrev WriteHandler := WriteEnv → Head → Request → Head

/-- `UDS_SINGLE_VALUE_LEN`. -/
def udsSingleValueLen : ℕ := 5

/-- The DID of a write request. -/
def Request.did (q : Request) : UInt16 := q.word 2

/-- The data byte at `i`, from `UDS_DATA_IDX` on. -/
def Request.data (q : Request) (i : ℕ) : UInt8 := q.byte (4 + i)

/-- A rejected write. -/
def Head.rejectWrite (h : Head) (nrc : Nrc) : Head := h.reject sidWriteDataById nrc

/-- `buildWriteDidPositiveResponse`, sent. -/
def Head.acceptWrite (h : Head) (q : Request) : Head :=
  h.respond [sidWriteDataById + responseSidOffset, q.byte 2, q.byte 3]

/-! ## Values -/

/-- `clamp_setpoint_cb`. -/
def clampSetpointCb (setpoint : UInt8) : UInt8 :=
  if setpoint = 19 then 19
  else if setpoint < 40 then 40
  else if 160 < setpoint then 160
  else setpoint

def writeSetpointDID : WriteHandler := fun _ h q =>
  if q.length ≠ udsSingleValueLen then h.rejectWrite .incorrectMsgLen
  else (h.emit (.publishSetpoint (clampSetpointCb (q.data 0)))).acceptWrite q

/-- A failed pressure read leaves the default of 1013 mbar. -/
def writeCalibrationTriggerDID : WriteHandler := fun env h q =>
  if q.length ≠ udsSingleValueLen then h.rejectWrite .incorrectMsgLen
  else if 100 < q.data 0 then h.rejectWrite .requestOutOfRange
  else if env.calRunning then h.rejectWrite .conditionsNotCorrect
  else
    (h.emit (.publishCalRequest env.calMethod (q.data 0) (env.pressure.getD 1013))).acceptWrite q

def writeHistogramClearDID : WriteHandler := fun env h q =>
  let h := h.emit .clearHistogram
  if env.histogramClear ≠ 0 then
    (h.emit (.opError .flash (UInt32.ofInt env.histogramClear))).negative sidWriteDataById
      .conditionsNotCorrect
  else h.acceptWrite q

/-- A byte for the flash log, which can refuse it. -/
def writeLogByte (set : UInt8 → Effect) (rc : WriteEnv → ℤ) : WriteHandler := fun env h q =>
  if q.length ≠ udsSingleValueLen then h.rejectWrite .incorrectMsgLen
  else
    let h := h.emit (set (q.data 0))
    if rc env ≠ 0 then h.rejectWrite .requestOutOfRange else h.acceptWrite q

def writeLogVerbosityDID : WriteHandler := writeLogByte .setRttLevel WriteEnv.setRttLevel

def writeLogCanVerboseDID : WriteHandler := writeLogByte .setCanVerbose WriteEnv.setCanVerbose

/-- `CELL_DID_BROADCAST`. -/
def cellDidBroadcast : ℕ := 0x0D

def writeCellBroadcastDID : WriteHandler := fun _ h q =>
  if q.length ≠ udsSingleValueLen then h.rejectWrite .incorrectMsgLen
  else
    let cellNum := (q.did - didCellBase).toNat / didCellRange
    (h.emit (.setBroadcast (UInt8.ofNat cellNum) (q.data 0 ≠ 0))).acceptWrite q

/-- Big-endian bytes from `UDS_DATA_IDX` on, eight at most. -/
def settingValueOf (q : Request) : UInt64 :=
  ((q.payload 4).take 8).foldl (fun value b => (value <<< 8) ||| b.toUInt64) 0

/-- `writeSettingSaveDID`. -/
def writeSettingSaveDID : WriteHandler := fun env h q =>
  let index := (q.did - didSettingSaveBase).toNat
  let value := settingValueOf q
  let h := h.emit (.saveSetting (UInt8.ofNat index) value)
  if env.saveSetting index value then h.acceptWrite q else h.rejectWrite .requestOutOfRange

/-- `SETTING_VALUE_WRITE_LEN`. -/
def settingValueWriteLen : ℕ := 12

/-- `writeSettingValueDID_handler`. -/
def writeSettingValueDID : WriteHandler := fun env h q =>
  if q.length ≠ settingValueWriteLen then h.rejectWrite .incorrectMsgLen
  else
    let index := (q.did - didSettingValueBase).toNat
    let value := settingValueOf q
    let h := h.emit (.setSetting (UInt8.ofNat index) value)
    if env.setSetting index value then h.acceptWrite q else h.rejectWrite .requestOutOfRange

/-! ## Solenoid and autotune -/

def solenoidOverrideMagic : UInt8 := 0x5A

def solenoidOverrideOnUs : UInt32 := 1500000

def solenoidOverrideLen : ℕ := 6

/-- The magic byte is checked after the session and the dive. -/
def writeSolenoidOverrideDID : WriteHandler := fun env h q =>
  if q.length ≠ solenoidOverrideLen then h.rejectWrite .incorrectMsgLen
  else if h.session ≠ .programming then h.rejectWrite .serviceNotInSession
  else if isInDive env.pressure then h.rejectWrite .conditionsNotCorrect
  else if q.data 1 ≠ solenoidOverrideMagic then h.rejectWrite .requestOutOfRange
  else if env.modeLatched = false then h.rejectWrite .busyRepeatRequest
  else if env.modeOff = false then h.rejectWrite .conditionsNotCorrect
  else if env.calRunning then h.rejectWrite .conditionsNotCorrect
  else if env.solenoidChannels ≤ (q.data 0).toNat then h.rejectWrite .requestOutOfRange
  else
    let h := h.emit (.fireSolenoid (q.data 0) solenoidOverrideOnUs)
    if env.solenoidFire ≠ 0 then
      (h.emit (.opError .solenoidDisabled (errDetail env.solenoidFire))).negative sidWriteDataById
        .conditionsNotCorrect
    else h.acceptWrite q

def autotuneCtrlMagic : UInt8 := 0xA7

def autotuneCmdStart : UInt8 := 0x01

def autotuneCmdAbort : UInt8 := 0x02

def autotuneStartLen : ℕ := 10

def autotuneAbortLen : ℕ := 6

/-- Only a start asks for the surface. -/
def writeAutotuneControlDID : WriteHandler := fun env h q =>
  if q.length < autotuneAbortLen then h.rejectWrite .incorrectMsgLen
  else if h.session ≠ .programming then h.rejectWrite .serviceNotInSession
  else if q.data 1 ≠ autotuneCtrlMagic then h.rejectWrite .requestOutOfRange
  else if q.data 0 = autotuneCmdAbort then (h.emit (.abortAutotune .operator)).acceptWrite q
  else if q.data 0 = autotuneCmdStart then
    if q.length ≠ autotuneStartLen then h.rejectWrite .incorrectMsgLen
    else if isInDive env.pressure then h.rejectWrite .conditionsNotCorrect
    else
      let h := h.emit (.startAutotune (q.data 2) (q.data 3) (q.word 8))
      if env.autotuneStart = 0 then h.acceptWrite q else h.rejectWrite .conditionsNotCorrect
  else h.rejectWrite .requestOutOfRange

/-! ## Flash and firmware -/

def otaWriteMagic : UInt8 := 0x01

/-- `checkOtaWritePrecondition`: the code to refuse with. -/
def checkOtaWritePrecondition (env : WriteEnv) (h : Head) (q : Request) : Option Nrc :=
  if q.length ≠ udsSingleValueLen then some .incorrectMsgLen
  else if q.data 0 ≠ otaWriteMagic then some .requestOutOfRange
  else if h.session ≠ .programming then some .serviceNotInSession
  else if isInDive env.pressure then some .conditionsNotCorrect
  else none

/-- The common start of the OTA actions. -/
def Head.checked (h : Head) (nrc : Option Nrc) (act : Head → Head) : Head :=
  match nrc with
  | some nrc => h.rejectWrite nrc
  | none => act h

/-- `claimFlashMaintenance`, and what is done under the claim. -/
def Head.claimingFlash (h : Head) (act : Head → Head) : Head :=
  let (arena, granted) := maintArenaClaim h.arena (some .flash)
  if granted then act { h with arena := arena } else h.rejectWrite .conditionsNotCorrect

/-- `maint_arena_release` of the flash commands. -/
def Head.releaseFlash (h : Head) : Head :=
  { h with arena := maintArenaRelease h.arena (some .flash) }

def writeForceRevertDID : WriteHandler := fun env h q =>
  h.checked (checkOtaWritePrecondition env h q) fun h =>
    h.claimingFlash fun h =>
      if env.bankHeader.rc ≠ 0 then h.releaseFlash.rejectWrite .conditionsNotCorrect
      else
        let h := ((h.pauseLog.under env.upgrade .requestUpgrade).resumeLog).releaseFlash
        if env.upgrade.rc ≠ 0 then h.rejectFlash sidWriteDataById env.upgrade.rc .generalProgFail
        else (h.acceptWrite q).emit .reboot

/-- The answer goes out before the erase, and the unit restarts whatever came of it. -/
def writeFactoryFlashEraseDID : WriteHandler := fun env h q =>
  h.checked (checkOtaWritePrecondition env h q) fun h =>
    h.claimingFlash fun h =>
      let h := ((h.acceptWrite q).pauseLog).emit .massErase
      let h := if env.massErase ≠ 0 then h.emit (.opError .flash (errDetail env.massErase)) else h
      h.emit .reboot

def writeNvsEraseDID : WriteHandler := fun env h q =>
  h.checked (checkOtaWritePrecondition env h q) fun h =>
    h.claimingFlash fun h =>
      let h := (h.acceptWrite q).pauseLog
      let h := if env.storageOpen = 0 then h.emit .eraseStorage else h
      let rc := if env.storageOpen = 0 then env.storageErase else env.storageOpen
      let h := if rc ≠ 0 then h.emit (.opError .flash (errDetail rc)) else h
      h.emit .reboot

def writeRestoreFactoryDID : WriteHandler := fun env h q =>
  h.checked (checkOtaWritePrecondition env h q) fun h =>
    if env.readings.factoryCaptured = false then h.rejectWrite .conditionsNotCorrect
    else (h.acceptWrite q).emit .restoreFactory

def writeFactoryCaptureDID : WriteHandler := fun env h q =>
  h.checked (checkOtaWritePrecondition env h q) fun h =>
    if env.readings.imgConfirmed = false then h.rejectWrite .conditionsNotCorrect
    else (h.emit .captureFactory).acceptWrite q

/-- The check of the two DIDs that carry a byte before their magic byte. -/
def checkTwoBytePrecondition (magic : UInt8) (kindOk : UInt8 → Bool) (env : WriteEnv) (h : Head)
    (q : Request) : Option Nrc :=
  if q.length ≠ udsSingleValueLen + 1 then some .incorrectMsgLen
  else if q.data 1 ≠ magic then some .requestOutOfRange
  else if kindOk (q.data 0) = false then some .requestOutOfRange
  else if h.session ≠ .programming then some .serviceNotInSession
  else if isInDive env.pressure then some .conditionsNotCorrect
  else none

def faultInjectionMagic : UInt8 := 0xC5

/-- A fatal error, a fault in a thread, a fault in a timer. -/
def faultInjectKind (kind : UInt8) : Bool := kind = 1 ∨ kind = 2 ∨ kind = 3

def writeFaultInjectionDID : WriteHandler := fun env h q =>
  h.checked (checkTwoBytePrecondition faultInjectionMagic faultInjectKind env h q) fun h =>
    (h.acceptWrite q).emit (.injectFault (q.data 0))

def logEraseMagic : UInt8 := 0xA5

def writeLogEraseDID : WriteHandler := fun env h q =>
  h.checked (checkTwoBytePrecondition logEraseMagic (fun _ => true) env h q) fun h =>
    h.claimingFlash fun h =>
      let h := (h.emit (.eraseLog (q.data 0 &&& 3))).releaseFlash
      if env.logErase ≠ 0 then
        (h.emit (.opError .flash (UInt32.ofInt env.logErase))).negative sidWriteDataById
          .conditionsNotCorrect
      else h.acceptWrite q

/-! ## Dispatch -/

/-- `writeDidTable`, as the build configures it. -/
def writeDidTable (b : Build) : List (UInt16 × WriteHandler) :=
  [(0xF240, writeSetpointDID), (0xF241, writeCalibrationTriggerDID)] ++
    (if b.o2Solenoid then
      [(0xF242, writeSolenoidOverrideDID), (0xF243, writeAutotuneControlDID)] else []) ++
    [(0xF261, writeHistogramClearDID), (0xF275, writeForceRevertDID),
      (0xF276, writeRestoreFactoryDID), (0xF277, writeFactoryCaptureDID),
      (0xF278, writeFactoryFlashEraseDID), (0xF279, writeNvsEraseDID),
      (0xF27A, writeFaultInjectionDID)] ++
    (if b.flashLog then
      [(0xF282, writeLogEraseDID), (0xF283, writeLogVerbosityDID),
        (0xF284, writeLogCanVerboseDID)] else [])

/-- The handler that `HandleWriteDataByIdentifier` finds for a DID. -/
def writeHandler (env : WriteEnv) (did : UInt16) : WriteHandler :=
  match (writeDidTable env.build).lookup did with
  | some handler => handler
  | none =>
    if env.build.diveO2Cell ∧ isCellDID did ∧
        (did - didCellBase).toNat % didCellRange = cellDidBroadcast then writeCellBroadcastDID
    else if settingDidBusy env.settingsLoaded did true then
      fun _ h _ => h.rejectWrite .busyRepeatRequest
    else if isSettingDID didSettingSaveBase did then writeSettingSaveDID
    else if isSettingDID didSettingValueBase did then writeSettingValueDID
    else fun _ h _ => h.rejectWrite .requestOutOfRange

/-- `HandleWriteDataByIdentifier`. -/
def handleWriteDataByIdentifier : WriteHandler := fun env h q =>
  if q.length < 4 then h.rejectWrite .incorrectMsgLen
  else writeHandler env q.did env h q

/-! ## Handlers without a gate -/

variable {env : WriteEnv} {h : Head} {q : Request}

theorem Quiet.rejectWrite {h' : Head} (hq : Quiet h h') (nrc : Nrc) :
    Quiet h (h'.rejectWrite nrc) := hq.reject _ _

theorem Quiet.acceptWrite {h' : Head} (hq : Quiet h h') (q : Request) :
    Quiet h (h'.acceptWrite q) := hq.respond _

theorem quiet_setpoint : Quiet h (writeSetpointDID env h q) := by
  unfold writeSetpointDID
  split
  · exact (Quiet.refl h).rejectWrite _
  · exact ((Quiet.refl h).emit rfl).acceptWrite q

theorem quiet_calibrationTrigger : Quiet h (writeCalibrationTriggerDID env h q) := by
  unfold writeCalibrationTriggerDID
  split
  · exact (Quiet.refl h).rejectWrite _
  split
  · exact (Quiet.refl h).rejectWrite _
  split
  · exact (Quiet.refl h).rejectWrite _
  · exact ((Quiet.refl h).emit rfl).acceptWrite q

theorem quiet_histogramClear : Quiet h (writeHistogramClearDID env h q) := by
  have hclear : Quiet h (h.emit .clearHistogram) := (Quiet.refl h).emit rfl
  unfold writeHistogramClearDID
  dsimp only
  split
  · exact (hclear.emit rfl).respond _
  · exact hclear.acceptWrite q

theorem quiet_logByte {set : UInt8 → Effect} (rc : WriteEnv → ℤ)
    (hset : ∀ b, (set b).needsProgramming = false) : Quiet h (writeLogByte set rc env h q) := by
  unfold writeLogByte
  split
  · exact (Quiet.refl h).rejectWrite _
  dsimp only
  split
  · exact ((Quiet.refl h).emit (hset _)).rejectWrite _
  · exact ((Quiet.refl h).emit (hset _)).acceptWrite q

theorem quiet_cellBroadcast : Quiet h (writeCellBroadcastDID env h q) := by
  unfold writeCellBroadcastDID
  split
  · exact (Quiet.refl h).rejectWrite _
  · exact ((Quiet.refl h).emit rfl).acceptWrite q

theorem quiet_settingSave : Quiet h (writeSettingSaveDID env h q) := by
  unfold writeSettingSaveDID
  dsimp only
  split
  · exact ((Quiet.refl h).emit rfl).acceptWrite q
  · exact ((Quiet.refl h).emit rfl).rejectWrite _

theorem quiet_settingValue : Quiet h (writeSettingValueDID env h q) := by
  unfold writeSettingValueDID
  split
  · exact (Quiet.refl h).rejectWrite _
  dsimp only
  split
  · exact ((Quiet.refl h).emit rfl).acceptWrite q
  · exact ((Quiet.refl h).emit rfl).rejectWrite _

/-! ## Handlers with a gate -/

/-- The handler refuses and does nothing else, or it is given an order in the programming session
at the surface. -/
def Gated (handler : WriteHandler) (order : Request → Bool) : Prop :=
  ∀ env h q, (∃ nrc, handler env h q = h.rejectWrite nrc) ∨
    Admitted env.toOtaEnv h ∧ order q = true ∧ SameSession h (handler env h q)

def otaWriteOrder (q : Request) : Bool := q.length = udsSingleValueLen ∧ q.data 0 = otaWriteMagic

def twoByteOrder (magic : UInt8) (kindOk : UInt8 → Bool) (q : Request) : Bool :=
  q.length = udsSingleValueLen + 1 ∧ q.data 1 = magic ∧ kindOk (q.data 0) = true

def solenoidOrder (q : Request) : Bool :=
  q.length = solenoidOverrideLen ∧ q.data 1 = solenoidOverrideMagic

def autotuneOrder (q : Request) : Bool :=
  q.length = autotuneStartLen ∧ q.data 1 = autotuneCtrlMagic ∧ q.data 0 = autotuneCmdStart

theorem checkOtaWritePrecondition_none (hcheck : checkOtaWritePrecondition env h q = none) :
    Admitted env.toOtaEnv h ∧ otaWriteOrder q = true := by
  unfold checkOtaWritePrecondition at hcheck
  split at hcheck
  · cases hcheck
  split at hcheck
  · cases hcheck
  split at hcheck
  · cases hcheck
  split at hcheck
  · cases hcheck
  next hlen hmagic hsession hdive =>
  exact ⟨admitted_of hsession hdive, decide_eq_true ⟨not_not.mp hlen, not_not.mp hmagic⟩⟩

theorem checkTwoBytePrecondition_none {magic : UInt8} {kindOk : UInt8 → Bool}
    (hcheck : checkTwoBytePrecondition magic kindOk env h q = none) :
    Admitted env.toOtaEnv h ∧ twoByteOrder magic kindOk q = true := by
  unfold checkTwoBytePrecondition at hcheck
  split at hcheck
  · cases hcheck
  split at hcheck
  · cases hcheck
  split at hcheck
  · cases hcheck
  split at hcheck
  · cases hcheck
  split at hcheck
  · cases hcheck
  next hlen hmagic hkind hsession hdive =>
  refine ⟨admitted_of hsession hdive, decide_eq_true ⟨not_not.mp hlen, not_not.mp hmagic, ?_⟩⟩
  exact Bool.eq_true_of_not_eq_false hkind

/-- What is done after the check refuses, or keeps the session and the update. -/
def Continues (act : Head → Head) : Prop :=
  ∀ h, (∃ nrc, act h = h.rejectWrite nrc) ∨ SameSession h (act h)

theorem gated_checked {check : WriteEnv → Head → Request → Option Nrc}
    {order : Request → Bool} {act : WriteEnv → Request → Head → Head}
    (hcheck : ∀ {env h q}, check env h q = none → Admitted env.toOtaEnv h ∧ order q = true)
    (hact : ∀ env q, Continues (act env q)) :
    Gated (fun env h q => h.checked (check env h q) (act env q)) order := by
  intro env h q
  dsimp only
  cases hcode : check env h q with
  | some nrc => exact .inl ⟨nrc, rfl⟩
  | none =>
    obtain ⟨hadm, horder⟩ := hcheck hcode
    rcases hact env q h with hrefused | hsame
    · exact .inl hrefused
    · exact .inr ⟨hadm, horder, hsame⟩

theorem continues_claimingFlash {act : Head → Head} (hact : ∀ h, SameSession h (act h)) :
    Continues fun h => h.claimingFlash act := by
  intro h
  cases hgrants : grants h.arena .flash with
  | false =>
    refine .inl ⟨.conditionsNotCorrect, ?_⟩
    simp only [Head.claimingFlash, maintArenaClaim_denied hgrants, Bool.false_eq_true, if_false]
  | true =>
    refine .inr ?_
    simp only [Head.claimingFlash, maintArenaClaim_granted hgrants, if_true]
    have hclaim : SameSession h { h with arena := handOver h.arena .flash } := ⟨rfl, rfl⟩
    exact hclaim.trans (hact _)

namespace SameSession

variable {h' : Head}

theorem rejectWrite (hs : SameSession h h') (nrc : Nrc) : SameSession h (h'.rejectWrite nrc) :=
  hs.reject _ _

theorem acceptWrite (hs : SameSession h h') (q : Request) : SameSession h (h'.acceptWrite q) :=
  hs.respond _

theorem releaseFlash (hs : SameSession h h') : SameSession h h'.releaseFlash :=
  ⟨hs.session, hs.ota⟩

end SameSession

theorem gated_forceRevert : Gated writeForceRevertDID otaWriteOrder := by
  refine gated_checked checkOtaWritePrecondition_none fun env q =>
    continues_claimingFlash fun h => ?_
  have hsame := SameSession.refl h
  split
  · exact hsame.releaseFlash.rejectWrite _
  have hupgrade := (hsame.pauseLog.under env.upgrade .requestUpgrade).resumeLog.releaseFlash
  dsimp only
  split
  · exact hupgrade.rejectFlash _ _ _
  · exact (hupgrade.acceptWrite q).emit _

theorem gated_factoryFlashErase : Gated writeFactoryFlashEraseDID otaWriteOrder := by
  refine gated_checked checkOtaWritePrecondition_none fun env q =>
    continues_claimingFlash fun h => ?_
  have herased := (((SameSession.refl h).acceptWrite q).pauseLog).emit .massErase
  dsimp only
  split
  · exact (herased.emit _).emit _
  · exact herased.emit _

theorem gated_nvsErase : Gated writeNvsEraseDID otaWriteOrder := by
  refine gated_checked checkOtaWritePrecondition_none fun env q =>
    continues_claimingFlash fun h => ?_
  have haccepted := ((SameSession.refl h).acceptWrite q).pauseLog
  dsimp only
  refine SameSession.emit ?_ .reboot
  split
  · split
    · exact (haccepted.emit _).emit _
    · exact haccepted.emit _
  · exact haccepted.emit _

theorem gated_restoreFactory : Gated writeRestoreFactoryDID otaWriteOrder := by
  refine gated_checked checkOtaWritePrecondition_none fun env q h => ?_
  split
  · exact .inl ⟨_, rfl⟩
  · exact .inr (((SameSession.refl h).acceptWrite q).emit _)

theorem gated_factoryCapture : Gated writeFactoryCaptureDID otaWriteOrder := by
  refine gated_checked checkOtaWritePrecondition_none fun env q h => ?_
  split
  · exact .inl ⟨_, rfl⟩
  · exact .inr (((SameSession.refl h).emit _).acceptWrite q)

theorem gated_faultInjection :
    Gated writeFaultInjectionDID (twoByteOrder faultInjectionMagic faultInjectKind) :=
  gated_checked checkTwoBytePrecondition_none fun _ q h =>
    .inr (((SameSession.refl h).acceptWrite q).emit _)

theorem gated_logErase : Gated writeLogEraseDID (twoByteOrder logEraseMagic fun _ => true) := by
  refine gated_checked checkTwoBytePrecondition_none fun env q =>
    continues_claimingFlash fun h => ?_
  have herased := ((SameSession.refl h).emit (.eraseLog (q.data 0 &&& 3))).releaseFlash
  dsimp only
  split
  · exact (herased.emit _).negative _ _
  · exact herased.acceptWrite q

/-- A guard that refuses goes before what is gated. -/
theorem refuses_or {c : Prop} [Decidable c] {x : Head} {nrc : Nrc} {admitted ordered : Prop}
    (hgoesOn : ¬c → (∃ nrc, x = h.rejectWrite nrc) ∨ admitted ∧ ordered ∧ SameSession h x) :
    (∃ code, (if c then h.rejectWrite nrc else x) = h.rejectWrite code) ∨
      admitted ∧ ordered ∧ SameSession h (if c then h.rejectWrite nrc else x) := by
  by_cases hc : c
  · rw [if_pos hc]
    exact .inl ⟨nrc, rfl⟩
  · rw [if_neg hc]
    exact hgoesOn hc

theorem gated_solenoidOverride : Gated writeSolenoidOverrideDID solenoidOrder := by
  intro env h q
  unfold writeSolenoidOverrideDID
  refine refuses_or fun hlen => refuses_or fun hsession => refuses_or fun hdive =>
    refuses_or fun hmagic => refuses_or fun _ => refuses_or fun _ => refuses_or fun _ =>
    refuses_or fun _ => .inr ⟨admitted_of hsession hdive, ?_, ?_⟩
  · exact decide_eq_true ⟨not_not.mp hlen, not_not.mp hmagic⟩
  · have hfired := (SameSession.refl h).emit (.fireSolenoid (q.data 0) solenoidOverrideOnUs)
    dsimp only
    split
    · exact (hfired.emit _).negative _ _
    · exact hfired.acceptWrite q

/-- An abort is no order: it is taken in any dive. -/
theorem autotuneControl_cases (env : WriteEnv) (h : Head) (q : Request) :
    (∃ nrc, writeAutotuneControlDID env h q = h.rejectWrite nrc) ∨
      (autotuneAbortLen ≤ q.length ∧ q.data 0 = autotuneCmdAbort ∧
        Quiet h (writeAutotuneControlDID env h q)) ∨
      Admitted env.toOtaEnv h ∧ autotuneOrder q = true ∧
        SameSession h (writeAutotuneControlDID env h q) := by
  unfold writeAutotuneControlDID
  split
  · exact .inl ⟨_, rfl⟩
  next hshort =>
  split
  · exact .inl ⟨_, rfl⟩
  next hsession =>
  split
  · exact .inl ⟨_, rfl⟩
  next hmagic =>
  split
  · next habort =>
    have hquiet := ((Quiet.refl h).emit (e := .abortAutotune .operator) rfl).acceptWrite q
    exact .inr (.inl ⟨not_lt.mp hshort, habort, hquiet⟩)
  split
  · next hstart =>
    split
    · exact .inl ⟨_, rfl⟩
    next hlen =>
    split
    · exact .inl ⟨_, rfl⟩
    next hdive =>
    refine .inr (.inr ⟨admitted_of hsession hdive, ?_, ?_⟩)
    · exact decide_eq_true ⟨not_not.mp hlen, not_not.mp hmagic, hstart⟩
    · have hstarted :=
        (SameSession.refl h).emit (.startAutotune (q.data 2) (q.data 3) (q.word 8))
      dsimp only
      split
      · exact hstarted.acceptWrite q
      · exact hstarted.rejectWrite _
  · exact .inl ⟨_, rfl⟩

/-! ## What a write can do -/

/-- The guarded DIDs, each with what it takes for an order. -/
def guardedOrders : List (UInt16 × (Request → Bool)) :=
  [(0xF242, solenoidOrder), (0xF243, autotuneOrder), (0xF275, otaWriteOrder),
    (0xF276, otaWriteOrder), (0xF277, otaWriteOrder), (0xF278, otaWriteOrder),
    (0xF279, otaWriteOrder), (0xF27A, twoByteOrder faultInjectionMagic faultInjectKind),
    (0xF282, twoByteOrder logEraseMagic fun _ => true)]

/-- A well-formed order for a guarded action. -/
def writeOrder (q : Request) : Bool :=
  match guardedOrders.lookup q.did with
  | some order => order q
  | none => false

/-- The abort of an autotune is all that a guarded DID takes besides orders. -/
def isAutotuneAbort (q : Request) : Bool :=
  q.did = 0xF243 ∧ autotuneAbortLen ≤ q.length ∧ q.data 0 = autotuneCmdAbort

/-- The write asks for a guarded action, well formed or not. -/
def asksWrite (q : Request) : Bool := (guardedOrders.lookup q.did).isSome && !isAutotuneAbort q

/-- What `HandleWriteDataByIdentifier` can do to the head. -/
inductive WriteStep (env : WriteEnv) (h : Head) (q : Request) : Head → Prop where
  | refused (nrc : Nrc) : WriteStep env h q (h.rejectWrite nrc)
  | quiet {h' : Head} (hquiet : Quiet h h') (hasks : asksWrite q = false) :
      WriteStep env h q h'
  | ordered {h' : Head} (hadm : Admitted env.toOtaEnv h) (horder : writeOrder q = true)
      (hsame : SameSession h h') : WriteStep env h q h'

theorem Gated.step {handler : WriteHandler} {order : Request → Bool} (hgated : Gated handler order)
    (hdid : guardedOrders.lookup q.did = some order) :
    WriteStep env h q (handler env h q) := by
  rcases hgated env h q with ⟨nrc, hrefused⟩ | ⟨hadm, horder, hsame⟩
  · rw [hrefused]
    exact .refused nrc
  · refine .ordered hadm ?_ hsame
    rw [writeOrder, hdid]
    exact horder

theorem asksWrite_of_lookup (h : guardedOrders.lookup q.did = none) : asksWrite q = false := by
  rw [asksWrite, h]
  rfl

theorem isControlDID_of_guarded {did : UInt16} (h : guardedOrders.lookup did ≠ none) :
    isControlDID did = true := by
  obtain ⟨order, horder⟩ := Option.ne_none_iff_exists'.mp h
  obtain ⟨l₁, l₂, hlist, -⟩ := List.lookup_eq_some_iff.mp horder
  have hall : ∀ e ∈ guardedOrders, isControlDID e.1 = true := by
    simp only [guardedOrders, List.forall_mem_cons, List.not_mem_nil, false_implies,
      implies_true, and_true]
    decide
  exact hall (did, order) (by rw [hlist]; simp)

/-- A DID outside of F2xx is not guarded. -/
theorem asksWrite_of_not_control (h : isControlDID q.did = false) : asksWrite q = false := by
  apply asksWrite_of_lookup
  by_contra hguarded
  rw [isControlDID_of_guarded hguarded] at h
  cases h

theorem not_isControlDID_of_cell {did : UInt16} (h : isCellDID did = true) :
    isControlDID did = false := by
  simp only [isCellDID, isControlDID, decide_eq_true_eq, decide_eq_false_iff_not,
    UInt16.le_iff_toNat_le, UInt16.lt_iff_toNat_lt, UInt16.reduceToNat] at *
  omega

theorem not_isControlDID_of_setting {base did : UInt16} (hbase : base.toNat ≤ 0xF000)
    (h : isSettingDID base did = true) : isControlDID did = false := by
  simp only [isSettingDID, isControlDID, settingCount, decide_eq_true_eq,
    decide_eq_false_iff_not, UInt16.le_iff_toNat_le, UInt16.lt_iff_toNat_lt, UInt16.reduceToNat,
    UInt16.toNat_add, UInt16.reduceOfNat] at *
  omega

theorem writeDidTable_step (b : Build) :
    ∀ e ∈ writeDidTable b, ∀ env h q, q.did = e.1 → WriteStep env h q (e.2 env h q) := by
  have hquiet : ∀ (did : UInt16) (handler : WriteHandler), guardedOrders.lookup did = none →
      (∀ {env h q}, Quiet h (handler env h q)) →
      ∀ env h q, q.did = did → WriteStep env h q (handler env h q) :=
    fun did handler hnone hhandler env h q hdid =>
      .quiet hhandler (asksWrite_of_lookup (hdid ▸ hnone))
  have hgated : ∀ (did : UInt16) (handler : WriteHandler) (order : Request → Bool),
      guardedOrders.lookup did = some order → Gated handler order →
      ∀ env h q, q.did = did → WriteStep env h q (handler env h q) :=
    fun did handler order hsome hhandler env h q hdid => hhandler.step (hdid ▸ hsome)
  simp only [writeDidTable, List.forall_mem_append, List.forall_mem_cons, List.not_mem_nil,
    false_implies, implies_true, and_true]
  refine ⟨⟨⟨⟨?_, ?_⟩, ?_⟩, ?_, ?_, ?_, ?_, ?_, ?_, ?_⟩, ?_⟩
  · exact hquiet _ _ rfl quiet_setpoint
  · exact hquiet _ _ rfl quiet_calibrationTrigger
  · split
    · simp only [List.forall_mem_cons, List.not_mem_nil, false_implies, implies_true, and_true]
      refine ⟨hgated _ _ _ rfl gated_solenoidOverride, fun env h q hdid => ?_⟩
      have hlookup : guardedOrders.lookup q.did = some autotuneOrder := hdid ▸ rfl
      rcases autotuneControl_cases env h q with
        ⟨nrc, hrefused⟩ | ⟨hlen, habort, hquiet⟩ | ⟨hadm, horder, hsame⟩
      · rw [hrefused]
        exact .refused nrc
      · refine .quiet hquiet ?_
        have hisAbort : isAutotuneAbort q = true := decide_eq_true ⟨hdid, hlen, habort⟩
        rw [asksWrite, hisAbort, Bool.not_true, Bool.and_false]
      · refine .ordered hadm ?_ hsame
        rw [writeOrder, hlookup]
        exact horder
    · exact nofun
  · exact hquiet _ _ rfl quiet_histogramClear
  · exact hgated _ _ _ rfl gated_forceRevert
  · exact hgated _ _ _ rfl gated_restoreFactory
  · exact hgated _ _ _ rfl gated_factoryCapture
  · exact hgated _ _ _ rfl gated_factoryFlashErase
  · exact hgated _ _ _ rfl gated_nvsErase
  · exact hgated _ _ _ rfl gated_faultInjection
  · split
    · simp only [List.forall_mem_cons, List.not_mem_nil, false_implies, implies_true, and_true]
      exact ⟨hgated _ _ _ rfl gated_logErase,
        hquiet _ _ rfl (quiet_logByte _ fun _ => rfl),
        hquiet _ _ rfl (quiet_logByte _ fun _ => rfl)⟩
    · exact nofun

/-- What a write request can do. -/
theorem handleWriteDataByIdentifier_step (env : WriteEnv) (h : Head) (q : Request) :
    WriteStep env h q (handleWriteDataByIdentifier env h q) := by
  unfold handleWriteDataByIdentifier
  split
  · exact .refused _
  unfold writeHandler
  cases hlookup : (writeDidTable env.build).lookup q.did with
  | some handler =>
    obtain ⟨l₁, l₂, htable, -⟩ := List.lookup_eq_some_iff.mp hlookup
    exact writeDidTable_step env.build (q.did, handler) (by rw [htable]; simp) env h q rfl
  | none =>
    dsimp only
    split
    · next hcell =>
      exact .quiet quiet_cellBroadcast
        (asksWrite_of_not_control (not_isControlDID_of_cell hcell.2.1))
    split
    · exact .refused _
    split
    · next hsave =>
      exact .quiet quiet_settingSave
        (asksWrite_of_not_control (not_isControlDID_of_setting (by decide) hsave))
    split
    · next hvalue =>
      exact .quiet quiet_settingValue
        (asksWrite_of_not_control (not_isControlDID_of_setting (by decide) hvalue))
    · exact .refused _

end DiveCANHead.Uds
