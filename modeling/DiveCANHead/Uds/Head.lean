import DiveCANHead.LogDownload.Transfer
import DiveCANHead.Maintenance.Arena

/-!
# The head behind the UDS handlers (`uds.h`)

What the handlers of one request share: the session, the two download machines, the
maintenance arena, the two flags that quiet the log, and the effects of the request in
progress, which are what leaves the handlers: answers, error reports, and calls into
the rest of the firmware.
-/

namespace DiveCANHead.Uds

open DiveCANHead.Maintenance DiveCANHead.LogDownload

/-- `UDSContext_t.session`. -/
inductive Session where
  | default
  | programming
  deriving DecidableEq, Repr

/-- The codes that the handlers report. -/
inductive OpError where
  | nullPtr
  | udsNrc
  | udsInvalid
  | udsTooFull
  | flash
  | solenoidDisabled
  deriving DecidableEq, Repr

/-- `AutotuneAbort_t`, as far as the handlers ask for it. -/
inductive AutotuneAbort where
  | dive
  | operator
  deriving DecidableEq, Repr

/-- What a handler makes happen outside of its own state. -/
inductive Effect where
  | respond (payload : List UInt8)
  | opError (code : OpError) (detail : UInt32)
  | eraseSlot1
  | writeSlot1 (data : List UInt8)
  | flushSlot1
  | requestUpgrade
  | massErase
  | eraseStorage
  | eraseLog (streams : UInt8)
  | restoreFactory
  | captureFactory
  | injectFault (kind : UInt8)
  | reboot
  | fireSolenoid (channel : UInt8) (onUs : UInt32)
  | startAutotune (baseSetpoint duty : UInt8) (budget : UInt16)
  | abortAutotune (reason : AutotuneAbort)
  | publishSetpoint (ppo2 : UInt8)
  | publishCalRequest (method fo2 : UInt8) (pressure : UInt16)
  | setBroadcast (cell : UInt8) (on : Bool)
  | clearHistogram
  | setRttLevel (level : UInt8)
  | setCanVerbose (mask : UInt8)
  | setSetting (index : UInt8) (value : UInt64)
  | saveSetting (index : UInt8) (value : UInt64)
  deriving DecidableEq, Repr

/-! ## The firmware update -/

/-- `OtaState_e`. -/
inductive OtaState where
  | idle
  | downloading
  | awaitingActivate
  | activating
  deriving DecidableEq, Repr

/-- `OtaSmCtx_t`; `flashCtx` is whether the pointer into the arena is set. -/
structure OtaSmCtx where
  state : OtaState := .idle
  flashCtx : Bool := false
  bytesExpected : UInt32 := 0
  bytesReceived : UInt32 := 0
  nextSeq : UInt8 := 1
  deriving DecidableEq, Repr

/-! ## The head -/

structure Head where
  session : Session := .default
  lastActivityMs : UInt32 := 0
  ota : OtaSmCtx := {}
  log : Download := {}
  arena : Arena := .init
  flashLogPaused : Bool := false
  logPushSuspended : Bool := false
  effects : List Effect := []
  deriving DecidableEq

/-- The detail of a failed call: `(uint32_t)(-rc)`. -/
def errDetail (rc : ℤ) : UInt32 := UInt32.ofInt (-rc)

namespace Head

def emit (h : Head) (e : Effect) : Head := { h with effects := h.effects ++ [e] }

/-- `UDS_SendResponse` of this payload. -/
def respond (h : Head) (payload : List UInt8) : Head := h.emit (.respond payload)

/-- `UDS_SendNegativeResponse`. -/
def negative (h : Head) (sid : UInt8) (nrc : Nrc) : Head := h.respond (negativeResponse sid nrc)

/-- The code is reported and answered. -/
def reject (h : Head) (sid : UInt8) (nrc : Nrc) : Head :=
  (h.emit (.opError .udsNrc nrc.code.toUInt32)).negative sid nrc

/-- A failed flash call is reported and answered. -/
def rejectFlash (h : Head) (sid : UInt8) (rc : ℤ) (nrc : Nrc) : Head :=
  (h.emit (.opError .flash (errDetail rc))).negative sid nrc

/-- `flash_log_pause`. -/
def pauseLog (h : Head) : Head := { h with flashLogPaused := true }

/-- `flash_log_resume`. -/
def resumeLog (h : Head) : Head := { h with flashLogPaused := false }

/-- `UDS_LogPush_SetSuspended`. -/
def suspendPush (h : Head) (suspended : Bool) : Head := { h with logPushSuspended := suspended }

/-- `h'` is `h` with more effects. -/
def Emits (h h' : Head) (es : List Effect) : Prop := h' = { h with effects := h.effects ++ es }

theorem emits_reject (h : Head) (sid : UInt8) (nrc : Nrc) : h.Emits (h.reject sid nrc)
    [.opError .udsNrc nrc.code.toUInt32, .respond (negativeResponse sid nrc)] := by
  simp only [Emits, reject, negative, respond, emit, List.append_assoc, List.singleton_append]

theorem emits_rejectFlash (h : Head) (sid : UInt8) (rc : ℤ) (nrc : Nrc) :
    h.Emits (h.rejectFlash sid rc nrc)
      [.opError .flash (errDetail rc), .respond (negativeResponse sid nrc)] := by
  simp only [Emits, rejectFlash, negative, respond, emit, List.append_assoc,
    List.singleton_append]

end Head

/-! ## The surroundings -/

/-- `DIVE_AMBIENT_PRESSURE_THRESHOLD_MBAR`. -/
def diveAmbientPressureThresholdMbar : UInt16 := 1200

/-- `UDS_IsInDive`; the pressure is `none` when the bounded read fails. -/
def isInDive : Option UInt16 → Bool
  | some mbar => decide (diveAmbientPressureThresholdMbar < mbar)
  | none => false

/-- A call under `external_flash_acquire`: the two results, 0 for success. -/
structure FlashCall where
  acquire : ℤ := 0
  result : ℤ := 0
  deriving DecidableEq, Repr

/-- The status that the caller sees. -/
def FlashCall.rc (c : FlashCall) : ℤ := if c.acquire = 0 then c.result else c.acquire

/-- The effect of a call, which is not made without the flash. -/
def Head.under (h : Head) (c : FlashCall) (e : Effect) : Head :=
  if c.acquire = 0 then h.emit e else h

theorem Head.emits_under (h : Head) (c : FlashCall) (e : Effect) :
    ∃ es, h.Emits (h.under c e) es ∧ ∀ e' ∈ es, e' = e := by
  unfold Head.under
  split
  · exact ⟨[e], rfl, fun e' he' => List.mem_singleton.mp he'⟩
  · exact ⟨[], by rw [Emits, List.append_nil], nofun⟩

/-! ## Effects that the programming session is for -/

/-- Starts something destructive, or takes over an actuator. -/
def Effect.guarded : Effect → Bool
  | .eraseSlot1 | .requestUpgrade | .massErase | .eraseStorage | .eraseLog _ | .restoreFactory
  | .captureFactory | .injectFault _ | .fireSolenoid _ _ | .startAutotune _ _ _ => true
  | _ => false

/-- Guarded, or part of a firmware download. -/
def Effect.needsProgramming : Effect → Bool
  | .writeSlot1 _ | .flushSlot1 => true
  | e => e.guarded

theorem Effect.needsProgramming_of_guarded {e : Effect} (h : e.guarded = true) :
    e.needsProgramming = true := by
  cases e <;> first | rfl | exact h

/-- The session and the update stay. -/
structure SameSession (h h' : Head) : Prop where
  session : h'.session = h.session
  ota : h'.ota = h.ota

namespace SameSession

variable {h h' h'' : Head}

theorem refl (h : Head) : SameSession h h := ⟨rfl, rfl⟩

theorem trans (h₁ : SameSession h h') (h₂ : SameSession h' h'') : SameSession h h'' :=
  ⟨h₂.session.trans h₁.session, h₂.ota.trans h₁.ota⟩

theorem emit (hs : SameSession h h') (e : Effect) : SameSession h (h'.emit e) :=
  ⟨hs.session, hs.ota⟩

theorem respond (hs : SameSession h h') (payload : List UInt8) :
    SameSession h (h'.respond payload) := hs.emit _

theorem negative (hs : SameSession h h') (sid : UInt8) (nrc : Nrc) :
    SameSession h (h'.negative sid nrc) := hs.respond _

theorem reject (hs : SameSession h h') (sid : UInt8) (nrc : Nrc) :
    SameSession h (h'.reject sid nrc) := (hs.emit _).negative _ _

theorem rejectFlash (hs : SameSession h h') (sid : UInt8) (rc : ℤ) (nrc : Nrc) :
    SameSession h (h'.rejectFlash sid rc nrc) := (hs.emit _).negative _ _

theorem pauseLog (hs : SameSession h h') : SameSession h h'.pauseLog := ⟨hs.session, hs.ota⟩

theorem resumeLog (hs : SameSession h h') : SameSession h h'.resumeLog := ⟨hs.session, hs.ota⟩

theorem under (hs : SameSession h h') (c : FlashCall) (e : Effect) :
    SameSession h (h'.under c e) := by
  unfold Head.under
  split
  · exact hs.emit e
  · exact hs

end SameSession

/-- And what is added is harmless. -/
structure Quiet (h h' : Head) : Prop extends SameSession h h' where
  effects : ∀ e ∈ h'.effects, e ∈ h.effects ∨ e.needsProgramming = false

namespace Quiet

variable {h h' h'' : Head}

theorem refl (h : Head) : Quiet h h := ⟨.refl h, fun _ he => .inl he⟩

theorem trans (h₁ : Quiet h h') (h₂ : Quiet h' h'') : Quiet h h'' := by
  refine ⟨h₁.toSameSession.trans h₂.toSameSession, fun e he => ?_⟩
  rcases h₂.effects e he with he | he
  · exact h₁.effects e he
  · exact .inr he

theorem emit (hq : Quiet h h') {e : Effect} (he : e.needsProgramming = false) :
    Quiet h (h'.emit e) := by
  refine hq.trans ⟨(SameSession.refl h').emit e, fun e' he' => ?_⟩
  rcases List.mem_append.mp he' with he' | he'
  · exact .inl he'
  · exact .inr (List.mem_singleton.mp he' ▸ he)

theorem respond (hq : Quiet h h') (payload : List UInt8) : Quiet h (h'.respond payload) :=
  hq.emit rfl

theorem reject (hq : Quiet h h') (sid : UInt8) (nrc : Nrc) : Quiet h (h'.reject sid nrc) :=
  (hq.emit rfl).respond _

end Quiet

end DiveCANHead.Uds
