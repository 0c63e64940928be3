import DiveCANHead.Lib.Runs
import DiveCANHead.Uds.Write

/-!
# The setpoint channel (`divecan_rx.c`, `uds.c`, `calibration.c`, `ppo2_autotune.c`)

`chan_setpoint` has two kinds of writers. The diver, UDS and the handset-loss failsafe request a
setpoint; a calibration and an autotune borrow the channel: they read it, publish a setpoint of
their own, and publish what they read when they end. A publication or a read can time out.
-/

namespace DiveCANHead.Control

open DiveCANHead.Lib DiveCANHead.Uds

/-! ## Requests -/

/-- `HandsetFailsafeState_t`. -/
structure HandsetFailsafe where
  lastHandsetPingMs : UInt32
  handsetSeen : Bool
  handsetLostApplied : Bool
  deriving DecidableEq, Repr

/-- `HANDSET_PING_TIMEOUT_MS`. -/
def handsetPingTimeoutMs : UInt32 := 10000

/-- `HANDSET_LOST_SETPOINT_CB`. -/
def handsetLostSetpointCb : UInt8 := 70

/-- `handset_failsafe_should_revert`. -/
def handsetFailsafeShouldRevert (now : UInt32) (f : HandsetFailsafe) (timeout : UInt32) : Bool :=
  f.handsetSeen && !f.handsetLostApplied && decide (timeout < now - f.lastHandsetPingMs)

/-- `NoteHandsetPing`, for a ping of the controller. -/
def noteHandsetPing (now : UInt32) : HandsetFailsafe := ⟨now, true, false⟩

/-- Who requests a setpoint. -/
inductive Requester where
  | diver
  | uds
  | failsafe
  deriving DecidableEq, Repr

/-! ## Borrowers -/

/-- `CAL_SUPPRESS_SETPOINT_CB`. -/
def calSuppressSetpointCb : UInt8 := 19

/-- `CAL_RESTORE_FALLBACK_CB`. -/
def calRestoreFallbackCb : UInt8 := 70

/-- A thread that borrows the channel: the setpoint it will restore, and the one it still has to
publish. -/
inductive Borrower where
  | idle
  | saved (restore temporary : UInt8)
  | running (restore : UInt8)
  deriving DecidableEq, Repr

/-- The setpoint a borrower will restore. -/
def Borrower.restore : Borrower → Option UInt8
  | .idle => none
  | .saved v _ | .running v => some v

/-- The channel, the failsafe, the calibration and the autotune thread; `requested` is the last
setpoint anybody requested, with who did. -/
structure SetpointSystem where
  setpoint : UInt8
  failsafe : HandsetFailsafe
  cal : Borrower
  autotune : Borrower
  requested : UInt8
  requester : Option Requester
  deriving DecidableEq, Repr

def SetpointSystem.init : SetpointSystem where
  setpoint := 70
  failsafe := ⟨0, false, false⟩
  cal := .idle
  autotune := .idle
  requested := 70
  requester := none

/-- A bounded read of the channel. -/
def readSetpoint (channel : UInt8) (ok : Bool) (fallback : UInt8) : UInt8 :=
  if ok then channel else fallback

/-- A bounded publication to the channel. -/
def publishSetpoint (channel value : UInt8) (published : Bool) : UInt8 :=
  if published then value else channel

/-- A published request. -/
def SetpointSystem.request (s : SetpointSystem) (who : Requester) (value : UInt8)
    (published : Bool) : SetpointSystem :=
  if published then { s with setpoint := value, requested := value, requester := some who } else s

/-- The end of the receive loop's body: the failsafe, latched by a confirmed publication. -/
def handsetFailsafeStep (s : SetpointSystem) (now : UInt32) (published : Bool) : SetpointSystem :=
  if handsetFailsafeShouldRevert now s.failsafe handsetPingTimeoutMs then
    let failsafe := { s.failsafe with
      handsetLostApplied := published || s.failsafe.handsetLostApplied }
    { s.request .failsafe handsetLostSetpointCb published with failsafe }
  else s

/-! ## Steps -/

inductive SetpointEvent where
  | respSetpoint (data : UInt8) (published : Bool)
  | udsSetpoint (data : UInt8) (published : Bool)
  | handsetPing (now : UInt32)
  | rxLoop (now : UInt32) (published : Bool)
  | calRead (ok : Bool)
  | calSuppress (published : Bool)
  | calRestore (published : Bool)
  | tuneRead (base : UInt8) (ok : Bool)
  | tuneBase (published : Bool)
  | tuneRestore (published : Bool)
  deriving DecidableEq, Repr

/-- One step. An autotune that is denied the arena restores without its base setpoint. -/
def setpointStep (s : SetpointSystem) : SetpointEvent → Option SetpointSystem
  | .respSetpoint data published => some (s.request .diver (clampSetpointCb data) published)
  | .udsSetpoint data published => some (s.request .uds (clampSetpointCb data) published)
  | .handsetPing now => some { s with failsafe := noteHandsetPing now }
  | .rxLoop now published => some (handsetFailsafeStep s now published)
  | .calRead ok =>
    match s.cal with
    | .idle =>
      some { s with
        cal := .saved (readSetpoint s.setpoint ok calRestoreFallbackCb) calSuppressSetpointCb }
    | .saved _ _ | .running _ => none
  | .calSuppress published =>
    match s.cal with
    | .saved restore temporary =>
      some { s with
        cal := .running restore, setpoint := publishSetpoint s.setpoint temporary published }
    | .idle | .running _ => none
  | .calRestore published =>
    match s.cal with
    | .running restore =>
      some { s with cal := .idle, setpoint := publishSetpoint s.setpoint restore published }
    | .idle | .saved _ _ => none
  | .tuneRead base ok =>
    match s.autotune with
    | .idle => some { s with autotune := .saved (readSetpoint s.setpoint ok base) base }
    | .saved _ _ | .running _ => none
  | .tuneBase published =>
    match s.autotune with
    | .saved restore temporary =>
      some { s with
        autotune := .running restore, setpoint := publishSetpoint s.setpoint temporary published }
    | .idle | .running _ => none
  | .tuneRestore published =>
    match s.autotune with
    | .saved restore _ | .running restore =>
      some { s with autotune := .idle, setpoint := publishSetpoint s.setpoint restore published }
    | .idle => none

/-! ## No request is lost -/

/-- No calibration and no autotune runs. -/
def SetpointSystem.Quiet (s : SetpointSystem) : Prop := s.cal = .idle ∧ s.autotune = .idle

/-- What is asked of a step: with no run on, the channel has the last request, and the failsafe's
where that was the last one. -/
structure Kept (s : SetpointSystem) (_e : SetpointEvent) (t : SetpointSystem) : Prop where
  requested : t.Quiet → t.setpoint = t.requested
  failsafe : t.Quiet → t.requester = some .failsafe → t.setpoint = handsetLostSetpointCb

/-- The value a step restores as the last run's last act, and whether it is published. -/
def SetpointSystem.lastRestore (s : SetpointSystem) : SetpointEvent → Option (UInt8 × Bool)
  | .calRestore published =>
    if s.autotune = .idle then s.cal.restore.map (·, published) else none
  | .tuneRestore published =>
    if s.cal = .idle then s.autotune.restore.map (·, published) else none
  | _ => none

/-- What the last run restores is still the last request. -/
def RestoresRequested (s : SetpointSystem) (e : SetpointEvent) : Prop :=
  ∀ v published, s.lastRestore e = some (v, published) →
    publishSetpoint s.setpoint v published = s.requested

structure KeptInv (s : SetpointSystem) : Prop where
  requested : s.Quiet → s.setpoint = s.requested
  failsafe : s.requester = some .failsafe → s.requested = handsetLostSetpointCb

theorem keptInv_init : KeptInv .init := ⟨fun _ => rfl, by simp [SetpointSystem.init]⟩

/-- What a step does to the channel and the last request. -/
inductive SetpointStep (s : SetpointSystem) (e : SetpointEvent) (t : SetpointSystem) : Prop where
  | requested (who : Requester) (hnone : s.lastRestore e = none)
      (hset : t.setpoint = t.requested) (hwho : t.requester = some who)
      (hlost : who = .failsafe → t.requested = handsetLostSetpointCb)
  | unchanged (hnone : s.lastRestore e = none) (hquiet : t.Quiet → s.Quiet)
      (hset : t.setpoint = s.setpoint) (hreq : t.requested = s.requested)
      (hwho : t.requester = s.requester)
  | busy (hnone : s.lastRestore e = none) (hbusy : ¬ t.Quiet) (hreq : t.requested = s.requested)
      (hwho : t.requester = s.requester)
  | restored (v : UInt8) (published : Bool) (hlast : s.lastRestore e = some (v, published))
      (hquiet : t.Quiet) (hset : t.setpoint = publishSetpoint s.setpoint v published)
      (hreq : t.requested = s.requested) (hwho : t.requester = s.requester)

theorem request_cases {s : SetpointSystem} {e : SetpointEvent} {who : Requester} {v : UInt8}
    (published : Bool) (f : HandsetFailsafe) (hnone : s.lastRestore e = none)
    (hlost : who = .failsafe → v = handsetLostSetpointCb) :
    SetpointStep s e { s.request who v published with failsafe := f } := by
  cases published with
  | true => exact .requested who hnone rfl rfl hlost
  | false => exact .unchanged hnone id rfl rfl rfl

theorem setpointStep_cases {s t : SetpointSystem} {e : SetpointEvent}
    (h : setpointStep s e = some t) : SetpointStep s e t := by
  cases e with
  | respSetpoint data published =>
    cases Option.some.inj h
    cases published with
    | true => exact .requested .diver rfl rfl rfl Requester.noConfusion
    | false => exact .unchanged rfl id rfl rfl rfl
  | udsSetpoint data published =>
    cases Option.some.inj h
    cases published with
    | true => exact .requested .uds rfl rfl rfl Requester.noConfusion
    | false => exact .unchanged rfl id rfl rfl rfl
  | handsetPing now =>
    cases Option.some.inj h
    exact .unchanged rfl id rfl rfl rfl
  | rxLoop now published =>
    cases Option.some.inj h
    unfold handsetFailsafeStep
    split
    · exact request_cases published _ rfl fun _ => rfl
    · exact .unchanged rfl id rfl rfl rfl
  | calRead ok =>
    simp only [setpointStep] at h
    split at h
    · cases Option.some.inj h
      exact .busy rfl (fun hq => by cases hq.1) rfl rfl
    · cases h
    · cases h
  | calSuppress published =>
    simp only [setpointStep] at h
    split at h
    · cases Option.some.inj h
      exact .busy rfl (fun hq => by cases hq.1) rfl rfl
    · cases h
    · cases h
  | calRestore published =>
    simp only [setpointStep] at h
    split at h
    · rename_i v hcal
      cases Option.some.inj h
      by_cases hidle : s.autotune = .idle
      · refine .restored v published ?_ ⟨rfl, hidle⟩ rfl rfl rfl
        simp [SetpointSystem.lastRestore, hidle, hcal, Borrower.restore]
      · refine .busy ?_ (fun hq => hidle hq.2) rfl rfl
        simp [SetpointSystem.lastRestore, hidle]
    · cases h
    · cases h
  | tuneRead base ok =>
    simp only [setpointStep] at h
    split at h
    · cases Option.some.inj h
      exact .busy rfl (fun hq => by cases hq.2) rfl rfl
    · cases h
    · cases h
  | tuneBase published =>
    simp only [setpointStep] at h
    split at h
    · cases Option.some.inj h
      exact .busy rfl (fun hq => by cases hq.2) rfl rfl
    · cases h
    · cases h
  | tuneRestore published =>
    have hend : ∀ v, s.autotune.restore = some v →
        SetpointStep s (.tuneRestore published)
          { s with autotune := .idle, setpoint := publishSetpoint s.setpoint v published } := by
      intro v hv
      by_cases hidle : s.cal = .idle
      · refine .restored v published ?_ ⟨hidle, rfl⟩ rfl rfl rfl
        simp [SetpointSystem.lastRestore, hidle, hv]
      · refine .busy ?_ (fun hq => hidle hq.1) rfl rfl
        simp [SetpointSystem.lastRestore, hidle]
    simp only [setpointStep] at h
    split at h
    · rename_i v temporary hsaved
      cases Option.some.inj h
      exact hend v (by rw [hsaved]; rfl)
    · rename_i v hrunning
      cases Option.some.inj h
      exact hend v (by rw [hrunning]; rfl)
    · cases h

/-- Of the last request, the failsafe's is always its own. -/
theorem KeptInv.requester {s t : SetpointSystem} {e : SetpointEvent} (hi : KeptInv s)
    (h : SetpointStep s e t) (hlost : t.requester = some .failsafe) :
    t.requested = handsetLostSetpointCb := by
  cases h with
  | requested who _ _ hwho hvalue => exact hvalue (Option.some.inj (hwho.symm.trans hlost))
  | unchanged _ _ _ hreq hwho | busy _ _ hreq hwho | restored _ _ _ _ _ hreq hwho =>
    exact hreq.trans (hi.failsafe (hwho.symm.trans hlost))

theorem KeptInv.step {s t : SetpointSystem} {e : SetpointEvent} (hi : KeptInv s)
    (hr : RestoresRequested s e) (h : SetpointStep s e t) : KeptInv t := by
  refine ⟨fun hq => ?_, hi.requester h⟩
  cases h with
  | requested _ _ hset _ _ => exact hset
  | unchanged _ hquiet hset hreq _ => rw [hset, hreq, hi.requested (hquiet hq)]
  | busy _ hbusy _ _ => exact absurd hq hbusy
  | restored v published hlast _ hset hreq _ => rw [hset, hreq, hr v published hlast]

theorem KeptInv.kept_iff {s t : SetpointSystem} {e : SetpointEvent} (hi : KeptInv s)
    (h : SetpointStep s e t) : Kept s e t ↔ RestoresRequested s e := by
  constructor
  · intro hk v published hlast
    cases h with
    | requested _ hnone | unchanged hnone | busy hnone =>
      rw [hnone] at hlast
      cases hlast
    | restored w sent hlast' hquiet hset hreq _ =>
      cases hlast.symm.trans hlast'
      rw [← hset, ← hreq, hk.requested hquiet]
  · intro hr
    have ht := hi.step hr h
    exact ⟨ht.requested, fun hq hlost => (ht.requested hq).trans (ht.failsafe hlost)⟩

/-! ## Runs nobody disturbs -/

/-- The setpoint a step requests. -/
def SetpointSystem.requests (s : SetpointSystem) : SetpointEvent → Option UInt8
  | .respSetpoint data true | .udsSetpoint data true => some (clampSetpointCb data)
  | .rxLoop now true =>
    if handsetFailsafeShouldRevert now s.failsafe handsetPingTimeoutMs then
      some handsetLostSetpointCb
    else none
  | _ => none

/-- A borrower reads the last request off the channel, nobody requests another setpoint under a
run, and the last restore is published. -/
structure Undisturbed (s : SetpointSystem) (e : SetpointEvent) : Prop where
  calRead : ∀ ok, e = .calRead ok →
    readSetpoint s.setpoint ok calRestoreFallbackCb = s.requested
  tuneRead : ∀ base ok, e = .tuneRead base ok → readSetpoint s.setpoint ok base = s.requested
  request : ∀ v w, s.requests e = some w →
    s.cal.restore = some v ∨ s.autotune.restore = some v → w = v
  restored : ∀ v published, s.lastRestore e = some (v, published) → published = true

/-- Every borrower will restore the last request. -/
structure Faithful (s : SetpointSystem) : Prop where
  cal : ∀ v, s.cal.restore = some v → v = s.requested
  autotune : ∀ v, s.autotune.restore = some v → v = s.requested

theorem Faithful.restoresRequested {s : SetpointSystem} {e : SetpointEvent} (hf : Faithful s)
    (hu : Undisturbed s e) : RestoresRequested s e := by
  intro v published hlast
  rw [hu.restored v published hlast, publishSetpoint, if_pos rfl]
  cases e with
  | calRestore p =>
    simp only [SetpointSystem.lastRestore] at hlast
    split at hlast
    · obtain ⟨w, hw, hp⟩ := Option.map_eq_some_iff.mp hlast
      cases hp
      exact hf.cal _ hw
    · cases hlast
  | tuneRestore p =>
    simp only [SetpointSystem.lastRestore] at hlast
    split at hlast
    · obtain ⟨w, hw, hp⟩ := Option.map_eq_some_iff.mp hlast
      cases hp
      exact hf.autotune _ hw
    · cases hlast
  | respSetpoint | udsSetpoint | handsetPing | rxLoop | calRead | calSuppress | tuneRead
  | tuneBase => cases hlast

/-- A request that agrees with what the borrowers will restore. -/
theorem Faithful.request {s : SetpointSystem} (hf : Faithful s) (who : Requester) {w : UInt8}
    (published : Bool)
    (hw : published = true → ∀ v, s.cal.restore = some v ∨ s.autotune.restore = some v → w = v) :
    Faithful (s.request who w published) := by
  cases published with
  | false => exact ⟨hf.cal, hf.autotune⟩
  | true => exact ⟨fun v hv => (hw rfl v (.inl hv)).symm, fun v hv => (hw rfl v (.inr hv)).symm⟩

theorem Faithful.step {s t : SetpointSystem} {e : SetpointEvent} (hf : Faithful s)
    (hu : Undisturbed s e) (h : setpointStep s e = some t) : Faithful t := by
  cases e with
  | respSetpoint data published =>
    cases Option.some.inj h
    refine hf.request .diver published fun hp v hv => hu.request v _ ?_ hv
    rw [hp, SetpointSystem.requests]
  | udsSetpoint data published =>
    cases Option.some.inj h
    refine hf.request .uds published fun hp v hv => hu.request v _ ?_ hv
    rw [hp, SetpointSystem.requests]
  | handsetPing now =>
    cases Option.some.inj h
    exact ⟨hf.cal, hf.autotune⟩
  | rxLoop now published =>
    cases Option.some.inj h
    unfold handsetFailsafeStep
    split
    · rename_i hrevert
      have hrequest := hf.request .failsafe (w := handsetLostSetpointCb) published
        fun hp v hv => hu.request v _ (by rw [hp, SetpointSystem.requests, if_pos hrevert]) hv
      exact ⟨hrequest.cal, hrequest.autotune⟩
    · exact hf
  | calRead ok =>
    simp only [setpointStep] at h
    split at h
    · cases Option.some.inj h
      refine ⟨fun v hv => ?_, hf.autotune⟩
      rw [← hu.calRead ok rfl]
      exact (Option.some.inj hv).symm
    · cases h
    · cases h
  | calSuppress published =>
    simp only [setpointStep] at h
    split at h
    · rename_i restore temporary hsaved
      cases Option.some.inj h
      refine ⟨fun v hv => hf.cal v ?_, hf.autotune⟩
      rw [hsaved]
      exact hv
    · cases h
    · cases h
  | calRestore published =>
    simp only [setpointStep] at h
    split at h
    · cases Option.some.inj h
      exact ⟨fun v hv => (Option.some_ne_none v hv.symm).elim, hf.autotune⟩
    · cases h
    · cases h
  | tuneRead base ok =>
    simp only [setpointStep] at h
    split at h
    · cases Option.some.inj h
      refine ⟨hf.cal, fun v hv => ?_⟩
      rw [← hu.tuneRead base ok rfl]
      exact (Option.some.inj hv).symm
    · cases h
    · cases h
  | tuneBase published =>
    simp only [setpointStep] at h
    split at h
    · rename_i restore temporary hsaved
      cases Option.some.inj h
      refine ⟨hf.cal, fun v hv => hf.autotune v ?_⟩
      rw [hsaved]
      exact hv
    · cases h
    · cases h
  | tuneRestore published =>
    simp only [setpointStep] at h
    split at h
    · cases Option.some.inj h
      exact ⟨hf.cal, fun v hv => (Option.some_ne_none v hv.symm).elim⟩
    · cases Option.some.inj h
      exact ⟨hf.cal, fun v hv => (Option.some_ne_none v hv.symm).elim⟩
    · cases h

theorem faithful_init : Faithful .init :=
  ⟨fun v hv => (Option.some_ne_none v hv.symm).elim,
    fun v hv => (Option.some_ne_none v hv.symm).elim⟩

/-! ## Runs -/

/-- No request is lost in exactly the runs whose last restores put back the last request, and so in
every run that is not disturbed. -/
theorem setpoint_kept (es : List SetpointEvent) :
    (Steps setpointStep Kept .init es ↔
      Steps setpointStep (fun s e _ => RestoresRequested s e) .init es) ∧
    (Steps setpointStep (fun s e _ => Undisturbed s e) .init es →
      Steps setpointStep Kept .init es) := by
  have hiff : Steps setpointStep Kept .init es ↔
      Steps setpointStep (fun s e _ => RestoresRequested s e) .init es := by
    refine Steps.iff_of_inv ?_ keptInv_init
    intro s e t hi h
    have hstep := setpointStep_cases h
    exact ⟨hi.kept_iff hstep, fun hr => hi.step hr hstep⟩
  refine ⟨hiff, fun hu => hiff.mpr ?_⟩
  refine Steps.of_inv ?_ faithful_init hu
  intro s e t hf hu h
  exact ⟨hf.step hu h, hf.restoresRequested hu⟩

/-- The diver asks for 1.00 bar while a calibration runs. -/
def requestUnderCalibration : List SetpointEvent :=
  [.calRead true, .calSuppress true, .respSetpoint 100 true, .calRestore true]

/-- The handset is lost while a calibration runs at 1.30 bar, and stays lost. -/
def lostUnderCalibration : List SetpointEvent :=
  [.handsetPing 0, .respSetpoint 130 true, .calRead true, .calSuppress true, .rxLoop 10001 true,
    .calRestore true, .rxLoop 60000 true]

/-- The diver's setpoint is overwritten, and so is the failsafe's, which never comes back. -/
theorem requests_lost :
    ¬ Steps setpointStep Kept .init requestUnderCalibration ∧
      ¬ Steps setpointStep Kept .init lostUnderCalibration ∧
      (exec setpointStep .init requestUnderCalibration).map SetpointSystem.setpoint = some 70 ∧
      (exec setpointStep .init lostUnderCalibration).map
        (fun s => (s.setpoint, s.failsafe.handsetLostApplied)) = some (130, true) := by
  have hkept : ∀ {es : List SetpointEvent}, Steps setpointStep Kept .init es →
      Steps setpointStep (fun _ _ t => t.cal = .idle ∧ t.autotune = .idle →
        t.setpoint = t.requested) .init es :=
    fun h => h.mono fun hk => hk.requested
  refine ⟨fun h => ?_, fun h => ?_, by decide +kernel, by decide +kernel⟩
  · have hrun := hkept h
    revert hrun
    decide +kernel
  · have hrun := hkept h
    revert hrun
    decide +kernel

end DiveCANHead.Control
