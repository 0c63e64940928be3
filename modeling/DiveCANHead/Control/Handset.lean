import DiveCANHead.Broadcast.Frames
import DiveCANHead.Control.Autotune
import DiveCANHead.Control.Setpoint
import DiveCANHead.Lib.BoundedQueue
import DiveCANHead.Lib.Uptime

/-!
# The receive thread and a lost handset (`divecan_rx.c`)

Frames wait in a queue; a turn of the thread takes one, answers it, reads the clock, serves what has
come in over ISO-TP, and looks at the reading whether the handset has been silent for too long. Then
the setpoint falls back to 0.70 bar, once for each ping of the handset: never early, and without
fail at the next turn that can publish it.
-/

namespace DiveCANHead.Control

open DiveCANHead.Lib DiveCANHead.IsoTp DiveCANHead.Uds DiveCANHead.Broadcast

/-! ## Frames -/

/-- `DIVECAN_ID_MASK`. -/
def divecanIdMask : UInt32 := 0x1FFFF000

/-- `DIVECAN_TYPE_MASK`. -/
def divecanTypeMask : UInt32 := 0x0F

def busIdId : UInt32 := 0x0D000000

def busInitId : UInt32 := 0x0D370000

def ppo2SetpointId : UInt32 := 0x0DC90000

def busStatusId : UInt32 := 0x0DCB0000

/-- `RX_QUEUE_SIZE`. -/
def rxQueueSize : ℕ := 48

/-- The device type in an identifier. -/
def sender (m : DiveCANMessage) : UInt32 := m.id &&& divecanTypeMask

/-- `DIVECAN_ERR_BAT_LOW`. -/
def divecanErrBatLow : UInt8 := 0x01

/-- `DIVECAN_ERR_BAT_NORM`. -/
def divecanErrBatNorm : UInt8 := 0x02

/-- `DIVECAN_ERR_BAT_MASK`. -/
def divecanErrBatMask : UInt8 := 0x03

/-- `DIVECAN_ERR_SOL_NORM`. -/
def divecanErrSolNorm : UInt8 := 0x08

/-- `txStatus`, with the battery shown. -/
def txStatus (deviceType : DiveCANType) (batteryVoltage setpoint error : UInt8) : DiveCANMessage :=
  let errByte :=
    if error &&& divecanErrBatMask ≠ divecanErrBatLow then
      (error &&& ~~~divecanErrBatMask) ||| divecanErrBatNorm
    else error
  .ofBytes (busStatusId ||| deviceType.code) 8
    [batteryVoltage, 0x00, 0x00, 0x00, 0x00, setpoint, 0xFF, errByte]

/-- The setpoint in a status frame. -/
def statusSetpoint (m : DiveCANMessage) : UInt8 := m.byte 5

/-! ## The thread -/

/-- Where the loop is: at the queue, behind a message, or behind the reading of the clock. -/
inductive RxPhase where
  | waiting
  | taken
  | polling (now : ℕ)
  deriving DecidableEq

/-- The queue, the channels, and the status frame that the last step sent. -/
structure RxThread where
  devType : DiveCANType
  clock : ℕ := 0
  queue : BoundedQueue DiveCANMessage rxQueueSize := .empty
  phase : RxPhase := .waiting
  system : SetpointSystem := .init
  setpointCmd : UInt8 := 70
  status : Option DiveCANMessage := none

/-- What a handler meets: whether its publications and its read of the setpoint come through, the
battery, and the solenoid status where it can be read. -/
structure DispatchInput where
  published : Bool := true
  cmdPublished : Bool := true
  readOk : Bool := true
  batteryV : UInt8 := 0
  batteryLow : Bool := false
  solStatus : Option UInt8 := none

/-- A frame comes in, the thread goes on, and calibration and autotune use the setpoint. -/
inductive RxEvent where
  | tick (ms : ℕ)
  | frame (m : DiveCANMessage)
  | get (i : DispatchInput)
  | readClock
  | udsSetpoint (data : UInt8) (published cmdPublished : Bool)
  | check (published : Bool)
  | borrower (e : SetpointEvent)

/-- Calibration and autotune; a base setpoint goes through `sanitize_params`. -/
def SetpointEvent.ofBorrower : SetpointEvent → Option SetpointEvent
  | .tuneRead base ok => some (.tuneRead (sanitizeParams ⟨base, 0, 0⟩).baseSetpointCb ok)
  | .calRead ok => some (.calRead ok)
  | .calSuppress published => some (.calSuppress published)
  | .calRestore published => some (.calRestore published)
  | .tuneBase published => some (.tuneBase published)
  | .tuneRestore published => some (.tuneRestore published)
  | .respSetpoint .. | .udsSetpoint .. | .handsetPing _ | .rxLoop .. => none

namespace RxThread

/-- `can_rx_callback`: an echo of an own frame is dropped, and so is what the queue cannot take. -/
def canRxCallback (r : RxThread) (m : DiveCANMessage) : RxThread :=
  if msgSource m.id = r.devType.code.toUInt8 then r
  else { r with queue := (r.queue.put m).getD r.queue }

/-- `NoteHandsetPing`. -/
def noteHandsetPing (r : RxThread) (m : DiveCANMessage) : RxThread :=
  if sender m = DiveCANType.controller.code then
    { r with system := { r.system with failsafe := Control.noteHandsetPing (uptime32 r.clock) } }
  else r

/-- `RespPing`; a setpoint that cannot be read is reported as 0. -/
def respPing (r : RxThread) (i : DispatchInput) (m : DiveCANMessage) : RxThread :=
  if sender m = DiveCANType.controller.code ∨ sender m = DiveCANType.monitor.code then
    let batErr := if i.batteryLow then divecanErrBatLow else 0
    { r with
      status := some (txStatus r.devType i.batteryV (readSetpoint r.system.setpoint i.readOk 0)
        (batErr ||| i.solStatus.getD divecanErrSolNorm)) }
  else r

/-- A commanded setpoint goes to both channels: `RespSetpoint`, `writeSetpointDID`. -/
def command (r : RxThread) (who : Requester) (data : UInt8) (published cmdPublished : Bool) :
    RxThread :=
  { r with
    system := r.system.request who (clampSetpointCb data) published
    setpointCmd := publishSetpoint r.setpointCmd (clampSetpointCb data) cmdPublished }

/-- `DispatchMessage`; the other messages touch neither the setpoint nor the failsafe. -/
def dispatchMessage (r : RxThread) (i : DispatchInput) (m : DiveCANMessage) : RxThread :=
  let id := m.id &&& divecanIdMask
  if id = busIdId then (r.noteHandsetPing m).respPing i m
  else if id = busInitId then r.respPing i m
  else if id = ppo2SetpointId then r.command .diver (m.byte 0) i.published i.cmdPublished
  else r

/-- `k_msgq_get`, which may time out, and the dispatch. -/
def getMessage (r : RxThread) (i : DispatchInput) : RxThread :=
  match r.queue.get with
  | some (m, queue) => { { r with queue }.dispatchMessage i m with phase := .taken }
  | none => { r with phase := .taken }

end RxThread

/-- `divecan_rx_thread` with what goes on around it. -/
def rxStep (r : RxThread) (e : RxEvent) : Option RxThread :=
  let r := { r with status := none }
  match e, r.phase with
  | .tick ms, _ => some { r with clock := r.clock + ms }
  | .frame m, _ => some (r.canRxCallback m)
  | .get i, .waiting => some (r.getMessage i)
  | .readClock, .taken => some { r with phase := .polling r.clock }
  | .udsSetpoint data published cmdPublished, .polling _ =>
    some (r.command .uds data published cmdPublished)
  | .check published, .polling now =>
    some { r with
      phase := .waiting, system := handsetFailsafeStep r.system (uptime32 now) published }
  | .borrower e, _ =>
    (e.ofBorrower.bind (setpointStep r.system)).map fun system => { r with system }
  | .get _, .taken | .get _, .polling _ | .readClock, .waiting | .readClock, .polling _
  | .udsSetpoint .., .waiting | .udsSetpoint .., .taken | .check _, .waiting
  | .check _, .taken => none

/-! ## What is observed -/

/-- A message is a ping of the handset. -/
def isHandsetPing (m : DiveCANMessage) : Bool :=
  m.id &&& divecanIdMask = busIdId ∧ sender m = DiveCANType.controller.code

/-- The ping of the handset that a step takes off the queue. -/
def RxThread.hears (r : RxThread) : RxEvent → Bool
  | .get _ =>
    (r.queue.get.map Prod.fst).any isHandsetPing
  | .tick _ | .frame _ | .readClock | .udsSetpoint .. | .check _ | .borrower _ => false

/-- The setpoint that the diver or UDS commands in a step. -/
def RxThread.commands (r : RxThread) : RxEvent → Option UInt8
  | .get _ =>
    ((r.queue.get.map Prod.fst).filter fun m => m.id &&& divecanIdMask = ppo2SetpointId).map
      fun m => clampSetpointCb (m.byte 0)
  | .udsSetpoint data _ _ => some (clampSetpointCb data)
  | .tick _ | .frame _ | .readClock | .check _ | .borrower _ => none

/-- A step publishes the fallback. -/
def RxThread.reverts (r : RxThread) (e : RxEvent) : Bool :=
  match e, r.phase with
  | .check published, .polling now =>
    published && handsetFailsafeShouldRevert (uptime32 now) r.system.failsafe handsetPingTimeoutMs
  | _, _ => false

/-- The thread, when it took the last ping of the handset off the queue, and whether it has
published the fallback since. -/
structure Observed where
  thread : RxThread
  heard : Option ℕ := none
  reverted : Bool := false

/-- `rxStep`, observed. -/
def observedStep (o : Observed) (e : RxEvent) : Option Observed :=
  (rxStep o.thread e).map fun thread =>
    if o.thread.hears e then ⟨thread, some o.thread.clock, false⟩
    else ⟨thread, o.heard, o.reverted || o.thread.reverts e⟩

/-- The setpoints that the loop may run at. -/
def ValidSetpoint (v : UInt8) : Prop := v = 19 ∨ 40 ≤ v ∧ v ≤ 160

instance decidableValidSetpoint (v : UInt8) : Decidable (ValidSetpoint v) :=
  inferInstanceAs (Decidable (_ ∨ _))

/-- The fallback is published only when the handset has been silent for more than ten seconds, and
once for each of its pings; the first turn to find it silent that can publish leaves it published.
The setpoint is always one the loop may run at, no one but the diver and UDS changes the commanded
one, and a handset is told the setpoint that is in force. -/
structure HandsetGuarded (o : Observed) (e : RxEvent) (t : Observed) : Prop where
  early : o.thread.reverts e = true → ∃ now p, o.thread.phase = .polling now ∧ o.heard = some p ∧
    p + handsetPingTimeoutMs.toNat < now ∧ o.reverted = false ∧
    t.thread.system.setpoint = handsetLostSetpointCb
  due : ∀ now p, e = .check true → o.thread.phase = .polling now → o.heard = some p →
    p + handsetPingTimeoutMs.toNat < now → now < p + UInt32.size → t.reverted = true
  range : ValidSetpoint t.thread.system.setpoint ∧ ValidSetpoint t.thread.setpointCmd
  commanded : t.thread.setpointCmd ≠ o.thread.setpointCmd →
    o.thread.commands e = some t.thread.setpointCmd
  told : ∀ f i, t.thread.status = some f → e = .get i → i.readOk = true →
    statusSetpoint f = t.thread.system.setpoint

/-! ## Setpoints -/

theorem validSetpoint_clamp (data : UInt8) : ValidSetpoint (clampSetpointCb data) := by
  unfold clampSetpointCb
  split
  · exact .inl rfl
  · split
    · decide
    · next hlow =>
      split
      · decide
      · next hhigh => exact .inr ⟨UInt8.not_lt.mp hlow, UInt8.not_lt.mp hhigh⟩

theorem validSetpoint_sanitize (base : UInt8) :
    ValidSetpoint (sanitizeParams ⟨base, 0, 0⟩).baseSetpointCb := by
  show ValidSetpoint (if base < 40 ∨ 160 < base ∨ base = 19 then 70 else base)
  split
  · decide
  · next h =>
    rw [not_or, not_or, UInt8.not_lt, UInt8.not_lt] at h
    exact .inr ⟨h.1, h.2.1⟩

/-- What a borrower will publish. -/
def Borrower.Valid : Borrower → Prop
  | .idle => True
  | .saved restore temporary => ValidSetpoint restore ∧ ValidSetpoint temporary
  | .running restore => ValidSetpoint restore

/-- The channel and all that will be published to it. -/
structure SetpointSystem.Valid (s : SetpointSystem) : Prop where
  setpoint : ValidSetpoint s.setpoint
  cal : s.cal.Valid
  autotune : s.autotune.Valid

theorem validSetpoint_publish {channel value : UInt8} (hchannel : ValidSetpoint channel)
    (hvalue : ValidSetpoint value) (published : Bool) :
    ValidSetpoint (publishSetpoint channel value published) := by
  cases published
  · exact hchannel
  · exact hvalue

theorem validSetpoint_read {channel fallback : UInt8} (hchannel : ValidSetpoint channel)
    (hfallback : ValidSetpoint fallback) (ok : Bool) :
    ValidSetpoint (readSetpoint channel ok fallback) := by
  cases ok
  · exact hfallback
  · exact hchannel

theorem SetpointSystem.Valid.request {s : SetpointSystem} (h : s.Valid) (who : Requester)
    {v : UInt8} (hv : ValidSetpoint v) (published : Bool) : (s.request who v published).Valid := by
  cases published
  · exact h
  · exact ⟨hv, h.cal, h.autotune⟩

/-- Calibration and autotune borrow and restore valid setpoints. -/
theorem SetpointSystem.Valid.borrower {s t : SetpointSystem} (h : s.Valid) {e f : SetpointEvent}
    (hf : e.ofBorrower = some f) (ht : setpointStep s f = some t) :
    t.Valid ∧ t.failsafe = s.failsafe := by
  have hread : ∀ ok fallback, ValidSetpoint fallback →
      ValidSetpoint (readSetpoint s.setpoint ok fallback) := fun ok _ hfallback =>
    validSetpoint_read h.setpoint hfallback ok
  have hpublish : ∀ v published, ValidSetpoint v →
      ValidSetpoint (publishSetpoint s.setpoint v published) := fun _ published hv =>
    validSetpoint_publish h.setpoint hv published
  have hcal := h.cal
  have htune := h.autotune
  cases e with
  | respSetpoint | udsSetpoint | handsetPing | rxLoop => cases hf
  | calRead ok =>
    obtain rfl := Option.some.inj hf
    simp only [setpointStep] at ht
    split at ht
    · obtain rfl := Option.some.inj ht
      exact ⟨⟨h.setpoint, ⟨hread ok _ (by decide), by decide⟩, htune⟩, rfl⟩
    · cases ht
    · cases ht
  | calSuppress published =>
    obtain rfl := Option.some.inj hf
    simp only [setpointStep] at ht
    split at ht
    · next hsaved =>
      obtain rfl := Option.some.inj ht
      rw [hsaved] at hcal
      exact ⟨⟨hpublish _ published hcal.2, hcal.1, htune⟩, rfl⟩
    · cases ht
    · cases ht
  | calRestore published =>
    obtain rfl := Option.some.inj hf
    simp only [setpointStep] at ht
    split at ht
    · next hrunning =>
      obtain rfl := Option.some.inj ht
      rw [hrunning] at hcal
      exact ⟨⟨hpublish _ published hcal, trivial, htune⟩, rfl⟩
    · cases ht
    · cases ht
  | tuneRead base ok =>
    obtain rfl := Option.some.inj hf
    have hbase := validSetpoint_sanitize base
    simp only [setpointStep] at ht
    split at ht
    · obtain rfl := Option.some.inj ht
      exact ⟨⟨h.setpoint, hcal, hread ok _ hbase, hbase⟩, rfl⟩
    · cases ht
    · cases ht
  | tuneBase published =>
    obtain rfl := Option.some.inj hf
    simp only [setpointStep] at ht
    split at ht
    · next hsaved =>
      obtain rfl := Option.some.inj ht
      rw [hsaved] at htune
      exact ⟨⟨hpublish _ published htune.2, hcal, htune.1⟩, rfl⟩
    · cases ht
    · cases ht
  | tuneRestore published =>
    obtain rfl := Option.some.inj hf
    simp only [setpointStep] at ht
    split at ht
    · next hsaved =>
      obtain rfl := Option.some.inj ht
      rw [hsaved] at htune
      exact ⟨⟨hpublish _ published htune.1, hcal, trivial⟩, rfl⟩
    · next hrunning =>
      obtain rfl := Option.some.inj ht
      rw [hrunning] at htune
      exact ⟨⟨hpublish _ published htune, hcal, trivial⟩, rfl⟩
    · cases ht

/-! ## Steps -/

/-- What the bookkeeping of the failsafe says: whether and when the handset was heard, and whether
the fallback has been published since. -/
structure Watching (o : Observed) : Prop where
  seen : o.thread.system.failsafe.handsetSeen = o.heard.isSome
  last : ∀ p, o.heard = some p →
    o.thread.system.failsafe.lastHandsetPingMs = uptime32 p ∧ p ≤ o.thread.clock
  applied : o.thread.system.failsafe.handsetLostApplied = o.reverted
  reading : ∀ now, o.thread.phase = .polling now →
    now ≤ o.thread.clock ∧ ∀ p, o.heard = some p → p ≤ now
  valid : o.thread.system.Valid
  cmd : ValidSetpoint o.thread.setpointCmd

theorem Watching.init (devType : DiveCANType) : Watching ⟨{ devType }, none, false⟩ where
  seen := rfl
  last := nofun
  applied := rfl
  reading := nofun
  valid := ⟨show ValidSetpoint 70 by decide, trivial, trivial⟩
  cmd := show ValidSetpoint 70 by decide

/-- The fallback is due exactly if the handset has been silent for too long and nothing was
published since, up to the wrap of the clock. -/
theorem shouldRevert_iff {o : Observed} (h : Watching o) {now : ℕ}
    (hphase : o.thread.phase = .polling now) :
    handsetFailsafeShouldRevert (uptime32 now) o.thread.system.failsafe
        handsetPingTimeoutMs = true ↔
      o.reverted = false ∧ ∃ p, o.heard = some p ∧
        handsetPingTimeoutMs.toNat < (now - p) % UInt32.size := by
  rw [handsetFailsafeShouldRevert, Bool.and_eq_true, Bool.and_eq_true, Bool.not_eq_true',
    decide_eq_true_eq, h.seen, h.applied]
  constructor
  · rintro ⟨⟨hseen, hreverted⟩, hlate⟩
    obtain ⟨p, hp⟩ := Option.isSome_iff_exists.mp hseen
    obtain ⟨hlast, -⟩ := h.last p hp
    rw [hlast, UInt32.lt_iff_toNat_lt, uptime32_sub ((h.reading now hphase).2 p hp)] at hlate
    exact ⟨hreverted, p, hp, hlate⟩
  · rintro ⟨hreverted, p, hp, hlate⟩
    obtain ⟨hlast, -⟩ := h.last p hp
    refine ⟨⟨by rw [hp]; rfl, hreverted⟩, ?_⟩
    rw [hlast, UInt32.lt_iff_toNat_lt, uptime32_sub ((h.reading now hphase).2 p hp)]
    exact hlate

/-- The end of a turn. -/
theorem failsafe_step (s : SetpointSystem) (now : UInt32) (published : Bool) :
    let due := handsetFailsafeShouldRevert now s.failsafe handsetPingTimeoutMs
    let t := handsetFailsafeStep s now published
    t.failsafe = { s.failsafe with
      handsetLostApplied := s.failsafe.handsetLostApplied || published && due } ∧
    t.setpoint = (if published && due then handsetLostSetpointCb else s.setpoint) ∧
    t.cal = s.cal ∧ t.autotune = s.autotune := by
  intro due t
  cases hdue : due with
  | false =>
    have ht : t = s := if_neg (Bool.eq_false_iff.mp hdue)
    rw [ht, Bool.and_false, Bool.or_false]
    exact ⟨rfl, rfl, rfl, rfl⟩
  | true =>
    have ht : t = { s.request .failsafe handsetLostSetpointCb published with
        failsafe := { s.failsafe with
          handsetLostApplied := published || s.failsafe.handsetLostApplied } } := if_pos hdue
    rw [ht, Bool.and_true, Bool.or_comm]
    cases published <;> exact ⟨rfl, rfl, rfl, rfl⟩

/-- An answered ping changes nothing but the frame that is sent. -/
theorem respPing_spec (r : RxThread) (i : DispatchInput) (m : DiveCANMessage) :
    r.respPing i m = { r with status := (r.respPing i m).status } ∧
      ∀ f, (r.respPing i m).status = some f → r.status = some f ∨
        statusSetpoint f = readSetpoint r.system.setpoint i.readOk 0 := by
  unfold RxThread.respPing
  split
  · exact ⟨rfl, fun f hf => .inr (Option.some.inj hf ▸ rfl)⟩
  · exact ⟨rfl, fun f hf => .inl hf⟩

theorem noteHandsetPing_spec (r : RxThread) (m : DiveCANMessage) :
    r.noteHandsetPing m = { r with
      system := { r.system with
        failsafe := if sender m = DiveCANType.controller.code then
          Control.noteHandsetPing (uptime32 r.clock) else r.system.failsafe } } := by
  unfold RxThread.noteHandsetPing
  split <;> rfl

/-- What a dispatch leaves: a ping of the handset is noted, and the setpoints stay valid. -/
structure Dispatched (r t : RxThread) (i : DispatchInput) (m : DiveCANMessage) : Prop where
  clock : t.clock = r.clock
  failsafe : t.system.failsafe =
    if isHandsetPing m then Control.noteHandsetPing (uptime32 r.clock) else r.system.failsafe
  valid : r.system.Valid → t.system.Valid
  cmd : ValidSetpoint r.setpointCmd → ValidSetpoint t.setpointCmd
  commanded : t.setpointCmd ≠ r.setpointCmd →
    m.id &&& divecanIdMask = ppo2SetpointId ∧ t.setpointCmd = clampSetpointCb (m.byte 0)
  told : r.status = none → i.readOk = true → ∀ f, t.status = some f →
    statusSetpoint f = t.system.setpoint

theorem command_valid {r : RxThread} (h : r.system.Valid) (who : Requester) (data : UInt8)
    (published cmdPublished : Bool) : (r.command who data published cmdPublished).system.Valid :=
  h.request who (validSetpoint_clamp data) published

theorem command_cmd {r : RxThread} (h : ValidSetpoint r.setpointCmd) (who : Requester)
    (data : UInt8) (published cmdPublished : Bool) :
    ValidSetpoint (r.command who data published cmdPublished).setpointCmd :=
  validSetpoint_publish h (validSetpoint_clamp data) cmdPublished

theorem command_failsafe (r : RxThread) (who : Requester) (data : UInt8)
    (published cmdPublished : Bool) :
    (r.command who data published cmdPublished).system.failsafe = r.system.failsafe := by
  cases published <;> rfl

theorem command_commanded {r : RxThread} {who : Requester} {data : UInt8}
    {published cmdPublished : Bool}
    (h : (r.command who data published cmdPublished).setpointCmd ≠ r.setpointCmd) :
    (r.command who data published cmdPublished).setpointCmd = clampSetpointCb data := by
  cases cmdPublished with
  | true => rfl
  | false => exact absurd rfl h

theorem Dispatched.respPing {r v : RxThread} {i : DispatchInput} {m : DiveCANMessage}
    (hclock : v.clock = r.clock) (hfailsafe : v.system.failsafe =
      if isHandsetPing m then Control.noteHandsetPing (uptime32 r.clock) else r.system.failsafe)
    (hvalid : r.system.Valid → v.system.Valid) (hcmd : v.setpointCmd = r.setpointCmd)
    (hstatus : v.status = r.status) : Dispatched r (v.respPing i m) i m := by
  obtain ⟨hrest, hsent⟩ := respPing_spec v i m
  refine ⟨?_, ?_, fun h => ?_, fun h => ?_, fun hne => ?_, fun hnone hread f hf => ?_⟩
  · rw [hrest]
    exact hclock
  · rw [hrest]
    exact hfailsafe
  · rw [hrest]
    exact hvalid h
  · rw [hrest]
    exact hcmd ▸ h
  · rw [hrest] at hne
    exact absurd hcmd hne
  · rcases hsent f hf with hold | hnew
    · rw [hstatus, hnone] at hold
      cases hold
    · rw [hnew, hread, hrest]
      rfl

theorem dispatchMessage_spec (r : RxThread) (i : DispatchInput) (m : DiveCANMessage) :
    Dispatched r (r.dispatchMessage i m) i m := by
  have hother : m.id &&& divecanIdMask ≠ busIdId → isHandsetPing m = false := fun h =>
    decide_eq_false fun hping => h hping.1
  unfold RxThread.dispatchMessage
  dsimp only
  by_cases hid : m.id &&& divecanIdMask = busIdId
  · rw [if_pos hid]
    have hheard : isHandsetPing m = decide (sender m = DiveCANType.controller.code) := by
      rw [isHandsetPing, decide_eq_decide]
      exact ⟨fun h => h.2, fun h => ⟨hid, h⟩⟩
    rw [noteHandsetPing_spec]
    refine Dispatched.respPing rfl ?_ (fun h => ⟨h.setpoint, h.cal, h.autotune⟩) rfl rfl
    rw [hheard]
    simp only [decide_eq_true_eq]
  · have hheard := hother hid
    rw [if_neg hid]
    by_cases hinit : m.id &&& divecanIdMask = busInitId
    · rw [if_pos hinit]
      exact Dispatched.respPing rfl (by rw [hheard]; rfl) id rfl rfl
    · rw [if_neg hinit]
      by_cases hset : m.id &&& divecanIdMask = ppo2SetpointId
      · rw [if_pos hset]
        refine ⟨rfl, ?_, fun h => command_valid h _ _ _ _, fun h => command_cmd h _ _ _ _,
          fun hne => ⟨hset, ?_⟩, fun hnone _ f hf => ?_⟩
        · rw [hheard, command_failsafe]
          rfl
        · exact command_commanded hne
        · exact absurd (hnone.symm.trans hf) (Option.some_ne_none f).symm
      · rw [if_neg hset]
        refine ⟨rfl, by rw [hheard]; rfl, id, id, fun hne => absurd rfl hne,
          fun hnone _ f hf => ?_⟩
        exact absurd (hnone.symm.trans hf) (Option.some_ne_none f).symm

section

variable {o t : Observed} {e : RxEvent} {u : RxThread}

/-- A step that takes no ping and publishes no fallback. -/
theorem observedStep_quiet (h : observedStep o e = some t) (hhears : o.thread.hears e = false)
    (hreverts : o.thread.reverts e = false) (hu : rxStep o.thread e = some u) :
    t = ⟨u, o.heard, o.reverted⟩ := by
  rw [observedStep, hu, Option.map_some, hhears, hreverts, Bool.or_false] at h
  exact (Option.some.inj h).symm

/-- A step that leaves the failsafe as it is. -/
theorem Watching.keep (h : Watching o) (hfailsafe : u.system.failsafe = o.thread.system.failsafe)
    (hclock : o.thread.clock ≤ u.clock)
    (hreading : ∀ now, u.phase = .polling now → o.thread.phase = .polling now ∨ now = u.clock)
    (hvalid : u.system.Valid) (hcmd : ValidSetpoint u.setpointCmd) :
    Watching ⟨u, o.heard, o.reverted⟩ where
  seen := by
    rw [hfailsafe]
    exact h.seen
  last := fun p hp => by
    obtain ⟨hlast, hle⟩ := h.last p hp
    rw [hfailsafe]
    exact ⟨hlast, hle.trans hclock⟩
  applied := by
    rw [hfailsafe]
    exact h.applied
  reading := fun now hnow => by
    rcases hreading now hnow with hphase | rfl
    · obtain ⟨hle, hheard⟩ := h.reading now hphase
      exact ⟨hle.trans hclock, hheard⟩
    · exact ⟨le_rfl, fun p hp => (h.last p hp).2.trans hclock⟩
  valid := hvalid
  cmd := hcmd

/-- A step that is no look at the clock's reading. -/
theorem HandsetGuarded.of_quiet (ht : Watching t) (hcheck : ∀ published, e ≠ .check published)
    (hcmd : t.thread.setpointCmd ≠ o.thread.setpointCmd →
      o.thread.commands e = some t.thread.setpointCmd)
    (htold : ∀ f i, t.thread.status = some f → e = .get i → i.readOk = true →
      statusSetpoint f = t.thread.system.setpoint) : HandsetGuarded o e t where
  early := fun hreverts => by
    unfold RxThread.reverts at hreverts
    split at hreverts
    · exact absurd rfl (hcheck _)
    · cases hreverts
  due := fun _ _ he => absurd he (hcheck true)
  range := ⟨ht.valid.setpoint, ht.cmd⟩
  commanded := hcmd
  told := htold

theorem rxStep_get {r : RxThread} {i : DispatchInput} (h : rxStep r (.get i) = some u) :
    u = ({ r with status := none } : RxThread).getMessage i := by
  obtain ⟨devType, clock, queue, phase, system, setpointCmd, status⟩ := r
  cases phase with
  | waiting => exact (Option.some.inj h).symm
  | taken | polling now => cases h

/-- A message is taken off the queue. -/
theorem Watching.get (h : Watching o) {i : DispatchInput}
    (ht : observedStep o (.get i) = some t) : Watching t ∧ HandsetGuarded o (.get i) t := by
  obtain ⟨u, hu, hmap⟩ := Option.map_eq_some_iff.mp ht
  obtain rfl := rxStep_get hu
  cases hget : o.thread.queue.get with
  | none =>
    have hhears : o.thread.hears (.get i) = false := by rw [RxThread.hears, hget]; rfl
    have hnone : ({ o.thread with status := none } : RxThread).getMessage i =
        { o.thread with status := none, phase := .taken } := by
      unfold RxThread.getMessage
      rw [show ({ o.thread with status := none } : RxThread).queue.get = none from hget]
    rw [observedStep_quiet ht hhears rfl hu, hnone]
    have hwatching := h.keep (u := { o.thread with status := none, phase := .taken }) rfl le_rfl
      nofun h.valid h.cmd
    exact ⟨hwatching, .of_quiet hwatching nofun (fun hne => absurd rfl hne) nofun⟩
  | some taken =>
    obtain ⟨m, queue⟩ := taken
    let before : RxThread := { o.thread with status := none, queue }
    have hsome : ({ o.thread with status := none } : RxThread).getMessage i =
        { before.dispatchMessage i m with phase := .taken } := by
      unfold RxThread.getMessage
      rw [show ({ o.thread with status := none } : RxThread).queue.get = some (m, queue) from hget]
    have hd := dispatchMessage_spec before i m
    have hhears : o.thread.hears (.get i) = isHandsetPing m := by
      rw [RxThread.hears, hget]
      rfl
    have hcommanded : (before.dispatchMessage i m).setpointCmd ≠ o.thread.setpointCmd →
        o.thread.commands (.get i) = some (before.dispatchMessage i m).setpointCmd := by
      intro hne
      obtain ⟨hid, hcmd⟩ := hd.commanded hne
      rw [hcmd, RxThread.commands, hget, Option.map_some, Option.filter_some,
        if_pos (decide_eq_true hid), Option.map_some]
    have htold : ∀ f j, (before.dispatchMessage i m).status = some f → RxEvent.get i = .get j →
        j.readOk = true → statusSetpoint f = (before.dispatchMessage i m).system.setpoint := by
      intro f j hf hj hread
      obtain rfl := RxEvent.get.inj hj
      exact hd.told rfl hread f hf
    have hfailsafe := hd.failsafe
    rw [hhears, hsome] at hmap
    cases hping : isHandsetPing m with
    | true =>
      rw [hping, if_pos rfl] at hmap hfailsafe
      obtain rfl := hmap
      have hwatching : Watching ⟨{ before.dispatchMessage i m with phase := .taken },
          some o.thread.clock, false⟩ := by
        refine ⟨congrArg HandsetFailsafe.handsetSeen hfailsafe, fun p hp => ?_,
          congrArg HandsetFailsafe.handsetLostApplied hfailsafe, nofun, hd.valid h.valid,
          hd.cmd h.cmd⟩
        obtain rfl := Option.some.inj hp
        exact ⟨congrArg HandsetFailsafe.lastHandsetPingMs hfailsafe, hd.clock.ge⟩
      exact ⟨hwatching, .of_quiet hwatching nofun hcommanded htold⟩
    | false =>
      rw [hping] at hhears hfailsafe
      rw [observedStep_quiet ht hhears rfl hu, hsome]
      have hwatching := h.keep (u := { before.dispatchMessage i m with phase := .taken })
        hfailsafe hd.clock.ge nofun (hd.valid h.valid) (hd.cmd h.cmd)
      exact ⟨hwatching, .of_quiet hwatching nofun hcommanded htold⟩

theorem rxStep_check {r : RxThread} {published : Bool}
    (h : rxStep r (.check published) = some u) : ∃ now, r.phase = .polling now ∧
      u = { r with
        status := none, phase := .waiting
        system := handsetFailsafeStep r.system (uptime32 now) published } := by
  obtain ⟨devType, clock, queue, phase, system, setpointCmd, status⟩ := r
  cases phase with
  | waiting | taken => cases h
  | polling now => exact ⟨now, rfl, (Option.some.inj h).symm⟩

/-- The end of a turn. -/
theorem Watching.check (h : Watching o) {published : Bool}
    (ht : observedStep o (.check published) = some t) :
    Watching t ∧ HandsetGuarded o (.check published) t := by
  obtain ⟨u, hu, hmap⟩ := Option.map_eq_some_iff.mp ht
  obtain ⟨now, hphase, rfl⟩ := rxStep_check hu
  have hreverts : o.thread.reverts (.check published) = (published &&
      handsetFailsafeShouldRevert (uptime32 now) o.thread.system.failsafe
        handsetPingTimeoutMs) := by
    unfold RxThread.reverts
    rw [hphase]
  have hiff := shouldRevert_iff h hphase
  obtain ⟨hle, hheard⟩ := h.reading now hphase
  obtain ⟨hfailsafe, hsetpoint, hcal, htune⟩ :=
    failsafe_step o.thread.system (uptime32 now) published
  rw [← hreverts] at hfailsafe hsetpoint
  obtain rfl := hmap
  rw [show o.thread.hears (.check published) = false from rfl, if_neg Bool.false_ne_true]
  have hwatching : Watching ⟨{ o.thread with
      status := none, phase := .waiting
      system := handsetFailsafeStep o.thread.system (uptime32 now) published }, o.heard,
        o.reverted || o.thread.reverts (.check published)⟩ := by
    refine ⟨?_, fun p hp => ?_, ?_, nofun, ⟨?_, ?_, ?_⟩, h.cmd⟩
    · exact (congrArg HandsetFailsafe.handsetSeen hfailsafe).trans h.seen
    · obtain ⟨hlast, hclock⟩ := h.last p hp
      exact ⟨(congrArg HandsetFailsafe.lastHandsetPingMs hfailsafe).trans hlast, hclock⟩
    · refine (congrArg HandsetFailsafe.handsetLostApplied hfailsafe).trans ?_
      dsimp only
      rw [h.applied]
    · show ValidSetpoint (handsetFailsafeStep o.thread.system (uptime32 now) published).setpoint
      rw [hsetpoint]
      split
      · decide
      · exact h.valid.setpoint
    · show (handsetFailsafeStep o.thread.system (uptime32 now) published).cal.Valid
      rw [hcal]
      exact h.valid.cal
    · show (handsetFailsafeStep o.thread.system (uptime32 now) published).autotune.Valid
      rw [htune]
      exact h.valid.autotune
  refine ⟨hwatching, fun hrevert => ?_, fun now' p he hnow hp hlate hsoon => ?_,
    ⟨hwatching.valid.setpoint, hwatching.cmd⟩, fun hne => absurd rfl hne, nofun⟩
  · rw [hrevert, if_pos rfl] at hsetpoint
    rw [hreverts, Bool.and_eq_true] at hrevert
    obtain ⟨hreverted, p, hp, hlate⟩ := hiff.mp hrevert.2
    have hmod : (now - p) % UInt32.size ≤ now - p := Nat.mod_le _ _
    exact ⟨now, p, hphase, hp, by omega, hreverted, hsetpoint⟩
  · obtain rfl := RxEvent.check.inj he
    obtain rfl := RxPhase.polling.inj (hphase.symm.trans hnow)
    show (o.reverted || o.thread.reverts (.check true)) = true
    cases hreverted : o.reverted with
    | true => rfl
    | false =>
      rw [Bool.false_or, hreverts, Bool.true_and, hiff]
      refine ⟨hreverted, p, hp, ?_⟩
      have hpast := hheard p hp
      rw [Nat.mod_eq_of_lt (by omega)]
      omega

theorem rxStep_readClock {r : RxThread} (h : rxStep r .readClock = some u) :
    u = { r with status := none, phase := .polling r.clock } := by
  obtain ⟨devType, clock, queue, phase, system, setpointCmd, status⟩ := r
  cases phase with
  | taken => exact (Option.some.inj h).symm
  | waiting | polling now => cases h

theorem rxStep_udsSetpoint {r : RxThread} {data : UInt8} {published cmdPublished : Bool}
    (h : rxStep r (.udsSetpoint data published cmdPublished) = some u) :
    u = ({ r with status := none } : RxThread).command .uds data published cmdPublished := by
  obtain ⟨devType, clock, queue, phase, system, setpointCmd, status⟩ := r
  cases phase with
  | polling now => exact (Option.some.inj h).symm
  | waiting | taken => cases h

theorem canRxCallback_spec (r : RxThread) (m : DiveCANMessage) :
    ∃ queue, r.canRxCallback m = { r with queue } := by
  unfold RxThread.canRxCallback
  split
  · exact ⟨r.queue, rfl⟩
  · exact ⟨(r.queue.put m).getD r.queue, rfl⟩

/-- One step of the thread or of what goes on around it. -/
theorem Watching.step (h : Watching o) (ht : observedStep o e = some t) :
    Watching t ∧ HandsetGuarded o e t := by
  cases e with
  | get i => exact h.get ht
  | check published => exact h.check ht
  | tick ms =>
    obtain rfl := observedStep_quiet ht rfl rfl rfl
    have hwatching := h.keep (u := { o.thread with
      status := none, clock := o.thread.clock + ms }) rfl (Nat.le_add_right _ _)
      (fun _ hnow => .inl hnow) h.valid h.cmd
    exact ⟨hwatching, .of_quiet hwatching nofun (fun hne => absurd rfl hne) nofun⟩
  | frame m =>
    obtain rfl := observedStep_quiet ht rfl rfl rfl
    obtain ⟨queue, hqueue⟩ := canRxCallback_spec { o.thread with status := none } m
    rw [hqueue]
    have hwatching := h.keep (u := { o.thread with status := none, queue }) rfl le_rfl
      (fun _ hnow => .inl hnow) h.valid h.cmd
    exact ⟨hwatching, .of_quiet hwatching nofun (fun hne => absurd rfl hne) nofun⟩
  | readClock =>
    obtain ⟨u, hu, -⟩ := Option.map_eq_some_iff.mp ht
    obtain rfl := observedStep_quiet ht rfl rfl hu
    obtain rfl := rxStep_readClock hu
    have hwatching := h.keep (u := { o.thread with
      status := none, phase := .polling o.thread.clock }) rfl le_rfl
      (fun _ hnow => .inr (RxPhase.polling.inj hnow).symm) h.valid h.cmd
    exact ⟨hwatching, .of_quiet hwatching nofun (fun hne => absurd rfl hne) nofun⟩
  | udsSetpoint data published cmdPublished =>
    obtain ⟨u, hu, -⟩ := Option.map_eq_some_iff.mp ht
    obtain rfl := observedStep_quiet ht rfl rfl hu
    obtain rfl := rxStep_udsSetpoint hu
    have hwatching := h.keep (u := ({ o.thread with status := none } : RxThread).command .uds data
      published cmdPublished) (command_failsafe _ .uds data published cmdPublished) le_rfl
      (fun _ hnow => .inl hnow) (command_valid h.valid .uds data published cmdPublished)
      (command_cmd h.cmd .uds data published cmdPublished)
    refine ⟨hwatching, .of_quiet hwatching nofun (fun hne => ?_) nofun⟩
    exact congrArg some (command_commanded hne).symm
  | borrower f =>
    obtain ⟨u, hu, -⟩ := Option.map_eq_some_iff.mp ht
    obtain rfl := observedStep_quiet ht rfl rfl hu
    obtain ⟨system, hsystem, rfl⟩ := Option.map_eq_some_iff.mp hu
    obtain ⟨g, hg, hstep⟩ := Option.bind_eq_some_iff.mp hsystem
    obtain ⟨hvalid, hfailsafe⟩ := h.valid.borrower hg hstep
    have hwatching := h.keep (u := { o.thread with status := none, system }) hfailsafe le_rfl
      (fun _ hnow => .inl hnow) hvalid h.cmd
    exact ⟨hwatching, .of_quiet hwatching nofun (fun hne => absurd rfl hne) nofun⟩

end

/-- In every run of the receive thread among the frames on the bus, UDS, calibration and autotune,
the fallback for a lost handset is never early, comes once for each ping, and is not skipped by a
turn that can publish it; the setpoint is always one the loop may run at. -/
theorem handset_guarded (devType : DiveCANType) (es : List RxEvent) :
    Steps observedStep HandsetGuarded ⟨{ devType }, none, false⟩ es := by
  have hstep : ∀ {o e t}, Watching o → True → observedStep o e = some t →
      Watching t ∧ HandsetGuarded o e t := fun h _ ht => h.step ht
  exact Steps.of_inv hstep (Watching.init devType) (Steps.of_mem fun _ _ => trivial)

end DiveCANHead.Control
