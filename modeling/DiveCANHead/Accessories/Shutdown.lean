import DiveCANHead.Alarm.Channel
import DiveCANHead.Lib.Runs

/-!
# The Poseidon accessories and their shutdown (`poseidon_accessories.c`)

The accessory thread refreshes both peers on an alarm and at every fourth tick, in one group of
frames under the bus lock; another thread's shutdown waits for it to park, but only so long, and
sends its own group then. The thread tests the shutdown flag once an iteration, so a shutdown that
has waited in vain may take the bus before a refresh that is already due.
-/

namespace DiveCANHead.Accessories

open DiveCANHead.Lib DiveCANHead.Alarm

/-! ## Frames -/

/-- A frame for a peer. Its length byte is fixed and its CRC follows from these. -/
structure Frame where
  addr : UInt8
  cmd : UInt8
  data : UInt8
  deriving DecidableEq, Repr

def hudAddr : UInt8 := 0x40
def batteryAddr : UInt8 := 0x43
def poseidonCmdHeartbeat : UInt8 := 0x00
def poseidonCmdDs2782Read : UInt8 := 0x5A
def hudCmdVibrator : UInt8 := 0x0B
def hudCmdLed : UInt8 := 0x0C
def batteryCmdInit : UInt8 := 0x2D
def batteryCmdLed : UInt8 := 0x0D
def batteryCmdSpeaker : UInt8 := 0x0E
def poseidonStateOn : UInt8 := 0x00
def poseidonStateOff : UInt8 := 0x01
def poseidonHeartbeatNormal : UInt8 := 0x00
def poseidonHeartbeatShutdown : UInt8 := 0x01
def beepPatternAlarm : UInt8 := 0x02
def beepPatternStop : UInt8 := 0x03

/-- The deliberate-shutdown heartbeat. -/
def Frame.IsShutdown (f : Frame) : Prop :=
  f.cmd = poseidonCmdHeartbeat ∧ f.data = poseidonHeartbeatShutdown

/-- An ordinary heartbeat or an alarm frame. -/
def Frame.IsOrdinary (f : Frame) : Prop :=
  (f.cmd = poseidonCmdHeartbeat ∧ f.data = poseidonHeartbeatNormal) ∨
    f.cmd = hudCmdVibrator ∨ f.cmd = hudCmdLed ∨ f.cmd = batteryCmdLed ∨ f.cmd = batteryCmdSpeaker

instance Frame.decidableIsShutdown (f : Frame) : Decidable f.IsShutdown := by
  unfold IsShutdown
  infer_instance

instance Frame.decidableIsOrdinary (f : Frame) : Decidable f.IsOrdinary := by
  unfold IsOrdinary
  infer_instance

/-- No peer gets an ordinary frame after its shutdown heartbeat. -/
def Ordered (wire : List Frame) : Prop :=
  wire.Pairwise fun f g => f.IsShutdown → g.addr = f.addr → ¬ g.IsOrdinary

instance decidableOrdered (wire : List Frame) : Decidable (Ordered wire) := by
  unfold Ordered
  infer_instance

/-- The solicit of a half of the DS2782 current register. -/
def ds2782Frame (reg : UInt8) : Frame := ⟨batteryAddr, poseidonCmdDs2782Read, reg⟩

/-- The group of `poseidon_accessories_shutdown`. -/
def shutdownFrames : List Frame :=
  [⟨hudAddr, hudCmdVibrator, poseidonStateOff⟩, ⟨hudAddr, hudCmdLed, poseidonStateOff⟩,
    ⟨batteryAddr, batteryCmdLed, poseidonStateOff⟩,
    ⟨batteryAddr, batteryCmdSpeaker, beepPatternStop⟩,
    ⟨hudAddr, poseidonCmdHeartbeat, poseidonHeartbeatShutdown⟩,
    ⟨batteryAddr, poseidonCmdHeartbeat, poseidonHeartbeatShutdown⟩]

/-- How the tries at a frame go: the status of each transfer, and whether a recovery of the bus
succeeds. -/
structure Tries where
  rcs : ℕ → ℤ
  recovered : Bool

/-- `i2c1_error_is_retryable`: `-EBUSY`, `-EAGAIN`, `-ETIMEDOUT` or `-EIO`. -/
def i2c1ErrorIsRetryable (rc : ℤ) : Bool := rc == -16 || rc == -11 || rc == -116 || rc == -5

/-- The loop of `send_retry_locked`: how many transfers were made, and the last status. -/
def sendLoop (rcs : ℕ → ℤ) : ℕ → ℕ → ℤ → ℕ × ℤ
  | 0, attempt, rc => (attempt, rc)
  | left + 1, attempt, _ =>
    if rcs attempt = 0 then (attempt + 1, 0) else sendLoop rcs left (attempt + 1) (rcs attempt)

/-- `send_retry_locked`: three tries, and one more if the bus was wedged and recovers. -/
def sendRetryLocked (tries : Tries) : ℕ × ℤ :=
  let sent := sendLoop tries.rcs 3 0 (-5)
  if sent.2 ≠ 0 ∧ i2c1ErrorIsRetryable sent.2 = true ∧ tries.recovered = true then
    (sent.1 + 1, tries.rcs sent.1)
  else sent

/-! ## The threads -/

/-- Which frame of its group `refresh_outputs` sends next. -/
inductive RefreshPoint where
  | hudHeartbeat
  | hudVibrator
  | hudLed
  | batteryHeartbeat
  | batteryInit
  | batteryLed
  | batterySpeaker
  | noteActivity
  deriving DecidableEq, Repr

/-- Where the accessory thread is: about to test the flag; in its wait; awake, about to decide on a
refresh; about to take the bus for one; within the group, with `speaker_armed`; or parked. -/
inductive AccessoryPhase where
  | testing
  | waiting
  | awake (alarmEvent : Bool)
  | refreshing
  | sending (next : RefreshPoint) (speakerArmed : Bool)
  | parked
  deriving DecidableEq, Repr

/-- Where `poseidon_accessories_shutdown` is: not called; draining, with that many sleeps left;
about to take the bus; within its group; or done. -/
inductive ShutdownPhase where
  | idle
  | draining (left : ℕ)
  | locking
  | sending (left : List Frame)
  | done
  deriving DecidableEq, Repr

/-- The two that hold the bus over several frames. -/
inductive BusHolder where
  | accessories
  | shutdown
  deriving DecidableEq, Repr

/-- The module's variables, the bus lock, both threads and, for the statements, what was put on the
wire. -/
structure AccessorySystem where
  shutdownActive : Bool
  accessoryParked : Bool
  batteryInited : Bool
  alarms : AlarmMask
  ticksSinceRefresh : ℕ
  bus : Option BusHolder
  accessory : AccessoryPhase
  shutdown : ShutdownPhase
  wire : List Frame
  off : Bool
  deriving DecidableEq, Repr

inductive AccessoryEvent where
  | request
  | drain
  | shutdownLock
  | shutdownSend (tries : Tries)
  | shutdownUnlock
  | powerOff
  | test
  | wake (alarmEvent : Bool)
  | solicit (reg : UInt8)
  | decide (read : Option AlarmMask)
  | accessoryLock
  | accessorySend (tries : Tries)
  | accessoryUnlock
  | trigger

/-- `REFRESH_TICKS`. -/
def refreshTicks : ℕ := 2000 / 500

/-- `drain_polls`. -/
def drainPolls : ℕ := 500 / 10

/-- The frame `refresh_outputs` sends at a point of its group. -/
def refreshFrame (alarms : AlarmMask) : RefreshPoint → Option Frame
  | .hudHeartbeat => some ⟨hudAddr, poseidonCmdHeartbeat, poseidonHeartbeatNormal⟩
  | .hudVibrator => some ⟨hudAddr, hudCmdVibrator, state⟩
  | .hudLed => some ⟨hudAddr, hudCmdLed, state⟩
  | .batteryHeartbeat => some ⟨batteryAddr, poseidonCmdHeartbeat, poseidonHeartbeatNormal⟩
  | .batteryInit => some ⟨batteryAddr, batteryCmdInit, 0x00⟩
  | .batteryLed => some ⟨batteryAddr, batteryCmdLed, state⟩
  | .batterySpeaker => some ⟨batteryAddr, batteryCmdSpeaker, beep⟩
  | .noteActivity => none
where
  state : UInt8 := if alarms ≠ 0 then poseidonStateOn else poseidonStateOff
  beep : UInt8 := if alarms ≠ 0 then beepPatternAlarm else beepPatternStop

/-- Where `refresh_outputs` goes after a frame that came to `rc`. The speaker waits for the cycle
after the one in which the battery was initialised. -/
def refreshNext (inited : Bool) (rc : ℤ) (armed : Bool) : RefreshPoint → AccessoryPhase
  | .hudHeartbeat => .sending .hudVibrator armed
  | .hudVibrator => .sending .hudLed armed
  | .hudLed => .sending .batteryHeartbeat inited
  | .batteryHeartbeat =>
    if inited = false ∧ rc = 0 then .sending .batteryInit armed else .sending .batteryLed armed
  | .batteryInit => .sending .batteryLed armed
  | .batteryLed => if armed = true then .sending .batterySpeaker armed
    else .sending .noteActivity armed
  | .batterySpeaker | .noteActivity => .sending .noteActivity armed

/-- Whether the thread refreshes when it decides: on an alarm event, or at the fourth tick. -/
def AccessorySystem.refreshDue (s : AccessorySystem) : Prop :=
  s.accessory = .awake true ∨ refreshTicks ≤ s.ticksSinceRefresh + 1

instance AccessorySystem.decidableRefreshDue (s : AccessorySystem) : Decidable s.refreshDue := by
  unfold refreshDue
  infer_instance

/-- One step of `poseidon_accessories_shutdown`. -/
def shutdownStep (s : AccessorySystem) : AccessoryEvent → Option AccessorySystem
  | .request =>
    if s.shutdownActive = true then some s
    else some { s with shutdownActive := true, shutdown := .draining drainPolls }
  | .drain =>
    match s.shutdown with
    | .draining left =>
      some { s with
        shutdown := if s.accessoryParked = true ∨ left = 0 then .locking
          else .draining (left - 1) }
    | _ => none
  | .shutdownLock =>
    if s.shutdown = .locking ∧ s.bus = none then
      some { s with bus := some .shutdown, shutdown := .sending shutdownFrames }
    else none
  | .shutdownSend tries =>
    match s.shutdown with
    | .sending (f :: left) =>
      some { s with
        wire := s.wire ++ List.replicate (sendRetryLocked tries).1 f
        shutdown := .sending left }
    | _ => none
  | .shutdownUnlock =>
    if s.shutdown = .sending [] then some { s with bus := none, shutdown := .done } else none
  | _ => none

/-- One step of the accessory thread, or of the trigger of a solenoid fire. -/
def accessoryStep (s : AccessorySystem) : AccessoryEvent → Option AccessorySystem
  | .test =>
    if s.accessory = .testing then
      some (if s.shutdownActive = true then { s with accessoryParked := true, accessory := .parked }
        else { s with accessory := .waiting })
    else none
  | .wake alarmEvent =>
    if s.accessory = .waiting then some { s with accessory := .awake alarmEvent } else none
  | .solicit reg =>
    match s.accessory with
    | .awake _ =>
      if s.bus = none then some { s with wire := s.wire ++ [ds2782Frame reg] } else none
    | _ => none
  | .trigger => if s.bus = none then some { s with wire := s.wire ++ [ds2782Frame 0x0E] } else none
  | .decide read =>
    match s.accessory with
    | .awake _ =>
      some (if s.refreshDue then
        { s with
          alarms := read.getD s.alarms
          ticksSinceRefresh := s.ticksSinceRefresh + 1
          accessory := .refreshing }
        else { s with ticksSinceRefresh := s.ticksSinceRefresh + 1, accessory := .testing })
    | _ => none
  | .accessoryLock =>
    if s.accessory = .refreshing ∧ s.bus = none then
      some { s with bus := some .accessories, accessory := .sending .hudHeartbeat false }
    else none
  | .accessorySend tries =>
    match s.accessory with
    | .sending next armed =>
      (refreshFrame s.alarms next).map fun f =>
        let sent := sendRetryLocked tries
        { s with
          wire := s.wire ++ List.replicate sent.1 f
          batteryInited := if next = .batteryInit then sent.2 == 0 else s.batteryInited
          accessory := refreshNext s.batteryInited sent.2 armed next }
    | _ => none
  | .accessoryUnlock =>
    match s.accessory with
    | .sending .noteActivity _ =>
      some { s with bus := none, ticksSinceRefresh := 0, accessory := .testing }
    | _ => none
  | _ => none

/-- One step of the system; nothing happens after the power is off. -/
def systemStep (s : AccessorySystem) (e : AccessoryEvent) : Option AccessorySystem :=
  if s.off = true then none
  else
    match e with
    | .powerOff => some { s with off := true }
    | .request | .drain | .shutdownLock | .shutdownSend _ | .shutdownUnlock => shutdownStep s e
    | .test | .wake _ | .solicit _ | .decide _ | .accessoryLock | .accessorySend _
    | .accessoryUnlock | .trigger => accessoryStep s e

/-- As the module starts: the first wake is to refresh. -/
def systemInit : AccessorySystem where
  shutdownActive := false
  accessoryParked := false
  batteryInited := false
  alarms := alarmPpo2Invalid
  ticksSinceRefresh := refreshTicks
  bus := none
  accessory := .testing
  shutdown := .idle
  wire := []
  off := false

/-! ## Frames in order -/

theorem ordered_of_no_shutdown {wire : List Frame} (h : ∀ f ∈ wire, ¬ f.IsShutdown) :
    Ordered wire :=
  List.pairwise_of_forall_mem_list fun f hf _ _ hs => absurd hs (h f hf)

/-- A frame that is not ordinary may follow any other. -/
theorem Ordered.concat {wire : List Frame} {g : Frame} (h : Ordered wire) (hg : ¬ g.IsOrdinary) :
    Ordered (wire ++ [g]) := by
  refine List.pairwise_append.mpr ⟨h, List.pairwise_singleton .., fun f _ g' hg' _ _ => ?_⟩
  rwa [List.mem_singleton.mp hg']

/-- A frame may be sent more than once, or not at all. -/
theorem Ordered.resend {wire left : List Frame} {f : Frame} (n : ℕ)
    (h : Ordered (wire ++ f :: left)) : Ordered (wire ++ List.replicate n f ++ left) := by
  obtain ⟨hwire, hleft, hcross⟩ := List.pairwise_append.mp h
  obtain ⟨hf, hleft⟩ := List.pairwise_cons.mp hleft
  have hself : f.IsShutdown → f.addr = f.addr → ¬ f.IsOrdinary := by
    intro hs _ ho
    rw [Frame.IsShutdown, poseidonCmdHeartbeat, poseidonHeartbeatShutdown] at hs
    revert ho
    simp [Frame.IsOrdinary, hs.1, hs.2, poseidonCmdHeartbeat, poseidonHeartbeatNormal,
      hudCmdVibrator, hudCmdLed, batteryCmdLed, batteryCmdSpeaker]
  rw [List.append_assoc]
  refine List.pairwise_append.mpr ⟨hwire, List.pairwise_append.mpr ⟨?_, hleft, ?_⟩, ?_⟩
  · exact List.pairwise_replicate.mpr (.inr hself)
  · intro a ha b hb
    rw [List.eq_of_mem_replicate ha]
    exact hf b hb
  · intro a ha b hb
    rcases List.mem_append.mp hb with hb | hb
    · rw [List.eq_of_mem_replicate hb]
      exact hcross a ha f List.mem_cons_self
    · exact hcross a ha b (List.mem_cons_of_mem f hb)

/-- The shutdown group is in order after any frames that are not shutdown heartbeats. -/
theorem ordered_shutdownFrames {wire : List Frame} (h : ∀ f ∈ wire, ¬ f.IsShutdown) :
    Ordered (wire ++ shutdownFrames) :=
  List.pairwise_append.mpr ⟨ordered_of_no_shutdown h, by decide, fun f hf _ _ hs =>
    absurd hs (h f hf)⟩

theorem ds2782Frame_not_ordinary (reg : UInt8) : ¬ (ds2782Frame reg).IsOrdinary := by
  simp [Frame.IsOrdinary, ds2782Frame, poseidonCmdDs2782Read, poseidonCmdHeartbeat,
    hudCmdVibrator, hudCmdLed, batteryCmdLed, batteryCmdSpeaker]

theorem ds2782Frame_not_shutdown (reg : UInt8) : ¬ (ds2782Frame reg).IsShutdown := by
  simp [Frame.IsShutdown, ds2782Frame, poseidonCmdDs2782Read, poseidonCmdHeartbeat]

theorem refreshFrame_not_shutdown {alarms : AlarmMask} {next : RefreshPoint} {f : Frame}
    (h : refreshFrame alarms next = some f) : ¬ f.IsShutdown := by
  cases next with
  | noteActivity => exact absurd h (by simp [refreshFrame])
  | _ =>
    obtain rfl := Option.some.inj h
    exact fun hs => absurd hs (by simp [Frame.IsShutdown, poseidonCmdHeartbeat,
      poseidonHeartbeatNormal, poseidonHeartbeatShutdown, hudCmdVibrator, hudCmdLed,
      batteryCmdInit, batteryCmdLed, batteryCmdSpeaker])

/-! ## Runs -/

/-- The frames the shutdown path has yet to send. -/
def ShutdownPhase.left : ShutdownPhase → List Frame
  | .sending left => left
  | _ => []

/-- The shutdown path has had the bus. -/
def ShutdownPhase.TookBus : ShutdownPhase → Prop
  | .sending _ | .done => True
  | _ => False

/-- The thread is to send a refresh, or is in the middle of it. -/
def AccessoryPhase.Refreshing : AccessoryPhase → Prop
  | .refreshing | .sending _ _ => True
  | _ => False

instance ShutdownPhase.decidableTookBus : ∀ p : ShutdownPhase, Decidable p.TookBus
  | .sending _ | .done => isTrue trivial
  | .idle | .draining _ | .locking => isFalse id

instance AccessoryPhase.decidableRefreshing : ∀ p : AccessoryPhase, Decidable p.Refreshing
  | .refreshing | .sending _ _ => isTrue trivial
  | .testing | .waiting | .awake _ | .parked => isFalse id

/-- The conditions on a step: the shutdown path takes the bus while no refresh is due, and the
thread decides on none once the shutdown path has had the bus. -/
def Clean (s : AccessorySystem) : AccessoryEvent → Prop
  | .shutdownLock => s.accessory ≠ .refreshing
  | .decide _ => s.refreshDue → ¬ s.shutdown.TookBus
  | _ => True

instance decidableClean (s : AccessorySystem) : ∀ e, Decidable (Clean s e)
  | .shutdownLock => inferInstanceAs (Decidable (s.accessory ≠ .refreshing))
  | .decide _ => inferInstanceAs (Decidable (s.refreshDue → ¬ s.shutdown.TookBus))
  | .request | .drain | .shutdownSend _ | .shutdownUnlock | .powerOff | .test | .wake _
  | .solicit _ | .accessoryLock | .accessorySend _ | .accessoryUnlock | .trigger => isTrue trivial

/-- What a run keeps. -/
structure SystemInv (s : AccessorySystem) : Prop where
  ordered : Ordered (s.wire ++ s.shutdown.left)
  early : ¬ s.shutdown.TookBus → ∀ f ∈ s.wire, ¬ f.IsShutdown
  late : s.shutdown.TookBus → ¬ s.accessory.Refreshing
  accessoryBus : ∀ next armed, s.accessory = .sending next armed → s.bus = some .accessories
  shutdownBus : ∀ left, s.shutdown = .sending left → s.bus = some .shutdown
  inactive : s.shutdownActive = false → s.shutdown = .idle

theorem systemInv_init : SystemInv systemInit where
  ordered := List.Pairwise.nil
  early _ _ hf := absurd hf List.not_mem_nil
  late h := h.elim
  accessoryBus _ _ h := nomatch h
  shutdownBus _ h := nomatch h
  inactive _ := rfl

/-- A step that moves the accessory thread outside its group keeps the invariant. -/
theorem SystemInv.moved {s t : AccessorySystem} (hi : SystemInv s) (hwire : t.wire = s.wire)
    (hbus : t.bus = s.bus) (hshut : t.shutdown = s.shutdown)
    (hactive : t.shutdownActive = s.shutdownActive)
    (hlate : t.shutdown.TookBus → ¬ t.accessory.Refreshing)
    (hout : ∀ next armed, t.accessory ≠ .sending next armed) : SystemInv t where
  ordered := by
    rw [hwire, hshut]
    exact hi.ordered
  early := by
    rw [hwire, hshut]
    exact hi.early
  late := hlate
  accessoryBus next armed h := absurd h (hout next armed)
  shutdownBus := by
    rw [hbus, hshut]
    exact hi.shutdownBus
  inactive := by
    rw [hactive, hshut]
    exact hi.inactive

/-- So does a solicit while the bus is free. -/
theorem SystemInv.solicited {s : AccessorySystem} (hi : SystemInv s) (hfree : s.bus = none)
    (reg : UInt8) : SystemInv { s with wire := s.wire ++ [ds2782Frame reg] } where
  ordered := by
    have hleft : s.shutdown.left = [] := by
      cases h : s.shutdown with
      | sending left => exact absurd (hi.shutdownBus left h) (by simp [hfree])
      | _ => rfl
    have hordered := hi.ordered
    rw [hleft, List.append_nil] at hordered ⊢
    exact hordered.concat (ds2782Frame_not_ordinary reg)
  early htook f hf := by
    rcases List.mem_append.mp hf with hf | hf
    · exact hi.early htook f hf
    · rw [List.mem_singleton.mp hf]
      exact ds2782Frame_not_shutdown reg
  late := hi.late
  accessoryBus := hi.accessoryBus
  shutdownBus := hi.shutdownBus
  inactive := hi.inactive

/-- Nor does a step of the shutdown path in its wait. -/
theorem SystemInv.waited {s t : AccessorySystem} (hi : SystemInv s) (hwire : t.wire = s.wire)
    (hbus : t.bus = s.bus) (hacc : t.accessory = s.accessory) (hactive : t.shutdownActive = true)
    (hs : ¬ s.shutdown.TookBus) (ht : ¬ t.shutdown.TookBus) : SystemInv t where
  ordered := by
    have hleft : t.shutdown.left = [] := by
      cases h : t.shutdown with
      | sending left => exact absurd (by rw [h]; trivial) ht
      | _ => rfl
    rw [hleft, List.append_nil, hwire]
    exact ordered_of_no_shutdown (hi.early hs)
  early _ := by
    rw [hwire]
    exact hi.early hs
  late h := absurd h ht
  accessoryBus := by
    rw [hbus, hacc]
    exact hi.accessoryBus
  shutdownBus left h := absurd (by rw [h]; trivial) ht
  inactive h := Bool.noConfusion (hactive.symm.trans h)

/-- While the shutdown path holds the bus the thread is outside its group. -/
theorem SystemInv.quiet {s : AccessorySystem} (hi : SystemInv s) (htook : s.shutdown.TookBus)
    {next : RefreshPoint} {armed : Bool} : s.accessory ≠ .sending next armed := by
  intro h
  have hlate := hi.late htook
  rw [h] at hlate
  exact hlate trivial

theorem SystemInv.active {s : AccessorySystem} (hi : SystemInv s) (h : s.shutdown ≠ .idle) :
    s.shutdownActive = true := by
  by_contra hoff
  exact h (hi.inactive (by simpa using hoff))

theorem SystemInv.shutdownStep {s t : AccessorySystem} {e : AccessoryEvent} (hi : SystemInv s)
    (hc : Clean s e) (hstep : shutdownStep s e = some t) : SystemInv t := by
  cases e with
  | request =>
    simp only [Accessories.shutdownStep] at hstep
    by_cases hactive : s.shutdownActive = true
    · rw [if_pos hactive] at hstep
      exact Option.some.inj hstep ▸ hi
    · rw [if_neg hactive] at hstep
      have hidle := hi.inactive (by simpa using hactive)
      obtain rfl := Option.some.inj hstep
      exact hi.waited rfl rfl rfl rfl (by rw [hidle]; exact id) id
  | drain =>
    simp only [Accessories.shutdownStep] at hstep
    cases hshut : s.shutdown with
    | draining left =>
      rw [hshut] at hstep
      obtain rfl := Option.some.inj hstep
      refine hi.waited rfl rfl rfl (hi.active (by simp [hshut])) (by rw [hshut]; exact id) ?_
      by_cases hend : s.accessoryParked = true ∨ left = 0
      · simp only [if_pos hend]
        exact id
      · simp only [if_neg hend]
        exact id
    | _ => exact absurd hstep (by simp [hshut])
  | shutdownLock =>
    obtain ⟨⟨hlocking, hfree⟩, ht⟩ := Option.ite_none_right_eq_some.mp hstep
    obtain rfl := Option.some.inj ht
    have hquiet : ¬ s.accessory.Refreshing := by
      intro h
      cases hacc : s.accessory with
      | refreshing => exact hc hacc
      | sending next armed => exact absurd (hi.accessoryBus next armed hacc) (by simp [hfree])
      | testing | waiting | awake _ | parked =>
        rw [hacc] at h
        exact h
    exact {
      ordered := ordered_shutdownFrames (hi.early (by rw [hlocking]; exact id))
      early := fun h => absurd trivial h
      late := fun _ => hquiet
      accessoryBus := fun next armed h => absurd (hi.accessoryBus next armed h) (by simp [hfree])
      shutdownBus := fun _ _ => rfl
      inactive := fun h => absurd (hi.inactive h) (by simp [hlocking]) }
  | shutdownSend tries =>
    simp only [Accessories.shutdownStep] at hstep
    split at hstep
    · rename_i f left hshut
      obtain rfl := Option.some.inj hstep
      have htook : s.shutdown.TookBus := by rw [hshut]; trivial
      exact {
        ordered := by
          have hordered := hi.ordered
          rw [hshut] at hordered
          exact hordered.resend _
        early := fun h => absurd trivial h
        late := fun _ => hi.late htook
        accessoryBus := hi.accessoryBus
        shutdownBus := fun _ _ => hi.shutdownBus _ hshut
        inactive := fun h => absurd (hi.inactive h) (by simp [hshut]) }
    · exact absurd hstep (by simp)
  | shutdownUnlock =>
    obtain ⟨hshut, ht⟩ := Option.ite_none_right_eq_some.mp hstep
    obtain rfl := Option.some.inj ht
    have htook : s.shutdown.TookBus := by rw [hshut]; trivial
    exact {
      ordered := by
        have hordered := hi.ordered
        rw [hshut] at hordered
        exact hordered
      early := fun h => absurd trivial h
      late := fun _ => hi.late htook
      accessoryBus := fun _ _ h => absurd h (hi.quiet htook)
      shutdownBus := fun _ h => nomatch h
      inactive := fun h => absurd (hi.inactive h) (by simp [hshut]) }
  | powerOff | test | wake _ | solicit _ | decide _ | accessoryLock | accessorySend _
  | accessoryUnlock | trigger => exact absurd hstep (by simp [Accessories.shutdownStep])

theorem SystemInv.accessoryStep {s t : AccessorySystem} {e : AccessoryEvent} (hi : SystemInv s)
    (hc : Clean s e) (hstep : accessoryStep s e = some t) : SystemInv t := by
  cases e with
  | test =>
    obtain ⟨-, ht⟩ := Option.ite_none_right_eq_some.mp hstep
    obtain rfl := Option.some.inj ht
    by_cases hactive : s.shutdownActive = true
    · rw [if_pos hactive]
      exact hi.moved rfl rfl rfl rfl (fun _ => id) (fun _ _ h => nomatch h)
    · rw [if_neg hactive]
      exact hi.moved rfl rfl rfl rfl (fun _ => id) (fun _ _ h => nomatch h)
  | wake alarmEvent =>
    obtain ⟨-, ht⟩ := Option.ite_none_right_eq_some.mp hstep
    exact Option.some.inj ht ▸ hi.moved rfl rfl rfl rfl (fun _ => id) (fun _ _ h => nomatch h)
  | solicit reg =>
    simp only [Accessories.accessoryStep] at hstep
    split at hstep
    · obtain ⟨hfree, ht⟩ := Option.ite_none_right_eq_some.mp hstep
      exact Option.some.inj ht ▸ hi.solicited hfree reg
    · exact absurd hstep (by simp)
  | trigger =>
    obtain ⟨hfree, ht⟩ := Option.ite_none_right_eq_some.mp hstep
    exact Option.some.inj ht ▸ hi.solicited hfree 0x0E
  | decide read =>
    simp only [Accessories.accessoryStep] at hstep
    split at hstep
    · obtain rfl := Option.some.inj hstep
      by_cases hdue : s.refreshDue
      · rw [if_pos hdue]
        exact hi.moved rfl rfl rfl rfl (fun h => absurd h (hc hdue)) (fun _ _ h => nomatch h)
      · rw [if_neg hdue]
        exact hi.moved rfl rfl rfl rfl (fun _ => id) (fun _ _ h => nomatch h)
    · exact absurd hstep (by simp)
  | accessoryLock =>
    obtain ⟨⟨hacc, hfree⟩, ht⟩ := Option.ite_none_right_eq_some.mp hstep
    obtain rfl := Option.some.inj ht
    have hbefore : ¬ s.shutdown.TookBus := fun h => by
      have hlate := hi.late h
      rw [hacc] at hlate
      exact hlate trivial
    exact {
      ordered := hi.ordered
      early := hi.early
      late := fun h => absurd h hbefore
      accessoryBus := fun _ _ _ => rfl
      shutdownBus := fun left h => absurd (hi.shutdownBus left h) (by simp [hfree])
      inactive := hi.inactive }
  | accessorySend tries =>
    simp only [Accessories.accessoryStep] at hstep
    split at hstep
    · rename_i next armed hacc
      obtain ⟨f, hf, rfl⟩ := Option.map_eq_some_iff.mp hstep
      have hbefore : ¬ s.shutdown.TookBus := fun h => hi.quiet h hacc
      have hearly : ∀ g ∈ s.wire ++ List.replicate (sendRetryLocked tries).1 f,
          ¬ g.IsShutdown := by
        intro g hg
        rcases List.mem_append.mp hg with hg | hg
        · exact hi.early hbefore g hg
        · rw [List.eq_of_mem_replicate hg]
          exact refreshFrame_not_shutdown hf
      have hleft : s.shutdown.left = [] := by
        cases h : s.shutdown with
        | sending left => exact absurd (by rw [h]; trivial) hbefore
        | _ => rfl
      exact {
        ordered := by
          simp only [hleft, List.append_nil]
          exact ordered_of_no_shutdown hearly
        early := fun _ => hearly
        late := fun h => absurd h hbefore
        accessoryBus := fun _ _ _ => hi.accessoryBus next armed hacc
        shutdownBus := hi.shutdownBus
        inactive := hi.inactive }
    · exact absurd hstep (by simp)
  | accessoryUnlock =>
    simp only [Accessories.accessoryStep] at hstep
    split at hstep
    · rename_i armed hacc
      obtain rfl := Option.some.inj hstep
      exact {
        ordered := hi.ordered
        early := hi.early
        late := fun _ => id
        accessoryBus := fun _ _ h => nomatch h
        shutdownBus := fun left h => by
          have hheld := hi.shutdownBus left h
          rw [hi.accessoryBus _ armed hacc] at hheld
          exact absurd hheld (by simp)
        inactive := hi.inactive }
    · exact absurd hstep (by simp)
  | request | drain | shutdownLock | shutdownSend _ | shutdownUnlock | powerOff =>
    exact absurd hstep (by simp [Accessories.accessoryStep])

theorem SystemInv.step {s t : AccessorySystem} {e : AccessoryEvent} (hi : SystemInv s)
    (hc : Clean s e) (hstep : systemStep s e = some t) : SystemInv t := by
  obtain ⟨-, hstep⟩ := Option.ite_none_left_eq_some.mp hstep
  cases e with
  | powerOff =>
    exact Option.some.inj hstep ▸ ⟨hi.ordered, hi.early, hi.late, hi.accessoryBus, hi.shutdownBus,
      hi.inactive⟩
  | request | drain | shutdownLock | shutdownSend _ | shutdownUnlock =>
    exact hi.shutdownStep hc hstep
  | test | wake _ | solicit _ | decide _ | accessoryLock | accessorySend _ | accessoryUnlock
  | trigger => exact hi.accessoryStep hc hstep

theorem SystemInv.wire_ordered {s : AccessorySystem} (hi : SystemInv s) : Ordered s.wire :=
  (List.pairwise_append.mp hi.ordered).1

/-- In every run in which the shutdown path takes the bus with no refresh due, and none falls due
after that, no peer gets an ordinary heartbeat or an alarm frame after its shutdown heartbeat. -/
theorem shutdown_ordered (es : List AccessoryEvent)
    (hclean : Steps systemStep (fun s e _ => Clean s e) systemInit es) :
    Steps systemStep (fun _ _ t => Ordered t.wire) systemInit es := by
  have hkeep : ∀ {s e t}, SystemInv s → Clean s e → systemStep s e = some t →
      SystemInv t ∧ Ordered t.wire := fun hi hc hstep =>
    have ht := hi.step hc hstep
    ⟨ht, ht.wire_ordered⟩
  exact Steps.of_inv hkeep systemInv_init hclean

/-- Every transfer succeeds at once. -/
def sentAtOnce : Tries := ⟨fun _ => 0, false⟩

/-- The group of the shutdown path, once it has the bus. -/
def shutdownGroup : List AccessoryEvent :=
  List.replicate shutdownFrames.length (.shutdownSend sentAtOnce) ++ [.shutdownUnlock]

/-- A shutdown that starts as the thread goes into its wait. The thread wakes at the end of the
drain, solicits the current, and decides on a refresh when the shutdown path has the bus. -/
def overrun : List AccessoryEvent :=
  .test :: .request :: (List.replicate drainPolls .drain ++
    [AccessoryEvent.wake false, .drain, .solicit 0x0E, .shutdownLock, .decide none] ++
    shutdownGroup)

/-- A shutdown that the thread parks for, and the power goes off. -/
def parkedInTime : List AccessoryEvent :=
  [.test, .wake true, .decide none, .accessoryLock, .accessorySend sentAtOnce] ++
    [AccessoryEvent.request, .drain, .accessorySend sentAtOnce, .accessorySend sentAtOnce,
      .accessorySend sentAtOnce, .accessorySend sentAtOnce, .accessorySend sentAtOnce,
      .accessoryUnlock, .test, .drain, .shutdownLock] ++ shutdownGroup ++ [.powerOff]

theorem shutdown_ordered_parked :
    Steps systemStep (fun s e _ => Clean s e) systemInit parkedInTime ∧
      Steps systemStep (fun _ _ t => Ordered t.wire) systemInit parkedInTime := by
  have hclean : Steps systemStep (fun s e _ => Clean s e) systemInit parkedInTime := by
    decide +kernel
  exact ⟨hclean, shutdown_ordered _ hclean⟩

/-- After an overrun the refresh that is due wakes the HUD up again. -/
theorem overrun_wakes_peers :
    ¬ Steps systemStep (fun _ _ t => Ordered t.wire) systemInit
      (overrun ++ [.accessoryLock, .accessorySend sentAtOnce]) := by
  decide +kernel

/-! ## A drain that ends with the thread parked -/

/-- The last poll of the drain finds the thread parked. -/
def DrainsInTime (s : AccessorySystem) : AccessoryEvent → Prop
  | .drain => s.shutdown = .draining 0 → s.accessoryParked = true
  | _ => True

/-- Past the drain the thread is parked. -/
structure ParkedInv (s : AccessorySystem) : Prop where
  parked : s.accessoryParked = true → s.accessory = .parked
  drained : s.shutdown = .locking ∨ s.shutdown.TookBus → s.accessoryParked = true

theorem parkedInv_init : ParkedInv systemInit where
  parked h := nomatch h
  drained h := h.elim (fun h => nomatch h) False.elim

/-- A step of the thread while it is not parked keeps the invariant. -/
theorem ParkedInv.moved {s t : AccessorySystem} (hi : ParkedInv s) (hacc : s.accessory ≠ .parked)
    (hparked : t.accessoryParked = s.accessoryParked) (hshut : t.shutdown = s.shutdown) :
    ParkedInv t where
  parked h := absurd (hi.parked (hparked ▸ h)) hacc
  drained := by
    rw [hparked, hshut]
    exact hi.drained

theorem ParkedInv.accessoryStep {s t : AccessorySystem} {e : AccessoryEvent} (hi : ParkedInv s)
    (hstep : accessoryStep s e = some t) : ParkedInv t ∧ Clean s e := by
  cases e with
  | test =>
    obtain ⟨hacc, ht⟩ := Option.ite_none_right_eq_some.mp hstep
    obtain rfl := Option.some.inj ht
    refine ⟨?_, trivial⟩
    by_cases hactive : s.shutdownActive = true
    · rw [if_pos hactive]
      exact ⟨fun _ => rfl, fun _ => rfl⟩
    · rw [if_neg hactive]
      exact hi.moved (by simp [hacc]) rfl rfl
  | wake alarmEvent =>
    obtain ⟨hacc, ht⟩ := Option.ite_none_right_eq_some.mp hstep
    exact ⟨Option.some.inj ht ▸ hi.moved (by simp [hacc]) rfl rfl, trivial⟩
  | solicit reg =>
    simp only [Accessories.accessoryStep] at hstep
    split at hstep
    · obtain ⟨-, ht⟩ := Option.ite_none_right_eq_some.mp hstep
      exact ⟨Option.some.inj ht ▸ ⟨hi.parked, hi.drained⟩, trivial⟩
    · exact absurd hstep (by simp)
  | trigger =>
    obtain ⟨-, ht⟩ := Option.ite_none_right_eq_some.mp hstep
    exact ⟨Option.some.inj ht ▸ ⟨hi.parked, hi.drained⟩, trivial⟩
  | decide read =>
    simp only [Accessories.accessoryStep] at hstep
    split at hstep
    · rename_i alarmEvent hacc
      obtain rfl := Option.some.inj hstep
      refine ⟨?_, fun _ htook => ?_⟩
      · by_cases hdue : s.refreshDue
        · rw [if_pos hdue]
          exact hi.moved (by simp [hacc]) rfl rfl
        · rw [if_neg hdue]
          exact hi.moved (by simp [hacc]) rfl rfl
      · exact absurd (hi.parked (hi.drained (.inr htook))) (by simp [hacc])
    · exact absurd hstep (by simp)
  | accessoryLock =>
    obtain ⟨⟨hacc, -⟩, ht⟩ := Option.ite_none_right_eq_some.mp hstep
    exact ⟨Option.some.inj ht ▸ hi.moved (by simp [hacc]) rfl rfl, trivial⟩
  | accessorySend tries =>
    simp only [Accessories.accessoryStep] at hstep
    split at hstep
    · rename_i next armed hacc
      obtain ⟨f, -, rfl⟩ := Option.map_eq_some_iff.mp hstep
      exact ⟨hi.moved (by simp [hacc]) rfl rfl, trivial⟩
    · exact absurd hstep (by simp)
  | accessoryUnlock =>
    simp only [Accessories.accessoryStep] at hstep
    split at hstep
    · rename_i armed hacc
      obtain rfl := Option.some.inj hstep
      exact ⟨hi.moved (by simp [hacc]) rfl rfl, trivial⟩
    · exact absurd hstep (by simp)
  | request | drain | shutdownLock | shutdownSend _ | shutdownUnlock | powerOff =>
    exact absurd hstep (by simp [Accessories.accessoryStep])

theorem ParkedInv.shutdownStep {s t : AccessorySystem} {e : AccessoryEvent} (hi : ParkedInv s)
    (hc : DrainsInTime s e) (hstep : shutdownStep s e = some t) : ParkedInv t ∧ Clean s e := by
  cases e with
  | request =>
    refine ⟨?_, trivial⟩
    simp only [Accessories.shutdownStep] at hstep
    split at hstep
    · exact Option.some.inj hstep ▸ hi
    · obtain rfl := Option.some.inj hstep
      exact ⟨hi.parked, fun h => h.elim (fun h => nomatch h) False.elim⟩
  | drain =>
    refine ⟨?_, trivial⟩
    simp only [Accessories.shutdownStep] at hstep
    split at hstep
    · rename_i left hshut
      obtain rfl := Option.some.inj hstep
      refine ⟨hi.parked, fun h => ?_⟩
      by_cases hend : s.accessoryParked = true ∨ left = 0
      · rcases hend with hparked | rfl
        · exact hparked
        · exact hc hshut
      · rw [if_neg hend] at h
        exact h.elim (fun h => nomatch h) False.elim
    · exact absurd hstep (by simp)
  | shutdownLock =>
    obtain ⟨⟨hlocking, -⟩, ht⟩ := Option.ite_none_right_eq_some.mp hstep
    have hparked := hi.drained (.inl hlocking)
    refine ⟨Option.some.inj ht ▸ ⟨hi.parked, fun _ => hparked⟩, ?_⟩
    rw [Clean, hi.parked hparked]
    exact fun h => nomatch h
  | shutdownSend tries =>
    refine ⟨?_, trivial⟩
    simp only [Accessories.shutdownStep] at hstep
    split at hstep
    · rename_i f left hshut
      obtain rfl := Option.some.inj hstep
      exact ⟨hi.parked, fun _ => hi.drained (.inr (by rw [hshut]; trivial))⟩
    · exact absurd hstep (by simp)
  | shutdownUnlock =>
    obtain ⟨hshut, ht⟩ := Option.ite_none_right_eq_some.mp hstep
    exact ⟨Option.some.inj ht ▸
      ⟨hi.parked, fun _ => hi.drained (.inr (by rw [hshut]; trivial))⟩, trivial⟩
  | powerOff | test | wake _ | solicit _ | decide _ | accessoryLock | accessorySend _
  | accessoryUnlock | trigger => exact absurd hstep (by simp [Accessories.shutdownStep])

theorem ParkedInv.step {s t : AccessorySystem} {e : AccessoryEvent} (hi : ParkedInv s)
    (hc : DrainsInTime s e) (hstep : systemStep s e = some t) : ParkedInv t ∧ Clean s e := by
  obtain ⟨-, hstep⟩ := Option.ite_none_left_eq_some.mp hstep
  cases e with
  | powerOff => exact ⟨Option.some.inj hstep ▸ ⟨hi.parked, hi.drained⟩, trivial⟩
  | request | drain | shutdownLock | shutdownSend _ | shutdownUnlock =>
    exact hi.shutdownStep hc hstep
  | test | wake _ | solicit _ | decide _ | accessoryLock | accessorySend _ | accessoryUnlock
  | trigger => exact hi.accessoryStep hstep

/-- A drain that never runs out meets the conditions of an ordered shutdown. -/
theorem clean_of_drainsInTime {es : List AccessoryEvent}
    (h : Steps systemStep (fun s e _ => DrainsInTime s e) systemInit es) :
    Steps systemStep (fun s e _ => Clean s e) systemInit es := by
  have hkeep : ∀ {s e t}, ParkedInv s → DrainsInTime s e → systemStep s e = some t →
      ParkedInv t ∧ Clean s e := fun hi hc hstep => hi.step hc hstep
  exact Steps.of_inv hkeep parkedInv_init h

end DiveCANHead.Accessories
