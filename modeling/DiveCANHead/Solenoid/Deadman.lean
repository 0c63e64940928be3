import DiveCANHead.Lib.Alarm
import DiveCANHead.Lib.Runs
import DiveCANHead.Solenoid.Driver

/-!
# The deadman over runs

A channel is due `maxOnTimeUs` after its own latest fire. `StepClean` says which
calls leave the shared alarm in time for every energised channel; on a run of
such calls no channel is ever on past its due time, and the counter runs
whenever one is on (`deadman_safe`). A fire of another channel re-arms the
counter from the present time, which is how the promise is lost
(`deadman_unsafe`).
-/

namespace DiveCANHead.Solenoid

open DiveCANHead.Lib

variable {cfg : Config}

/-! ## What the driver promises -/

/-- The latest time at which a channel's own fire lets it be on. -/
def Driver.dueAt (s : Driver cfg) (c : Fin cfg.numChannels) : ℕ :=
  s.lastFire c + cfg.maxOnTimeUs * cfg.freq

/-- Every energised channel has a running deadman and is not past its due time. -/
def Safe (s : Driver cfg) : Prop :=
  ∀ c, s.pins c = true → s.counter.running = true ∧ s.now ≤ s.dueAt c

instance (s : Driver cfg) : Decidable (Safe s) :=
  inferInstanceAs (Decidable (∀ c, s.pins c = true → _))

/-- The due times of the channels that are on. -/
def Driver.due (s : Driver cfg) (c : Fin cfg.numChannels) : Option ℕ :=
  if s.pins c then some (s.dueAt c) else none

structure Inv (s : Driver cfg) : Prop where
  covers : Covers s.alarm s.due
  notPast : ∀ a, s.alarm = some a → s.now ≤ a

theorem Inv.safe {s : Driver cfg} (hi : Inv s) : Safe s := by
  intro c hc
  have hdue : s.due c = some (s.dueAt c) := if_pos hc
  obtain ⟨a, ha, -⟩ := hi.covers c _ hdue
  refine ⟨?_, hi.covers.not_late hi.notPast hdue⟩
  by_contra hrun
  simp [Driver.alarm, hrun] at ha

theorem inv_init (cfg : Config) : Inv (Driver.init cfg) :=
  ⟨covers_of_none fun _ => rfl, nofun⟩

/-! ## The calls that keep it -/

/-- The fire re-energises the channel, so its due time starts anew. -/
def refires (channel : ℕ) (r : CounterResults) (gpioOk : Bool) (c : Fin cfg.numChannels) : Bool :=
  c.val = channel && (r.startOk && gpioOk)

/-- The arming of a fire keeps the other channels: it either programs an alarm
that is early enough for each channel that is on, or leaves the old one running,
or finds every channel off. -/
def FireClean (s : Driver cfg) (channel durationUs : ℕ) (r : CounterResults) (gpioOk : Bool) :
    Prop :=
  if r.setTopOk then
    ∀ c, s.pins c = true → (r.startOk = true ∨ r.stopOk = false) ∧
      (refires channel r gpioOk c = true ∨ armedUntil s durationUs ≤ s.dueAt c)
  else r.stopOk = false ∨ ∀ c, s.pins c = false

def StepClean (s : Driver cfg) : Event cfg → Prop
  | .fire channel durationUs r gpioOk =>
    channel < cfg.numChannels → durationUs ≠ 0 → FireClean s channel durationUs r gpioOk
  | .allOff stopOk gpioOk => stopOk = true → ∀ c, s.pins c = true → gpioOk c = true
  | .expire _ gpioOk => ∀ c, s.pins c = true → gpioOk c = true
  | .off .. | .wait _ => True

instance (s : Driver cfg) (channel durationUs : ℕ) (r : CounterResults) (gpioOk : Bool) :
    Decidable (FireClean s channel durationUs r gpioOk) :=
  inferInstanceAs (Decidable (ite _ _ _))

instance : ∀ (s : Driver cfg) (e : Event cfg), Decidable (StepClean s e)
  | _, .fire .. => inferInstanceAs (Decidable (_ → _ → _))
  | _, .allOff .. => inferInstanceAs (Decidable (_ → ∀ _, _))
  | _, .expire .. => inferInstanceAs (Decidable (∀ _, _))
  | _, .off .. | _, .wait _ => isTrue trivial

/-! ## One step -/

/-- Pins that only go off close obligations. -/
theorem Inv.of_pins {s t : Driver cfg} (hi : Inv s) (ha : t.alarm = s.alarm) (hn : t.now = s.now)
    (hl : t.lastFire = s.lastFire) (hp : ∀ c, t.pins c = true → s.pins c = true) : Inv t := by
  refine ⟨?_, by rw [ha, hn]; exact hi.notPast⟩
  rw [ha]
  refine hi.covers.mono fun c d hd => ?_
  unfold Driver.due at hd ⊢
  split_ifs at hd with hc
  · rw [if_pos (hp c hc)]
    simpa [Driver.dueAt, hl] using hd

/-- Nothing is on. -/
theorem Inv.of_off {s : Driver cfg} (hp : ∀ c, s.pins c = false)
    (hn : ∀ a, s.alarm = some a → s.now ≤ a) : Inv s :=
  ⟨covers_of_none fun c => by simp [Driver.due, hp c], hn⟩

/-- A programmed alarm that is early enough for everything that is on. -/
theorem Inv.of_armed {s : Driver cfg} {a : ℕ} (ha : s.alarm = some a) (hn : s.now ≤ a)
    (hp : ∀ c, s.pins c = true → a ≤ s.dueAt c) : Inv s := by
  refine ⟨?_, ?_⟩
  · rw [ha]
    refine covers_some fun c d hd => ?_
    unfold Driver.due at hd
    split_ifs at hd with hc
    obtain rfl := Option.some.inj hd
    exact hp c hc
  · rintro b hb
    obtain rfl := Option.some.inj (ha.symm.trans hb)
    exact hn

theorem inv_off {s : Driver cfg} (hi : Inv s) (channel : ℕ) (gpioOk : Bool) :
    Inv (solenoidOff s channel gpioOk) := by
  unfold solenoidOff
  split_ifs with hch hok
  · refine hi.of_pins rfl rfl rfl fun c hc => ?_
    by_cases h : c = ⟨channel, hch⟩
    · subst h
      simp at hc
    · simpa [Function.update_of_ne h] using hc
  · exact hi
  · exact hi

/-- The fire of a channel, as an update of what the arming leaves. -/
theorem solenoidFire_eq (s : Driver cfg) {channel durationUs : ℕ} (hch : channel < cfg.numChannels)
    (hd : durationUs ≠ 0) (r : CounterResults) (gpioOk : Bool) :
    (solenoidFire s channel durationUs r gpioOk).2 =
      if (armTimer s durationUs r).1 && gpioOk then
        { (armTimer s durationUs r).2 with
          pins := Function.update s.pins ⟨channel, hch⟩ true
          lastFire := Function.update s.lastFire ⟨channel, hch⟩ s.now }
      else (armTimer s durationUs r).2 := by
  simp only [solenoidFire, dif_pos hch, if_neg hd, armTimer_pins, armTimer_lastFire, armTimer_now]
  cases (armTimer s durationUs r).1 <;> cases gpioOk <;> rfl

/-- The alarm of a fire is in time for the channel it fires. -/
theorem armedUntil_le (s : Driver cfg) (durationUs : ℕ) :
    armedUntil s durationUs ≤ s.now + cfg.maxOnTimeUs * cfg.freq :=
  Nat.add_le_add_left (armed_ticks_le cfg durationUs) _

theorem inv_fire {s : Driver cfg} (hi : Inv s) {channel durationUs : ℕ}
    (hch : channel < cfg.numChannels) (hd : durationUs ≠ 0) {r : CounterResults} {gpioOk : Bool}
    (hc : FireClean s channel durationUs r gpioOk) :
    Inv (solenoidFire s channel durationUs r gpioOk).2 := by
  have hnow : s.now ≤ armedUntil s durationUs := Nat.le_add_right _ _
  rw [solenoidFire_eq s hch hd]
  obtain ⟨htop, -, hret, halarm⟩ | ⟨htop, -, hret, halarm⟩ | ⟨hwhy, hret, halarm⟩ :=
    armTimer_cases s durationUs r
  · -- the alarm is programmed anew
    simp only [FireClean, htop, if_true] at hc
    rw [hret]
    cases hfire : r.startOk && gpioOk with
    | true =>
      rw [if_pos rfl]
      refine .of_armed halarm (by simpa using hnow) fun c hpin => ?_
      by_cases h : c = ⟨channel, hch⟩
      · subst h
        simpa [Driver.dueAt] using armedUntil_le s durationUs
      · have hne : c.val ≠ channel := fun hv => h (Fin.ext hv)
        simp only [Function.update_of_ne h] at hpin
        have hle := (hc c hpin).2.resolve_left (by simp [refires, hne])
        simpa [Driver.dueAt, Function.update_of_ne h] using hle
    | false =>
      rw [if_neg (by simp)]
      refine .of_armed halarm (by simpa using hnow) fun c hpin => ?_
      rw [armTimer_pins] at hpin
      have hle := (hc c hpin).2.resolve_left (by simp [refires, hfire])
      simpa [Driver.dueAt] using hle
  · -- nothing was reprogrammed and the old alarm still runs
    rw [hret, Bool.false_and, if_neg (by simp)]
    exact hi.of_pins halarm (by simp) (by simp) fun c hpin => by simpa using hpin
  · -- the counter is stopped
    have hoff : ∀ c, s.pins c = false := by
      intro c
      by_contra hpin
      rw [Bool.not_eq_false] at hpin
      obtain ⟨htop, hstop⟩ | ⟨htop, hstart, hstop⟩ := hwhy
      · simp only [FireClean, htop, Bool.false_eq_true, if_false] at hc
        simpa [hpin] using hc.resolve_left (by simp [hstop]) c
      · simp only [FireClean, htop, if_true] at hc
        rcases hstop with hstop | hstop
        · simpa [hstart, hstop] using (hc c hpin).1
        · simpa [hstop] using (hi.safe c hpin).1
    rw [hret, Bool.false_and, if_neg (by simp)]
    exact .of_off (by simpa using hoff) (by rw [halarm]; nofun)

/-- Pins that are all driven off leave nothing on. -/
theorem pinsOff_eq_false {pins gpioOk : Fin cfg.numChannels → Bool}
    (h : ∀ c, pins c = true → gpioOk c = true) (c : Fin cfg.numChannels) :
    pinsOff pins gpioOk c = false := by
  cases hp : pins c with
  | false => simp [pinsOff, hp]
  | true => simp [pinsOff, h c hp]

theorem pins_of_pinsOff {pins gpioOk : Fin cfg.numChannels → Bool} {c : Fin cfg.numChannels}
    (h : pinsOff pins gpioOk c = true) : pins c = true :=
  (Bool.and_eq_true_iff.mp h).1

/-- One clean step keeps the invariant, and the state it reaches is safe. -/
theorem inv_step {s t : Driver cfg} {e : Event cfg} (hi : Inv s) (hc : StepClean s e)
    (h : step s e = some t) : Inv t ∧ Safe t := by
  suffices hinv : Inv t from ⟨hinv, hinv.safe⟩
  cases e with
  | fire channel durationUs r gpioOk =>
    obtain rfl := Option.some.inj h
    by_cases hch : channel < cfg.numChannels
    · by_cases hd : durationUs = 0
      · simp only [solenoidFire, dif_pos hch, if_pos hd]
        exact inv_off hi channel gpioOk
      · exact inv_fire hi hch hd (hc hch hd)
    · simp only [solenoidFire, dif_neg hch]
      exact hi
  | off channel gpioOk =>
    obtain rfl := Option.some.inj h
    exact inv_off hi channel gpioOk
  | allOff stopOk gpioOk =>
    obtain rfl := Option.some.inj h
    cases stopOk with
    | true => exact .of_off (pinsOff_eq_false (hc rfl)) nofun
    | false => exact hi.of_pins rfl rfl rfl fun c => pins_of_pinsOff
  | expire stopOk gpioOk =>
    simp only [step] at h
    split_ifs at h
    obtain rfl := Option.some.inj h
    refine .of_off (pinsOff_eq_false hc) fun a ha => ?_
    cases stopOk with
    | true => cases ha
    | false =>
      simp only [deadmanTopCb, counterStop, Driver.alarm, Bool.false_eq_true, if_false] at ha ⊢
      split_ifs at ha
      obtain rfl := Option.some.inj ha
      exact Nat.le_add_right _ _
  | wait dt =>
    simp only [step] at h
    split_ifs at h with hdt
    obtain rfl := Option.some.inj h
    refine ⟨hi.covers, fun a ha => ?_⟩
    have ha' : s.alarm = some a := ha
    simpa [ha'] using hdt

/-! ## Runs -/

/-- On every run of clean steps, at every state reached, each channel that is on
has a running deadman and is within the maximum of its own latest fire. -/
theorem deadman_safe (cfg : Config) (es : List (Event cfg))
    (hc : Steps step (fun s e _ => StepClean s e) (Driver.init cfg) es) :
    Steps step (fun _ _ t => Safe t) (Driver.init cfg) es :=
  Steps.of_inv inv_step (inv_init cfg) hc

/-! ## Runs that lose the promise -/

/-- Two channels, 5.5 s at most, on a 1 MHz counter. -/
def twoChannels : Config := ⟨2, 5500000, 1000000⟩

def allOk : CounterResults := ⟨true, true, true⟩

/-- A number of seconds, in units of the 1 MHz counter's time. -/
def seconds (n : ℕ) : ℕ := n * 1000000000000

/-- A second channel's fire at 3 s postpones the first one's deadman to 8.5 s. -/
def postponed : List (Event twoChannels) :=
  [.fire 0 5500000 allOk true, .wait (seconds 3), .fire 1 5500000 allOk true, .wait (seconds 3)]

/-- A second channel's fire stops the counter and then fails to program it. -/
def unarmed : List (Event twoChannels) :=
  [.fire 0 5500000 allOk true, .fire 1 5500000 ⟨true, false, true⟩ true]

/-- The counter is stopped and one pin is not driven off. -/
def stuckPin : List (Event twoChannels) :=
  [.fire 0 5500000 allOk true, .allOff true fun _ => false]

/-- Fires that overlap in time for each other, an overflow and a refire. -/
def overlapping : List (Event twoChannels) :=
  [.fire 0 5500000 allOk true, .wait (seconds 2), .fire 1 1000000 allOk true, .wait (seconds 1),
    .expire true fun _ => true, .fire 1 9000000 allOk true, .off 1 true]

theorem deadman_unsafe :
    ¬ Steps step (fun _ _ t => Safe t) (Driver.init twoChannels) postponed ∧
      ¬ Steps step (fun _ _ t => Safe t) (Driver.init twoChannels) unarmed ∧
      ¬ Steps step (fun _ _ t => Safe t) (Driver.init twoChannels) stuckPin := by
  decide +kernel

theorem deadman_safe_overlapping :
    Steps step (fun _ _ t => Safe t) (Driver.init twoChannels) overlapping :=
  deadman_safe twoChannels overlapping (by decide +kernel)

end DiveCANHead.Solenoid
