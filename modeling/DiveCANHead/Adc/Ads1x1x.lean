import DiveCANHead.Lib.Runs
import Mathlib.Algebra.Group.Int.Defs
import Mathlib.Data.Int.Notation
import Mathlib.Tactic.Common

/-!
# The ADC that two cells share (`adc_ads1x1x_local.c`)

Every read writes the whole configuration of its channel, which starts a conversion. After a change
of the input a conversion is thrown away first; whether the input changes is told from the channel
of the last read that got that far, and not from what the chip was told.
-/

namespace DiveCANHead.Adc

open DiveCANHead.Lib

/-! ## The device -/

/-- `ads1x1x_channel_cfg`, with the channel's bit of `channels`. -/
structure ChannelCfg where
  config : UInt16
  differential : Bool
  setUp : Bool
  deriving DecidableEq, Repr

/-- A device whose channels have been set up, and the results of the conversions on its chip in the
order in which they are started. -/
structure Device where
  resolution : UInt8
  channelCfg : ℕ → ChannelCfg
  result : ℕ → Int16

/-- `ADS1X1X_MAX_CHANNELS`. -/
def maxChannels : ℕ := 4

/-- `ADS1X1X_CONFIG_OS`. -/
def configOs : UInt16 := 0x8000

/-- The input multiplexer's bits of a configuration. -/
def mux (config : UInt16) : UInt16 := (config >>> 12) &&& 7

theorem mux_or_os (config : UInt16) : mux (config ||| configOs) = mux config := by
  have hos : (configOs >>> 12) &&& 7 = 0 := by decide
  have hdistrib : ∀ x y z : UInt16, (x ||| y) &&& z = (x &&& z) ||| (y &&& z) := fun _ _ _ =>
    UInt16.toBitVec_inj.mp BitVec.and_or_distrib_right
  unfold mux
  rw [UInt16.shiftRight_or, hdistrib, hos, UInt16.or_zero]

/-- A conversion that was started on the chip, and whether its write was acknowledged. -/
structure Started where
  config : UInt16
  acked : Bool
  deriving DecidableEq, Repr

/-- A value in a reader's buffer, with the channel it was read for. -/
structure Sample where
  channel : ℕ
  value : ℤ
  deriving DecidableEq, Repr

/-- `ads1x1x_data`, where `none` is the -1 of `last_converted_channel`; the conversions started so
far, the values stored and what the reads returned. -/
structure Ads where
  activeChannel : ℕ := 0
  lastConvertedChannel : Option ℕ := none
  started : List Started := []
  stored : List Sample := []
  returned : List ℤ := []
  deriving DecidableEq, Repr

/-! ## A read -/

/-- `adc_sequence` without options. -/
structure AdcSequence where
  channels : UInt32
  resolution : UInt8
  oversampling : UInt8
  bufferSize : ℕ
  deriving DecidableEq, Repr

/-- What a write over I2C comes to; one that succeeds has reached the chip. -/
structure I2cWrite where
  rc : ℤ
  reached : Bool
  acked : rc = 0 → reached = true
  deriving DecidableEq, Repr

/-- What one read asks for, and what it meets on the bus: the writes that start the throwaway and
the kept conversion, the reads of CONFIG until it is ready, and the read of its result. -/
structure AdcRead where
  sequence : AdcSequence
  throwaway : I2cWrite
  kept : I2cWrite
  polls : List (ℤ × UInt16)
  conv : ℤ
  deriving DecidableEq, Repr

/-- `find_lsb_set(channels) - 1`. -/
def channelOf (channels : UInt32) : ℕ :=
  ((List.range 32).find? fun i => channels.toNat.testBit i).getD 32

/-- `ads1x1x_validate_sequence`; `ENOTSUP` is 134. -/
def validateSequence (dev : Device) (sequence : AdcSequence) : ℤ :=
  if sequence.channels = 0 ∨ sequence.channels &&& (sequence.channels - 1) ≠ 0 then -134
  else
    let ch := channelOf sequence.channels
    if maxChannels ≤ ch ∨ (dev.channelCfg ch).setUp = false then -134
    else if sequence.resolution ≠
        (if (dev.channelCfg ch).differential = true then dev.resolution else dev.resolution - 1)
      then -134
    else if sequence.oversampling ≠ 0 then -134
    else if sequence.bufferSize < 2 then -134
    else 0

namespace Ads

/-- `ads1x1x_start_conversion`; a write that reaches the chip starts a conversion. -/
def startConversion (s : Ads) (dev : Device) (write : I2cWrite) : Ads :=
  if write.reached = true then
    { s with started := s.started ++
        [⟨(dev.channelCfg s.activeChannel).config ||| configOs, write.rc = 0⟩] }
  else s

/-- The loop of `ads1x1x_wait_data_ready`; `none` while the chip has not said that it is ready. -/
def waitDataReady : List (ℤ × UInt16) → Option ℤ
  | [] => none
  | (rc, status) :: polls =>
    if rc ≠ 0 then some rc
    else if status &&& configOs ≠ 0 then some 0
    else waitDataReady polls

/-- What the driver makes of the register. -/
def scaled (dev : Device) (buf : Int16) : ℤ := buf.toInt.tdiv (2 ^ (16 - dev.resolution.toNat))

/-- `ads1x1x_adc_perform_read`: the result of the last conversion, for the reader's buffer. -/
def performRead (s : Ads) (dev : Device) (conv : ℤ) : Ads :=
  if conv ≠ 0 then s
  else { s with stored := s.stored ++
      [⟨s.activeChannel, scaled dev (dev.result (s.started.length - 1))⟩] }

/-- A read returns to its caller. -/
def finish (s : Ads) (rc : ℤ) : Ads := { s with returned := s.returned ++ [rc] }

/-- The kept conversion: `adc_context_start_sampling`, and the acquisition thread if it began. -/
def sample (s : Ads) (dev : Device) (r : AdcRead) : Option Ads :=
  let s := s.startConversion dev r.kept
  if r.kept.rc ≠ 0 then some (s.finish r.kept.rc)
  else (waitDataReady r.polls).map fun rc =>
    if rc ≠ 0 then s.finish rc else (s.performRead dev r.conv).finish r.conv

/-- The throwaway conversion after a change of the channel, and then the kept one. -/
def settle (s : Ads) (dev : Device) (r : AdcRead) : Option Ads :=
  if some s.activeChannel ≠ s.lastConvertedChannel then
    let begun := s.startConversion dev r.throwaway
    if r.throwaway.rc ≠ 0 then some (begun.finish r.throwaway.rc)
    else { begun with lastConvertedChannel := some s.activeChannel }.sample dev r
  else s.sample dev r

/-- `ads1x1x_adc_start_read`, under the lock of the context. -/
def startRead (s : Ads) (dev : Device) (r : AdcRead) : Option Ads :=
  let rc := validateSequence dev r.sequence
  if rc ≠ 0 then some (s.finish rc)
  else { s with activeChannel := channelOf r.sequence.channels }.settle dev r

end Ads

/-! ## What a read promises -/

/-- The value comes from the conversion that was started last, with the channel's configuration, and
the one before it had the same input. -/
structure Attributed (dev : Device) (channel : ℕ) (value : ℤ) (started : List Started) : Prop where
  settled : ∃ before prev kept, started = before ++ [prev, kept] ∧
    kept.config = (dev.channelCfg channel).config ||| configOs ∧
    mux prev.config = mux (dev.channelCfg channel).config ∧
    value = Ads.scaled dev (dev.result (before.length + 1))

/-- A read that returns zero stores one such value, and one that fails stores nothing. -/
def Faithful (dev : Device) (s : Ads) (r : AdcRead) (t : Ads) : Prop :=
  ∃ rc, t.returned = s.returned ++ [rc] ∧
    ((rc = 0 ∧ ∃ value, t.stored = s.stored ++ [⟨channelOf r.sequence.channels, value⟩] ∧
        Attributed dev (channelOf r.sequence.channels) value t.started) ∨
      rc ≠ 0 ∧ t.stored = s.stored)

/-- The write that started the last conversion was reported as failed, and was for another input
than that of the last converted channel. -/
def Disturbed (dev : Device) (s : Ads) : Prop :=
  ∃ c ∈ s.lastConvertedChannel, ∃ w ∈ s.started.getLast?,
    w.acked = false ∧ mux w.config ≠ mux (dev.channelCfg c).config

/-- The read is accepted, and no step of its kept conversion fails. -/
structure Succeeds (dev : Device) (r : AdcRead) : Prop where
  valid : validateSequence dev r.sequence = 0
  kept : r.kept.rc = 0
  ready : Ads.waitDataReady r.polls = some 0
  conv : r.conv = 0

/-- No successful read of the last converted channel comes while the chip is disturbed. -/
def Undisturbed (dev : Device) (s : Ads) (r : AdcRead) : Prop :=
  Succeeds dev r → some (channelOf r.sequence.channels) = s.lastConvertedChannel →
    ¬ Disturbed dev s

/-! ## One read -/

section

variable {dev : Device} {s t : Ads} {r : AdcRead} {c : ℕ} {config : UInt16}

/-- Where the last write to reach the chip was acknowledged, it set the input of the last converted
channel. -/
def Believed (dev : Device) (s : Ads) : Prop :=
  ∀ c ∈ s.lastConvertedChannel, ∃ w ∈ s.started.getLast?,
    w.acked = true → mux w.config = mux (dev.channelCfg c).config

theorem attributed_concat {started : List Started} {kept : Started}
    (hkept : kept.config = (dev.channelCfg c).config ||| configOs) :
    Attributed dev c (Ads.scaled dev (dev.result started.length)) (started ++ [kept]) ↔
      ∃ prev ∈ started.getLast?, mux prev.config = mux (dev.channelCfg c).config := by
  constructor
  · rintro ⟨before, prev, last, heq, -, hmux, -⟩
    have hsplit : started ++ [kept] = before ++ [prev] ++ [last] := by
      rw [heq, List.append_assoc]
      rfl
    obtain ⟨rfl, -⟩ := List.append_inj' hsplit rfl
    exact ⟨prev, List.getLast?_concat, hmux⟩
  · rintro ⟨prev, hprev, hmux⟩
    obtain ⟨before, rfl⟩ := List.getLast?_eq_some_iff.mp hprev
    refine ⟨before, prev, kept, by rw [List.append_assoc]; rfl, hkept, hmux, ?_⟩
    rw [List.length_append]
    rfl

/-- What the kept conversion of a read comes to. -/
structure Sampled (dev : Device) (s : Ads) (r : AdcRead) (t : Ads) : Prop where
  last : t.lastConvertedChannel = s.lastConvertedChannel
  believed : Believed dev s → Believed dev t
  outcome : ∃ rc, t.returned = s.returned ++ [rc] ∧
    ((rc = 0 ∧ (r.kept.rc = 0 ∧ Ads.waitDataReady r.polls = some 0 ∧ r.conv = 0) ∧
        t.started = s.started ++ [⟨(dev.channelCfg s.activeChannel).config ||| configOs, true⟩] ∧
        t.stored = s.stored ++
          [⟨s.activeChannel, Ads.scaled dev (dev.result s.started.length)⟩]) ∨
      (rc ≠ 0 ∧ ¬(r.kept.rc = 0 ∧ Ads.waitDataReady r.polls = some 0 ∧ r.conv = 0) ∧
        t.stored = s.stored))

theorem Believed.startConversion (h : Believed dev s)
    (hlast : s.lastConvertedChannel = some s.activeChannel) (write : I2cWrite) :
    Believed dev (s.startConversion dev write) := by
  unfold Ads.startConversion
  split
  · intro c hc
    obtain rfl : s.activeChannel = c := Option.some.inj (hlast.symm.trans hc)
    exact ⟨_, List.getLast?_concat, fun _ => mux_or_os _⟩
  · exact h

theorem Ads.startConversion_started {write : I2cWrite} (hrc : write.rc = 0) :
    (s.startConversion dev write).started =
      s.started ++ [⟨(dev.channelCfg s.activeChannel).config ||| configOs, true⟩] := by
  unfold Ads.startConversion
  rw [if_pos (write.acked hrc)]
  simp only [hrc, decide_true]

@[simp] theorem Ads.startConversion_stored (s : Ads) (dev : Device) (write : I2cWrite) :
    (s.startConversion dev write).stored = s.stored := by
  unfold Ads.startConversion
  split <;> rfl

@[simp] theorem Ads.startConversion_returned (s : Ads) (dev : Device) (write : I2cWrite) :
    (s.startConversion dev write).returned = s.returned := by
  unfold Ads.startConversion
  split <;> rfl

@[simp] theorem Ads.startConversion_activeChannel (s : Ads) (dev : Device) (write : I2cWrite) :
    (s.startConversion dev write).activeChannel = s.activeChannel := by
  unfold Ads.startConversion
  split <;> rfl

@[simp] theorem Ads.startConversion_last (s : Ads) (dev : Device) (write : I2cWrite) :
    (s.startConversion dev write).lastConvertedChannel = s.lastConvertedChannel := by
  unfold Ads.startConversion
  split <;> rfl

theorem sampled_sample (hlast : s.lastConvertedChannel = some s.activeChannel)
    (ht : s.sample dev r = some t) : Sampled dev s r t := by
  simp only [Ads.sample] at ht
  split at ht
  · next hkept =>
    obtain rfl := Option.some.inj ht
    refine ⟨s.startConversion_last dev r.kept, fun h => h.startConversion hlast r.kept,
      r.kept.rc, ?_, .inr ⟨hkept, fun hall => hkept hall.1, s.startConversion_stored dev r.kept⟩⟩
    rw [Ads.finish, s.startConversion_returned]
  next hkept =>
  have hkept : r.kept.rc = 0 := not_not.mp hkept
  obtain ⟨rc, hready, heq⟩ := Option.map_eq_some_iff.mp ht
  split at heq
  · next hrc =>
    subst heq
    refine ⟨s.startConversion_last dev r.kept, fun h => h.startConversion hlast r.kept, rc, ?_,
      .inr ⟨hrc, fun hall => hrc (Option.some.inj (hready.symm.trans hall.2.1)),
        s.startConversion_stored dev r.kept⟩⟩
    rw [Ads.finish, s.startConversion_returned]
  next hrc =>
  have hrc : rc = 0 := not_not.mp hrc
  subst heq hrc
  unfold Ads.performRead
  split
  · next hconv =>
    refine ⟨s.startConversion_last dev r.kept, fun h => h.startConversion hlast r.kept, r.conv, ?_,
      .inr ⟨hconv, fun hall => hconv hall.2.2, s.startConversion_stored dev r.kept⟩⟩
    rw [Ads.finish, s.startConversion_returned]
  · next hconv =>
    have hconv : r.conv = 0 := not_not.mp hconv
    refine ⟨s.startConversion_last dev r.kept, fun h => h.startConversion hlast r.kept, r.conv, ?_,
      .inl ⟨hconv, ⟨hkept, hready, hconv⟩, Ads.startConversion_started hkept, ?_⟩⟩
    · rw [Ads.finish, s.startConversion_returned]
    · rw [Ads.finish, Ads.startConversion_started hkept, List.length_append, List.length_singleton,
        Nat.add_sub_cancel, s.startConversion_stored, s.startConversion_activeChannel]

/-- A read that samples is faithful where its channel's input was converted last, or it fails. -/
theorem Sampled.faithful_iff {s₀ : Ads} (h : Sampled dev s r t)
    (hactive : s.activeChannel = channelOf r.sequence.channels)
    (hstored : s.stored = s₀.stored) (hreturned : s.returned = s₀.returned) :
    Faithful dev s₀ r t ↔
      (r.kept.rc = 0 ∧ Ads.waitDataReady r.polls = some 0 ∧ r.conv = 0 →
        ∃ prev ∈ s.started.getLast?,
          mux prev.config = mux (dev.channelCfg (channelOf r.sequence.channels)).config) := by
  obtain ⟨rc, hrc, hcase⟩ := h.outcome
  rw [hactive, hstored] at hcase
  rw [hreturned] at hrc
  rcases hcase with ⟨hzero, hok, hstarted, hvalue⟩ | ⟨hne, hfails, hnone⟩
  · rw [forall_prop_of_true hok]
    constructor
    · rintro ⟨rc', hrc', ⟨-, value, hvalue', hattr⟩ | ⟨hne, -⟩⟩
      · obtain rfl : Ads.scaled dev (dev.result s.started.length) = value := by
          have hsame := List.append_cancel_left (hvalue.symm.trans hvalue')
          exact congrArg Sample.value (List.cons.inj hsame).1
        rw [hstarted] at hattr
        exact (attributed_concat rfl).mp hattr
      · have hsame := List.append_cancel_left (hrc.symm.trans hrc')
        exact absurd ((List.cons.inj hsame).1.symm.trans hzero) hne
    · intro hprev
      refine ⟨rc, hrc, .inl ⟨hzero, _, hvalue, ?_⟩⟩
      rw [hstarted]
      exact (attributed_concat rfl).mpr hprev
  · exact iff_of_true ⟨rc, hrc, .inr ⟨hne, hnone⟩⟩ fun hok => absurd hok hfails

theorem faithful_finish {s' : Ads} {rc : ℤ} (hrc : rc ≠ 0) (hstored : s'.stored = s.stored)
    (hreturned : s'.returned = s.returned) : Faithful dev s r (s'.finish rc) :=
  ⟨rc, by rw [Ads.finish, hreturned], .inr ⟨hrc, hstored⟩⟩

/-- A throwaway that fails may leave a conversion that the driver does not know of. -/
theorem Believed.unacknowledged (h : Believed dev s) {write : I2cWrite} (hfails : write.rc ≠ 0) :
    Believed dev (s.startConversion dev write) := by
  intro c hc
  rw [Ads.startConversion_last] at hc
  unfold Ads.startConversion
  split
  · exact ⟨_, List.getLast?_concat, fun hacked => absurd (of_decide_eq_true hacked) hfails⟩
  · exact h c hc

/-- A throwaway that succeeds is the conversion before the kept one. -/
theorem getLast?_startConversion {write : I2cWrite} (hok : write.rc = 0) :
    (s.startConversion dev write).started.getLast? =
      some ⟨(dev.channelCfg s.activeChannel).config ||| configOs, true⟩ := by
  rw [Ads.startConversion_started hok, List.getLast?_concat]

/-- A read behind a throwaway of its own channel is faithful. -/
theorem discarded_faithful {s₀ : Ads} (ht : s.sample dev r = some t)
    (hlast : s.lastConvertedChannel = some s.activeChannel)
    (hprev : s.started.getLast? =
      some ⟨(dev.channelCfg s.activeChannel).config ||| configOs, true⟩)
    (hactive : s.activeChannel = channelOf r.sequence.channels)
    (hstored : s.stored = s₀.stored) (hreturned : s.returned = s₀.returned) :
    Faithful dev s₀ r t ∧ Believed dev t := by
  have hsampled := sampled_sample hlast ht
  refine ⟨(hsampled.faithful_iff hactive hstored hreturned).mpr fun _ => ?_,
    hsampled.believed fun c hc => ?_⟩
  · exact ⟨_, hprev, hactive ▸ mux_or_os _⟩
  · obtain rfl : s.activeChannel = c := Option.some.inj (hlast.symm.trans hc)
    exact ⟨_, hprev, fun _ => mux_or_os _⟩

/-- A read that is accepted is faithful where it is undisturbed. -/
theorem settle_faithful_iff {s₀ : Ads} (ht : s.settle dev r = some t) (h : Believed dev s)
    (hactive : s.activeChannel = channelOf r.sequence.channels)
    (hvalid : validateSequence dev r.sequence = 0)
    (hstored : s.stored = s₀.stored) (hreturned : s.returned = s₀.returned) :
    (Faithful dev s₀ r t ↔ Undisturbed dev s r) ∧ Believed dev t := by
  simp only [Ads.settle] at ht
  split at ht
  · next hchanged =>
    have hcalm : Undisturbed dev s r := fun _ hsame => absurd (hactive ▸ hsame) hchanged
    split at ht
    · next hfails =>
      obtain rfl := Option.some.inj ht
      refine ⟨iff_of_true (faithful_finish hfails ?_ ?_) hcalm, h.unacknowledged hfails⟩
      · rw [Ads.startConversion_stored, hstored]
      · rw [Ads.startConversion_returned, hreturned]
    · next hok =>
      have hok : r.throwaway.rc = 0 := not_not.mp hok
      have hchannel := s.startConversion_activeChannel dev r.throwaway
      have hread : Faithful dev s₀ r t ∧ Believed dev t := discarded_faithful ht
        (congrArg some hchannel.symm) (by rw [hchannel]; exact getLast?_startConversion hok)
        (hchannel.trans hactive)
        ((s.startConversion_stored dev r.throwaway).trans hstored)
        ((s.startConversion_returned dev r.throwaway).trans hreturned)
      exact ⟨iff_of_true hread.1 hcalm, hread.2⟩
  · next hsame =>
    have hsame : some s.activeChannel = s.lastConvertedChannel := not_not.mp hsame
    have hsampled := sampled_sample hsame.symm ht
    obtain ⟨w, hw, hbelieved⟩ := h _ hsame.symm
    refine ⟨?_, hsampled.believed h⟩
    rw [hsampled.faithful_iff hactive hstored hreturned, ← hactive]
    constructor
    · rintro hprev hok - ⟨c, hc, w', hw', -, hmux⟩
      obtain ⟨prev, hp, hmux'⟩ := hprev ⟨hok.kept, hok.ready, hok.conv⟩
      obtain rfl : s.activeChannel = c := Option.some.inj (hsame.trans hc)
      obtain rfl := Option.some.inj (hp.symm.trans hw')
      exact hmux hmux'
    · intro hcalm hok
      refine ⟨w, hw, not_not.mp fun hmux => ?_⟩
      refine hcalm ⟨hvalid, hok.1, hok.2.1, hok.2.2⟩ (hactive ▸ hsame)
        ⟨_, hsame.symm, w, hw, ?_, hmux⟩
      exact Bool.eq_false_iff.mpr fun hacked => hmux (hbelieved hacked)

theorem startRead_faithful_iff (h : Believed dev s) (ht : s.startRead dev r = some t) :
    (Faithful dev s r t ↔ Undisturbed dev s r) ∧ Believed dev t := by
  simp only [Ads.startRead] at ht
  split at ht
  · next hinvalid =>
    obtain rfl := Option.some.inj ht
    refine ⟨iff_of_true (faithful_finish hinvalid rfl rfl) fun hok _ => ?_, h⟩
    exact absurd hok.valid hinvalid
  · next hvalid =>
    have hread := settle_faithful_iff ht h rfl (not_not.mp hvalid) rfl rfl
    exact hread

/-! ## Runs -/

/-- In every run of reads, each value comes from a conversion of its own channel behind one of the
same input, exactly where no successful read of the last converted channel follows a write for
another input that started a conversion and was reported as failed. -/
theorem reads_faithful_iff (dev : Device) (reads : List AdcRead) :
    Steps (fun s r => s.startRead dev r) (Faithful dev) {} reads ↔
      Steps (fun s r => s.startRead dev r) (fun s r _ => Undisturbed dev s r) {} reads := by
  have hstep : ∀ {s r t}, Believed dev s → Ads.startRead s dev r = some t →
      (Faithful dev s r t ↔ Undisturbed dev s r) ∧ (Undisturbed dev s r → Believed dev t) :=
    fun h ht => ⟨(startRead_faithful_iff h ht).1, fun _ => (startRead_faithful_iff h ht).2⟩
  exact Steps.iff_of_inv hstep nofun

end

/-- Two differential channels, of the inputs 0 and 1 and of the inputs 2 and 3. -/
def sharedDevice : Device where
  resolution := 16
  channelCfg := fun c => ⟨if c = 0 then 0x0300 else 0x3300, true, true⟩
  result := fun _ => 0

/-- A read of a channel of `sharedDevice`, which meets no failure but that of its throwaway. -/
def sharedRead (channel : UInt32) (throwaway : I2cWrite) : AdcRead where
  sequence := ⟨1 <<< channel, 16, 0, 2⟩
  throwaway := throwaway
  kept := ⟨0, true, fun _ => rfl⟩
  polls := [(0, configOs)]
  conv := 0

/-- A throwaway for the other channel reaches the chip but is reported as failed; the next read of
the first channel stores a value right behind it. -/
theorem lostAcknowledge_unsettled :
    ¬ Steps (fun s r => s.startRead sharedDevice r) (Faithful sharedDevice) {}
      [sharedRead 0 ⟨0, true, fun _ => rfl⟩, sharedRead 1 ⟨-5, true, nofun⟩,
        sharedRead 0 ⟨0, true, fun _ => rfl⟩] := by
  refine not_steps_cons rfl (not_steps_cons rfl fun hsteps => ?_)
  obtain ⟨rc, -, ⟨-, value, -, before, prev, kept, heq, -, hmux, -⟩ | ⟨-, hstored⟩⟩ :=
    ((steps_cons_some rfl).mp hsteps).1
  · have hthird := congrArg (fun started => started.reverse[1]?) heq
    have hprev : some prev = some ⟨0xB300, false⟩ := by
      rw [List.reverse_append] at hthird
      exact hthird.symm
    obtain rfl := Option.some.inj hprev
    exact absurd hmux (by decide)
  · exact absurd (congrArg List.length hstored) (by decide)

end DiveCANHead.Adc
