import Mathlib.Data.BitVec
import Mathlib.Logic.Function.Basic
import DiveCANHead.Lib.Runs

/-!
# The alarm channel (`alarm.c`)

Each owner updates its bits of one stored mask, under a mutex; a mask that changed is published, and
the publication may time out. The stored mask always holds what every owner passed last. The channel
does too unless a dropped publication is followed by updates that change nothing: those publish
nothing either.
-/

namespace DiveCANHead.Alarm

open DiveCANHead.Lib

/-- `AlarmMask_t`. -/
abbrev AlarmMask := BitVec 32

/-- `ALARM_PPO2_LOW`. -/
def alarmPpo2Low : AlarmMask := 1

/-- `ALARM_PPO2_HIGH`. -/
def alarmPpo2High : AlarmMask := 2

/-- `ALARM_PPO2_INVALID`. -/
def alarmPpo2Invalid : AlarmMask := 4

/-- `ALARM_PPO2_MASK`. -/
def alarmPpo2Mask : AlarmMask := alarmPpo2Low ||| alarmPpo2High ||| alarmPpo2Invalid

/-- `alarm_ppo2_reasons`: with the hypoxic setpoint of 19 centibar the low alarm starts at 16
instead of 40. -/
def alarmPpo2Reasons (ppo2 confidence setpointCb : UInt8) : AlarmMask :=
  if ppo2 = 0xFF ∨ confidence = 0 then alarmPpo2Invalid
  else if ppo2 < (if setpointCb = 19 then 16 else 40) then alarmPpo2Low
  else if ppo2 > 160 then alarmPpo2High
  else 0

/-- The reasons are among the bits their source owns. -/
theorem alarmPpo2Reasons_owned (ppo2 confidence setpointCb : UInt8) :
    alarmPpo2Reasons ppo2 confidence setpointCb &&& alarmPpo2Mask =
      alarmPpo2Reasons ppo2 confidence setpointCb := by
  simp only [alarmPpo2Reasons]
  by_cases hinvalid : ppo2 = 0xFF ∨ confidence = 0
  · rw [if_pos hinvalid]
    decide
  rw [if_neg hinvalid]
  by_cases hlow : ppo2 < (if setpointCb = 19 then 16 else 40)
  · rw [if_pos hlow]
    decide
  rw [if_neg hlow]
  by_cases hhigh : ppo2 > 160
  · rw [if_pos hhigh]
    decide
  · rw [if_neg hhigh]
    decide

/-! ## Updates -/

/-- A call of `alarm_update` by an owner; `published` is what its publication would come to. -/
structure AlarmCall (ι : Type) where
  owner : ι
  active : AlarmMask
  published : Bool

/-- The stored mask and the channel; for the statements only, what each owner passed last. -/
structure AlarmState (ι : Type) where
  stored : AlarmMask
  channel : AlarmMask
  latest : ι → Option AlarmMask

variable {ι : Type} {owned : ι → AlarmMask}

/-- The mask after an owner's update. -/
def next (owned : ι → AlarmMask) (s : AlarmState ι) (c : AlarmCall ι) : AlarmMask :=
  s.stored &&& ~~~owned c.owner ||| c.active &&& owned c.owner

/-- `alarm_update`. -/
def alarmUpdate [DecidableEq ι] (owned : ι → AlarmMask) (s : AlarmState ι) (c : AlarmCall ι) :
    AlarmState ι :=
  { stored := next owned s c
    channel := if next owned s c ≠ s.stored ∧ c.published = true then next owned s c else s.channel
    latest := Function.update s.latest c.owner (some c.active) }

def alarmStep [DecidableEq ι] (owned : ι → AlarmMask) (s : AlarmState ι) (c : AlarmCall ι) :
    Option (AlarmState ι) := some (alarmUpdate owned s c)

/-- As the state and the channel are defined. -/
def alarmInit : AlarmState ι := ⟨alarmPpo2Invalid, alarmPpo2Invalid, fun _ => none⟩

/-- The call publishes, and its publication times out. -/
def TimesOut (owned : ι → AlarmMask) (s : AlarmState ι) (c : AlarmCall ι) : Prop :=
  next owned s c ≠ s.stored ∧ c.published = false

/-- The channel reads, in the bits of each owner, what that owner passed last. -/
def Coherent (owned : ι → AlarmMask) (t : AlarmState ι) : Prop :=
  ∀ i active, t.latest i = some active → t.channel &&& owned i = active &&& owned i

/-- Safety of an update: unless its own publication times out, the channel is coherent after it. -/
def Safe (owned : ι → AlarmMask) (s : AlarmState ι) (c : AlarmCall ι) (t : AlarmState ι) : Prop :=
  ¬ TimesOut owned s c → Coherent owned t

/-- No dropped publication is outstanding when an update changes nothing. -/
def Clean (owned : ι → AlarmMask) (s : AlarmState ι) (c : AlarmCall ι) : Prop :=
  next owned s c = s.stored → s.channel = s.stored

instance decidableTimesOut (owned : ι → AlarmMask) (s : AlarmState ι) (c : AlarmCall ι) :
    Decidable (TimesOut owned s c) := by
  unfold TimesOut
  infer_instance

instance decidableClean (owned : ι → AlarmMask) (s : AlarmState ι) (c : AlarmCall ι) :
    Decidable (Clean owned s c) := by
  unfold Clean
  infer_instance

/-! ## Masks by their bits -/

theorem and_eq_and_iff {mask active bits : AlarmMask} :
    mask &&& bits = active &&& bits ↔
      ∀ b, bits.getLsbD b = true → mask.getLsbD b = active.getLsbD b := by
  constructor
  · intro h b hb
    have hbit := congrArg (fun m => m.getLsbD b) h
    simpa only [BitVec.getLsbD_and, hb, Bool.and_true] using hbit
  · intro h
    refine BitVec.eq_of_getLsbD_eq fun b _ => ?_
    rw [BitVec.getLsbD_and, BitVec.getLsbD_and]
    cases hb : bits.getLsbD b with
    | false => simp only [Bool.and_false]
    | true => rw [h b hb]

theorem getLsbD_next (s : AlarmState ι) (c : AlarmCall ι) (b : ℕ) :
    (next owned s c).getLsbD b =
      if (owned c.owner).getLsbD b = true then c.active.getLsbD b else s.stored.getLsbD b := by
  simp only [next, BitVec.getLsbD_or, BitVec.getLsbD_and, BitVec.getLsbD_not]
  cases hb : (owned c.owner).getLsbD b with
  | false =>
    by_cases hlt : b < 32
    · simp [hlt]
    · simp [BitVec.getLsbD_of_ge s.stored b (by omega)]
  | true => simp

/-- Disjoint owners share no bit. -/
theorem owner_unique (hdisjoint : ∀ i j, i ≠ j → owned i &&& owned j = 0) {i j : ι} {b : ℕ}
    (hi : (owned i).getLsbD b = true) (hj : (owned j).getLsbD b = true) : i = j := by
  by_contra hne
  have hbit := congrArg (fun m => m.getLsbD b) (hdisjoint i j hne)
  simp [hi, hj] at hbit

/-! ## Runs -/

/-- The stored mask holds what every owner passed last, and the channel is behind it only in bits of
owners that have called. -/
structure AlarmInv (owned : ι → AlarmMask) (s : AlarmState ι) : Prop where
  stored : ∀ i active, s.latest i = some active →
    ∀ b, (owned i).getLsbD b = true → s.stored.getLsbD b = active.getLsbD b
  behind : ∀ b, s.channel.getLsbD b ≠ s.stored.getLsbD b →
    ∃ i active, s.latest i = some active ∧ (owned i).getLsbD b = true

theorem alarmInv_init : AlarmInv owned (alarmInit : AlarmState ι) where
  stored _ _ h := nomatch h
  behind _ h := absurd rfl h

theorem alarmInv_update [DecidableEq ι]
    (hdisjoint : ∀ i j, i ≠ j → owned i &&& owned j = 0) {s : AlarmState ι}
    (hi : AlarmInv owned s) (c : AlarmCall ι) : AlarmInv owned (alarmUpdate owned s c) := by
  -- an owner that has called has called after the update too
  have hcalled : ∀ i active, s.latest i = some active →
      ∃ active', (alarmUpdate owned s c).latest i = some active' := by
    intro i active h
    by_cases hic : i = c.owner
    · exact ⟨c.active, by rw [hic]; exact Function.update_self ..⟩
    · exact ⟨active, (Function.update_of_ne hic ..).trans h⟩
  refine ⟨fun i active h b hb => ?_, fun b hne => ?_⟩
  · have hbit : (alarmUpdate owned s c).stored.getLsbD b = _ := getLsbD_next s c b
    rw [hbit]
    by_cases hic : i = c.owner
    · have hactive : c.active = active := by
        simpa only [alarmUpdate, hic, Function.update_self, Option.some.injEq] using h
      rw [← hic, if_pos hb, hactive]
    · have hlatest : s.latest i = some active := (Function.update_of_ne hic ..).symm.trans h
      rw [if_neg fun hown => hic (owner_unique hdisjoint hb hown)]
      exact hi.stored i active hlatest b hb
  · by_cases hown : (owned c.owner).getLsbD b = true
    · exact ⟨c.owner, c.active, Function.update_self .., hown⟩
    · -- a bit of no caller is stored as before, and the channel was behind there already
      have hkeep : (next owned s c).getLsbD b = s.stored.getLsbD b := by
        rw [getLsbD_next, if_neg hown]
      have hold : s.channel.getLsbD b ≠ s.stored.getLsbD b := by
        simp only [alarmUpdate] at hne
        split at hne
        · exact absurd rfl hne
        · rwa [hkeep] at hne
      obtain ⟨i, active, hlatest, hbit⟩ := hi.behind b hold
      obtain ⟨active', hlatest'⟩ := hcalled i active hlatest
      exact ⟨i, active', hlatest', hbit⟩

/-- Once the channel has caught up, it is coherent. -/
theorem coherent_of_eq {t : AlarmState ι} (hi : AlarmInv owned t) (h : t.channel = t.stored) :
    Coherent owned t := by
  intro i active hlatest
  rw [h]
  exact and_eq_and_iff.mpr (hi.stored i active hlatest)

/-- A coherent channel has caught up. -/
theorem eq_of_coherent {t : AlarmState ι} (hi : AlarmInv owned t) (h : Coherent owned t) :
    t.channel = t.stored := by
  refine BitVec.eq_of_getLsbD_eq fun b _ => ?_
  by_contra hne
  obtain ⟨i, active, hlatest, hbit⟩ := hi.behind b hne
  exact hne ((and_eq_and_iff.mp (h i active hlatest) b hbit).trans
    (hi.stored i active hlatest b hbit).symm)

/-- An update leaves the channel caught up unless its publication times out, or it changes nothing
and the channel was behind. -/
theorem channel_caughtUp_iff [DecidableEq ι] (s : AlarmState ι) (c : AlarmCall ι)
    (h : ¬ TimesOut owned s c) :
    (alarmUpdate owned s c).channel = (alarmUpdate owned s c).stored ↔ Clean owned s c := by
  simp only [alarmUpdate, Clean]
  by_cases hsame : next owned s c = s.stored
  · simp [hsame]
  · have hpub : c.published = true := by
      by_contra hdrop
      exact h ⟨hsame, by simpa using hdrop⟩
    simp [hsame, hpub]

/-- What an update whose publication times out leaves behind, the next update that changes the
mask publishes. -/
theorem dropped_republished [DecidableEq ι] (s : AlarmState ι) (c : AlarmCall ι)
    (hchange : next owned s c ≠ s.stored) (hpub : c.published = true) :
    (alarmUpdate owned s c).channel = (alarmUpdate owned s c).stored :=
  (channel_caughtUp_iff s c fun h => Bool.noConfusion (hpub.symm.trans h.2)).mpr
    fun h => absurd h hchange

/-- The channel is coherent after every update that does not time out itself, in exactly the runs in
which no update changes nothing while a dropped publication is outstanding. -/
theorem alarm_coherent_iff [DecidableEq ι] (owned : ι → AlarmMask)
    (hdisjoint : ∀ i j, i ≠ j → owned i &&& owned j = 0) (calls : List (AlarmCall ι)) :
    Steps (alarmStep owned) (Safe owned) alarmInit calls ↔
      Steps (alarmStep owned) (fun s c _ => Clean owned s c) alarmInit calls := by
  have hkeep : ∀ {s c t}, AlarmInv owned s → alarmStep owned s c = some t →
      (Safe owned s c t ↔ Clean owned s c) ∧ (Clean owned s c → AlarmInv owned t) := by
    intro s c t hi hstep
    obtain rfl : alarmUpdate owned s c = t := Option.some.inj hstep
    have hi' := alarmInv_update hdisjoint hi c
    refine ⟨⟨fun hsafe hsame => ?_, fun hclean hpub => ?_⟩, fun _ => hi'⟩
    · have hpub : ¬ TimesOut owned s c := fun h => h.1 hsame
      exact (channel_caughtUp_iff s c hpub).mp (eq_of_coherent hi' (hsafe hpub)) hsame
    · exact coherent_of_eq hi' ((channel_caughtUp_iff s c hpub).mpr hclean)
  exact Steps.iff_of_inv hkeep alarmInv_init

/-- The owner of the firmware's own alarm source. -/
def ppo2Owned : Unit → AlarmMask := fun _ => alarmPpo2Mask

/-- An update of the consensus thread. -/
def ppo2Update (ppo2 : UInt8) (published : Bool) : AlarmCall Unit :=
  ⟨(), alarmPpo2Reasons ppo2 1 70, published⟩

/-- A high PPO2 whose publication is dropped, and one that falls again. -/
theorem dropped_high_recovers :
    Steps (alarmStep ppo2Owned) (fun s c _ => Clean ppo2Owned s c) alarmInit
        [ppo2Update 100 true, ppo2Update 170 false, ppo2Update 120 true] ∧
      Steps (alarmStep ppo2Owned) (Safe ppo2Owned) alarmInit
        [ppo2Update 100 true, ppo2Update 170 false, ppo2Update 120 true] := by
  have hclean : Steps (alarmStep ppo2Owned) (fun s c _ => Clean ppo2Owned s c) alarmInit
      [ppo2Update 100 true, ppo2Update 170 false, ppo2Update 120 true] := by
    decide +kernel
  exact ⟨hclean, (alarm_coherent_iff ppo2Owned (fun i j h => absurd rfl h) _).mpr hclean⟩

/-- A high PPO2 whose publication is dropped, and that persists: no later update publishes it. -/
theorem dropped_high_forgotten :
    ¬ Steps (alarmStep ppo2Owned) (Safe ppo2Owned) alarmInit
      [ppo2Update 100 true, ppo2Update 170 false, ppo2Update 170 true] := by
  intro h
  have hsteps : Steps (alarmStep ppo2Owned) (Safe ppo2Owned) alarmInit
      ([ppo2Update 100 true, ppo2Update 170 false] ++ [ppo2Update 170 true]) := h
  have hrun : (exec (alarmStep ppo2Owned) alarmInit
      [ppo2Update 100 true, ppo2Update 170 false]).map
        (fun s => (s.stored, s.channel)) = some (alarmPpo2High, 0) := by
    decide +kernel
  obtain ⟨s, hs, hview⟩ := Option.map_eq_some_iff.mp hrun
  obtain ⟨hstored, hchannel⟩ := Prod.mk.inj hview
  have hsame : next ppo2Owned s (ppo2Update 170 true) = s.stored := by
    rw [next, hstored]
    decide
  have hsafe := hsteps.last hs rfl
  have hlatest : (alarmUpdate ppo2Owned s (ppo2Update 170 true)).latest () =
      some (alarmPpo2Reasons 170 1 70) := by
    simp only [alarmUpdate, ppo2Update, Function.update_self]
  have hshown := hsafe (fun hout => hout.1 hsame) () _ hlatest
  have hstale : (alarmUpdate ppo2Owned s (ppo2Update 170 true)).channel = 0 := by
    simp only [alarmUpdate, hsame, ne_eq, not_true_eq_false, false_and, if_false, hchannel]
  rw [hstale] at hshown
  exact absurd hshown (by decide)

end DiveCANHead.Alarm
