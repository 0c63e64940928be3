import Mathlib.Tactic.Linarith
import Mathlib.Tactic.Positivity
import Mathlib.Data.Rat.Sqrt
import DiveCANHead.Control.PlantModel
import DiveCANHead.Lib.Numerals

/-!
# Identification does not fault, and what it identifies can be tuned

For a trace whose two arrays are as long as the count says, every read is inside and no divisor is
zero: the dose is positive only where some sample is above the baseline, and that sample is at or
before the end of the pulse. A model that is valid is one the synthesis accepts.
-/

namespace DiveCANHead.Control

open DiveCANHead.Lib

/-- The two traces of one experiment, of one length, which is a 16 bit count. -/
structure PlantTrace (K : Type) where
  duty : List K
  ppo2Bar : List K
  sameLength : ppo2Bar.length = duty.length
  fits : duty.length < 65536

/-- The count of samples. -/
def PlantTrace.n {K : Type} (t : PlantTrace K) : ℕ :=
  t.duty.length

section Reads

variable {K : Type} {values : List K} {i : ℕ}

theorem read_some (h : i < values.length) : ∃ x, values[i]? = some x :=
  ⟨_, List.getElem?_eq_getElem h⟩

theorem readBack_some {back : ℕ} (hback : back ≤ i) (h : i < values.length) :
    ∃ x, readBack values i back = some x := by
  rw [readBack, if_pos hback]
  exact read_some (by omega)

end Reads

section Safety

variable {K : Type} [Field K] [LinearOrder K] [IsStrictOrderedRing K]
variable {duty ppo2Bar : List K} {n : ℕ}

/-! ## Windows -/

theorem natCast_ne_zero {k : ℕ} (h : 0 < k) : (k : K) ≠ 0 :=
  Nat.cast_ne_zero.mpr h.ne'

theorem windowMean_some {values : List K} (start : ℕ) {width : ℕ} (hfits : values.length < 65536)
    (hwidth : 0 < width) (hend : start + width ≤ values.length) :
    ∃ mean, windowMean values start width = some mean := by
  rw [windowMean, Nat.mod_eq_of_lt (by omega)]
  have hsum : ∃ sum, scan start (start + width) (meanTurn values) 0 = some sum ∧ True := by
    refine scan_inv (I := fun _ _ => True) (Nat.le_add_right _ _) (fun i sum _ hi _ => ?_) trivial
    obtain ⟨x, hx⟩ := read_some (show i < values.length by omega)
    exact ⟨sum + x, by rw [meanTurn, hx, Option.map_some], trivial⟩
  obtain ⟨mean, hmean, -⟩ := bind_some_of (Q := fun _ => True) hsum fun sum _ =>
    ⟨_, divide_eq_some (natCast_ne_zero (K := K) hwidth), trivial⟩
  exact ⟨mean, hmean⟩

theorem computeTailStats_some {tailN : ℕ} (hduty : duty.length = n) (hppo2 : ppo2Bar.length = n)
    (hfits : n < 65536) (hpos : 0 < tailN) (htail : tailN ≤ n) :
    ∃ finals, computeTailStats duty ppo2Bar n tailN = some finals := by
  have hsums : ∃ sums, scan (sub16 n tailN) n (tailTurn duty ppo2Bar) (0, 0) = some sums ∧
        True := by
    refine scan_inv (I := fun _ _ => True) (by rw [sub16_of_le htail hfits]; omega)
      (fun i s _ hi _ => ?_) trivial
    obtain ⟨u, hu⟩ := read_some (show i < duty.length by omega)
    obtain ⟨y, hy⟩ := read_some (show i < ppo2Bar.length by omega)
    exact ⟨(s.1 + u, s.2 + y), by simp [tailTurn, hu, hy], trivial⟩
  obtain ⟨sums, hsums, -⟩ := hsums
  have hne : (tailN : K) ≠ 0 := natCast_ne_zero hpos
  refine ⟨(sums.1 / tailN, sums.2 / tailN), ?_⟩
  simp only [computeTailStats, hsums, Option.bind_eq_bind, Option.bind_some, divide_eq_some hne]

theorem computeTailRmse_some {tailN : ℕ} (sqrtf : K → K) (hppo2 : ppo2Bar.length = n)
    (hfits : n < 65536) (hpos : 0 < tailN) (htail : tailN ≤ n) (finalY : K) :
    ∃ rmse, computeTailRmse sqrtf ppo2Bar n tailN finalY = some rmse := by
  have hsse : ∃ sse, scan (sub16 n tailN) n (residualTurn ppo2Bar finalY) 0 = some sse ∧ True := by
    refine scan_inv (I := fun _ _ => True) (by rw [sub16_of_le htail hfits]; omega)
      (fun i sse _ hi _ => ?_) trivial
    obtain ⟨y, hy⟩ := read_some (show i < ppo2Bar.length by omega)
    exact ⟨_, by rw [residualTurn, hy, Option.map_some], trivial⟩
  obtain ⟨sse, hsse, -⟩ := hsse
  have hne : (tailN : K) ≠ 0 := natCast_ne_zero hpos
  refine ⟨sqrtf (sse / tailN), ?_⟩
  simp only [computeTailRmse, hsse, Option.bind_eq_bind, Option.bind_some, divide_eq_some hne,
    Option.map_some]

/-! ## The pulse -/

attribute [local instance] DiveCANHead.Lib.atLeastTwo_five DiveCANHead.Lib.atLeastTwo_thousand in
/-- The sample is above the baseline by more than the threshold. -/
def Pulsing (duty : List K) (baselineDuty : K) (i : ℕ) : Prop :=
  ∃ u, duty[i]? = some u ∧ 5 / 1000 < u - baselineDuty

/-- After `i` samples: the end of the pulse is one of them, and a positive dose comes from a sample
above the baseline. -/
structure DoseInv (duty : List K) (baselineDuty : K) (i : ℕ) (s : K × ℕ) : Prop where
  inside : s.2 = 0 ∨ s.2 < i
  pulsing : 0 < s.1 → s.2 < i ∧ Pulsing duty baselineDuty s.2
  nonneg : 0 ≤ s.1

theorem computeDose_some {dtS : K} (hdt : 0 < dtS) (hduty : duty.length = n) (baselineDuty : K) :
    ∃ s, computeDoseAndPulseEnd duty n dtS baselineDuty = some s ∧
      DoseInv duty baselineDuty n s := by
  refine scan_inv (Nat.zero_le n) ?_ ⟨.inl rfl, fun h => absurd h (lt_irrefl _), le_rfl⟩
  rintro i s - hi hinv
  obtain ⟨u, hu⟩ := read_some (show i < duty.length by omega)
  refine ⟨_, by rw [doseTurn, hu, Option.map_some], ?_⟩
  by_cases habove : 5 / 1000 < u - baselineDuty
  · rw [if_pos habove]
    have hterm : 0 < (u - baselineDuty) * dtS := mul_pos (lt_trans (by norm_num) habove) hdt
    exact ⟨.inr (Nat.lt_succ_self i), fun _ => ⟨Nat.lt_succ_self i, u, hu, habove⟩,
      (add_pos_of_nonneg_of_pos hinv.nonneg hterm).le⟩
  · rw [if_neg habove]
    exact ⟨hinv.inside.imp_right Nat.lt_succ_of_lt,
      fun h => ⟨Nat.lt_succ_of_lt (hinv.pulsing h).1, (hinv.pulsing h).2⟩, hinv.nonneg⟩

/-- The pulse lasts some time where its last sample is above the baseline. -/
theorem computePulseTime_pos {dtS baselineDuty : K} {pulseEnd : ℕ} (hdt : 0 < dtS)
    (hend : pulseEnd < duty.length) (hpulsing : Pulsing duty baselineDuty pulseEnd) :
    ∃ time, computePulseTime duty pulseEnd dtS baselineDuty = some time ∧ 0 < time := by
  have htime : ∃ time, computePulseTime duty pulseEnd dtS baselineDuty = some time ∧
      (0 ≤ time ∧ (pulseEnd < pulseEnd + 1 → 0 < time)) := by
    refine scan_inv (I := fun i time => 0 ≤ time ∧ (pulseEnd < i → 0 < time)) (Nat.zero_le _) ?_
      ⟨le_rfl, fun h => absurd h (Nat.not_lt_zero _)⟩
    rintro i time - hi ⟨hnonneg, hpos⟩
    obtain ⟨u, hu⟩ := read_some (show i < duty.length by omega)
    refine ⟨_, by rw [pulseTurn, hu, Option.map_some], ?_⟩
    by_cases habove : 5 / 1000 < u - baselineDuty
    · rw [if_pos habove]
      have hlater : 0 < time + dtS := add_pos_of_nonneg_of_pos hnonneg hdt
      exact ⟨hlater.le, fun _ => hlater⟩
    · rw [if_neg habove]
      refine ⟨hnonneg, fun hlast => ?_⟩
      obtain ⟨v, hv, hvabove⟩ := hpulsing
      obtain rfl : i = pulseEnd := by omega
      exact absurd (Option.some.inj (hu.symm.trans hv) ▸ hvabove) habove
  obtain ⟨time, htime, -, hpos⟩ := htime
  exact ⟨time, htime, hpos (Nat.lt_succ_self _)⟩

/-! ## The response -/

theorem delayCrossedAt_some {i : ℕ} (hfits : ppo2Bar.length < 65536)
    (hend : i + 2 * slopeWindowSamples ≤ ppo2Bar.length) (delayLevel responseThreshold : K) :
    ∃ b, delayCrossedAt ppo2Bar slopeWindowSamples delayLevel responseThreshold i = some b := by
  have hwidth : 0 < slopeWindowSamples := by decide
  have hnext : (i + slopeWindowSamples) % 65536 = i + slopeWindowSamples :=
    Nat.mod_eq_of_lt (by omega)
  obtain ⟨first, hfirst⟩ := windowMean_some i hfits hwidth (by omega)
  obtain ⟨second, hsecond⟩ :=
    windowMean_some (i + slopeWindowSamples) hfits hwidth (by omega)
  rw [delayCrossedAt, hnext, hfirst, hsecond]
  exact ⟨_, rfl⟩

theorem findDelayCrossing_some (hppo2 : ppo2Bar.length = n) (hfits : n < 65536)
    (delayLevel responseThreshold : K) :
    ∃ delayI, findDelayCrossing ppo2Bar n slopeWindowSamples delayLevel responseThreshold =
      some delayI ∧ (delayI = n ∨ delayI + 2 * slopeWindowSamples ≤ n) := by
  have hbound : ∀ i ∈ indices 0 (n + 1 - delayCrossingWindowMult * slopeWindowSamples),
      i + 2 * slopeWindowSamples ≤ n := by
    intro i hi
    simp only [mem_indices, delayCrossingWindowMult] at hi
    omega
  obtain ⟨delayI, hdelay, hcases⟩ := search_spec (d := n) fun i hi =>
    delayCrossedAt_some (hppo2 ▸ hfits) (hppo2 ▸ hbound i hi) delayLevel responseThreshold
  exact ⟨delayI, hdelay, hcases.imp_right fun h => hbound delayI h.1⟩

theorem meanPositive_some (topRates : List K) : ∃ rate, meanPositive topRates = some rate := by
  unfold meanPositive
  by_cases hcount : 0 < (topRates.filter fun rate => decide (0 < rate)).length
  · rw [if_pos hcount]
    exact ⟨_, divide_eq_some (natCast_ne_zero hcount)⟩
  · rw [if_neg hcount]
    exact ⟨_, rfl⟩

theorem computeRateGain_some {dtS : K} (hdt : 0 < dtS) {delayI : ℕ} (hppo2 : ppo2Bar.length = n)
    (hfits : n < 65536) (hdelay : delayI + 2 * slopeWindowSamples ≤ n) :
    ∃ rate, computeRateGain ppo2Bar n delayI slopeWindowSamples dtS = some rate := by
  have hperiod : (slopeWindowSamples : K) * dtS ≠ 0 :=
    (mul_pos (Nat.cast_pos.mpr (by decide)) hdt).ne'
  rw [computeRateGain, Nat.mod_eq_of_lt (by omega)]
  have htops : ∃ tops, scan (delayI + slopeWindowSamples) n
      (rateTurn ppo2Bar slopeWindowSamples dtS) (List.replicate topNRates 0) = some tops ∧
      True := by
    refine scan_inv (I := fun _ _ => True) (by omega) (fun i tops hfrom hi _ => ?_) trivial
    obtain ⟨y, hy⟩ := read_some (show i < ppo2Bar.length by omega)
    obtain ⟨before, hbefore⟩ := readBack_some
      (show slopeWindowSamples ≤ i by omega) (show i < ppo2Bar.length by omega)
    refine ⟨insertRate ((y - before) / (slopeWindowSamples * dtS)) tops, ?_, trivial⟩
    simp only [rateTurn, hy, hbefore, divide_eq_some hperiod, Option.bind_eq_bind,
      Option.bind_some]
  obtain ⟨rate, hrate, -⟩ := bind_some_of (Q := fun _ => True) htops fun tops _ =>
    (meanPositive_some tops).imp fun _ h => ⟨h, trivial⟩
  exact ⟨rate, hrate⟩

omit [IsStrictOrderedRing K] in
theorem findSettle_some {pulseEnd : ℕ} (hppo2 : ppo2Bar.length = n) (hfits : n < 65536)
    (hend : pulseEnd < n) (finalY settleBand : K) :
    ∃ last, findSettleLastOutside ppo2Bar n pulseEnd finalY settleBand = some last ∧
      (pulseEnd ≤ last ∧ last < n) := by
  rw [findSettleLastOutside, Nat.mod_eq_of_lt (by omega)]
  refine scan_inv (I := fun i last => pulseEnd ≤ last ∧ last < i) (by omega) ?_
    ⟨le_rfl, Nat.lt_succ_self _⟩
  intro i last hge hi hinv
  obtain ⟨y, hy⟩ := read_some (show i < ppo2Bar.length by omega)
  refine ⟨_, by rw [settleTurn, hy, Option.map_some], ?_⟩
  split <;> omega

/-! ## The mixing lobe -/

/-- A lobe that falls has its trough at or below its peak, and an excursion is never negative. -/
structure Lobe.Inv (l : Lobe K) : Prop where
  falls : l.falling = true → l.trough ≤ l.runningPeak
  nonneg : 0 ≤ l.maxReversal

theorem Lobe.Inv.track {l : Lobe K} (h : l.Inv) {threshold : K} (hpos : 0 < threshold)
    (smoothed : K) : (l.track threshold smoothed).Inv := by
  unfold Lobe.track
  split
  · next hrise =>
    split
    · exact ⟨fun hfall => absurd hfall (by simp [hrise]), h.nonneg⟩
    · split
      · next hdrop => exact ⟨fun _ => by linarith, h.nonneg⟩
      · exact h
  · next hfall =>
    have hle : l.trough ≤ l.runningPeak := h.falls (by simpa using hfall)
    split
    · next hlower => exact ⟨fun _ => hlower.le.trans hle, h.nonneg⟩
    · split
      · exact ⟨fun _ => hle, sub_nonneg.mpr hle⟩
      · exact h

theorem Lobe.Inv.excursion_nonneg {l : Lobe K} (h : l.Inv) : 0 ≤ l.excursion := by
  unfold Lobe.excursion
  split
  · next hfall => exact sub_nonneg.mpr (h.falls hfall.1)
  · exact h.nonneg

theorem computeMixingReversal_nonneg {delayI : ℕ} (hppo2 : ppo2Bar.length = n) (hfits : n < 65536)
    (hdelay : delayI + 2 * slopeWindowSamples ≤ n) {threshold : K} (hpos : 0 < threshold) :
    ∃ reversal, computeMixingReversal ppo2Bar n delayI slopeWindowSamples threshold =
      some reversal ∧ 0 ≤ reversal := by
  have hwidth : 0 < slopeWindowSamples := by decide
  have hmean : ∀ {i}, i + slopeWindowSamples ≤ n →
      ∃ mean, windowMean ppo2Bar i slopeWindowSamples = some mean := fun hi =>
    windowMean_some _ (hppo2 ▸ hfits) hwidth (hppo2 ▸ hi)
  obtain ⟨start, hstart⟩ := hmean (i := delayI) (by omega)
  have hlobe : ∃ l, scan (delayI + 1) (n + 1 - slopeWindowSamples)
      (lobeTurn ppo2Bar slopeWindowSamples threshold) ⟨start, start, 0, false, false⟩ = some l ∧
      l.Inv := by
    refine scan_inv (I := fun _ => Lobe.Inv) (by omega) (fun i l _ hi hinv => ?_)
      ⟨fun h => absurd h Bool.false_ne_true, le_rfl⟩
    unfold lobeTurn
    split
    · exact ⟨l, rfl, hinv⟩
    · obtain ⟨smoothed, hsmoothed⟩ := hmean (i := i) (by omega)
      exact ⟨_, by rw [hsmoothed, Option.map_some], hinv.track hpos smoothed⟩
  obtain ⟨l, hl, hinv⟩ := hlobe
  refine ⟨l.excursion, ?_, hinv.excursion_nonneg⟩
  rw [computeMixingReversal, Nat.mod_eq_of_lt (by omega)]
  simp only [hstart, hl, Option.bind_eq_bind, Option.bind_some]

/-! ## The identification and the synthesis -/

/-- What a valid model promises: a positive gain, a time constant of a sample period at least, and
no negative dead time or mixing. -/
structure PlantModel.Physical (m : PlantModel K) (dtS : K) : Prop where
  gain : 0 < m.processGain
  timeConstant : dtS ≤ m.timeConstantS
  deadTime : 0 ≤ m.deadTimeS
  mixing : 0 ≤ m.mixingExcursionBar

/-- What the identification answers, and a valid model is physical. -/
def Sound (dtS : K) (r : Bool × PlantModel K) : Prop :=
  r.1 = r.2.valid ∧ (r.2.valid = true → r.2.Physical dtS)

omit [IsStrictOrderedRing K] in
theorem sound_zero (dtS : K) : Sound dtS (false, PlantModel.zero) :=
  ⟨rfl, fun h => absurd h Bool.false_ne_true⟩

theorem tailSamples_pos (n : ℕ) : 0 < tailSamples n := by
  unfold tailSamples minTailSamples
  split <;> omega

theorem tailSamples_le (h : minSampleCount ≤ n) : tailSamples n ≤ n := by
  unfold tailSamples minTailSamples
  unfold minSampleCount at h
  split <;> omega

theorem identifyResponse_sound (sqrtf : K → K) {dtS : K} (hdt : 0 < dtS)
    (hn : minSampleCount ≤ n) (hfits : n < 65536) (hduty : duty.length = n)
    (hppo2 : ppo2Bar.length = n) {baselineDuty responseThreshold dose : K} {pulseEnd delayI : ℕ}
    (hthreshold : 0 < responseThreshold) (hdose : 0 < dose) (hend : pulseEnd < n)
    (hpulsing : Pulsing duty baselineDuty pulseEnd)
    (hdelay : delayI + 2 * slopeWindowSamples ≤ n) (baselinePpo2Bar finalU finalY : K) :
    ∃ r, identifyResponse sqrtf duty ppo2Bar n dtS baselineDuty baselinePpo2Bar responseThreshold
      finalU finalY dose pulseEnd delayI = some r ∧ Sound dtS r := by
  have htail : tailSamples n ≤ n := tailSamples_le hn
  obtain ⟨rate, hrate⟩ := computeRateGain_some hdt hppo2 hfits hdelay
  obtain ⟨time, htime, htimePos⟩ := computePulseTime_pos hdt (hduty ▸ hend) hpulsing
  -- a positive dose over a positive time: neither divisor is zero
  have hmean : dose / time ≠ 0 := (div_pos hdose htimePos).ne'
  obtain ⟨rmse, hrmse⟩ :=
    computeTailRmse_some sqrtf hppo2 hfits (tailSamples_pos n) htail finalY
  obtain ⟨last, hlast, -, -⟩ :=
    findSettle_some hppo2 hfits hend finalY (max (1 / 100) (3 * rmse))
  obtain ⟨reversal, hreversal, hreversalPos⟩ :=
    computeMixingReversal_nonneg hppo2 hfits hdelay hthreshold
  simp only [identifyResponse, hrate, htime, divide_eq_some htimePos.ne', divide_eq_some hmean,
    hrmse, hlast, hreversal, Option.bind_eq_bind, Option.bind_some]
  split
  · exact ⟨_, rfl, sound_zero dtS⟩
  · next hgood =>
    refine ⟨_, rfl, rfl, fun _ => ⟨?_, ?_, ?_, hreversalPos⟩⟩
    · exact not_le.mp fun hle => hgood (.inr hle)
    · show dtS ≤ if _ then dtS else _
      split
      · exact le_rfl
      · next htau => exact not_lt.mp htau
    · exact mul_nonneg (Nat.cast_nonneg _) hdt.le

theorem autotuneIdentifyPlant_sound (sqrtf : K → K) (t : PlantTrace K)
    (hn : minSampleCount ≤ t.n) {dtS : K} (hdt : 0 < dtS)
    (baselineDuty baselinePpo2Bar baselineNoiseBar : K) :
    ∃ r, autotuneIdentifyPlant sqrtf t.duty t.ppo2Bar t.n dtS baselineDuty baselinePpo2Bar
      baselineNoiseBar = some r ∧ Sound dtS r := by
  have hduty : t.duty.length = t.n := rfl
  have hppo2 : t.ppo2Bar.length = t.n := t.sameLength
  obtain ⟨finals, hfinals⟩ :=
    computeTailStats_some hduty hppo2 t.fits (tailSamples_pos t.n) (tailSamples_le hn)
  obtain ⟨⟨dose, pulseEnd⟩, hdose, hinv⟩ := computeDose_some hdt hduty baselineDuty
  have hthreshold : (0 : K) < max (5 / 1000) (2 * baselineNoiseBar) :=
    lt_max_of_lt_left (by norm_num)
  obtain ⟨delayI, hdelay, hcases⟩ := findDelayCrossing_some hppo2 t.fits
    (baselinePpo2Bar + max (5 / 1000) (2 * baselineNoiseBar))
    (max (5 / 1000) (2 * baselineNoiseBar))
  rw [autotuneIdentifyPlant, if_neg (not_or.mpr ⟨not_lt.mpr hn, not_le.mpr hdt⟩)]
  simp only [hfinals, hdose, hdelay, Option.bind_eq_bind, Option.bind_some]
  split
  · exact ⟨_, rfl, sound_zero dtS⟩
  · next hlow =>
    have hpos : 0 < dose := lt_of_lt_of_le (by norm_num) (not_lt.mp hlow)
    obtain ⟨hend, hpulsing⟩ := hinv.pulsing hpos
    split
    · exact ⟨_, rfl, sound_zero dtS⟩
    · next hfound =>
      exact identifyResponse_sound sqrtf hdt hn t.fits hduty hppo2 hthreshold hpos hend hpulsing
        (hcases.resolve_left hfound) _ _ _

omit [Field K] [IsStrictOrderedRing K] in
theorem localClampf_mem (value : K) {lo hi : K} (h : lo ≤ hi) :
    localClampf value lo hi ∈ Set.Icc lo hi := by
  unfold localClampf
  split
  · exact ⟨le_rfl, h⟩
  · next hlo =>
    split
    · exact ⟨h, le_rfl⟩
    · next hhi => exact ⟨not_lt.mp hlo, not_lt.mp hhi⟩

/-- The synthesis succeeds on a physical model: its three divisors are positive. -/
theorem autotuneModelPid_some {m : PlantModel K} {dtS : K} (hdt : 0 < dtS) (hm : m.Physical dtS)
    (hvalid : m.valid = true) {controllerDtS : K} (hctl : 0 < controllerDtS) (lo hi : K) :
    ∃ kc ki, autotuneModelPid m controllerDtS lo hi =
      some (some ⟨localClampf kc lo hi, localClampf ki lo hi, 0⟩) := by
  have htau : 0 < m.timeConstantS := lt_of_lt_of_le hdt hm.timeConstant
  have hbad : ¬ (m.valid = false ∨ m.processGain ≤ 0 ∨ m.timeConstantS ≤ 0 ∨
      controllerDtS ≤ 0) := by
    simp only [hvalid, Bool.true_eq_false, false_or, not_or, not_le]
    exact ⟨hm.gain, htau, hctl⟩
  have hspan : (max |m.finalPpo2Bar - m.baselinePpo2Bar| (1 / 100) : K) ≠ 0 :=
    (lt_max_of_lt_right (by norm_num)).ne'
  have hlambda : 0 < if m.timeConstantS < 3 * m.deadTimeS then 3 * m.deadTimeS
      else m.timeConstantS := by
    split
    · next hlt => exact htau.trans hlt
    · exact htau
  have hclamp : ∀ x : K, 0 < localClampf x 1 3 := fun x =>
    lt_of_lt_of_le one_pos (localClampf_mem x (by norm_num)).1
  rw [autotuneModelPid, if_neg hbad]
  simp only [divide_eq_some hspan, Option.bind_eq_bind, Option.bind_some]
  have hsum := fun x : K => add_pos_of_pos_of_nonneg (mul_pos hlambda (hclamp x)) hm.deadTime
  rw [divide_eq_some (mul_pos hm.gain (hsum _)).ne', Option.bind_some,
    divide_eq_some (mul_pos (by norm_num) (hsum _)).ne', Option.bind_some]
  exact ⟨_, _, rfl⟩

/-- Neither the identification of a trace nor the synthesis on what it leaves reads outside the
trace or divides by zero; and a valid model is physical, and gives gains in range. The derivative
gain is zero, so it is in every range that has zero in it. -/
theorem autotune_identify_tune_safe (sqrtf : K → K) (t : PlantTrace K)
    (hn : minSampleCount ≤ t.n) {dtS : K} (hdt : 0 < dtS)
    (baselineDuty baselinePpo2Bar baselineNoiseBar : K) {controllerDtS lo hi : K}
    (hctl : 0 < controllerDtS) (hle : lo ≤ hi) :
    ∃ ok m tuned,
      autotuneIdentifyPlant sqrtf t.duty t.ppo2Bar t.n dtS baselineDuty baselinePpo2Bar
        baselineNoiseBar = some (ok, m) ∧
      autotuneModelPid m controllerDtS lo hi = some tuned ∧
      ok = m.valid ∧
      (m.valid = true → m.Physical dtS ∧ ∃ g, tuned = some g ∧
        g.kp ∈ Set.Icc lo hi ∧ g.ki ∈ Set.Icc lo hi ∧
        (0 ∈ Set.Icc lo hi → g.kd ∈ Set.Icc lo hi)) := by
  obtain ⟨⟨ok, m⟩, hr, hok, hphysical⟩ :=
    autotuneIdentifyPlant_sound sqrtf t hn hdt baselineDuty baselinePpo2Bar baselineNoiseBar
  by_cases hvalid : m.valid = true
  · obtain ⟨kc, ki, htuned⟩ := autotuneModelPid_some hdt (hphysical hvalid) hvalid hctl lo hi
    exact ⟨ok, m, _, hr, htuned, hok, fun _ => ⟨hphysical hvalid, _, rfl,
      localClampf_mem kc hle, localClampf_mem ki hle, fun h => h⟩⟩
  · refine ⟨ok, m, none, hr, ?_, hok, fun h => absurd h hvalid⟩
    rw [autotuneModelPid, if_pos (.inl (Bool.eq_false_of_not_eq_true hvalid))]

end Safety

/-- A pulse of four samples, and a response that stays. -/
def stepTrace : PlantTrace ℚ where
  duty := List.replicate 4 (1 / 10) ++ List.replicate 12 0
  ppo2Bar := List.replicate 2 (7 / 10) ++ List.replicate 14 (8 / 10)
  sameLength := rfl
  fits := by decide

theorem autotune_identify_tune_safe_step :
    ∃ ok m tuned,
      autotuneIdentifyPlant Rat.sqrt stepTrace.duty stepTrace.ppo2Bar 16 (1 / 2) 0 (7 / 10) 0 =
        some (ok, m) ∧
      autotuneModelPid m (1 / 10) 0 100 = some tuned ∧
      ok = m.valid ∧
      (m.valid = true → m.Physical (1 / 2) ∧ ∃ g, tuned = some g ∧
        g.kp ∈ Set.Icc (0 : ℚ) 100 ∧ g.ki ∈ Set.Icc (0 : ℚ) 100 ∧
        (0 ∈ Set.Icc (0 : ℚ) 100 → g.kd ∈ Set.Icc (0 : ℚ) 100)) :=
  autotune_identify_tune_safe Rat.sqrt stepTrace (by decide) (by norm_num) 0 (7 / 10) 0
    (by norm_num) (by norm_num)

end DiveCANHead.Control
