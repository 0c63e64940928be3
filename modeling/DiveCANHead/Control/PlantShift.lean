import Mathlib.Tactic.Ring
import Mathlib.Tactic.FieldSimp
import DiveCANHead.Control.PlantSafety

/-!
# Identification does not depend on the operating point

Add one constant to the duty and its baseline, and another to the PPO2 and its baseline: every loop
of the identification goes with the same loop on the shifted trace, because it looks at differences
only. A window mean and the final values shift along; everything else stays.
-/

namespace DiveCANHead.Control

open DiveCANHead.Lib

section Shift

variable {K : Type} [Field K] [LinearOrder K] [IsStrictOrderedRing K]
variable {duty ppo2Bar values : List K} {n : ℕ} (cu cy c : K)

/-- The same samples, higher by a constant. -/
def shift (values : List K) (c : K) : List K :=
  values.map (· + c)

omit [LinearOrder K] [IsStrictOrderedRing K] in
theorem shift_read (values : List K) (c : K) (i : ℕ) :
    (shift values c)[i]? = (values[i]?).map (· + c) :=
  List.getElem?_map

omit [LinearOrder K] [IsStrictOrderedRing K] in
theorem shift_readBack (values : List K) (c : K) (i back : ℕ) :
    readBack (shift values c) i back = (readBack values i back).map (· + c) := by
  unfold readBack
  split
  · exact shift_read values c _
  · rfl

/-! ## Windows -/

theorem windowMean_shift {start width : ℕ} (hwidth : 0 < width) (hend : start + width < 65536) :
    windowMean (shift values c) start width = (windowMean values start width).map (· + c) := by
  have hne : (width : K) ≠ 0 := natCast_ne_zero hwidth
  have hsum : scan start (start + width) (meanTurn (shift values c)) 0 =
      (scan start (start + width) (meanTurn values) 0).map (· + (width : K) * c) := by
    have h := scan_map (f := meanTurn values) (g := meanTurn (shift values c))
      (fun i sum => sum + ((i - start : ℕ) : K) * c) (Nat.le_add_right start width)
      (fun i sum hi _ => ?_) 0
    · simpa using h
    · have hstep : i + 1 - start = i - start + 1 := by omega
      simp only [meanTurn, shift_read, hstep, Option.map_map]
      congr 1
      funext x
      simp only [Function.comp_apply, Nat.cast_succ]
      ring
  rw [windowMean, windowMean, Nat.mod_eq_of_lt hend, hsum]
  cases scan start (start + width) (meanTurn values) 0 with
  | none => rfl
  | some sum =>
    simp only [Option.map_some, Option.bind_eq_bind, Option.bind_some, divide_eq_some hne]
    congr 1
    field_simp

theorem computeTailStats_shift {tailN : ℕ} (hpos : 0 < tailN) (htail : tailN ≤ n)
    (hfits : n < 65536) :
    computeTailStats (shift duty cu) (shift ppo2Bar cy) n tailN =
      (computeTailStats duty ppo2Bar n tailN).map fun f => (f.1 + cu, f.2 + cy) := by
  have hne : (tailN : K) ≠ 0 := natCast_ne_zero hpos
  have hspan : n - (n - tailN) = tailN := by omega
  have hsums : scan (n - tailN) n (tailTurn (shift duty cu) (shift ppo2Bar cy)) (0, 0) =
      (scan (n - tailN) n (tailTurn duty ppo2Bar) (0, 0)).map
        fun s => (s.1 + (tailN : K) * cu, s.2 + (tailN : K) * cy) := by
    have h := scan_map (f := tailTurn duty ppo2Bar)
      (g := tailTurn (shift duty cu) (shift ppo2Bar cy))
      (fun i s => (s.1 + ((i - (n - tailN) : ℕ) : K) * cu, s.2 + ((i - (n - tailN) : ℕ) : K) * cy))
      (Nat.sub_le n tailN) (fun i s hi _ => ?_) (0, 0)
    · simpa [hspan] using h
    · have hstep : i + 1 - (n - tailN) = i - (n - tailN) + 1 := by omega
      simp only [tailTurn, shift_read, hstep, Nat.cast_succ]
      cases duty[i]? with
      | none => rfl
      | some u =>
        cases ppo2Bar[i]? with
        | none => rfl
        | some y =>
          simp only [Option.map_some, Option.bind_eq_bind, Option.bind_some]
          congr 2 <;> ring
  rw [computeTailStats, computeTailStats, sub16_of_le htail hfits, hsums]
  cases scan (n - tailN) n (tailTurn duty ppo2Bar) (0, 0) with
  | none => rfl
  | some sums =>
    simp only [Option.map_some, Option.bind_eq_bind, Option.bind_some, divide_eq_some hne]
    congr 2 <;> field_simp

/-! ## The pulse -/

omit [IsStrictOrderedRing K] in
theorem computeDose_shift (dtS baselineDuty : K) :
    computeDoseAndPulseEnd (shift duty cu) n dtS (baselineDuty + cu) =
      computeDoseAndPulseEnd duty n dtS baselineDuty := by
  have hturn : doseTurn (shift duty cu) dtS (baselineDuty + cu) =
      doseTurn duty dtS baselineDuty := by
    funext s i
    simp only [doseTurn, shift_read, Option.map_map, Function.comp_def, add_sub_add_right_eq_sub]
  rw [computeDoseAndPulseEnd, hturn, computeDoseAndPulseEnd]

omit [IsStrictOrderedRing K] in
theorem computePulseTime_shift (pulseEnd : ℕ) (dtS baselineDuty : K) :
    computePulseTime (shift duty cu) pulseEnd dtS (baselineDuty + cu) =
      computePulseTime duty pulseEnd dtS baselineDuty := by
  have hturn : pulseTurn (shift duty cu) dtS (baselineDuty + cu) =
      pulseTurn duty dtS baselineDuty := by
    funext time i
    simp only [pulseTurn, shift_read, Option.map_map, Function.comp_def, add_sub_add_right_eq_sub]
  rw [computePulseTime, hturn, computePulseTime]

/-! ## The response -/

theorem delayCrossedAt_shift {i : ℕ} (hend : i + 2 * slopeWindowSamples < 65536)
    (delayLevel responseThreshold : K) :
    delayCrossedAt (shift ppo2Bar cy) slopeWindowSamples (delayLevel + cy) responseThreshold i =
      delayCrossedAt ppo2Bar slopeWindowSamples delayLevel responseThreshold i := by
  have hwidth : 0 < slopeWindowSamples := by decide
  rw [delayCrossedAt, delayCrossedAt, Nat.mod_eq_of_lt (by omega),
    windowMean_shift cy hwidth (by omega), windowMean_shift cy hwidth (by omega)]
  cases windowMean ppo2Bar i slopeWindowSamples with
  | none => rfl
  | some first =>
    cases windowMean ppo2Bar (i + slopeWindowSamples) slopeWindowSamples with
    | none => rfl
    | some second =>
      have hfall : first + cy - 25 / 100 * responseThreshold ≤ second + cy ↔
          first - 25 / 100 * responseThreshold ≤ second := by
        rw [add_sub_right_comm, add_le_add_iff_right]
      simp only [Option.map_some, Option.bind_eq_bind, Option.bind_some, add_le_add_iff_right,
        hfall]

theorem findDelayCrossing_shift (hfits : n < 65536) (delayLevel responseThreshold : K) :
    findDelayCrossing (shift ppo2Bar cy) n slopeWindowSamples (delayLevel + cy)
      responseThreshold =
      findDelayCrossing ppo2Bar n slopeWindowSamples delayLevel responseThreshold := by
  refine search_congr fun i hi => delayCrossedAt_shift cy ?_ delayLevel responseThreshold
  simp only [mem_indices, delayCrossingWindowMult] at hi
  omega

omit [IsStrictOrderedRing K] in
theorem computeRateGain_shift (delayI slopeWindow : ℕ) (dtS : K) :
    computeRateGain (shift ppo2Bar cy) n delayI slopeWindow dtS =
      computeRateGain ppo2Bar n delayI slopeWindow dtS := by
  have hturn : rateTurn (shift ppo2Bar cy) slopeWindow dtS =
      rateTurn ppo2Bar slopeWindow dtS := by
    funext tops i
    simp only [rateTurn, shift_read, shift_readBack]
    cases ppo2Bar[i]? with
    | none => rfl
    | some y =>
      cases readBack ppo2Bar i slopeWindow with
      | none => rfl
      | some before =>
        simp only [Option.map_some, Option.bind_eq_bind, Option.bind_some,
          add_sub_add_right_eq_sub]
  rw [computeRateGain, hturn, computeRateGain]

omit [IsStrictOrderedRing K] in
theorem computeTailRmse_shift (sqrtf : K → K) (tailN : ℕ) (finalY : K) :
    computeTailRmse sqrtf (shift ppo2Bar cy) n tailN (finalY + cy) =
      computeTailRmse sqrtf ppo2Bar n tailN finalY := by
  have hturn : residualTurn (shift ppo2Bar cy) (finalY + cy) = residualTurn ppo2Bar finalY := by
    funext sse i
    simp only [residualTurn, shift_read, Option.map_map, Function.comp_def,
      add_sub_add_right_eq_sub]
  rw [computeTailRmse, hturn, computeTailRmse]

omit [IsStrictOrderedRing K] in
theorem findSettle_shift (pulseEnd : ℕ) (finalY settleBand : K) :
    findSettleLastOutside (shift ppo2Bar cy) n pulseEnd (finalY + cy) settleBand =
      findSettleLastOutside ppo2Bar n pulseEnd finalY settleBand := by
  have hturn : settleTurn (shift ppo2Bar cy) (finalY + cy) settleBand =
      settleTurn ppo2Bar finalY settleBand := by
    funext last i
    simp only [settleTurn, shift_read, Option.map_map, Function.comp_def,
      add_sub_add_right_eq_sub]
  rw [findSettleLastOutside, hturn, findSettleLastOutside]

/-! ## The mixing lobe -/

/-- The lobe, higher by a constant. -/
def Lobe.shift (c : K) (l : Lobe K) : Lobe K :=
  { l with runningPeak := l.runningPeak + c, trough := l.trough + c }

theorem Lobe.track_shift (threshold smoothed : K) (l : Lobe K) :
    (l.shift c).track threshold (smoothed + c) = (l.track threshold smoothed).shift c := by
  simp only [Lobe.track, Lobe.shift, add_lt_add_iff_right, add_sub_add_right_eq_sub]
  split_ifs <;> rfl

omit [IsStrictOrderedRing K] in
theorem Lobe.excursion_shift (l : Lobe K) : (l.shift c).excursion = l.excursion := by
  simp only [Lobe.excursion, Lobe.shift, add_sub_add_right_eq_sub]

theorem computeMixingReversal_shift {delayI : ℕ} (hfits : n < 65536)
    (hdelay : delayI + 2 * slopeWindowSamples ≤ n) (threshold : K) :
    computeMixingReversal (shift ppo2Bar cy) n delayI slopeWindowSamples threshold =
      computeMixingReversal ppo2Bar n delayI slopeWindowSamples threshold := by
  have hwidth : 0 < slopeWindowSamples := by decide
  have hturn : ∀ i l, delayI + 1 ≤ i → i < n + 1 - slopeWindowSamples →
      lobeTurn (shift ppo2Bar cy) slopeWindowSamples threshold (l.shift cy) i =
        (lobeTurn ppo2Bar slopeWindowSamples threshold l i).map (Lobe.shift cy) := by
    intro i l _ hi
    have hfound : (l.shift cy).reversalFound = l.reversalFound := rfl
    unfold lobeTurn
    rw [hfound]
    split
    · rfl
    · rw [windowMean_shift cy hwidth (by omega), Option.map_map, Option.map_map]
      congr 1
      funext smoothed
      exact l.track_shift cy threshold smoothed
  rw [computeMixingReversal, computeMixingReversal, Nat.mod_eq_of_lt (by omega),
    windowMean_shift cy hwidth (by omega)]
  cases windowMean ppo2Bar delayI slopeWindowSamples with
  | none => rfl
  | some start =>
    have hscan := scan_map_const (Lobe.shift cy) hturn ⟨start, start, 0, false, false⟩
    have hstart : Lobe.shift cy ⟨start, start, 0, false, false⟩ =
        ⟨start + cy, start + cy, 0, false, false⟩ := rfl
    rw [hstart] at hscan
    simp only [Option.map_some, Option.bind_eq_bind, Option.bind_some, hscan]
    cases scan (delayI + 1) (n + 1 - slopeWindowSamples)
        (lobeTurn ppo2Bar slopeWindowSamples threshold) ⟨start, start, 0, false, false⟩ with
    | none => rfl
    | some l => exact congrArg some (l.excursion_shift cy)

/-! ## The identification and the synthesis -/

/-- The model without the operating point: the final values count from the baselines. -/
def PlantModel.relative (m : PlantModel K) : PlantModel K :=
  { m with
    baselinePpo2Bar := 0
    baselineDuty := 0
    finalPpo2Bar := m.finalPpo2Bar - m.baselinePpo2Bar
    finalDuty := m.finalDuty - m.baselineDuty }

/-- What the identification answers, without the operating point. -/
def relativeResult (r : Bool × PlantModel K) : Bool × PlantModel K :=
  (r.1, r.2.relative)

omit [IsStrictOrderedRing K] in
/-- The synthesis looks at the model without its operating point. -/
theorem autotuneModelPid_relative (m : PlantModel K) (controllerDtS lo hi : K) :
    autotuneModelPid m.relative controllerDtS lo hi = autotuneModelPid m controllerDtS lo hi := by
  have hspan : m.relative.finalPpo2Bar - m.relative.baselinePpo2Bar =
      m.finalPpo2Bar - m.baselinePpo2Bar := sub_zero _
  rw [autotuneModelPid, hspan]
  rfl

theorem identifyResponse_shift (sqrtf : K → K) (dtS : K) (hfits : n < 65536)
    {delayI : ℕ} (hdelay : delayI + 2 * slopeWindowSamples ≤ n)
    (baselineDuty baselinePpo2Bar responseThreshold finalU finalY dose : K) (pulseEnd : ℕ) :
    (identifyResponse sqrtf (shift duty cu) (shift ppo2Bar cy) n dtS (baselineDuty + cu)
      (baselinePpo2Bar + cy) responseThreshold (finalU + cu) (finalY + cy) dose pulseEnd
      delayI).map relativeResult =
    (identifyResponse sqrtf duty ppo2Bar n dtS baselineDuty baselinePpo2Bar responseThreshold
      finalU finalY dose pulseEnd delayI).map relativeResult := by
  simp only [identifyResponse, computeRateGain_shift, computePulseTime_shift,
    computeTailRmse_shift, findSettle_shift, computeMixingReversal_shift cy hfits hdelay]
  refine map_bind_congr fun rate => map_bind_congr fun time => map_bind_congr fun mean =>
    map_bind_congr fun gain => ?_
  split
  · rfl
  · refine map_bind_congr fun rmse => map_bind_congr fun last => map_bind_congr fun reversal => ?_
    simp only [Option.map_some, relativeResult, PlantModel.relative, add_sub_add_right_eq_sub]

theorem autotuneIdentifyPlant_relative (sqrtf : K → K) (t : PlantTrace K)
    (dtS baselineDuty baselinePpo2Bar baselineNoiseBar : K) :
    (autotuneIdentifyPlant sqrtf (shift t.duty cu) (shift t.ppo2Bar cy) t.n dtS
      (baselineDuty + cu) (baselinePpo2Bar + cy) baselineNoiseBar).map relativeResult =
    (autotuneIdentifyPlant sqrtf t.duty t.ppo2Bar t.n dtS baselineDuty baselinePpo2Bar
      baselineNoiseBar).map relativeResult := by
  rw [autotuneIdentifyPlant, autotuneIdentifyPlant]
  by_cases hbad : t.n < minSampleCount ∨ dtS ≤ 0
  · rw [if_pos hbad, if_pos hbad]
  · rw [if_neg hbad, if_neg hbad]
    have hn : minSampleCount ≤ t.n := not_lt.mp fun h => hbad (.inl h)
    have hfits : t.n < 65536 := t.fits
    have hppo2 : t.ppo2Bar.length = t.n := t.sameLength
    obtain ⟨delayI, hdelay, hcases⟩ := findDelayCrossing_some hppo2 hfits
      (baselinePpo2Bar + max (5 / 1000) (2 * baselineNoiseBar))
      (max (5 / 1000) (2 * baselineNoiseBar))
    have hdelay' := (findDelayCrossing_shift cy hfits _ _).trans hdelay
    rw [add_right_comm] at hdelay'
    rw [computeTailStats_shift cu cy (tailSamples_pos t.n) (tailSamples_le hn) hfits,
      computeDose_shift]
    cases computeTailStats t.duty t.ppo2Bar t.n (tailSamples t.n) with
    | none => simp only [Option.map_none, Option.bind_eq_bind, Option.bind_none]
    | some finals =>
      simp only [Option.map_some, Option.bind_eq_bind, Option.bind_some]
      refine map_bind_congr fun dose => ?_
      rw [hdelay, hdelay', Option.bind_some, Option.bind_some]
      split
      · rfl
      · split
        · rfl
        · next hfound =>
          exact identifyResponse_shift cu cy sqrtf dtS hfits (hcases.resolve_left hfound)
            _ _ _ _ _ _ _

omit [IsStrictOrderedRing K] in
theorem tuned_relative (r : Option (Bool × PlantModel K)) (controllerDtS lo hi : K) :
    r.bind (fun r => autotuneModelPid r.2 controllerDtS lo hi) =
      (r.map relativeResult).bind (fun r => autotuneModelPid r.2 controllerDtS lo hi) := by
  cases r with
  | none => rfl
  | some r => exact (autotuneModelPid_relative r.2 controllerDtS lo hi).symm

/-- Move the operating point: the identified model stays, but for the operating point itself, and
so do the gains. -/
theorem autotuneIdentifyPlant_shift (sqrtf : K → K) (t : PlantTrace K)
    (dtS baselineDuty baselinePpo2Bar baselineNoiseBar cu cy controllerDtS lo hi : K) :
    let run := autotuneIdentifyPlant sqrtf t.duty t.ppo2Bar t.n dtS baselineDuty baselinePpo2Bar
      baselineNoiseBar
    let shifted := autotuneIdentifyPlant sqrtf (shift t.duty cu) (shift t.ppo2Bar cy) t.n dtS
      (baselineDuty + cu) (baselinePpo2Bar + cy) baselineNoiseBar
    shifted.map relativeResult = run.map relativeResult ∧
      shifted.bind (fun r => autotuneModelPid r.2 controllerDtS lo hi) =
        run.bind (fun r => autotuneModelPid r.2 controllerDtS lo hi) := by
  intro run shifted
  have hrel : shifted.map relativeResult = run.map relativeResult :=
    autotuneIdentifyPlant_relative cu cy sqrtf t dtS baselineDuty baselinePpo2Bar baselineNoiseBar
  refine ⟨hrel, ?_⟩
  rw [tuned_relative shifted, tuned_relative run, hrel]

end Shift

theorem autotuneIdentifyPlant_shift_step :
    let run := autotuneIdentifyPlant Rat.sqrt stepTrace.duty stepTrace.ppo2Bar stepTrace.n (1 / 2) 0
      (7 / 10) 0
    let shifted := autotuneIdentifyPlant Rat.sqrt (shift stepTrace.duty (1 / 5))
      (shift stepTrace.ppo2Bar (1 / 2)) stepTrace.n (1 / 2) (0 + 1 / 5) (7 / 10 + 1 / 2) 0
    shifted.map relativeResult = run.map relativeResult ∧
      shifted.bind (fun r => autotuneModelPid r.2 (1 / 10) 0 100) =
        run.bind (fun r => autotuneModelPid r.2 (1 / 10) 0 100) :=
  autotuneIdentifyPlant_shift Rat.sqrt stepTrace (1 / 2) 0 (7 / 10) 0 (1 / 5) (1 / 2) (1 / 10) 0 100

end DiveCANHead.Control
