import Mathlib.Algebra.Order.Field.Basic
import DiveCANHead.Lib.Indexed

/-!
# Plant identification (`ppo2_autotune_math.c`)

From a trace of effective duty and PPO2 samples the firmware identifies an integrating plant with
delay, and from the plant it works out PI gains. Arithmetic is exact, over any ordered field, and
the library's square root is a parameter. A read outside the trace and a division by zero are
faults, so a definition here answers `none` where the code would have done one of them; indices
are 16 bits wide, and wrap where the code casts them.
-/

namespace DiveCANHead.Control

open DiveCANHead.Lib

/-- `(uint16_t)(a - b)`. -/
def sub16 (a b : ℕ) : ℕ :=
  (a + 65536 - b) % 65536

theorem sub16_of_le {a b : ℕ} (hba : b ≤ a) (ha : a < 65536) : sub16 a b = a - b := by
  unfold sub16
  omega

/-- `MIN_SAMPLE_COUNT`. -/
def minSampleCount : ℕ := 12

/-- `MIN_TAIL_SAMPLES`. -/
def minTailSamples : ℕ := 4

/-- `TOP_N_RATES`. -/
def topNRates : ℕ := 5

/-- `DELAY_CROSSING_WINDOW_MULT`. -/
def delayCrossingWindowMult : ℕ := 2

/-- `slope_window`. -/
def slopeWindowSamples : ℕ := 4

section Defs

variable {K : Type} [Field K] [LinearOrder K]

/-- `local_clampf`. -/
def localClampf (value lo hi : K) : K :=
  if value < lo then lo else if hi < value then hi else value

/-- A turn of `window_mean`. -/
def meanTurn (values : List K) (sum : K) (i : ℕ) : Option K :=
  (values[i]?).map (sum + ·)

/-- `window_mean`. -/
def windowMean (values : List K) (start width : ℕ) : Option K := do
  let sum ← scan start ((start + width) % 65536) (meanTurn values) 0
  divide sum (width : K)

/-- A turn of `compute_tail_stats`. -/
def tailTurn (duty ppo2Bar : List K) (s : K × K) (i : ℕ) : Option (K × K) := do
  let u ← duty[i]?
  let y ← ppo2Bar[i]?
  some (s.1 + u, s.2 + y)

/-- `compute_tail_stats`: the mean duty and the mean PPO2 of the tail. -/
def computeTailStats (duty ppo2Bar : List K) (n tailN : ℕ) : Option (K × K) := do
  let (sumU, sumY) ← scan (sub16 n tailN) n (tailTurn duty ppo2Bar) (0, 0)
  let finalU ← divide sumU (tailN : K)
  let finalY ← divide sumY (tailN : K)
  some (finalU, finalY)

/-- A turn of `compute_dose_and_pulse_end`, on the dose and the end of the pulse. -/
def doseTurn (duty : List K) (dtS baselineDuty : K) (s : K × ℕ) (i : ℕ) : Option (K × ℕ) :=
  (duty[i]?).map fun u =>
    if 5 / 1000 < u - baselineDuty then (s.1 + (u - baselineDuty) * dtS, i) else s

/-- `compute_dose_and_pulse_end`. -/
def computeDoseAndPulseEnd (duty : List K) (n : ℕ) (dtS baselineDuty : K) : Option (K × ℕ) :=
  scan 0 n (doseTurn duty dtS baselineDuty) (0, 0)

/-- The test of `find_delay_crossing`: two window means in a row stay above the level, and the
second does not fall. -/
def delayCrossedAt (ppo2Bar : List K) (slopeWindow : ℕ) (delayLevel responseThreshold : K)
    (i : ℕ) : Option Bool := do
  let first ← windowMean ppo2Bar i slopeWindow
  let second ← windowMean ppo2Bar ((i + slopeWindow) % 65536) slopeWindow
  some (decide (delayLevel ≤ first) && decide (delayLevel ≤ second) &&
    decide (first - 25 / 100 * responseThreshold ≤ second))

/-- `find_delay_crossing`. -/
def findDelayCrossing (ppo2Bar : List K) (n slopeWindow : ℕ) (delayLevel responseThreshold : K) :
    Option ℕ :=
  search (delayCrossedAt ppo2Bar slopeWindow delayLevel responseThreshold) n
    (indices 0 (n + 1 - delayCrossingWindowMult * slopeWindow))

/-- A rate takes its place among the top ones, and the last falls out. -/
def insertRate (rate : K) : List K → List K
  | [] => []
  | top :: rest =>
    if top < rate then rate :: (top :: rest).dropLast else top :: insertRate rate rest

/-- `ppo2_bar[i - slope_window]`, where the index is not negative. -/
def readBack (values : List K) (i back : ℕ) : Option K :=
  if back ≤ i then values[i - back]? else none

/-- A turn of `compute_rate_gain`, on the top rates. -/
def rateTurn (ppo2Bar : List K) (slopeWindow : ℕ) (dtS : K) (topRates : List K) (i : ℕ) :
    Option (List K) := do
  let y ← ppo2Bar[i]?
  let before ← readBack ppo2Bar i slopeWindow
  let rate ← divide (y - before) (slopeWindow * dtS)
  some (insertRate rate topRates)

/-- The mean of the positive rates, or zero. -/
def meanPositive (topRates : List K) : Option K :=
  let positive := topRates.filter fun rate => decide (0 < rate)
  if 0 < positive.length then divide positive.sum (positive.length : K) else some positive.sum

/-- `compute_rate_gain`. -/
def computeRateGain (ppo2Bar : List K) (n delayI slopeWindow : ℕ) (dtS : K) : Option K := do
  let topRates ← scan ((delayI + slopeWindow) % 65536) n (rateTurn ppo2Bar slopeWindow dtS)
    (List.replicate topNRates 0)
  meanPositive topRates

/-- A turn of `compute_pulse_time`. -/
def pulseTurn (duty : List K) (dtS baselineDuty : K) (pulseTime : K) (i : ℕ) : Option K :=
  (duty[i]?).map fun u => if 5 / 1000 < u - baselineDuty then pulseTime + dtS else pulseTime

/-- `compute_pulse_time`. -/
def computePulseTime (duty : List K) (pulseEnd : ℕ) (dtS baselineDuty : K) : Option K :=
  scan 0 (pulseEnd + 1) (pulseTurn duty dtS baselineDuty) 0

/-- A turn of `compute_tail_rmse`. -/
def residualTurn (ppo2Bar : List K) (finalY sse : K) (i : ℕ) : Option K :=
  (ppo2Bar[i]?).map fun y => sse + (y - finalY) * (y - finalY)

/-- `compute_tail_rmse`. -/
def computeTailRmse (sqrtf : K → K) (ppo2Bar : List K) (n tailN : ℕ) (finalY : K) : Option K := do
  let sse ← scan (sub16 n tailN) n (residualTurn ppo2Bar finalY) 0
  (divide sse (tailN : K)).map sqrtf

/-- A turn of `find_settle_last_outside`. -/
def settleTurn (ppo2Bar : List K) (finalY settleBand : K) (lastOutside i : ℕ) : Option ℕ :=
  (ppo2Bar[i]?).map fun y => if settleBand < |y - finalY| then i else lastOutside

/-- `find_settle_last_outside`. -/
def findSettleLastOutside (ppo2Bar : List K) (n pulseEnd : ℕ) (finalY settleBand : K) :
    Option ℕ :=
  scan ((pulseEnd + 1) % 65536) n (settleTurn ppo2Bar finalY settleBand) pulseEnd

/-- The locals of `compute_mixing_reversal`. -/
structure Lobe (K : Type) where
  runningPeak : K
  trough : K
  maxReversal : K
  falling : Bool
  reversalFound : Bool

/-- What one smoothed value does to the lobe. -/
def Lobe.track (reversalThreshold smoothed : K) (l : Lobe K) : Lobe K :=
  if l.falling = false then
    if l.runningPeak < smoothed then { l with runningPeak := smoothed }
    else if reversalThreshold ≤ l.runningPeak - smoothed then
      { l with falling := true, trough := smoothed }
    else l
  else if smoothed < l.trough then { l with trough := smoothed }
  else if reversalThreshold ≤ smoothed - l.trough then
    { l with maxReversal := l.runningPeak - l.trough, reversalFound := true }
  else l

/-- A turn of `compute_mixing_reversal`; the loop ends where the reversal is found. -/
def lobeTurn (ppo2Bar : List K) (slopeWindow : ℕ) (reversalThreshold : K) (l : Lobe K) (i : ℕ) :
    Option (Lobe K) :=
  if l.reversalFound then some l
  else (windowMean ppo2Bar i slopeWindow).map fun smoothed => l.track reversalThreshold smoothed

/-- The excursion of the lobe, also where it is still falling at the end. -/
def Lobe.excursion (l : Lobe K) : K :=
  if l.falling ∧ l.maxReversal ≤ 0 then l.runningPeak - l.trough else l.maxReversal

/-- `compute_mixing_reversal`. -/
def computeMixingReversal (ppo2Bar : List K) (n delayI slopeWindow : ℕ) (reversalThreshold : K) :
    Option K := do
  let start ← windowMean ppo2Bar delayI slopeWindow
  let l ← scan ((delayI + 1) % 65536) (n + 1 - slopeWindow)
    (lobeTurn ppo2Bar slopeWindow reversalThreshold) ⟨start, start, 0, false, false⟩
  some l.excursion

/-- `AutotunePlantModel_t`. -/
structure PlantModel (K : Type) where
  processGain : K
  deadTimeS : K
  timeConstantS : K
  fitRmseBar : K
  mixingExcursionBar : K
  baselinePpo2Bar : K
  baselineDuty : K
  finalPpo2Bar : K
  finalDuty : K
  valid : Bool
  deriving Repr

/-- `(AutotunePlantModel_t){0}`. -/
def PlantModel.zero : PlantModel K :=
  ⟨0, 0, 0, 0, 0, 0, 0, 0, 0, false⟩

/-- `tail_n`. -/
def tailSamples (n : ℕ) : ℕ :=
  if n / 5 < minTailSamples then minTailSamples else n / 5

/-- The rest of `autotune_identify_plant` once a dose and a response are there. -/
def identifyResponse (sqrtf : K → K) (duty ppo2Bar : List K) (n : ℕ)
    (dtS baselineDuty baselinePpo2Bar responseThreshold finalU finalY dose : K)
    (pulseEnd delayI : ℕ) : Option (Bool × PlantModel K) := do
  let maxRate ← computeRateGain ppo2Bar n delayI slopeWindowSamples dtS
  let pulseTime ← computePulseTime duty pulseEnd dtS baselineDuty
  let meanIncrementalDuty ← divide dose pulseTime
  let gain ← divide maxRate meanIncrementalDuty
  if maxRate < 5 / 10000 ∨ gain ≤ 0 then some (false, PlantModel.zero)
  else do
    let tailRmse ← computeTailRmse sqrtf ppo2Bar n (tailSamples n) finalY
    let settleBand := max (1 / 100) (3 * tailRmse)
    let lastOutside ← findSettleLastOutside ppo2Bar n pulseEnd finalY settleBand
    let tau := (sub16 lastOutside pulseEnd : K) * dtS
    let maxReversal ← computeMixingReversal ppo2Bar n delayI slopeWindowSamples responseThreshold
    some (true, {
      processGain := gain
      deadTimeS := delayI * dtS
      timeConstantS := if tau < dtS then dtS else tau
      fitRmseBar := tailRmse
      mixingExcursionBar := maxReversal
      baselinePpo2Bar := baselinePpo2Bar
      baselineDuty := baselineDuty
      finalPpo2Bar := finalY
      finalDuty := finalU
      valid := true })

/-- `autotune_identify_plant`: what it answers, and the model it leaves. -/
def autotuneIdentifyPlant (sqrtf : K → K) (duty ppo2Bar : List K) (n : ℕ)
    (dtS baselineDuty baselinePpo2Bar baselineNoiseBar : K) : Option (Bool × PlantModel K) :=
  if n < minSampleCount ∨ dtS ≤ 0 then some (false, PlantModel.zero)
  else do
    let (finalU, finalY) ← computeTailStats duty ppo2Bar n (tailSamples n)
    let (dose, pulseEnd) ← computeDoseAndPulseEnd duty n dtS baselineDuty
    if dose < 5 / 100 then some (false, PlantModel.zero)
    else do
      let responseThreshold := max (5 / 1000) (2 * baselineNoiseBar)
      let delayI ← findDelayCrossing ppo2Bar n slopeWindowSamples
        (baselinePpo2Bar + responseThreshold) responseThreshold
      if delayI = n then some (false, PlantModel.zero)
      else
        identifyResponse sqrtf duty ppo2Bar n dtS baselineDuty baselinePpo2Bar responseThreshold
          finalU finalY dose pulseEnd delayI

/-- The gains `autotune_model_pid` writes. -/
structure ModelGains (K : Type) where
  kp : K
  ki : K
  kd : K
  deriving Repr

/-- `autotune_model_pid`: the gains, where it succeeds; otherwise it writes none. -/
def autotuneModelPid (model : PlantModel K) (controllerDtS gainMin gainMax : K) :
    Option (Option (ModelGains K)) :=
  if model.valid = false ∨ model.processGain ≤ 0 ∨ model.timeConstantS ≤ 0 ∨ controllerDtS ≤ 0 then
    some none
  else do
    let delayGuard := 3 * model.deadTimeS
    let lambda := if model.timeConstantS < delayGuard then delayGuard else model.timeConstantS
    let excursion ← divide model.mixingExcursionBar
      (max |model.finalPpo2Bar - model.baselinePpo2Bar| (1 / 100))
    let widened := lambda * localClampf (1 + excursion) 1 3
    let kc ← divide 1 (model.processGain * (widened + model.deadTimeS))
    let ki ← divide (kc * controllerDtS) (4 * (widened + model.deadTimeS))
    some (some ⟨localClampf kc gainMin gainMax, localClampf ki gainMin gainMax, 0⟩)

end Defs

end DiveCANHead.Control
