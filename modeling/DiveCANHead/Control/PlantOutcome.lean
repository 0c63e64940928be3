import DiveCANHead.Control.Autotune
import DiveCANHead.Control.PlantSafety

/-!
# What an experiment's trace comes to (`run_autotune` in `ppo2_autotune.c`)

The drift of the baseline is taken off the trace, the plant is identified and the gains are worked
out. The state machine of the autotune takes an outcome from outside; for a whole trace it is one
of two: the identification is refused, or the gains are ones the controller accepts as they are.
-/

namespace DiveCANHead.Control

/-- `AUTOTUNE_DT_S`. -/
def autotuneDtS : ℚ := 1 / 2

/-- `PID_CONTROLLER_DT_S`. -/
def pidControllerDtS : ℚ := 1 / 10

/-- The trace without the drift measured before the test. -/
def PlantTrace.removeDrift (t : PlantTrace ℚ) (slope : ℚ) : PlantTrace ℚ where
  duty := t.duty
  ppo2Bar := t.ppo2Bar.mapIdx fun i y => y - slope * i * autotuneDtS
  sameLength := List.length_mapIdx.trans t.sameLength
  fits := t.fits

/-- What `run_autotune` makes of the trace and the baseline. -/
def analyseTrace (sqrtf : ℚ → ℚ) (t : PlantTrace ℚ)
    (slope baselineDuty baselinePpo2Bar baselineNoiseBar : ℚ) : Option Outcome := do
  let drift := t.removeDrift slope
  let (identified, model) ← autotuneIdentifyPlant sqrtf drift.duty drift.ppo2Bar drift.n
    autotuneDtS baselineDuty baselinePpo2Bar baselineNoiseBar
  if identified = false then some (.abort .identify)
  else do
    let tuned ← autotuneModelPid model pidControllerDtS pidGainMin pidGainMax
    some (match tuned with
      | none => .abort .tuning
      | some g => .success ⟨g.kp, g.ki, g.kd⟩)

theorem clampPidGain_of_mem {gain : ℚ} (h : gain ∈ Set.Icc pidGainMin pidGainMax) :
    clampPidGain gain = gain := by
  rw [clampPidGain, if_neg (not_lt.mpr h.1), if_neg (not_lt.mpr h.2)]

/-- The synthesis never refuses what the identification accepts, and its gains are staged as they
are. -/
theorem analyseTrace_cases (sqrtf : ℚ → ℚ) (t : PlantTrace ℚ) (hn : minSampleCount ≤ t.n)
    (slope baselineDuty baselinePpo2Bar baselineNoiseBar : ℚ) :
    ∃ outcome,
      analyseTrace sqrtf t slope baselineDuty baselinePpo2Bar baselineNoiseBar = some outcome ∧
      (outcome = .abort .identify ∨ ∃ gains, outcome = .success gains ∧ gains.InRange) := by
  have hrange : (pidGainMin : ℚ) ≤ pidGainMax := by norm_num [pidGainMin, pidGainMax]
  have hdt : (0 : ℚ) < autotuneDtS := by norm_num [autotuneDtS]
  have hctl : (0 : ℚ) < pidControllerDtS := by norm_num [pidControllerDtS]
  obtain ⟨⟨ok, m⟩, hr, hok, hphysical⟩ := autotuneIdentifyPlant_sound sqrtf (t.removeDrift slope)
    hn hdt baselineDuty baselinePpo2Bar baselineNoiseBar
  simp only [analyseTrace, hr, Option.bind_eq_bind, Option.bind_some]
  cases ok with
  | false => exact ⟨_, rfl, .inl rfl⟩
  | true =>
    have hvalid : m.valid = true := hok.symm
    obtain ⟨kc, ki, htuned⟩ :=
      autotuneModelPid_some hdt (hphysical hvalid) hvalid hctl pidGainMin pidGainMax
    rw [if_neg Bool.false_ne_true.symm, htuned]
    refine ⟨_, rfl, .inr ⟨_, rfl, ?_⟩⟩
    exact ⟨clampPidGain_of_mem (localClampf_mem kc hrange),
      clampPidGain_of_mem (localClampf_mem ki hrange),
      clampPidGain_of_mem ⟨le_rfl, hrange⟩⟩

end DiveCANHead.Control
