import Mathlib.Data.List.Nodup
import Mathlib.Order.Lattice
import DiveCANHead.Solenoid.Current

/-!
# One right verdict for every fire

What a run of fires, samples and passes of the service does with the judge windows: every fire that
opened one is judged once, on the samples of its own window above an idle draw, as long as no window
is opened over another.
-/

namespace DiveCANHead.Solenoid

open DiveCANHead.Lib

/-- The class of a draw above idle. -/
def classOf (limits : CurrentLimits) (delta : ℤ) : SolCurrentClass :=
  if delta > limits.deltaMaxUa then .over
  else if delta < limits.deltaMinUa then .under
  else .norm

/-- A verdict is on the peak of the samples taken after its fire and before its deadline, above the
draw measured while every solenoid was off. Without a sample the peak is the idle draw itself. -/
structure Verdict.Right (limits : CurrentLimits) (v : Verdict) : Prop where
  idle : v.idle = true
  peak : v.fireUa = v.seen.max?.getD v.baselineUa
  delta : v.deltaUa = v.fireUa - v.baselineUa
  class_eq : v.status = classOf limits v.deltaUa

/-- Every fire that opened a window has its verdict or still its window, none has two or both, and
every verdict is right. -/
structure Accounted (limits : CurrentLimits) (s : CurrentState) : Prop where
  judged : ∀ f < s.opened, (∃ v ∈ s.verdicts, v.fire = f) ∨
    ∃ channel w, s.window channel = some w ∧ w.fire = f
  once : (s.verdicts.map (·.fire)).Nodup
  unjudged : ∀ channel w, s.window channel = some w → ∀ v ∈ s.verdicts, v.fire ≠ w.fire
  right : ∀ v ∈ s.verdicts, v.Right limits

/-- A turn of the service after a window's deadline gives its verdict. -/
def Settles (s : CurrentState) (e : CurrentEvent) (t : CurrentState) : Prop :=
  ∀ now channel rest w, e = .serviceNext → s.service = some (now, channel :: rest) →
    s.window channel = some w → w.judgeDeadlineMs ≤ now → ∃ v ∈ t.verdicts, v.fire = w.fire

/-- A read of the gauge is clean: the last sample counts exactly if it was taken in the window, and
where the window closes now and has seen samples, one of them is no lower than its baseline. -/
def CleanRead (limits : CurrentLimits) (now clock : ℕ) (gauge : Option GaugeSample)
    (w : JudgeWindow) : Prop :=
  (∀ r ∈ gauge, w.Counts now clock r ↔ w.Covers r) ∧
  let w := w.read now clock gauge
  w.judge limits now ≠ none → w.seen ≠ [] → ∃ ua ∈ w.seen, w.baselineUa ≤ ua

/-- A window is opened on a channel that has none, above an idle draw, and the service's reads are
clean. -/
def CleanCurrent (limits : CurrentLimits) (s : CurrentState) : CurrentEvent → Prop
  | .arm i _ => ∀ p ∈ s.pending[i]?, ∀ baseline ∈ p.baseline,
    s.window p.channel = none ∧ baseline.idle = true
  | .serviceNext => ∀ pass ∈ s.service, ∀ channel ∈ pass.2.head?, ∀ w ∈ s.window channel,
    CleanRead limits pass.1 s.clock s.gauge w
  | _ => True

instance decidableCleanRead (limits : CurrentLimits) (now clock : ℕ) (gauge : Option GaugeSample)
    (w : JudgeWindow) : Decidable (CleanRead limits now clock gauge w) :=
  inferInstanceAs (Decidable ((∀ r ∈ gauge, w.Counts now clock r ↔ w.Covers r) ∧
    ((w.read now clock gauge).judge limits now ≠ none → (w.read now clock gauge).seen ≠ [] →
      ∃ ua ∈ (w.read now clock gauge).seen, (w.read now clock gauge).baselineUa ≤ ua)))

instance decidableCleanCurrent (limits : CurrentLimits) (s : CurrentState) :
    ∀ e, Decidable (CleanCurrent limits s e)
  | .arm i _ => inferInstanceAs (Decidable (∀ p ∈ s.pending[i]?, ∀ baseline ∈ p.baseline,
      s.window p.channel = none ∧ baseline.idle = true))
  | .serviceNext => inferInstanceAs (Decidable (∀ pass ∈ s.service, ∀ channel ∈ pass.2.head?,
      ∀ w ∈ s.window channel, CleanRead limits pass.1 s.clock s.gauge w))
  | .tick _ | .sample _ | .fire _ _ | .energise _ _ | .off _ _ | .allOff _ | .serviceStart
  | .poll => isTrue trivial

variable {limits : CurrentLimits}

/-! ### One window -/

/-- A window is on track: its baseline is an idle draw, and its peak that of what it has seen. -/
structure JudgeWindow.OnTrack (w : JudgeWindow) : Prop where
  idle : w.idle = true
  peak : w.peakUa = w.seen.foldl max w.baselineUa

theorem openWindow_onTrack (p : PendingFire) {baseline : GaugeSample} (now fire : ℕ)
    (h : baseline.idle = true) : (openWindow p baseline now fire).OnTrack :=
  ⟨h, rfl⟩

/-- A clean read leaves a window on track. -/
theorem JudgeWindow.OnTrack.read {w : JudgeWindow} (h : w.OnTrack) {now clock : ℕ}
    {gauge : Option GaugeSample} (hc : ∀ r ∈ gauge, w.Counts now clock r ↔ w.Covers r) :
    (w.read now clock gauge).OnTrack := by
  cases gauge with
  | none => exact h
  | some r =>
    refine ⟨h.idle, ?_⟩
    simp only [JudgeWindow.read, hc r rfl]
    by_cases hcov : w.Covers r
    · rw [if_pos hcov, List.foldl_append, ← h.peak]
      simp only [hcov, true_and, List.foldl_cons, List.foldl_nil]
      split <;> omega
    · rw [if_neg hcov, if_neg fun hn => hcov hn.1]
      exact h.peak

/-- The peak is that of the samples alone where one of them reaches the baseline. -/
theorem JudgeWindow.OnTrack.peak_eq {w : JudgeWindow} (h : w.OnTrack)
    (hs : w.seen ≠ [] → ∃ ua ∈ w.seen, w.baselineUa ≤ ua) :
    w.peakUa = w.seen.max?.getD w.baselineUa := by
  rw [h.peak, List.foldl_max]
  cases hmax : w.seen.max? with
  | none => exact max_self _
  | some m =>
    have hne : w.seen ≠ [] := fun hnil => by simp [hnil] at hmax
    obtain ⟨ua, hmem, hle⟩ := hs hne
    have hm : ua ≤ m := (List.max?_eq_some_iff.mp hmax).2 ua hmem
    exact max_eq_right (hle.trans hm)

theorem judge_eq_some {w : JudgeWindow} {now : ℕ} {status : SolCurrentClass}
    (h : w.judge limits now = some status) :
    status = classOf limits (w.peakUa - w.baselineUa) := by
  unfold JudgeWindow.judge at h
  split at h
  · rename_i hover
    rw [classOf, if_pos hover, Option.some.inj h]
  · rename_i hover
    split at h
    · rw [← Option.some.inj h, classOf, if_neg hover]
      simp only [solenoidCurrentClassify, if_neg hover]
    · exact absurd h.symm (Option.some_ne_none _)

theorem judge_ne_none {w : JudgeWindow} {now : ℕ} (h : w.judgeDeadlineMs ≤ now) :
    w.judge limits now ≠ none := by
  rw [JudgeWindow.judge, if_pos (show now ≥ w.judgeDeadlineMs from h)]
  split <;> exact Option.some_ne_none _

/-- The verdict on a window on track is right. -/
theorem JudgeWindow.OnTrack.verdict_right {w : JudgeWindow} (h : w.OnTrack)
    (hs : w.seen ≠ [] → ∃ ua ∈ w.seen, w.baselineUa ≤ ua) {now : ℕ} {status : SolCurrentClass}
    (hj : w.judge limits now = some status) (channel : Channel) :
    (w.verdict channel status).Right limits where
  idle := h.idle
  peak := h.peak_eq hs
  delta := rfl
  class_eq := judge_eq_some hj

/-! ### All windows -/

/-- Along clean runs: the fires are accounted for, every open window is on track, and no two are of
one fire or of one not yet counted. -/
structure CurrentInv (limits : CurrentLimits) (s : CurrentState) : Prop where
  accounted : Accounted limits s
  onTrack : ∀ channel w, s.window channel = some w → w.OnTrack
  window_lt : ∀ channel w, s.window channel = some w → w.fire < s.opened
  verdict_lt : ∀ v ∈ s.verdicts, v.fire < s.opened
  apart : ∀ channel channel' w w', s.window channel = some w → s.window channel' = some w' →
    w.fire = w'.fire → channel = channel'

theorem currentInv_init : CurrentInv limits {} where
  accounted :=
    { judged := fun _ hf => absurd hf (Nat.not_lt_zero _)
      once := List.nodup_nil
      unjudged := fun _ _ hw => absurd hw.symm (Option.some_ne_none _)
      right := fun _ hv => absurd hv List.not_mem_nil }
  onTrack := fun _ _ hw => absurd hw.symm (Option.some_ne_none _)
  window_lt := fun _ _ hw => absurd hw.symm (Option.some_ne_none _)
  verdict_lt := fun _ hv => absurd hv List.not_mem_nil
  apart := fun _ _ _ _ hw => absurd hw.symm (Option.some_ne_none _)

/-- What neither opens, reads nor judges a window keeps the invariant. -/
theorem CurrentInv.frame {s t : CurrentState} (hi : CurrentInv limits s)
    (hw : t.window = s.window) (hv : t.verdicts = s.verdicts) (ho : t.opened = s.opened) :
    CurrentInv limits t := by
  obtain ⟨⟨hjudged, honce, hunjudged, hright⟩, htrack, hwlt, hvlt, hapart⟩ := hi
  constructor
  · constructor <;> simpa only [hw, hv, ho]
  all_goals simpa only [hw, hv, ho]

/-- What the windows are after one of them is replaced. -/
theorem update_eq_some {window : Channel → Option JudgeWindow} {channel channel' : Channel}
    {o : Option JudgeWindow} {w : JudgeWindow}
    (h : Function.update window channel o channel' = some w) :
    channel' = channel ∧ o = some w ∨ channel' ≠ channel ∧ window channel' = some w := by
  by_cases hc : channel' = channel
  · subst hc
    rw [Function.update_self] at h
    exact .inl ⟨rfl, h⟩
  · rw [Function.update_of_ne hc] at h
    exact .inr ⟨hc, h⟩

/-- A fire opens a window on a channel without one. -/
theorem CurrentInv.opened {s : CurrentState} (hi : CurrentInv limits s) {p : PendingFire}
    {now : ℕ} (hc : ∀ baseline ∈ p.baseline, s.window p.channel = none ∧ baseline.idle = true) :
    CurrentInv limits (solCurrentBegin s p now) := by
  unfold solCurrentBegin
  cases hb : p.baseline with
  | none => exact hi
  | some baseline =>
    obtain ⟨hnone, hidle⟩ := hc baseline hb
    have hac := hi.accounted
    refine ⟨⟨fun f hf => ?_, hac.once, fun channel w hw v hv => ?_, hac.right⟩,
      fun channel w hw => ?_, fun channel w hw => ?_,
      fun v hv => Nat.lt_succ_of_lt (hi.verdict_lt v hv),
      fun channel channel' w w' hw hw' heq => ?_⟩
    · rcases Nat.lt_succ_iff_lt_or_eq.mp hf with hlt | rfl
      · refine (hac.judged f hlt).imp_right fun ⟨channel, w, hw, hf⟩ => ⟨channel, w, ?_, hf⟩
        have hne : channel ≠ p.channel := fun he => by simp [he, hnone] at hw
        exact (Function.update_of_ne hne _ _).trans hw
      · exact .inr ⟨p.channel, _, Function.update_self _ _ _, rfl⟩
    · rcases update_eq_some hw with ⟨-, hsome⟩ | ⟨-, hw⟩
      · rw [← Option.some.inj hsome]
        exact (hi.verdict_lt v hv).ne
      · exact hac.unjudged channel w hw v hv
    · rcases update_eq_some hw with ⟨-, hsome⟩ | ⟨-, hw⟩
      · rw [← Option.some.inj hsome]
        exact openWindow_onTrack p now s.opened hidle
      · exact hi.onTrack channel w hw
    · rcases update_eq_some hw with ⟨-, hsome⟩ | ⟨-, hw⟩
      · rw [← Option.some.inj hsome]
        exact Nat.lt_succ_self _
      · exact Nat.lt_succ_of_lt (hi.window_lt channel w hw)
    · rcases update_eq_some hw with ⟨hch, hsome⟩ | ⟨-, hw⟩ <;>
        rcases update_eq_some hw' with ⟨hch', hsome'⟩ | ⟨-, hw'⟩
      · rw [hch, hch']
      · rw [← Option.some.inj hsome] at heq
        exact absurd heq.symm (hi.window_lt channel' w' hw').ne
      · rw [← Option.some.inj hsome'] at heq
        exact absurd heq (hi.window_lt channel w hw).ne
      · exact hi.apart channel channel' w w' hw hw' heq

/-- A window read stays the window of its fire. -/
theorem CurrentInv.replaced {s : CurrentState} (hi : CurrentInv limits s) {channel : Channel}
    {w w' : JudgeWindow} (hw : s.window channel = some w) (hf : w'.fire = w.fire)
    (ht : w'.OnTrack) :
    CurrentInv limits { s with window := Function.update s.window channel (some w') } := by
  have hac := hi.accounted
  -- every open window has a counterpart of the same fire on the same channel
  have hold : ∀ {c : Channel} {u : JudgeWindow},
      Function.update s.window channel (some w') c = some u →
      ∃ u', s.window c = some u' ∧ u'.fire = u.fire ∧ (u = w' ∨ u = u') := by
    intro c u hu
    rcases update_eq_some hu with ⟨rfl, hsome⟩ | ⟨-, hu⟩
    · obtain rfl := Option.some.inj hsome
      exact ⟨w, hw, hf.symm, .inl rfl⟩
    · exact ⟨u, hu, rfl, .inr rfl⟩
  refine ⟨⟨fun f hlt => ?_, hac.once, fun c u hu v hv => ?_, hac.right⟩, fun c u hu => ?_,
    fun c u hu => ?_, hi.verdict_lt, fun c c' u u' hu hu' heq => ?_⟩
  · refine (hac.judged f hlt).imp_right fun ⟨c, u, hu, hfu⟩ => ?_
    by_cases hc : c = channel
    · subst hc
      obtain rfl := Option.some.inj (hw.symm.trans hu)
      exact ⟨c, w', Function.update_self _ _ _, hf.trans hfu⟩
    · exact ⟨c, u, (Function.update_of_ne hc _ _).trans hu, hfu⟩
  · obtain ⟨u', hu', hfu, -⟩ := hold hu
    exact hfu ▸ hac.unjudged c u' hu' v hv
  · obtain ⟨u', hu', -, rfl | rfl⟩ := hold hu
    · exact ht
    · exact hi.onTrack c u hu'
  · obtain ⟨u', hu', hfu, -⟩ := hold hu
    exact hfu ▸ hi.window_lt c u' hu'
  · obtain ⟨a, ha, hfa, -⟩ := hold hu
    obtain ⟨b, hb, hfb, -⟩ := hold hu'
    exact hi.apart c c' a b ha hb (hfa.trans (heq.trans hfb.symm))

/-- A window closes with a right verdict on its fire. -/
theorem CurrentInv.closed {s : CurrentState} (hi : CurrentInv limits s) {channel : Channel}
    {w : JudgeWindow} (hw : s.window channel = some w) {v : Verdict} (hf : v.fire = w.fire)
    (hv : v.Right limits) :
    CurrentInv limits
      (solCurrentFault { s with window := Function.update s.window channel none } v) := by
  have hac := hi.accounted
  have hold : ∀ {c : Channel} {u : JudgeWindow},
      Function.update s.window channel none c = some u → c ≠ channel ∧ s.window c = some u := by
    intro c u hu
    rcases update_eq_some hu with ⟨-, hsome⟩ | hu
    · exact absurd hsome.symm (Option.some_ne_none _)
    · exact hu
  have hnew : ∀ {P : Verdict → Prop}, (∀ u ∈ s.verdicts, P u) → P v →
      ∀ u ∈ s.verdicts ++ [v], P u := by
    intro P hs hp u hu
    rcases List.mem_append.mp hu with hu | hu
    · exact hs u hu
    · exact List.mem_singleton.mp hu ▸ hp
  refine ⟨⟨fun f hlt => ?_, ?_, fun c u hu => ?_, hnew hac.right hv⟩, fun c u hu => ?_,
    fun c u hu => ?_, hnew hi.verdict_lt (hf ▸ hi.window_lt channel w hw),
    fun c c' u u' hu hu' => ?_⟩
  · rcases hac.judged f hlt with ⟨u, hu, hfu⟩ | ⟨c, u, hu, hfu⟩
    · exact .inl ⟨u, List.mem_append_left _ hu, hfu⟩
    · by_cases hc : c = channel
      · subst hc
        obtain rfl := Option.some.inj (hw.symm.trans hu)
        exact .inl ⟨v, List.mem_concat_self, hf.trans hfu⟩
      · exact .inr ⟨c, u, (Function.update_of_ne hc _ _).trans hu, hfu⟩
  · show ((s.verdicts ++ [v]).map _).Nodup
    rw [List.map_append, List.nodup_append]
    refine ⟨hac.once, List.nodup_singleton _, fun f hf' g hg => ?_⟩
    obtain ⟨u, hu, rfl⟩ := List.mem_map.mp hf'
    rw [List.mem_singleton.mp hg]
    show u.fire ≠ v.fire
    rw [hf]
    exact hac.unjudged channel w hw u hu
  · obtain ⟨hne, hu⟩ := hold hu
    refine hnew (hac.unjudged c u hu) fun heq => hne ?_
    exact hi.apart c channel u w hu hw (heq.symm.trans hf)
  · exact hi.onTrack c u (hold hu).2
  · exact hi.window_lt c u (hold hu).2
  · exact hi.apart c c' u u' (hold hu).2 (hold hu').2

/-- One turn of the service keeps the invariant, and judges a window past its deadline. -/
theorem CurrentInv.serviced {s : CurrentState} (hi : CurrentInv limits s) {now : ℕ}
    {channel : Channel}
    (hc : ∀ w ∈ s.window channel, CleanRead limits now s.clock s.gauge w) :
    CurrentInv limits (serviceChannel limits s now channel) ∧
    ∀ w, s.window channel = some w → w.judgeDeadlineMs ≤ now →
      ∃ v ∈ (serviceChannel limits s now channel).verdicts, v.fire = w.fire := by
  cases hw : s.window channel with
  | none =>
    have ht : serviceChannel limits s now channel = s := by simp only [serviceChannel, hw]
    rw [ht]
    exact ⟨hi, fun _ hn => absurd hn.symm (Option.some_ne_none _)⟩
  | some w =>
    obtain ⟨hcounts, hseen⟩ := hc w hw
    have htrack := (hi.onTrack channel w hw).read hcounts
    have hfields : (w.read now s.clock s.gauge).fire = w.fire ∧
        (w.read now s.clock s.gauge).judgeDeadlineMs = w.judgeDeadlineMs := by
      cases s.gauge <;> exact ⟨rfl, rfl⟩
    cases hj : (w.read now s.clock s.gauge).judge limits now with
    | none =>
      have ht : serviceChannel limits s now channel =
          { s with
            window := Function.update s.window channel (some (w.read now s.clock s.gauge)) } := by
        simp only [serviceChannel, hw, hj]
      rw [ht]
      refine ⟨hi.replaced hw hfields.1 htrack, fun u hu hle => ?_⟩
      obtain rfl := Option.some.inj hu
      exact absurd hj (judge_ne_none (hfields.2.symm ▸ hle))
    | some status =>
      have ht : serviceChannel limits s now channel =
          solCurrentFault { s with window := Function.update s.window channel none }
            ((w.read now s.clock s.gauge).verdict channel status) := by
        simp only [serviceChannel, hw, hj]
      rw [ht]
      have hright := htrack.verdict_right (hseen (hj ▸ Option.some_ne_none _)) hj channel
      refine ⟨hi.closed hw hfields.1 hright, fun u hu _ => ?_⟩
      obtain rfl := Option.some.inj hu
      exact ⟨_, List.mem_concat_self, hfields.1⟩

/-- A clean step keeps the invariant, and a turn of the service settles a window that is due. -/
theorem currentStep_inv {s t : CurrentState} {e : CurrentEvent} (hi : CurrentInv limits s)
    (hc : CleanCurrent limits s e) (ht : currentStep limits s e = some t) :
    CurrentInv limits t ∧ Settles s e t := by
  cases e with
  | tick ms =>
    obtain rfl := Option.some.inj ht
    exact ⟨hi.frame rfl rfl rfl, fun _ _ _ _ he => CurrentEvent.noConfusion he⟩
  | sample ua =>
    obtain rfl := Option.some.inj ht
    exact ⟨hi.frame rfl rfl rfl, fun _ _ _ _ he => CurrentEvent.noConfusion he⟩
  | fire channel durationUs =>
    obtain rfl := Option.some.inj ht
    exact ⟨hi.frame rfl rfl rfl, fun _ _ _ _ he => CurrentEvent.noConfusion he⟩
  | arm i now =>
    refine ⟨?_, fun _ _ _ _ he => CurrentEvent.noConfusion he⟩
    simp only [currentStep] at ht
    split at ht
    · rename_i p hp
      split at ht
      · obtain rfl := Option.some.inj ht
        exact (hi.opened (hc p hp)).frame rfl rfl rfl
      · exact absurd ht.symm (Option.some_ne_none _)
    · exact absurd ht.symm (Option.some_ne_none _)
  | energise i gpioOk =>
    refine ⟨?_, fun _ _ _ _ he => CurrentEvent.noConfusion he⟩
    simp only [currentStep] at ht
    split at ht
    · split at ht
      · obtain rfl := Option.some.inj ht
        exact hi.frame rfl rfl rfl
      · exact absurd ht.symm (Option.some_ne_none _)
    · exact absurd ht.symm (Option.some_ne_none _)
  | off channel gpioOk =>
    obtain rfl := Option.some.inj ht
    exact ⟨hi.frame rfl rfl rfl, fun _ _ _ _ he => CurrentEvent.noConfusion he⟩
  | allOff gpioOk =>
    obtain rfl := Option.some.inj ht
    exact ⟨hi.frame rfl rfl rfl, fun _ _ _ _ he => CurrentEvent.noConfusion he⟩
  | serviceStart =>
    refine ⟨?_, fun _ _ _ _ he => CurrentEvent.noConfusion he⟩
    simp only [currentStep] at ht
    split at ht
    · obtain rfl := Option.some.inj ht
      exact hi.frame rfl rfl rfl
    · exact absurd ht.symm (Option.some_ne_none _)
  | serviceNext =>
    simp only [currentStep] at ht
    split at ht
    · rename_i now channel rest hs
      obtain rfl := Option.some.inj ht
      obtain ⟨hinv, hsettles⟩ := hi.serviced (hc (now, channel :: rest) hs channel rfl)
      refine ⟨hinv.frame rfl rfl rfl, fun now' channel' rest' w _ hs' hw hle => ?_⟩
      obtain ⟨rfl, heq⟩ := Prod.mk.inj (Option.some.inj (hs.symm.trans hs'))
      obtain ⟨rfl, -⟩ := List.cons.inj heq
      exact hsettles w hw hle
    · exact absurd ht.symm (Option.some_ne_none _)
  | poll =>
    obtain rfl := Option.some.inj ht
    exact ⟨hi.frame rfl rfl rfl, fun _ _ _ _ he => CurrentEvent.noConfusion he⟩

/-- In a run of clean steps every fire that opened a window gets one right verdict, at the latest
when the service comes to its channel after the deadline. -/
theorem solenoids_judged (limits : CurrentLimits) (es : List CurrentEvent)
    (hc : Steps (currentStep limits) (fun s e _ => CleanCurrent limits s e) {} es) :
    Steps (currentStep limits) (fun s e t => Accounted limits t ∧ Settles s e t) {} es := by
  have hstep : ∀ {s : CurrentState} {e : CurrentEvent} {t : CurrentState}, CurrentInv limits s →
      CleanCurrent limits s e → currentStep limits s e = some t →
      CurrentInv limits t ∧ Accounted limits t ∧ Settles s e t := by
    intro s e t hi hce ht
    obtain ⟨hinv, hsettles⟩ := currentStep_inv hi hce ht
    exact ⟨hinv, hinv.accounted, hsettles⟩
  exact Steps.of_inv hstep currentInv_init hc

/-- The limits of the Poseidon head. -/
def poseidonLimits : CurrentLimits := ⟨80000, 150000⟩

/-- A fire of half a second on the first channel, above an idle draw of 60 mA. -/
def fired : List CurrentEvent :=
  [.sample 60000, .fire 0 500000, .arm 0 0, .energise 0 true]

/-- One pass of the service. -/
def servicePass : List CurrentEvent :=
  [.serviceStart, .serviceNext, .serviceNext, .serviceNext, .serviceNext]

/-- Half a second later its draw is sampled and read, and three seconds after that it is due. -/
def firedOnce : List CurrentEvent :=
  fired ++ [.tick 500, .sample 170000, .off 0 true] ++ servicePass ++ [.tick 3000] ++ servicePass

theorem solenoids_judged_fired :
    Steps (currentStep poseidonLimits)
      (fun s e t => Accounted poseidonLimits t ∧ Settles s e t) {} firedOnce :=
  solenoids_judged poseidonLimits firedOnce (by decide +kernel)

/-- A second after it the channel fires again. -/
def firedAgain : List CurrentEvent :=
  fired ++ [.tick 500, .off 0 true, .tick 500, .fire 0 500000]

/-- The second fire takes the window of the first, which gets no verdict. -/
theorem refire_discards :
    ¬Steps (currentStep poseidonLimits)
      (fun s e t => Accounted poseidonLimits t ∧ Settles s e t) {}
      (firedAgain ++ [.arm 0 1000]) := by
  intro h
  have hlost : ∃ s ∈ exec (currentStep poseidonLimits) {} firedAgain,
      ∃ t ∈ currentStep poseidonLimits s (.arm 0 1000), 0 < t.opened ∧ t.verdicts.isEmpty ∧
        ∀ channel, (t.window channel).map (·.fire) ≠ some 0 := by decide +kernel
  obtain ⟨s, hs, t, ht, hopened, hnone, hwindow⟩ := hlost
  rcases (h.last hs ht).1.judged 0 hopened with ⟨v, hv, -⟩ | ⟨channel, w, hw, hf⟩
  · rw [List.isEmpty_iff.mp hnone] at hv
    exact List.not_mem_nil hv
  · refine hwindow channel ?_
    rw [hw, ← hf]
    rfl

end DiveCANHead.Solenoid
