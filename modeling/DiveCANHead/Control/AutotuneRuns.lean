import DiveCANHead.Control.Autotune

/-!
# How an autotune ends

Each phase keeps what the way out needs: the gains are those from before throughout, the duty
override is on only under observation, and the arena is held only until it is released. Past the
last safety check an accepted abort is no longer seen, which is what `heeded` excludes.
-/

namespace DiveCANHead.Control

open DiveCANHead.Lib DiveCANHead.Maintenance

/-- Whether the duty override may be on. -/
def TunePhase.overrides : TunePhase → Bool
  | .observing _ _ | .unexciting _ => true
  | _ => false

/-- Whether the run may hold the arena. -/
def TunePhase.mayHold : TunePhase → Bool
  | .claiming | .dutyOff _ | .gainsBack _ | .staging _ | .setpointBack _ | .finishing _ => false
  | _ => true

/-- The gains a run is about to report: its last safety check has passed. -/
def TunePhase.succeeding : TunePhase → Option PidGains
  | .unexciting (.success g) | .releasing (.success g) | .gainsBack (.success g) | .staging g
  | .setpointBack (.success g) | .finishing (.success g) => some g
  | _ => none

/-- Whether the run has staged its gains. -/
def TunePhase.staged : TunePhase → Bool
  | .setpointBack (.success _) | .finishing (.success _) => true
  | _ => false

/-- What a run that is over leaves. -/
structure Restored (s t : AutotuneSystem) : Prop where
  gains : t.gains = s.before.gains
  setpoint : t.setpoint = s.before.setpoint
  duty : t.duty.enabled = false
  arena : t.arena.owner ≠ some .autotune

/-- What is asked of a step: a run that ends leaves everything as it was before, and one that was
asked to abort ends aborted and has staged nothing. -/
structure EndsWell (s : AutotuneSystem) (_e : AutotuneEvent) (t : AutotuneSystem) : Prop where
  restored : s.shared.running = true → t.shared.running = false → Restored s t
  aborted : s.shared.running = true → t.shared.running = false → s.shared.abortReq = true →
    t.shared.state = .aborted ∧ t.stagings = s.before.stagings

/-- The conditions on a step: the setpoint is read and put back, nobody publishes another one after
that, and no abort is accepted past the last safety check of a run that succeeds. -/
def heeded (s : AutotuneSystem) : AutotuneEvent → Bool
  | .thread env =>
    match s.thread with
    | .starting => readSetpoint s.setpoint env.readOk s.shared.params.baseSetpointCb = s.setpoint
    | .active run (.setpointBack _) =>
      publishSetpoint s.setpoint run.restoreSp env.published = run.restoreSp
    | _ => true
  | .setpoint value =>
    match s.thread with
    | .active run (.finishing _) => value = run.restoreSp
    | _ => true
  | .requestAbort _ =>
    match s.thread with
    | .active _ phase => phase.succeeding.isNone || !s.shared.acceptsAbort
    | _ => true
  | .start _ _ _ _ | .arena _ => true

/-- What holds in a phase of a run. -/
structure PhaseInv (s : AutotuneSystem) (run : TuneRun) (phase : TunePhase) : Prop where
  running : s.shared.running = true
  gains : s.gains = s.before.gains
  saved : run.gains = s.before.gains ∧ run.restoreSp = s.before.setpoint
  duty : s.duty.enabled = true → phase.overrides = true
  arena : s.arena.owner = some .autotune → phase.mayHold = true ∧ run.held = true
  heard : phase.succeeding ≠ none → s.shared.abortReq = false
  stagings : phase.staged = false → s.stagings = s.before.stagings
  sem : s.startSem = false
  back : ∀ outcome, phase = .finishing outcome → s.setpoint = run.restoreSp

/-- Between the runs, and before one reads what is there. -/
structure RestInv (s : AutotuneSystem) (running : Bool) : Prop where
  running : s.shared.running = running
  duty : s.duty.enabled = false
  arena : s.arena.owner ≠ some .autotune

def ThreadInv (s : AutotuneSystem) : Prop :=
  match s.thread with
  | .waiting => RestInv s s.startSem
  | .starting => RestInv s true ∧ s.startSem = false
  | .active run phase => PhaseInv s run phase

structure TuneInv (s : AutotuneSystem) : Prop where
  thread : ThreadInv s
  reason : s.shared.abortReq = true → s.shared.abortReason ≠ none

/-! ## The steps of a run -/

/-- A safety check that passes has not been asked to abort. -/
theorem checkSafety_heard {shared : AutotuneShared} {env : TuneEnv}
    (hreason : shared.abortReq = true → shared.abortReason ≠ none)
    (h : checkSafety shared env = none) : shared.abortReq = false := by
  cases hreq : shared.abortReq with
  | false => rfl
  | true =>
    cases hr : shared.abortReason with
    | none => exact absurd hr (hreason hreq)
    | some reason => simp [checkSafety, hreq, hr] at h

theorem release_owner (arena : Arena) :
    (maintArenaRelease arena (some .autotune)).owner ≠ some .autotune := by
  unfold maintArenaRelease
  split
  · exact (Option.some_ne_none _).symm
  · rename_i hne
    exact fun h => hne h.symm

section Phases

variable {s : AutotuneSystem} {env : TuneEnv} {run : TuneRun}

/-- A phase that only moves on, with the duty override as the next one may have it. -/
theorem PhaseInv.goto {phase next : TunePhase} (h : PhaseInv s run phase) (duty : DutyOverride)
    (hduty : duty.enabled = true → next.overrides = true)
    (harena : phase.mayHold = true → next.mayHold = true)
    (hheard : next.succeeding ≠ none → s.shared.abortReq = false)
    (hstaged : phase.staged = false) (hback : ∀ outcome, next ≠ .finishing outcome) :
    PhaseInv { s with duty, thread := .active run next } run next where
  running := h.running
  gains := h.gains
  saved := h.saved
  duty := hduty
  arena := fun hown => ⟨harena (h.arena hown).1, (h.arena hown).2⟩
  heard := hheard
  stagings := fun _ => h.stagings hstaged
  back := fun outcome hn => absurd hn (hback outcome)
  sem := h.sem

/-- Before the observation the override is off. -/
theorem PhaseInv.off {phase next : TunePhase} (h : PhaseInv s run phase)
    (hoff : phase.overrides = false) : s.duty.enabled = true → next.overrides = true := by
  intro hon
  have := h.duty hon
  rw [hoff] at this
  cases this

/-- Where the run may not hold the arena, it does not. -/
theorem PhaseInv.free {phase : TunePhase} (h : PhaseInv s run phase)
    (hno : phase.mayHold = false) : s.arena.owner ≠ some .autotune := by
  intro hown
  have := (h.arena hown).1
  rw [hno] at this
  cases this

theorem phaseInv_claiming (h : PhaseInv s run .claiming) :
    ThreadInv (phaseStep s env run .claiming) := by
  simp only [phaseStep]
  cases hg : grants s.arena .autotune with
  | true =>
    rw [maintArenaClaim_granted hg]
    exact ⟨h.running, h.gains, h.saved, h.off rfl, fun _ => ⟨rfl, rfl⟩,
      fun hn => absurd rfl hn, fun _ => h.stagings rfl, h.sem, fun _ hn => by cases hn⟩
  | false =>
    rw [maintArenaClaim_denied hg]
    exact ⟨h.running, h.gains, h.saved, h.off rfl, fun hown => absurd hown (h.free rfl),
      fun hn => absurd rfl hn, fun _ => h.stagings rfl, h.sem, fun _ hn => by cases hn⟩

theorem phaseInv_publishingBase (h : PhaseInv s run .publishingBase) :
    ThreadInv (phaseStep s env run .publishingBase) :=
  ⟨h.running, h.gains, h.saved, h.off rfl, fun hown => ⟨rfl, (h.arena hown).2⟩,
    fun hn => absurd rfl hn, fun _ => h.stagings rfl, h.sem, fun _ hn => by cases hn⟩

/-- A phase before the observation moves on to one that neither succeeds nor ends the run. -/
theorem PhaseInv.measures {phase next : TunePhase} (h : PhaseInv s run phase)
    (hoff : phase.overrides = false) (hstaged : phase.staged = false)
    (hnext : next.mayHold = true ∧ next.succeeding = none ∧ ∀ o, next ≠ .finishing o) :
    ThreadInv { s with thread := .active run next } :=
  h.goto s.duty (h.off hoff) (fun _ => hnext.1) (fun hn => absurd hnext.2.1 hn) hstaged hnext.2.2

theorem phaseInv_settling {waited : ℕ} (h : PhaseInv s run (.settling waited)) :
    ThreadInv (phaseStep s env run (.settling waited)) := by
  simp only [phaseStep]
  split
  · split
    · exact h.measures rfl rfl ⟨rfl, rfl, fun _ hn => by cases hn⟩
    · exact h.measures rfl rfl ⟨rfl, rfl, fun _ hn => by cases hn⟩
  · exact h.measures rfl rfl ⟨rfl, rfl, fun _ hn => by cases hn⟩

/-- What a good baseline sample leads to neither succeeds nor ends the run. -/
theorem nextBaseline_cases (window sample : ℕ) (stable : Bool) :
    (nextBaseline window sample stable).mayHold = true ∧
      (nextBaseline window sample stable).succeeding = none ∧
      ∀ outcome, nextBaseline window sample stable ≠ .finishing outcome := by
  unfold nextBaseline
  split
  · exact ⟨rfl, rfl, fun _ hn => by cases hn⟩
  split
  · exact ⟨rfl, rfl, fun _ hn => by cases hn⟩
  split
  · exact ⟨rfl, rfl, fun _ hn => by cases hn⟩
  · exact ⟨rfl, rfl, fun _ hn => by cases hn⟩

theorem phaseInv_measuring {window sample : ℕ} (h : PhaseInv s run (.measuring window sample)) :
    ThreadInv (phaseStep s env run (.measuring window sample)) := by
  simp only [phaseStep]
  split
  · exact h.measures rfl rfl ⟨rfl, rfl, fun _ hn => by cases hn⟩
  · exact h.measures rfl rfl (nextBaseline_cases window sample env.stable)
  · exact h.measures rfl rfl ⟨rfl, rfl, fun _ hn => by cases hn⟩
  · exact h.measures rfl rfl ⟨rfl, rfl, fun _ hn => by cases hn⟩

theorem phaseInv_exciting (h : PhaseInv s run .exciting) :
    ThreadInv (phaseStep s env run .exciting) :=
  ⟨h.running, h.gains, h.saved, fun _ => rfl, fun hown => ⟨rfl, (h.arena hown).2⟩,
    fun hn => absurd rfl hn, fun _ => h.stagings rfl, h.sem, fun _ hn => by cases hn⟩

/-- What a good sample of the observation leads to still has the override on. -/
theorem nextObserved_cases (n : ℕ) (baselineDuty : ℚ) (outcome : Outcome) :
    (nextObserved n baselineDuty outcome).overrides = true ∧
      (nextObserved n baselineDuty outcome).mayHold = true ∧
      ∀ outcome', nextObserved n baselineDuty outcome ≠ .finishing outcome' := by
  unfold nextObserved
  split
  · exact ⟨rfl, rfl, fun _ hn => by cases hn⟩
  · exact ⟨rfl, rfl, fun _ hn => by cases hn⟩

theorem phaseInv_observing {n : ℕ} {baselineDuty : ℚ}
    (hreason : s.shared.abortReq = true → s.shared.abortReason ≠ none)
    (h : PhaseInv s run (.observing n baselineDuty)) :
    ThreadInv (phaseStep s env run (.observing n baselineDuty)) := by
  simp only [phaseStep]
  split
  · exact h.goto _ (fun _ => rfl) (fun _ => rfl) (fun hn => absurd rfl hn) rfl
      fun _ hn => by cases hn
  · exact h.goto _ (fun _ => rfl) (fun _ => rfl) (fun hn => absurd rfl hn) rfl
      fun _ hn => by cases hn
  · exact h.goto _ (fun _ => rfl) (fun _ => rfl) (fun hn => absurd rfl hn) rfl
      fun _ hn => by cases hn
  · rename_i hcheck _
    obtain ⟨hon, hhold, hback⟩ := nextObserved_cases n baselineDuty env.outcome
    exact h.goto _ (fun _ => hon) (fun _ => hhold)
      (fun _ => checkSafety_heard hreason hcheck) rfl hback

theorem phaseInv_unexciting {outcome : Outcome} (h : PhaseInv s run (.unexciting outcome)) :
    ThreadInv (phaseStep s env run (.unexciting outcome)) := by
  refine h.goto (setAutotuneDuty false 0) (fun hon => by cases hon) (fun _ => rfl) ?_ rfl
    fun _ hn => by cases hn
  cases outcome with
  | abort => exact fun hn => absurd rfl hn
  | success => exact fun _ => h.heard (Option.some_ne_none _)

theorem phaseInv_releasing {outcome : Outcome} (h : PhaseInv s run (.releasing outcome)) :
    ThreadInv (phaseStep s env run (.releasing outcome)) := by
  have hfree : (if run.held then maintArenaRelease s.arena (some .autotune)
      else s.arena).owner ≠ some .autotune := by
    split
    · exact release_owner s.arena
    · rename_i hheld
      exact fun hown => hheld (h.arena hown).2
  simp only [phaseStep]
  cases outcome with
  | abort =>
    exact ⟨h.running, h.gains, h.saved, h.off rfl, fun hown => absurd hown hfree,
      fun hn => absurd rfl hn, fun _ => h.stagings rfl, h.sem, fun _ hn => by cases hn⟩
  | success =>
    exact ⟨h.running, h.gains, h.saved, h.off rfl, fun hown => absurd hown hfree,
      fun _ => h.heard (Option.some_ne_none _), fun _ => h.stagings rfl,
      h.sem, fun _ hn => by cases hn⟩

theorem phaseInv_dutyOff {reason : AbortReason} (h : PhaseInv s run (.dutyOff reason)) :
    ThreadInv (phaseStep s env run (.dutyOff reason)) :=
  h.goto (setAutotuneDuty false 0) (fun hon => by cases hon) (fun hn => by cases hn)
    (fun hn => absurd rfl hn) rfl fun _ hn => by cases hn

theorem phaseInv_gainsBack {outcome : Outcome} (h : PhaseInv s run (.gainsBack outcome)) :
    ThreadInv (phaseStep s env run (.gainsBack outcome)) := by
  have hgains : setGainsLive run.gains.gains = s.before.gains := by
    rw [setGainsLive_gains, h.saved.1]
  simp only [phaseStep]
  cases outcome with
  | abort =>
    exact ⟨h.running, hgains, h.saved, h.off rfl, fun hown => absurd hown (h.free rfl),
      fun hn => absurd rfl hn, fun _ => h.stagings rfl, h.sem, fun _ hn => by cases hn⟩
  | success =>
    exact ⟨h.running, hgains, h.saved, h.off rfl, fun hown => absurd hown (h.free rfl),
      fun _ => h.heard (Option.some_ne_none _), fun _ => h.stagings rfl,
      h.sem, fun _ hn => by cases hn⟩

theorem phaseInv_staging {gains : PidGains} (h : PhaseInv s run (.staging gains)) :
    ThreadInv (phaseStep s env run (.staging gains)) :=
  ⟨h.running, h.gains, h.saved, h.off rfl, fun hown => absurd hown (h.free rfl),
    fun _ => h.heard (Option.some_ne_none _), fun hn => Bool.noConfusion hn, h.sem,
    fun _ hn => by cases hn⟩

theorem phaseInv_setpointBack {outcome : Outcome}
    (hput : publishSetpoint s.setpoint run.restoreSp env.published = run.restoreSp)
    (h : PhaseInv s run (.setpointBack outcome)) :
    ThreadInv (phaseStep s env run (.setpointBack outcome)) := by
  simp only [phaseStep]
  cases outcome with
  | abort =>
    exact ⟨h.running, h.gains, h.saved, h.off rfl, fun hown => absurd hown (h.free rfl),
      fun hn => absurd rfl hn, fun _ => h.stagings rfl, h.sem, fun _ _ => hput⟩
  | success =>
    exact ⟨h.running, h.gains, h.saved, h.off rfl, fun hown => absurd hown (h.free rfl),
      fun _ => h.heard (Option.some_ne_none _), fun hn => Bool.noConfusion hn, h.sem,
      fun _ _ => hput⟩

theorem phaseInv_finishing {outcome : Outcome} (h : PhaseInv s run (.finishing outcome)) :
    ThreadInv (phaseStep s env run (.finishing outcome)) := by
  refine ⟨?_, ?_, h.free rfl⟩
  · show (statusFinish s.shared outcome).running = s.startSem
    rw [h.sem]
    cases outcome <;> rfl
  · exact Bool.eq_false_iff.mpr fun hon => by cases h.duty hon

/-- Every phase is followed by one that keeps what the way out needs. -/
theorem PhaseInv.step {phase : TunePhase}
    (hreason : s.shared.abortReq = true → s.shared.abortReason ≠ none)
    (hput : ∀ outcome, phase = .setpointBack outcome →
      publishSetpoint s.setpoint run.restoreSp env.published = run.restoreSp)
    (h : PhaseInv s run phase) : ThreadInv (phaseStep s env run phase) := by
  cases phase with
  | claiming => exact phaseInv_claiming h
  | publishingBase => exact phaseInv_publishingBase h
  | settling => exact phaseInv_settling h
  | measuring => exact phaseInv_measuring h
  | exciting => exact phaseInv_exciting h
  | observing => exact phaseInv_observing hreason h
  | unexciting => exact phaseInv_unexciting h
  | releasing => exact phaseInv_releasing h
  | dutyOff => exact phaseInv_dutyOff h
  | gainsBack => exact phaseInv_gainsBack h
  | staging => exact phaseInv_staging h
  | setpointBack outcome => exact phaseInv_setpointBack (hput outcome rfl) h
  | finishing => exact phaseInv_finishing h

/-- No phase touches a request to abort, and only the last one ends the run. -/
theorem phaseStep_shared (s : AutotuneSystem) (env : TuneEnv) (run : TuneRun) (phase : TunePhase) :
    (phaseStep s env run phase).shared.abortReq = s.shared.abortReq ∧
      (phaseStep s env run phase).shared.abortReason = s.shared.abortReason ∧
      ((phaseStep s env run phase).shared.running = s.shared.running ∨
        ∃ outcome, phase = .finishing outcome) := by
  cases phase with
  | claiming | publishingBase | exciting | unexciting | releasing | dutyOff | gainsBack | staging
  | setpointBack => exact ⟨rfl, rfl, .inl rfl⟩
  | settling =>
    simp only [phaseStep]
    split
    · split <;> exact ⟨rfl, rfl, .inl rfl⟩
    · exact ⟨rfl, rfl, .inl rfl⟩
  | measuring | observing =>
    simp only [phaseStep]
    split <;> exact ⟨rfl, rfl, .inl rfl⟩
  | finishing outcome => cases outcome <;> exact ⟨rfl, rfl, .inr ⟨_, rfl⟩⟩

end Phases

/-! ## The steps of the system -/

theorem tuneInv_thread {s t : AutotuneSystem} {env : TuneEnv} (hi : TuneInv s)
    (hu : heeded s (.thread env) = true) (h : autotuneThreadStep s env = some t) : TuneInv t := by
  obtain ⟨hthread, hreason⟩ := hi
  unfold autotuneThreadStep at h
  unfold ThreadInv at hthread
  split at h
  · rename_i hwait
    rw [hwait] at hthread
    simp only [Option.ite_none_right_eq_some, Option.some.injEq] at h
    obtain ⟨hsem, rfl⟩ := h
    refine ⟨⟨⟨?_, hthread.duty, hthread.arena⟩, rfl⟩, hreason⟩
    exact hthread.running.trans hsem
  · rename_i hstart
    rw [hstart] at hthread
    obtain ⟨hrest, hsem⟩ := hthread
    cases Option.some.inj h
    simp only [heeded, hstart, decide_eq_true_eq] at hu
    refine ⟨⟨hrest.running, rfl, ⟨rfl, hu⟩, fun hon => ?_, fun hown => absurd hown hrest.arena,
      fun hn => absurd rfl hn, fun _ => rfl, hsem, fun _ hn => by cases hn⟩, hreason⟩
    have hoff := hrest.duty
    rw [show s.duty.enabled = true from hon] at hoff
    cases hoff
  · rename_i run phase hactive
    rw [hactive] at hthread
    cases Option.some.inj h
    refine ⟨hthread.step hreason fun outcome hphase => ?_, fun hreq => ?_⟩
    · rw [hphase] at hactive
      simpa only [heeded, hactive, decide_eq_true_eq] using hu
    · obtain ⟨hsame, hwhy, -⟩ := phaseStep_shared s env run phase
      rw [hwhy]
      exact hreason (hsame ▸ hreq)

/-- A run is on unless the thread waits with no start pending. -/
theorem TuneInv.idle {s : AutotuneSystem} (hi : TuneInv s) (hrun : s.shared.running = false) :
    s.thread = .waiting ∧ RestInv s false := by
  have hthread := hi.thread
  unfold ThreadInv at hthread
  split at hthread
  · rename_i hwait
    exact ⟨hwait, hrun, hthread.duty, hthread.arena⟩
  · have := hthread.1.running
    rw [hrun] at this
    cases this
  · have := hthread.running
    rw [hrun] at this
    cases this

theorem tuneInv_start {s : AutotuneSystem} (hi : TuneInv s) (params : AutotuneParams)
    (modePid inDive : Bool) (now : UInt32) :
    TuneInv (autotuneStart s params modePid inDive now) := by
  unfold autotuneStart
  split
  · exact hi
  · rename_i hgo
    have hrun : s.shared.running = false := by
      cases hr : s.shared.running with
      | false => rfl
      | true => simp [hr] at hgo
    obtain ⟨hwait, hrest⟩ := hi.idle hrun
    refine ⟨?_, fun hreq => by cases hreq⟩
    simp only [ThreadInv, hwait]
    exact ⟨rfl, hrest.duty, hrest.arena⟩

theorem tuneInv_requestAbort {s : AutotuneSystem} {reason : Uds.AutotuneAbort} (hi : TuneInv s)
    (hu : heeded s (.requestAbort reason) = true) : TuneInv (autotuneRequestAbort s reason) := by
  unfold autotuneRequestAbort
  split
  · rename_i haccept
    refine ⟨?_, fun _ => Option.some_ne_none _⟩
    have hthread := hi.thread
    unfold ThreadInv at hthread ⊢
    dsimp only
    split at hthread
    · exact ⟨hthread.running, hthread.duty, hthread.arena⟩
    · exact ⟨⟨hthread.1.running, hthread.1.duty, hthread.1.arena⟩, hthread.2⟩
    · rename_i run phase hactive
      refine ⟨hthread.running, hthread.gains, hthread.saved, hthread.duty, hthread.arena,
        fun hn => ?_, hthread.stagings, hthread.sem, hthread.back⟩
      simp only [heeded, hactive, haccept, Bool.not_true, Bool.or_false, Option.isNone_iff_eq_none]
        at hu
      exact absurd hu hn
  · exact hi

theorem tuneInv_setpoint {s : AutotuneSystem} {value : UInt8} (hi : TuneInv s)
    (hu : heeded s (.setpoint value) = true) : TuneInv { s with setpoint := value } := by
  refine ⟨?_, hi.reason⟩
  have hthread := hi.thread
  unfold ThreadInv at hthread ⊢
  dsimp only
  split at hthread
  · exact ⟨hthread.running, hthread.duty, hthread.arena⟩
  · exact ⟨⟨hthread.1.running, hthread.1.duty, hthread.1.arena⟩, hthread.2⟩
  · rename_i run phase hactive
    refine ⟨hthread.running, hthread.gains, hthread.saved, hthread.duty, hthread.arena,
      hthread.heard, hthread.stagings, hthread.sem, fun outcome hn => ?_⟩
    rw [hn] at hactive
    simpa only [heeded, hactive, decide_eq_true_eq] using hu

/-- A call by another tenant does not give the arena to the autotune. -/
theorem othersCall_owner {arena arena' : Arena} {call : ArenaEvent} (hcall : othersCall call = true)
    (h : arenaStep arena call = some arena') (hown : arena'.owner = some .autotune) :
    arena.owner = some .autotune := by
  cases arenaStep_cases h with
  | denied | notHeld | building | wrote => exact hown
  | granted =>
    cases Option.some.inj hown
    cases hcall
  | released => cases hown

theorem tuneInv_arena {s : AutotuneSystem} {call : ArenaEvent} {arena : Arena} (hi : TuneInv s)
    (hcall : othersCall call = true) (h : arenaStep s.arena call = some arena) :
    TuneInv { s with arena } := by
  refine ⟨?_, hi.reason⟩
  have hthread := hi.thread
  unfold ThreadInv at hthread ⊢
  dsimp only
  split at hthread
  · exact ⟨hthread.running, hthread.duty, fun hown => hthread.arena (othersCall_owner hcall h hown)⟩
  · exact ⟨⟨hthread.1.running, hthread.1.duty,
      fun hown => hthread.1.arena (othersCall_owner hcall h hown)⟩, hthread.2⟩
  · exact ⟨hthread.running, hthread.gains, hthread.saved, hthread.duty,
      fun hown => hthread.arena (othersCall_owner hcall h hown), hthread.heard, hthread.stagings,
      hthread.sem, hthread.back⟩

theorem TuneInv.step {s t : AutotuneSystem} {e : AutotuneEvent} (hi : TuneInv s)
    (hu : heeded s e = true) (h : autotuneStep s e = some t) : TuneInv t := by
  cases e with
  | thread env => exact tuneInv_thread hi hu h
  | start params modePid inDive now =>
    exact Option.some.inj h ▸ tuneInv_start hi params modePid inDive now
  | requestAbort reason => exact Option.some.inj h ▸ tuneInv_requestAbort hi hu
  | setpoint value => exact Option.some.inj h ▸ tuneInv_setpoint hi hu
  | arena call =>
    simp only [autotuneStep, Option.ite_none_right_eq_some, Option.map_eq_some_iff] at h
    obtain ⟨hcall, arena, harena, rfl⟩ := h
    exact tuneInv_arena hi hcall harena

/-- Only the last phase of a run ends it. -/
theorem autotuneStep_ends {s t : AutotuneSystem} {e : AutotuneEvent}
    (h : autotuneStep s e = some t) (hrun : s.shared.running = true)
    (hend : t.shared.running = false) :
    ∃ run outcome, s.thread = .active run (.finishing outcome) ∧
      t = { s with shared := statusFinish s.shared outcome, thread := .waiting } := by
  have hsame : ¬ t.shared.running = s.shared.running := by
    rw [hrun, hend]
    exact Bool.false_ne_true
  cases e with
  | thread env =>
    simp only [autotuneStep, autotuneThreadStep] at h
    split at h
    · simp only [Option.ite_none_right_eq_some, Option.some.injEq] at h
      exact absurd (h.2 ▸ rfl) hsame
    · exact absurd (Option.some.inj h ▸ rfl) hsame
    · rename_i run phase hactive
      cases Option.some.inj h
      rcases (phaseStep_shared s env run phase).2.2 with hkeep | ⟨o, rfl⟩
      · exact absurd hkeep hsame
      · exact ⟨run, o, hactive, rfl⟩
  | start params modePid inDive now =>
    cases Option.some.inj h
    unfold autotuneStart at hend
    split at hend
    · rw [hrun] at hend
      cases hend
    · cases hend
  | requestAbort reason =>
    cases Option.some.inj h
    unfold autotuneRequestAbort at hsame
    split at hsame
    · exact absurd rfl hsame
    · exact absurd rfl hsame
  | setpoint => exact absurd (Option.some.inj h ▸ rfl) hsame
  | arena call =>
    simp only [autotuneStep, Option.ite_none_right_eq_some, Option.map_eq_some_iff] at h
    obtain ⟨-, arena, -, rfl⟩ := h
    exact absurd rfl hsame

theorem TuneInv.endsWell {s t : AutotuneSystem} {e : AutotuneEvent} (hi : TuneInv s)
    (h : autotuneStep s e = some t) : EndsWell s e t := by
  have hfinish : ∀ {run outcome}, s.thread = .active run (.finishing outcome) →
      PhaseInv s run (.finishing outcome) := by
    intro run outcome hactive
    have hthread := hi.thread
    simp only [ThreadInv, hactive] at hthread
    exact hthread
  constructor
  · intro hrun hend
    obtain ⟨run, outcome, hactive, rfl⟩ := autotuneStep_ends h hrun hend
    have hp := hfinish hactive
    refine ⟨hp.gains, (hp.back outcome rfl).trans hp.saved.2, ?_, hp.free rfl⟩
    exact Bool.eq_false_iff.mpr fun hon => by cases hp.duty hon
  · intro hrun hend hreq
    obtain ⟨run, outcome, hactive, rfl⟩ := autotuneStep_ends h hrun hend
    have hp := hfinish hactive
    cases outcome with
    | abort => exact ⟨rfl, hp.stagings rfl⟩
    | success =>
      rw [hp.heard (Option.some_ne_none _)] at hreq
      cases hreq

/-! ## Runs -/

/-- The autotune at power-up, with the gains from the settings. -/
def AutotuneSystem.init (gains : LiveGains) (setpoint : UInt8) : AutotuneSystem where
  gains
  duty := ⟨false, 0⟩
  setpoint
  arena := .init
  stagings := []
  shared :=
    { params := ⟨0, 0, 0⟩
      abortReq := false
      abortReason := none
      running := false
      startUptimeMs := 0
      state := .idle
      statusReason := none }
  startSem := false
  thread := .waiting
  before := ⟨gains, setpoint, []⟩

theorem tuneInv_init (gains : LiveGains) (setpoint : UInt8) : TuneInv (.init gains setpoint) :=
  ⟨⟨rfl, rfl, (Option.some_ne_none _).symm⟩, Bool.noConfusion⟩

/-- In a run of the system whose steps meet the conditions, every autotune ends well. -/
theorem autotune_endsWell (gains : LiveGains) (setpoint : UInt8) (es : List AutotuneEvent)
    (hu : Steps autotuneStep (fun s e _ => heeded s e = true) (.init gains setpoint) es) :
    Steps autotuneStep EndsWell (.init gains setpoint) es := by
  refine Steps.of_inv ?_ (tuneInv_init gains setpoint) hu
  intro s e t hi hu h
  exact ⟨hi.step hu h, hi.endsWell h⟩

/-- Calm conditions, in which gains are found. -/
def calm : TuneEnv where
  readOk := true
  published := true
  inDive := false
  modePid := true
  solenoidFault := false
  elapsedMs := 0
  sample := some false
  baselineDuty := 0.2
  stable := true
  outcome := .success ⟨1, 0, 0⟩

/-- Gains of a half throughout. -/
def halfGains : LiveGains := setGainsLive ⟨0.5, 0.5, 0.5⟩

/-- A start and an abort right after the arena is claimed. -/
def earlyAbort : List AutotuneEvent :=
  [.start ⟨100, 20, 1⟩ true false 0, .thread calm, .thread calm, .thread calm,
    .requestAbort .operator] ++ List.replicate 7 (.thread calm)

theorem earlyAbort_endsWell :
    Steps autotuneStep EndsWell (.init halfGains 70) earlyAbort ∧
      (exec autotuneStep (.init halfGains 70) earlyAbort).map
        (fun s => (s.shared.running, s.shared.state, s.setpoint)) = some (false, .aborted, 70) :=
  ⟨autotune_endsWell halfGains 70 earlyAbort (by decide +kernel), by decide +kernel⟩

/-- A whole experiment, and an abort when its last sample is in. -/
def lateAbort : List AutotuneEvent :=
  .start ⟨100, 20, 1⟩ true false 0 ::
    (List.replicate (4 + 41 + 120 + 1 + 80) (.thread calm) ++ .requestAbort .operator ::
      List.replicate 6 (.thread calm))

/-- The abort is accepted, and the run ends DONE with its gains staged. -/
theorem lateAbort_ignored :
    ¬ Steps autotuneStep EndsWell (.init halfGains 70) lateAbort ∧
      (exec autotuneStep (.init halfGains 70) lateAbort).map
        (fun s => (s.shared.abortReq, s.shared.state, s.stagings)) =
          some (true, .done, [⟨1, 0, 0⟩]) := by
  have hrun : (exec autotuneStep (.init halfGains 70) lateAbort).map
      (fun s => (s.shared.abortReq, s.shared.state, s.stagings)) =
        some (true, .done, [⟨1, 0, 0⟩]) := by
    decide +kernel
  refine ⟨fun h => ?_, hrun⟩
  have hweak : Steps autotuneStep (fun s _ t => s.shared.running = true →
      t.shared.running = false → s.shared.abortReq = true → t.shared.state = .aborted)
      (.init halfGains 70) lateAbort :=
    h.mono fun hends hrun hend hreq => (hends.aborted hrun hend hreq).1
  revert hweak
  decide +kernel

end DiveCANHead.Control
