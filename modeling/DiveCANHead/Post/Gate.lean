import DiveCANHead.Post.Machine

/-!
# What the gate confirms

A run goes through the waiting states in order and ends in `POST_CONFIRMED` or with a reboot. The
check is tested before the deadline, so a late tick may still pass, and `POST_CONFIRMED` is reported
whatever the flash call returns: `Punctual` says that neither happens, and exactly then the gate is
sound.
-/

namespace DiveCANHead.Post

/-- Whether the image is in fact confirmed. -/
def ImageConfirmed (boot : PostBoot) (s : PostSm) : Prop :=
  boot.imgConfirmed = true ∨ 0 ∈ s.confirms

/-- All five checks passed, one after the other, each within the overall deadline. -/
structure Gated (cfg : PostConfig) (s : PostSm) : Prop where
  order : s.passed.map PostPass.check = [.cells, .consensus, .ppo2Tx, .handset, .solenoid]
  alive : ∀ p ∈ s.passed, p.check.alive cfg s.txBaseline s.rxBaseline p.seen = true
  sorted : s.passed.IsChain fun p q => p.atMs ≤ q.atMs
  inTime : ∀ p ∈ s.passed, p.atMs - s.startMs < cfg.deadlineMs

/-- What the gate promises, over all its ticks. -/
structure PostSound (cfg : PostConfig) (boot : PostBoot) (env : ℕ → Tick) : Prop where
  once : ∀ n, (postRun cfg boot env n).confirms.length ≤ 1
  gated : ∀ n, (postRun cfg boot env n).confirms ≠ [] → Gated cfg (postRun cfg boot env n)
  honest : ∀ n, (postRun cfg boot env n).reported = .confirmed →
    ImageConfirmed boot (postRun cfg boot env n)
  rolledBack : ∀ n, (postRun cfg boot env n).live = false →
    ¬ ImageConfirmed boot (postRun cfg boot env n) →
      (postRun cfg boot env n).rebooted = true ∧ (postRun cfg boot env n).confirms = []
  ends : ∃ n, (postRun cfg boot env n).live = false

/-- The conditions: no unconfirmed image is left alone for a queued swap, and the tick that finds
the solenoid good is sampled within the deadline and its confirmation succeeds. -/
structure Punctual (cfg : PostConfig) (boot : PostBoot) (env : ℕ → Tick) : Prop where
  notDeferred : boot.imgConfirmed = true ∨ boot.swapType ≠ .test
  last : ∀ n, (postRun cfg boot env n).state = .waitingSolenoid →
    solenoidIsAlive cfg (env n) = true →
      (postRun cfg boot env n).now + (env n).stall - boot.uptimeMs < cfg.deadlineMs ∧
        (env n).confirmRc = 0

/-! ## The rows of the state table -/

/-- The state that waits for a check. -/
def PostCheck.state : PostCheck → PostState
  | .cells => .waitingCells
  | .consensus => .waitingConsensus
  | .ppo2Tx => .waitingPpo2Tx
  | .handset => .waitingHandset
  | .solenoid => .waitingSolenoid

/-- The check after one, none after the last. -/
def PostCheck.following : PostCheck → Option PostCheck
  | .cells => some .consensus
  | .consensus => some .ppo2Tx
  | .ppo2Tx => some .handset
  | .handset => some .solenoid
  | .solenoid => none

def PostCheck.next (c : PostCheck) : PostState :=
  match c.following with
  | some d => d.state
  | none => .confirmed

def PostCheck.failed : PostCheck → PostState
  | .cells => .failedCell
  | .consensus => .failedConsensus
  | .ppo2Tx => .failedNoPpo2Tx
  | .handset => .failedNoHandset
  | .solenoid => .failedSolenoid

def PostCheck.budget (cfg : PostConfig) : PostCheck → ℤ
  | .cells => cfg.cellMs
  | .consensus => cfg.consensusMs
  | .ppo2Tx => cfg.ppo2TxMs
  | .handset => cfg.handsetMs
  | .solenoid => cfg.solMs

/-- The checks that have passed while one is waited for. -/
def PostCheck.before : PostCheck → List PostCheck
  | .cells => []
  | .consensus => [.cells]
  | .ppo2Tx => [.cells, .consensus]
  | .handset => [.cells, .consensus, .ppo2Tx]
  | .solenoid => [.cells, .consensus, .ppo2Tx, .handset]

/-- How many checks are still to pass. -/
def PostCheck.left : PostCheck → ℕ
  | .cells => 5
  | .consensus => 4
  | .ppo2Tx => 3
  | .handset => 2
  | .solenoid => 1

theorem PostCheck.following_spec {c d : PostCheck} (h : c.following = some d) :
    d.before = c.before ++ [c] ∧ d.left < c.left := by
  revert h
  cases c <;> cases d <;> decide

theorem smfRunState_waiting (cfg : PostConfig) {s : PostSm} (tick : Tick) {c : PostCheck}
    (h : s.state = c.state) :
    smfRunState cfg s tick = waitingRun cfg s tick c c.next c.failed (c.budget cfg) := by
  unfold smfRunState
  rw [h]
  cases c <;> rfl

theorem postSetState_waiting (s : PostSm) (c : PostCheck) (tick : Tick) :
    postSetState s c.state tick = enterWaitingState { s with state := c.state } c.state tick := by
  cases c <;> rfl

theorem postSetState_failed (s : PostSm) (c : PostCheck) (tick : Tick) :
    postSetState s c.failed tick = abortAndReboot { s with state := c.failed } c.failed := by
  cases c <;> rfl

theorem PostCheck.failed_ne (c : PostCheck) :
    c.failed ≠ .confirmed ∧ c.failed ≠ .waitingSolenoid := by
  cases c <;> decide

/-! ## One tick -/

variable {cfg : PostConfig} {s t : PostSm} {tick : Tick} {c : PostCheck}

/-- The pass a tick records. -/
def PostSm.pass (s : PostSm) (c : PostCheck) (tick : Tick) : PostPass :=
  ⟨c, s.now + tick.stall, tick⟩

/-- What a tick of a waiting state does. -/
inductive WaitingTick (cfg : PostConfig) (s : PostSm) (tick : Tick) (c : PostCheck) :
    PostSm → Prop where
  | passed {d : PostCheck} (hd : c.following = some d)
      (halive : c.alive cfg s.txBaseline s.rxBaseline tick = true) (t : PostSm)
      (hstate : t.state = d.state) (hreported : t.reported = d.state)
      (hpassed : t.passed = s.passed ++ [s.pass c tick])
      (hkept : t.startMs = s.startMs ∧ t.txBaseline = s.txBaseline ∧ t.rxBaseline = s.rxBaseline ∧
        t.confirms = s.confirms ∧ t.rebooted = s.rebooted ∧ t.live = s.live)
      (hnow : s.now + tick.stall + pollIntervalMs ≤ t.now) : WaitingTick cfg s tick c t
  | confirmed (hc : c = .solenoid)
      (halive : c.alive cfg s.txBaseline s.rxBaseline tick = true) (t : PostSm)
      (hstate : t.state = .confirmed) (hreported : t.reported = .confirmed)
      (hpassed : t.passed = s.passed ++ [s.pass c tick])
      (hkept : t.startMs = s.startMs ∧ t.txBaseline = s.txBaseline ∧ t.rxBaseline = s.rxBaseline ∧
        t.rebooted = s.rebooted)
      (hconfirms : t.confirms = s.confirms ++ [tick.confirmRc]) (hlive : t.live = false)
      (hnow : t.now = s.now + tick.stall) : WaitingTick cfg s tick c t
  | failed (hdead : c.alive cfg s.txBaseline s.rxBaseline tick = false) (t : PostSm)
      (hstate : t.state ≠ .waitingSolenoid) (hreported : t.reported ≠ .confirmed)
      (hconfirms : t.confirms = s.confirms) (hrebooted : t.rebooted = true)
      (hlive : t.live = false) : WaitingTick cfg s tick c t
  | stays (hdead : c.alive cfg s.txBaseline s.rxBaseline tick = false)
      (hearly : s.now - s.startMs < cfg.deadlineMs) (ms : ℤ) (hms : pollIntervalMs ≤ ms) :
      WaitingTick cfg s tick c { s with now := s.now + ms }

theorem postTick_runs (hlive : s.live = true) (hstate : s.state = c.state) :
    postTick cfg s tick = postSleep
      (waitingRun cfg (s.elapse tick.stall) tick c c.next c.failed (c.budget cfg)) := by
  rw [postTick, if_pos hlive, smfRunState_waiting cfg (s := s.elapse tick.stall) tick hstate]

theorem postTick_waiting (hlive : s.live = true) (hstate : s.state = c.state) :
    WaitingTick cfg s tick c (postTick cfg s tick) := by
  rw [postTick_runs hlive hstate, waitingRun]
  split
  · rename_i h
    have halive : c.alive cfg s.txBaseline s.rxBaseline tick = true := h
    cases hd : c.following with
    | some d =>
      rw [PostCheck.next, hd]
      simp only [postSetState_waiting, enterWaitingState, markCheckPassed, PostSm.elapse, postSleep,
        hlive, if_true]
      refine .passed hd halive _ rfl rfl rfl ⟨rfl, rfl, rfl, rfl, rfl, hlive.symm⟩ ?_
      show _ ≤ s.now + tick.stall + tick.toEntry + pollIntervalMs
      omega
    | none =>
      have hc : c = .solenoid := by
        revert hd
        cases c <;> decide
      subst hc
      exact .confirmed rfl halive _ rfl rfl rfl ⟨rfl, rfl, rfl, rfl⟩ rfl rfl rfl
  rename_i h
  have hdead : c.alive cfg s.txBaseline s.rxBaseline tick = false := by
    rw [← Bool.not_eq_true]
    exact h
  split
  · exact .failed hdead _ (show PostState.failedTimeout ≠ _ by decide)
      (show PostState.failedTimeout ≠ _ by decide) rfl rfl rfl
  · rename_i hover
    split
    · rw [postSetState_failed]
      exact .failed hdead _ (PostCheck.failed_ne c).2 (PostCheck.failed_ne c).1 rfl rfl rfl
    · rw [postSleep, if_pos (by exact hlive)]
      have hearly : s.now - s.startMs < cfg.deadlineMs := by
        have hover : ¬ cfg.deadlineMs - (s.now + tick.stall + tick.toDeadline - s.startMs) ≤ 0 :=
          fun h => hover (decide_eq_true h)
        omega
      have hnow : s.now + tick.stall + tick.toDeadline + tick.toBudget + pollIntervalMs =
          s.now + (tick.stall + tick.toDeadline + tick.toBudget + pollIntervalMs) := by
        omega
      have hms : pollIntervalMs ≤ tick.stall + tick.toDeadline + tick.toBudget + pollIntervalMs :=
        by
        omega
      simp only [PostSm.elapse]
      rw [hnow]
      exact .stays hdead hearly _ hms

/-! ## Every run -/

/-- The counters the checks are measured from, and what the passes so far were. -/
structure PassesOk (cfg : PostConfig) (boot : PostBoot) (s : PostSm) : Prop where
  start : s.startMs = boot.uptimeMs
  alive : ∀ p ∈ s.passed, p.check.alive cfg s.txBaseline s.rxBaseline p.seen = true
  sorted : s.passed.IsChain fun p q => p.atMs ≤ q.atMs
  past : ∀ p ∈ s.passed, p.atMs ≤ s.now

/-- Where a started gate is. -/
inductive Phase (cfg : PostConfig) (boot : PostBoot) (s : PostSm) : Prop where
  | waiting (c : PostCheck) (hstate : s.state = c.state) (hreported : s.reported = c.state)
      (hlive : s.live = true) (hconfirms : s.confirms = []) (hrebooted : s.rebooted = false)
      (horder : s.passed.map PostPass.check = c.before) (hok : PassesOk cfg boot s)
  | confirmed (rc : ℤ) (last : PostPass) (before : List PostPass) (hstate : s.state = .confirmed)
      (hreported : s.reported = .confirmed) (hlive : s.live = false) (hconfirms : s.confirms = [rc])
      (hrebooted : s.rebooted = false) (hpassed : s.passed = before ++ [last])
      (horder : s.passed.map PostPass.check = PostCheck.solenoid.before ++ [.solenoid])
      (hok : PassesOk cfg boot s)
  | failed (hstate : s.state ≠ .waitingSolenoid) (hreported : s.reported ≠ .confirmed)
      (hlive : s.live = false) (hconfirms : s.confirms = []) (hrebooted : s.rebooted = true)

theorem PassesOk.append {boot : PostBoot} (h : PassesOk cfg boot s)
    (halive : c.alive cfg s.txBaseline s.rxBaseline tick = true)
    (hstart : t.startMs = s.startMs) (htx : t.txBaseline = s.txBaseline)
    (hrx : t.rxBaseline = s.rxBaseline) (hpassed : t.passed = s.passed ++ [s.pass c tick])
    (hnow : s.now + tick.stall ≤ t.now) : PassesOk cfg boot t := by
  have hall : ∀ p ∈ s.passed, p.atMs ≤ s.now + tick.stall := fun p hp => by
    have := h.past p hp
    omega
  refine ⟨hstart.trans h.start, ?_, ?_, ?_⟩
  · intro p hp
    rw [htx, hrx]
    rw [hpassed] at hp
    rcases List.mem_append.mp hp with hp | hp
    · exact h.alive p hp
    · cases List.mem_singleton.mp hp
      exact halive
  · rw [hpassed]
    refine List.IsChain.append h.sorted (List.isChain_singleton _) ?_
    intro p hp q hq
    cases Option.mem_some_iff.mp hq
    exact hall p (List.mem_of_getLast? hp)
  · intro p hp
    rw [hpassed] at hp
    rcases List.mem_append.mp hp with hp | hp
    · exact (hall p hp).trans hnow
    · cases List.mem_singleton.mp hp
      exact hnow

theorem postTick_dead (hlive : s.live = false) : postTick cfg s tick = s := by
  rw [postTick, if_neg (by rw [hlive]; decide)]

theorem phase_step {boot : PostBoot} (h : Phase cfg boot s) (tick : Tick) :
    Phase cfg boot (postTick cfg s tick) := by
  cases h with
  | waiting c hstate hreported hlive hconfirms hrebooted horder hok =>
    have hstep : WaitingTick cfg s tick c (postTick cfg s tick) := postTick_waiting hlive hstate
    generalize postTick cfg s tick = t at hstep ⊢
    cases hstep with
    | @passed d hd halive _ hstate' hreported' hpassed hkept hnow =>
      obtain ⟨hstart, htx, hrx, hconf, hreb, hliv⟩ := hkept
      have hwait : 0 ≤ pollIntervalMs := by decide
      refine .waiting d hstate' hreported' (hliv.trans hlive) (hconf.trans hconfirms)
        (hreb.trans hrebooted) ?_ (hok.append halive hstart htx hrx hpassed (by omega))
      rw [hpassed, List.map_append, horder, (PostCheck.following_spec hd).1]
      rfl
    | confirmed hc halive _ hstate' hreported' hpassed hkept hconfirms' hlive' hnow =>
      subst hc
      obtain ⟨hstart, htx, hrx, hreb⟩ := hkept
      refine .confirmed tick.confirmRc _ _ hstate' hreported' hlive' ?_ (hreb.trans hrebooted)
        hpassed ?_ (hok.append halive hstart htx hrx hpassed hnow.ge)
      · rw [hconfirms', hconfirms]
        rfl
      · rw [hpassed, List.map_append, horder]
        rfl
    | failed hdead _ hstate' hreported' hconfirms' hrebooted' hlive' =>
      exact .failed hstate' hreported' hlive' (hconfirms'.trans hconfirms) hrebooted'
    | stays hdead hearly ms hms =>
      have hwait : 0 ≤ pollIntervalMs := by decide
      refine .waiting c hstate hreported hlive hconfirms hrebooted horder
        ⟨hok.start, hok.alive, hok.sorted, fun p hp => ?_⟩
      have := hok.past p hp
      show p.atMs ≤ s.now + ms
      omega
  | confirmed rc last before hstate hreported hlive hconfirms hrebooted hpassed horder hok =>
    rw [postTick_dead hlive]
    exact .confirmed rc last before hstate hreported hlive hconfirms hrebooted hpassed horder hok
  | failed hstate hreported hlive hconfirms hrebooted =>
    rw [postTick_dead hlive]
    exact .failed hstate hreported hlive hconfirms hrebooted

variable {boot : PostBoot} {env : ℕ → Tick}

theorem phase_start : Phase cfg boot (postStart boot) :=
  .waiting .cells rfl rfl rfl rfl rfl rfl
    ⟨rfl, fun _ hp => (by cases hp), .nil, fun _ hp => (by cases hp)⟩

/-- Whether the thread is started at all. -/
def PostBoot.starts (boot : PostBoot) : Bool :=
  firmwareConfirmDecide boot.imgConfirmed boot.swapType = .run

theorem phase_run (hstarts : boot.starts = true) (n : ℕ) :
    Phase cfg boot (postRun cfg boot env n) := by
  induction n with
  | zero =>
    have hrun : firmwareConfirmDecide boot.imgConfirmed boot.swapType = .run :=
      of_decide_eq_true hstarts
    rw [postRun, firmwareConfirmInit, hrun]
    exact phase_start
  | succ n ih => exact phase_step ih (env n)

/-! ## The gate ends -/

/-- How many ticks a gate past its deadline may still take. -/
def PostSm.rank (s : PostSm) : ℕ :=
  match s.state with
  | .waitingCells => 5
  | .waitingConsensus => 4
  | .waitingPpo2Tx => 3
  | .waitingHandset => 2
  | .waitingSolenoid => 1
  | _ => 0

theorem PostCheck.rank_eq (hstate : s.state = c.state) : s.rank = c.left := by
  rw [PostSm.rank, hstate]
  cases c <;> rfl

/-- Every tick of a live thread takes at least one poll interval. -/
theorem postTick_now (h : Phase cfg boot s) (hlive : (postTick cfg s tick).live = true) :
    s.now + pollIntervalMs ≤ (postTick cfg s tick).now := by
  cases h with
  | waiting c hstate hreported hl =>
    have hstep : WaitingTick cfg s tick c (postTick cfg s tick) := postTick_waiting hl hstate
    revert hlive
    generalize postTick cfg s tick = t at hstep ⊢
    intro hlive
    cases hstep with
    | passed hd halive _ hstate' hreported' hpassed hkept hnow => omega
    | confirmed hc halive _ hstate' hreported' hpassed hkept hconfirms' hlive' =>
      rw [hlive] at hlive'
      cases hlive'
    | failed hdead _ hstate' hreported' hconfirms' hrebooted' hlive' =>
      rw [hlive] at hlive'
      cases hlive'
    | stays hdead hearly ms hms =>
      show _ ≤ s.now + ms
      omega
  | confirmed rc last before hstate hreported hl | failed hstate hreported hl =>
    rw [postTick_dead hl, hl] at hlive
    cases hlive

/-- Past the deadline every tick passes a check or ends the gate. -/
theorem postTick_late (h : Phase cfg boot s) (hlate : cfg.deadlineMs ≤ s.now - boot.uptimeMs)
    (hlive : (postTick cfg s tick).live = true) : (postTick cfg s tick).rank < s.rank := by
  cases h with
  | waiting c hstate hreported hl hconfirms hrebooted horder hok =>
    have hstep : WaitingTick cfg s tick c (postTick cfg s tick) := postTick_waiting hl hstate
    revert hlive
    generalize postTick cfg s tick = t at hstep ⊢
    intro hlive
    cases hstep with
    | passed hd halive _ hstate' =>
      rw [PostCheck.rank_eq hstate, PostCheck.rank_eq hstate']
      exact (PostCheck.following_spec hd).2
    | confirmed hc halive _ hstate' hreported' hpassed hkept hconfirms' hlive' =>
      rw [hlive] at hlive'
      cases hlive'
    | failed hdead _ hstate' hreported' hconfirms' hrebooted' hlive' =>
      rw [hlive] at hlive'
      cases hlive'
    | stays hdead hearly ms hms =>
      rw [hok.start] at hearly
      omega
  | confirmed rc last before hstate hreported hl | failed hstate hreported hl =>
    rw [postTick_dead hl, hl] at hlive
    cases hlive

theorem postRun_now (hstarts : boot.starts = true) (n : ℕ)
    (hlive : (postRun cfg boot env n).live = true) :
    boot.uptimeMs + pollIntervalMs * n ≤ (postRun cfg boot env n).now := by
  induction n with
  | zero =>
    have hrun : firmwareConfirmDecide boot.imgConfirmed boot.swapType = .run :=
      of_decide_eq_true hstarts
    have hnow : (postRun cfg boot env 0).now = boot.uptimeMs + boot.toEntry := by
      rw [postRun, firmwareConfirmInit, hrun]
      rfl
    rw [hnow]
    simp
  | succ n ih =>
    have hprev : (postRun cfg boot env n).live = true := by
      by_contra hdead
      rw [Bool.not_eq_true] at hdead
      rw [postRun, postTick_dead hdead, hdead] at hlive
      cases hlive
    have hstep := postTick_now (phase_run hstarts n) hlive
    have := ih hprev
    rw [postRun]
    push_cast
    rw [mul_add, mul_one]
    omega

/-- The gate is over soon after the deadline, at the latest. -/
theorem postRun_ends (hstarts : boot.starts = true) :
    ∃ n, (postRun cfg boot env n).live = false := by
  have hafter : ∀ (bound n : ℕ), cfg.deadlineMs ≤ pollIntervalMs * n →
      (postRun cfg boot env n).rank < bound → ∃ m, (postRun cfg boot env m).live = false := by
    intro bound
    induction bound with
    | zero => exact fun n _ hrank => absurd hrank (Nat.not_lt_zero _)
    | succ bound ih =>
      intro n hn hrank
      cases hlive : (postRun cfg boot env n).live with
      | false => exact ⟨n, hlive⟩
      | true =>
        cases hnext : (postRun cfg boot env (n + 1)).live with
        | false => exact ⟨n + 1, hnext⟩
        | true =>
          have hnow := postRun_now hstarts n hlive
          have hlower := postTick_late (phase_run hstarts n) (by omega) hnext
          refine ih (n + 1) ?_ (by rw [postRun]; omega)
          have hpoll : pollIntervalMs * (n : ℤ) ≤ pollIntervalMs * ((n + 1 : ℕ) : ℤ) := by
            unfold pollIntervalMs
            omega
          omega
  refine hafter _ cfg.deadlineMs.toNat ?_ (Nat.lt_succ_self _)
  unfold pollIntervalMs
  omega

/-! ## Soundness -/

/-- A boot that does not start the thread leaves the gate as it was. -/
theorem postRun_dormant (hstarts : boot.starts = false) (n : ℕ) :
    postRun cfg boot env n = { boot.fresh with reported := .confirmed } := by
  induction n with
  | zero =>
    have hrun : firmwareConfirmDecide boot.imgConfirmed boot.swapType ≠ .run :=
      of_decide_eq_false hstarts
    rw [postRun, firmwareConfirmInit]
    cases hdecide : firmwareConfirmDecide boot.imgConfirmed boot.swapType with
    | silent | defer => rfl
    | run => exact absurd hdecide hrun
  | succ n ih =>
    rw [postRun, ih]
    exact postTick_dead rfl

theorem starts_eq (boot : PostBoot) :
    boot.starts = (!boot.imgConfirmed && boot.swapType ≠ .test) := by
  unfold PostBoot.starts firmwareConfirmDecide
  cases boot.imgConfirmed <;> cases boot.swapType <;> decide

theorem dormant_sound (hstarts : boot.starts = false) :
    PostSound cfg boot env ↔ Punctual cfg boot env := by
  have hrun : ∀ n, postRun cfg boot env n = { boot.fresh with reported := .confirmed } :=
    postRun_dormant hstarts
  have hnot : boot.imgConfirmed = true ∨ boot.swapType = .test := by
    rw [starts_eq] at hstarts
    cases hconf : boot.imgConfirmed with
    | true => exact .inl rfl
    | false => simpa [hconf] using hstarts
  constructor
  · intro h
    have hhonest := h.honest 0
    rw [hrun] at hhonest
    have hconf : boot.imgConfirmed = true := (hhonest rfl).resolve_right (by simp [PostBoot.fresh])
    refine ⟨.inl hconf, fun n hstate => ?_⟩
    rw [hrun] at hstate
    cases hstate
  · intro h
    have hconf : boot.imgConfirmed = true := by
      rcases hnot with hconf | htest
      · exact hconf
      · exact h.notDeferred.resolve_right (not_not.mpr htest)
    refine ⟨fun n => ?_, fun n hne => ?_, fun _ _ => .inl hconf, fun _ _ hno => ?_, 0, ?_⟩
    · rw [hrun]
      exact Nat.zero_le _
    · rw [hrun] at hne
      exact absurd rfl hne
    · exact absurd (.inl hconf) hno
    · rw [hrun]
      rfl

/-- In a punctual run the call that is made succeeds, and no check passed late. -/
theorem confirms_punctual (hstarts : boot.starts = true) (h : Punctual cfg boot env) (n : ℕ)
    (hne : (postRun cfg boot env n).confirms ≠ []) :
    (postRun cfg boot env n).confirms = [0] ∧
      ∀ p ∈ (postRun cfg boot env n).passed, p.atMs - boot.uptimeMs < cfg.deadlineMs := by
  induction n with
  | zero =>
    have hrun : firmwareConfirmDecide boot.imgConfirmed boot.swapType = .run :=
      of_decide_eq_true hstarts
    rw [postRun, firmwareConfirmInit, hrun] at hne
    exact absurd rfl hne
  | succ n ih =>
    have hlast := h.last n
    rw [postRun] at hne ⊢
    have hphase : Phase cfg boot (postRun cfg boot env n) := phase_run hstarts n
    generalize postRun cfg boot env n = s at ih hlast hphase hne ⊢
    cases hphase with
    | waiting c hstate hreported hlive hconfirms hrebooted horder hok =>
      have hstep : WaitingTick cfg s (env n) c (postTick cfg s (env n)) :=
        postTick_waiting hlive hstate
      generalize postTick cfg s (env n) = t at hstep hne ⊢
      cases hstep with
      | passed hd halive _ hstate' hreported' hpassed hkept =>
        exact absurd (hkept.2.2.2.1.trans hconfirms) hne
      | confirmed hc halive _ hstate' hreported' hpassed hkept hconfirms' =>
        subst hc
        obtain ⟨hin, hrc⟩ := hlast hstate halive
        refine ⟨by rw [hconfirms', hconfirms, hrc]; rfl, fun p hp => ?_⟩
        rw [hpassed] at hp
        rcases List.mem_append.mp hp with hp | hp
        · have := hok.past p hp
          omega
        · cases List.mem_singleton.mp hp
          exact hin
      | failed hdead _ hstate' hreported' hconfirms' =>
        exact absurd (hconfirms'.trans hconfirms) hne
      | stays hdead hearly ms hms => exact absurd hconfirms hne
    | confirmed rc last before hstate hreported hlive | failed hstate hreported hlive =>
      rw [postTick_dead hlive] at hne ⊢
      exact ih hne

theorem starting_sound (hstarts : boot.starts = true) :
    PostSound cfg boot env ↔ Punctual cfg boot env := by
  have hphase : ∀ n, Phase cfg boot (postRun cfg boot env n) := phase_run hstarts
  have hunconf : boot.imgConfirmed = false ∧ boot.swapType ≠ .test := by
    rw [starts_eq] at hstarts
    simpa using hstarts
  constructor
  · intro h
    refine ⟨.inr hunconf.2, fun n hstate halive => ?_⟩
    have hgated := h.gated (n + 1)
    have hhonest := h.honest (n + 1)
    rw [postRun] at hgated hhonest
    cases hphase n with
    | waiting c hc hreported hlive hconfirms hrebooted horder hok =>
      have hsol : c = .solenoid := by
        rw [hstate] at hc
        revert hc
        cases c <;> decide
      subst hsol
      have hstep : WaitingTick cfg (postRun cfg boot env n) (env n) .solenoid
          (postTick cfg (postRun cfg boot env n) (env n)) := postTick_waiting hlive hc
      generalize postTick cfg (postRun cfg boot env n) (env n) = t at hstep hgated hhonest
      cases hstep with
      | passed hd => cases hd
      | failed hdead | stays hdead =>
        rw [show PostCheck.solenoid.alive _ _ _ (env n) = _ from halive] at hdead
        cases hdead
      | confirmed _ _ _ hstate' hreported' hpassed hkept hconfirms' =>
        constructor
        · have hin := (hgated (by rw [hconfirms', hconfirms]; exact List.cons_ne_nil _ _)).inTime
          have := hin _ (hpassed ▸ List.mem_append_right _ (List.mem_singleton_self _))
          rw [hkept.1, hok.start] at this
          exact this
        · have hmem := (hhonest hreported').resolve_left (by rw [hunconf.1]; decide)
          rw [hconfirms', hconfirms] at hmem
          exact (List.mem_singleton.mp hmem).symm
    | confirmed _ _ _ hother | failed hother =>
      rw [hstate] at hother
      first | cases hother | exact absurd rfl hother
  · intro h
    have hpunctual := confirms_punctual hstarts h
    refine ⟨fun n => ?_, fun n hne => ?_, fun n hreported => ?_, fun n hlive hno => ?_,
      postRun_ends hstarts⟩
    · cases hphase n with
      | waiting _ _ _ _ hconfirms | failed _ _ _ hconfirms =>
        rw [hconfirms]
        exact Nat.zero_le _
      | confirmed _ _ _ _ _ _ hconfirms =>
        rw [hconfirms]
        exact Nat.le_refl _
    · cases hphase n with
      | confirmed rc last before _ _ _ _ _ _ horder hok =>
        refine ⟨horder, hok.alive, hok.sorted, fun p hp => ?_⟩
        rw [hok.start]
        exact (hpunctual n hne).2 p hp
      | waiting _ _ _ _ hconfirms | failed _ _ _ hconfirms => exact absurd hconfirms hne
    · cases hphase n with
      | confirmed rc last before _ _ _ hconfirms =>
        have hzero := (hpunctual n (by rw [hconfirms]; exact List.cons_ne_nil _ _)).1
        exact .inr (by rw [hzero]; exact List.mem_singleton_self _)
      | waiting c _ hother =>
        rw [hreported] at hother
        cases c <;> cases hother
      | failed _ hother => exact absurd hreported hother
    · cases hphase n with
      | waiting _ _ _ hother =>
        rw [hlive] at hother
        cases hother
      | confirmed rc last before _ _ _ hconfirms =>
        have hzero := (hpunctual n (by rw [hconfirms]; exact List.cons_ne_nil _ _)).1
        exact absurd (.inr (by rw [hzero]; exact List.mem_singleton_self _)) hno
      | failed _ _ _ hconfirms hrebooted => exact ⟨hrebooted, hconfirms⟩

/-- The gate is sound exactly where it is punctual. -/
theorem postSound_iff (cfg : PostConfig) (boot : PostBoot) (env : ℕ → Tick) :
    PostSound cfg boot env ↔ Punctual cfg boot env := by
  cases hstarts : boot.starts with
  | false => exact dormant_sound hstarts
  | true => exact starting_sound hstarts

/-- The default build. -/
def defaultConfig : PostConfig where
  deadlineMs := 660000
  cellMs := 10000
  consensusMs := 600000
  ppo2TxMs := 5000
  handsetMs := 15000
  solMs := 2000
  cellCount := 3
  hasO2Solenoid := true

/-- A freshly swapped image. -/
def swappedBoot : PostBoot where
  imgConfirmed := false
  swapType := .revert
  uptimeMs := 1200
  txCount := 0
  busInitCount := 0
  busIdCount := 0
  toEntry := 0

/-- A tick that finds everything healthy. -/
def healthyTick (stall : ℕ) (confirmRc : ℤ) : Tick where
  cell := fun _ => some .ok
  consensus := some 70
  txCount := 12
  busInitCount := 1
  busIdCount := 0
  solenoid := some divecanErrSolNorm
  stall := stall
  toDeadline := 0
  toBudget := 0
  toEntry := 0
  confirmRc := confirmRc

/-- A confirmation that fails is reported as `POST_CONFIRMED`, and a stalled last tick confirms past
the deadline. -/
theorem failedConfirm_reported :
    ¬ PostSound defaultConfig swappedBoot (fun _ => healthyTick 0 (-5)) ∧
      ¬ PostSound defaultConfig swappedBoot
        (fun n => healthyTick (if n = 4 then 700000 else 0) 0) := by
  constructor
  · intro h
    have hconf := h.honest 5 rfl
    revert hconf
    unfold ImageConfirmed
    decide
  · intro h
    have hin := (h.gated 5 (by decide)).inTime
    revert hin
    decide

end DiveCANHead.Post
