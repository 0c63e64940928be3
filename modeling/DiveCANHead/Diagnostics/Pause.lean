import DiveCANHead.Lib.Pool
import DiveCANHead.Diagnostics.Polling

/-!
# The pause of polling

An update of the firmware pauses polling and then has the link to itself. The flags stand for the
tasks in progress as long as no call of `initialize` overlaps another; the promise of a pause
resolves when both are down, and nothing starts while `pollingPaused` is set.
-/

namespace DiveCANHead.Diagnostics

open Lib UdsClient

namespace DataStore

/-- Neither flag is up. -/
def Idle (s : DataStore) : Prop := s.initializing = false ∧ s.pollInFlight = false

instance (s : DataStore) : Decidable s.Idle := inferInstanceAs (Decidable (_ ∧ _))

/-- Everything but the tasks, the requests and the cell types. -/
structure SameControl (s t : DataStore) : Prop where
  pollTimer : t.pollTimer = s.pollTimer
  isPolling : t.isPolling = s.isPolling
  pollInFlight : t.pollInFlight = s.pollInFlight
  initializing : t.initializing = s.initializing
  pollingPaused : t.pollingPaused = s.pollingPaused
  idleWaiters : t.idleWaiters = s.idleWaiters
  woken : t.woken = s.woken
  resolved : t.resolved = s.resolved
  granted : t.granted = s.granted
  nextPause : t.nextPause = s.nextPause

theorem SameControl.refl (s : DataStore) : SameControl s s :=
  ⟨rfl, rfl, rfl, rfl, rfl, rfl, rfl, rfl, rfl, rfl⟩

theorem SameControl.trans {s t u : DataStore} (h : SameControl s t) (h' : SameControl t u) :
    SameControl s u :=
  ⟨h'.pollTimer.trans h.pollTimer, h'.isPolling.trans h.isPolling,
    h'.pollInFlight.trans h.pollInFlight, h'.initializing.trans h.initializing,
    h'.pollingPaused.trans h.pollingPaused, h'.idleWaiters.trans h.idleWaiters,
    h'.woken.trans h.woken, h'.resolved.trans h.resolved, h'.granted.trans h.granted,
    h'.nextPause.trans h.nextPause⟩

theorem sameControl_issue (s : DataStore) (dids : List ℕ) : SameControl s (s.issue dids) :=
  ⟨rfl, rfl, rfl, rfl, rfl, rfl, rfl, rfl, rfl, rfl⟩

end DataStore

/-- What is left to do of a fetch that has these DIDs left, counted in events. -/
def fetchWork (rest : List ℕ) : ℕ := 4 * rest.length + 1

def Await.work : Await → ℕ
  | .outstanding => 2
  | .settled _ => 1

/-- What is left to do of a task, where a poll cycle stops at its next step. -/
def Task.work : Task → ℕ
  | .quiescing => 4 * maxStateDIDs + 4
  | .types a => a.work + (4 * maxStateDIDs + 1)
  | .chunk a dids rest | .single a dids rest => a.work + 2 * dids.length + fetchWork rest
  | .fetched _ => 1
  | .bundled a _ | .extra a _ => a.work + 1
  | .polled => 1

namespace DataStore

/-- A fetch goes on from `s` to `r`, with no more than `bound` left to do. -/
structure Fetches (s : DataStore) (r : DataStore × Task) (bound : ℕ) : Prop where
  same : SameControl s r.1
  tasks : r.1.tasks = s.tasks
  isInitialize : r.2.isInitialize
  work : r.2.work ≤ bound

theorem fetchRest_spec (s : DataStore) (throws : Bool) (rest : List ℕ) :
    Fetches s (s.fetchRest throws rest) (fetchWork rest) := by
  cases rest with
  | nil => exact ⟨.refl s, rfl, rfl, le_rfl⟩
  | cons did dids =>
    simp only [fetchRest]
    split
    · exact ⟨.refl s, rfl, rfl, by simp [Task.work, fetchWork]⟩
    · refine ⟨sameControl_issue s _, rfl, rfl, ?_⟩
      simp only [Task.work, Await.work, fetchWork, List.length_take, List.length_drop,
        DIDS_PER_REQUEST, List.length_cons]
      omega

theorem fetchSingles_spec (s : DataStore) (throws : Bool) (rest dids : List ℕ) :
    Fetches s (s.fetchSingles throws rest dids) (2 * dids.length + fetchWork rest) := by
  cases dids with
  | nil =>
    obtain ⟨hsame, htasks, hinit, hwork⟩ := s.fetchRest_spec throws rest
    exact ⟨hsame, htasks, hinit, by simpa [fetchSingles] using hwork⟩
  | cons did dids =>
    refine ⟨sameControl_issue s _, rfl, rfl, ?_⟩
    simp only [fetchSingles, Task.work, Await.work, List.length_cons]
    omega

/-- A poll cycle goes on from `s` to `r`; while polling is paused it makes no request and is at its
end. -/
structure Polls (s : DataStore) (r : DataStore × Task) : Prop where
  same : SameControl s r.1
  tasks : r.1.tasks = s.tasks
  isPoll : r.2.isInitialize = false
  paused : s.pollingPaused → r = (s, .polled)

theorem polls_polled (s : DataStore) : Polls s (s, .polled) :=
  ⟨.refl s, rfl, rfl, fun _ => rfl⟩

theorem pollExtras_spec (s : DataStore) (rest : List ℕ) : Polls s (s.pollExtras rest) := by
  cases rest with
  | nil => exact polls_polled s
  | cons did rest =>
    simp only [pollExtras]
    split
    · exact polls_polled s
    · next h => exact ⟨sameControl_issue s _, rfl, rfl, fun hp => absurd hp h⟩

theorem pollRest_spec (s : DataStore) (rest : List ℕ) : Polls s (s.pollRest rest) := by
  unfold pollRest
  split
  · next h => exact ⟨sameControl_issue s _, rfl, rfl, fun hp => absurd hp h.2⟩
  · split
    · exact polls_polled s
    · exact pollExtras_spec s _

theorem pollSubscribedDIDs_spec (s : DataStore) : Polls s s.pollSubscribedDIDs := by
  unfold pollSubscribedDIDs
  split
  · exact polls_polled s
  · exact pollRest_spec s _

/-- A task goes on from `s` to `t`, where it is `task'`. A poll cycle gets nearer its end only
while polling is paused, and makes no request then. -/
structure Continues (s : DataStore) (task : Task) (t : DataStore) (task' : Task) : Prop where
  same : SameControl s t
  tasks : t.tasks = s.tasks
  kind : task'.isInitialize = task.isInitialize
  work : task.isInitialize ∨ s.pollingPaused → task'.work < task.work
  issued : task.isInitialize = false → s.pollingPaused → t.issued = s.issued

theorem Fetches.continues {s s' : DataStore} {r : DataStore × Task} {bound : ℕ} {task : Task}
    (hr : Fetches s' r bound) (hs : SameControl s s') (htasks : s'.tasks = s.tasks)
    (htask : task.isInitialize) (hbound : bound < task.work) : Continues s task r.1 r.2 where
  same := hs.trans hr.same
  tasks := hr.tasks.trans htasks
  kind := hr.isInitialize.trans htask.symm
  work _ := lt_of_le_of_lt hr.work hbound
  issued hn := by simp [htask] at hn

theorem Polls.continues {s : DataStore} {r : DataStore × Task} {task : Task} (hr : Polls s r)
    (htask : task.isInitialize = false) (hwork : 1 < task.work) : Continues s task r.1 r.2 where
  same := hr.same
  tasks := hr.tasks
  kind := hr.isPoll.trans htask.symm
  work hor := by
    rw [hr.paused (hor.resolve_left (by simp [htask]))]
    exact hwork
  issued _ hp := by rw [hr.paused hp]

/-- What a task does when it goes on: `initialize` and a poll cycle end, or the task makes its next
request or comes to its end. -/
theorem goOn_cases {s t : DataStore} {throws : Bool} {task : Task} {next : Option Task}
    (h : s.goOn throws task = some (t, next)) :
    (∃ ok, task = .fetched ok ∧ t = s.finishInitialize ok ∧ next = none) ∨
      (task = .polled ∧ t = s.finishPoll ∧ next = none) ∨
      ∃ task', next = some task' ∧ Continues s task t task' := by
  have take {r : DataStore × Task} (hr : some (r.1, some r.2) = some (t, next))
      (hc : Continues s task r.1 r.2) : ∃ task', next = some task' ∧ Continues s task t task' := by
    obtain ⟨rfl, rfl⟩ := Prod.mk.inj (Option.some.inj hr)
    exact ⟨r.2, rfl, hc⟩
  cases task with
  | quiescing =>
    refine .inr (.inr (take (r := (s.issue typeDIDs, .types .outstanding)) h ?_))
    refine ⟨sameControl_issue s _, rfl, rfl, fun _ => ?_,
      fun hn => by simp [Task.isInitialize] at hn⟩
    simp only [Task.work, Await.work]
    omega
  | types a =>
    cases a with
    | outstanding => cases h
    | settled reply =>
      have hbound := length_collectAllStateDIDs_le (reply.getD {})
      have hr := fetchRest_spec { s with cellTypes := reply.getD {} } throws
        (collectAllStateDIDs (reply.getD {}))
      refine .inr (.inr (take h (hr.continues ?_ rfl rfl ?_)))
      · exact ⟨rfl, rfl, rfl, rfl, rfl, rfl, rfl, rfl, rfl, rfl⟩
      · simp only [fetchWork, Task.work, Await.work]
        omega
  | chunk a dids rest =>
    cases a with
    | outstanding => cases h
    | settled reply =>
      cases reply with
      | some reply =>
        refine .inr (.inr (take h ((fetchRest_spec s throws rest).continues (.refl s) rfl rfl ?_)))
        simp only [Task.work, Await.work]
        omega
      | none =>
        refine .inr (.inr (take h
          ((fetchSingles_spec s throws rest dids).continues (.refl s) rfl rfl ?_)))
        simp only [Task.work, Await.work]
        omega
  | single a dids rest =>
    cases a with
    | outstanding => cases h
    | settled reply =>
      refine .inr (.inr (take h
        ((fetchSingles_spec s throws rest dids).continues (.refl s) rfl rfl ?_)))
      simp only [Task.work, Await.work]
      omega
  | fetched ok =>
    obtain ⟨rfl, rfl⟩ := Prod.mk.inj (Option.some.inj h)
    exact .inl ⟨ok, rfl, rfl, rfl⟩
  | bundled a rest =>
    cases a with
    | outstanding => cases h
    | settled reply =>
      cases reply with
      | none =>
        exact .inr (.inr (take (r := (s, .polled)) h
          ((polls_polled s).continues rfl (by simp [Task.work, Await.work]))))
      | some reply =>
        simp only [goOn] at h
        split at h
        · exact .inr (.inr (take (r := (s, .polled)) h
            ((polls_polled s).continues rfl (by simp [Task.work, Await.work]))))
        · exact .inr (.inr (take h
            ((pollRest_spec s rest).continues rfl (by simp [Task.work, Await.work]))))
  | extra a rest =>
    cases a with
    | outstanding => cases h
    | settled reply =>
      exact .inr (.inr (take h
        ((pollExtras_spec s rest).continues rfl (by simp [Task.work, Await.work]))))
  | polled =>
    obtain ⟨rfl, rfl⟩ := Prod.mk.inj (Option.some.inj h)
    exact .inr (.inl ⟨rfl, rfl, rfl⟩)

/-! ## The invariant -/

/-- What the flags and the waiters say: a pause that waits has paused polling and has something to
wait for; where one has been woken, or has the link, nothing runs. -/
structure Control (s : DataStore) : Prop where
  timer : s.pollTimer = s.isPolling
  polling : s.isPolling → s.pollingPaused = false
  waiting : s.idleWaiters ≠ [] → s.pollingPaused ∧ ¬ s.Idle
  woken : s.woken ≠ [] → s.pollingPaused ∧ s.Idle
  granted : s.granted → s.pollingPaused ∧ s.Idle
  pauses : ∀ id < s.nextPause, id ∈ s.idleWaiters ∨ id ∈ s.woken ∨ id ∈ s.resolved

theorem SameControl.idle {s t : DataStore} (h : SameControl s t) : t.Idle ↔ s.Idle := by
  rw [Idle, Idle, h.initializing, h.pollInFlight]

theorem SameControl.control {s t : DataStore} (h : SameControl s t) (hs : Control s) :
    Control t where
  timer := by rw [h.pollTimer, h.isPolling, hs.timer]
  polling := by
    rw [h.isPolling, h.pollingPaused]
    exact hs.polling
  waiting := by
    rw [h.idleWaiters, h.pollingPaused, h.idle]
    exact hs.waiting
  woken := by
    rw [h.woken, h.pollingPaused, h.idle]
    exact hs.woken
  granted := by
    rw [h.granted, h.pollingPaused, h.idle]
    exact hs.granted
  pauses := by
    rw [h.nextPause, h.idleWaiters, h.woken, h.resolved]
    exact hs.pauses

theorem Control.woken_eq_nil {s : DataStore} (h : Control s) (hi : ¬ s.Idle) : s.woken = [] :=
  Decidable.byContradiction fun hw => hi (h.woken hw).2

theorem Control.granted_eq_false {s : DataStore} (h : Control s) (hi : ¬ s.Idle) :
    s.granted = false :=
  Bool.eq_false_iff.mpr fun hg => hi (h.granted hg).2

/-- A flag goes down: the waiters are woken if the other is down too. -/
theorem control_resolveIdleWaiters {s : DataStore} (htimer : s.pollTimer = s.isPolling)
    (hpolling : s.isPolling → s.pollingPaused = false)
    (hwaiting : s.idleWaiters ≠ [] → s.pollingPaused) (hwoken : s.woken = [])
    (hgranted : s.granted = false)
    (hpauses : ∀ id < s.nextPause, id ∈ s.idleWaiters ∨ id ∈ s.woken ∨ id ∈ s.resolved) :
    Control s.resolveIdleWaiters := by
  unfold resolveIdleWaiters
  split
  · next hbusy =>
    have hidle : ¬ s.Idle := by
      rintro ⟨h1, h2⟩
      simp [h1, h2] at hbusy
    exact ⟨htimer, hpolling, fun hw => ⟨hwaiting hw, hidle⟩, fun h => absurd hwoken h,
      fun h => by simp [hgranted] at h, hpauses⟩
  · next hbusy =>
    have hidle : s.Idle := by simpa [Idle, not_or] using hbusy
    refine ⟨htimer, hpolling, fun h => absurd rfl h, fun hw => ?_, fun h => by simp [hgranted] at h,
      fun id hid => ?_⟩
    · rw [hwoken, List.nil_append] at hw
      exact ⟨hwaiting hw, hidle⟩
    · rw [hwoken, List.nil_append]
      have hid := hpauses id hid
      rw [hwoken] at hid
      rcases hid with h | h | h
      · exact .inr (.inl h)
      · cases h
      · exact .inr (.inr h)

theorem control_finishInitialize {s : DataStore} {ok : Bool} (h : Control s)
    (hi : s.initializing) : Control (s.finishInitialize ok) := by
  have hidle : ¬ s.Idle := fun hidle => by simp [hidle.1] at hi
  have hwoken := h.woken_eq_nil hidle
  have hgranted := h.granted_eq_false hidle
  unfold finishInitialize
  split
  · next hstart =>
    have hnone : s.idleWaiters = [] :=
      Decidable.byContradiction fun hw => hstart.2 (h.waiting hw).1
    unfold startPolling
    split
    · exact control_resolveIdleWaiters h.timer h.polling (fun hw => absurd hnone hw) hwoken hgranted
        h.pauses
    · exact control_resolveIdleWaiters rfl (fun _ => rfl) (fun hw => absurd hnone hw) hwoken
        hgranted h.pauses
  · exact control_resolveIdleWaiters h.timer h.polling (fun hw => (h.waiting hw).1) hwoken hgranted
      h.pauses

theorem control_finishPoll {s : DataStore} (h : Control s) (hp : s.pollInFlight) :
    Control s.finishPoll := by
  have hidle : ¬ s.Idle := fun hidle => by simp [hidle.2] at hp
  exact control_resolveIdleWaiters h.timer h.polling (fun hw => (h.waiting hw).1)
    (h.woken_eq_nil hidle) (h.granted_eq_false hidle) h.pauses

theorem control_pausePolling {s : DataStore} (h : Control s) : Control s.pausePolling := by
  have hcases : ∀ id < s.nextPause + 1, id < s.nextPause ∨ id = s.nextPause := by omega
  unfold pausePolling waitForIdle
  split
  · next hidle =>
    have hidle : s.Idle := by simpa [Idle, stopPolling] using hidle
    refine ⟨rfl, fun hp => absurd hp Bool.false_ne_true, fun hw => absurd hidle (h.waiting hw).2,
      fun _ => ⟨rfl, hidle⟩, fun _ => ⟨rfl, hidle⟩, fun id hid => ?_⟩
    rcases hcases id hid with hid | rfl
    · exact (h.pauses id hid).imp_right (.imp_left (List.mem_append_left _))
    · exact .inr (.inl (List.mem_append_right _ List.mem_cons_self))
  · next hbusy =>
    have hbusy : ¬ s.Idle := by
      rintro ⟨h1, h2⟩
      simp [stopPolling, h1, h2] at hbusy
    refine ⟨rfl, fun hp => absurd hp Bool.false_ne_true, fun _ => ⟨rfl, hbusy⟩,
      fun hw => absurd (h.woken hw).2 hbusy, fun hg => absurd (h.granted hg).2 hbusy,
      fun id hid => ?_⟩
    rcases hcases id hid with hid | rfl
    · exact (h.pauses id hid).imp_left (List.mem_append_left _)
    · exact .inl (List.mem_append_right _ List.mem_cons_self)

/-- The flags are up for the tasks in progress. -/
structure Inv (s : DataStore) : Prop where
  control : Control s
  inits : s.tasks.countP Task.isInitialize = s.initializing.toNat
  polls : s.tasks.countP (fun t => !t.isInitialize) = s.pollInFlight.toNat

theorem Control.setTasks {s : DataStore} (h : Control s) (tasks : List Task) :
    Control { s with tasks } :=
  ⟨h.timer, h.polling, h.waiting, h.woken, h.granted, h.pauses⟩

theorem Inv.tasks_eq_nil {s : DataStore} (h : Inv s) (hidle : s.Idle) : s.tasks = [] := by
  have hinits := h.inits
  have hpolls := h.polls
  rw [hidle.1] at hinits
  rw [hidle.2] at hpolls
  have hlen := List.length_eq_countP_add_countP Task.isInitialize (l := s.tasks)
  refine List.length_eq_zero_iff.mp ?_
  simp only [Bool.toNat_false] at hinits hpolls
  simpa [hinits, hpolls] using hlen

theorem Inv.idle {s : DataStore} (h : Inv s) (htasks : s.tasks = []) : s.Idle := by
  have hinits := h.inits
  have hpolls := h.polls
  rw [htasks] at hinits hpolls
  cases hi : s.initializing <;> cases hp : s.pollInFlight <;> simp_all [Idle]

/-- A task that is there has its flag up. -/
theorem Inv.initializing {s : DataStore} {i : ℕ} {task : Task} (h : Inv s)
    (hi : s.tasks[i]? = some task) (htask : task.isInitialize) : s.initializing := by
  have hcount := countP_eraseIdx_add (p := Task.isInitialize) hi
  rw [h.inits, htask] at hcount
  cases hs : s.initializing
  · simp [hs] at hcount
  · rfl

theorem Inv.pollInFlight {s : DataStore} {i : ℕ} {task : Task} (h : Inv s)
    (hi : s.tasks[i]? = some task) (htask : task.isInitialize = false) : s.pollInFlight := by
  have hcount := countP_eraseIdx_add (p := fun t : Task => !t.isInitialize) hi
  rw [h.polls, htask] at hcount
  cases hs : s.pollInFlight
  · simp [hs] at hcount
  · rfl

theorem resolveIdleWaiters_tasks (s : DataStore) :
    s.resolveIdleWaiters.tasks = s.tasks ∧ s.resolveIdleWaiters.initializing = s.initializing ∧
      s.resolveIdleWaiters.pollInFlight = s.pollInFlight ∧
      s.resolveIdleWaiters.issued = s.issued := by
  unfold resolveIdleWaiters
  split <;> exact ⟨rfl, rfl, rfl, rfl⟩

theorem finishInitialize_tasks (s : DataStore) (ok : Bool) :
    (s.finishInitialize ok).tasks = s.tasks ∧ (s.finishInitialize ok).initializing = false ∧
      (s.finishInitialize ok).pollInFlight = s.pollInFlight ∧
      (s.finishInitialize ok).issued = s.issued := by
  have hkeep : ∀ s' : DataStore, s'.tasks = s.tasks → s'.pollInFlight = s.pollInFlight →
      s'.issued = s.issued →
      ({ s' with initializing := false }.resolveIdleWaiters).tasks = s.tasks ∧
        ({ s' with initializing := false }.resolveIdleWaiters).initializing = false ∧
        ({ s' with initializing := false }.resolveIdleWaiters).pollInFlight = s.pollInFlight ∧
        ({ s' with initializing := false }.resolveIdleWaiters).issued = s.issued := by
    intro s' htasks hpoll hissued
    obtain ⟨h1, h2, h3, h4⟩ := resolveIdleWaiters_tasks { s' with initializing := false }
    exact ⟨h1.trans htasks, h2, h3.trans hpoll, h4.trans hissued⟩
  unfold finishInitialize startPolling
  split
  · split <;> exact hkeep _ rfl rfl rfl
  · exact hkeep s rfl rfl rfl

theorem finishPoll_tasks (s : DataStore) :
    s.finishPoll.tasks = s.tasks ∧ s.finishPoll.initializing = s.initializing ∧
      s.finishPoll.pollInFlight = false ∧ s.finishPoll.issued = s.issued :=
  resolveIdleWaiters_tasks { s with pollInFlight := false }

theorem settle_spec {task task' : Task} {reply : Option CellTypes}
    (h : task.settle reply = some task') :
    task'.isInitialize = task.isInitialize ∧ task'.work < task.work := by
  unfold Task.settle at h
  split at h <;> cases h <;> exact ⟨rfl, by simp [Task.work, Await.work]⟩

/-! ## Runs -/

/-- `initialize` does not overlap itself, and between `pausePolling` and its resolution nobody
starts polling, nor `initialize` between the end of the wait and the resolution. -/
def Clean (s : DataStore) : Event → Prop
  | .callInitialize => (∀ task ∈ s.tasks, ¬ task.isInitialize) ∧ s.woken = []
  | .startPolling | .resumePolling => s.idleWaiters = [] ∧ s.woken = []
  | _ => True

theorem control_startPolling {s : DataStore} (h : Control s) (hw : s.idleWaiters = [])
    (hwoken : s.woken = []) : Control { s.startPolling with granted := false } := by
  unfold startPolling
  split
  · exact ⟨h.timer, h.polling, h.waiting, h.woken, fun hg => absurd hg Bool.false_ne_true,
      h.pauses⟩
  · exact ⟨rfl, fun _ => rfl, fun hne => absurd hw hne, fun hne => absurd hwoken hne,
      fun hg => absurd hg Bool.false_ne_true, h.pauses⟩

/-- A tick finds polling on, so that nobody waits for it to stop or has stopped it. -/
theorem inv_tick {s : DataStore} (h : Inv s) (htimer : s.pollTimer) : Inv s.tick := by
  have hpolling : s.isPolling := h.control.timer ▸ htimer
  have hpaused : s.pollingPaused = false := h.control.polling hpolling
  unfold tick
  rw [if_neg (by simp [hpolling])]
  split
  · exact h
  · next hflight =>
    have hstart : Control { s with pollInFlight := true } :=
      ⟨h.control.timer, h.control.polling,
        fun hw => absurd (h.control.waiting hw).1 (by simp [hpaused]),
        fun hw => absurd (h.control.woken hw).1 (by simp [hpaused]),
        fun hg => absurd (h.control.granted hg).1 (by simp [hpaused]), h.control.pauses⟩
    obtain ⟨hsame, htasks, hkind, -⟩ := pollSubscribedDIDs_spec { s with pollInFlight := true }
    generalize { s with pollInFlight := true }.pollSubscribedDIDs = r at *
    obtain ⟨t, task⟩ := r
    have htasks : t.tasks = s.tasks := htasks
    have hkind : task.isInitialize = false := hkind
    have hini : t.initializing = s.initializing := hsame.initializing
    have hpoll : t.pollInFlight = true := hsame.pollInFlight
    have hpolls := h.polls
    rw [Bool.eq_false_iff.mpr hflight] at hpolls
    refine ⟨(hsame.control hstart).setTasks _, ?_, ?_⟩
    · simpa [htasks, hini, hkind] using h.inits
    · simpa [htasks, hpoll, hkind] using hpolls

theorem inv_goOn {s t : DataStore} {i : ℕ} {throws : Bool} {task : Task} {next : Option Task}
    (h : Inv s) (hi : s.tasks[i]? = some task) (hgo : s.goOn throws task = some (t, next)) :
    Inv (t.setTask i next) := by
  have hcountI := countP_eraseIdx_add (p := Task.isInitialize) hi
  have hcountP := countP_eraseIdx_add (p := fun t : Task => !t.isInitialize) hi
  rw [h.inits] at hcountI
  rw [h.polls] at hcountP
  obtain ⟨ok, rfl, rfl, rfl⟩ | ⟨rfl, rfl, rfl⟩ | ⟨task', rfl, hc⟩ := goOn_cases hgo
  · have hinit := h.initializing hi rfl
    obtain ⟨htasks, hini, hpoll, -⟩ := s.finishInitialize_tasks ok
    refine ⟨(control_finishInitialize h.control hinit).setTasks _, ?_, ?_⟩
    · simp only [setTask, htasks, hini]
      simpa [hinit, Task.isInitialize] using hcountI
    · simp only [setTask, htasks, hpoll]
      simpa [Task.isInitialize] using hcountP
  · have hflight := h.pollInFlight hi rfl
    obtain ⟨htasks, hini, hpoll, -⟩ := s.finishPoll_tasks
    refine ⟨(control_finishPoll h.control hflight).setTasks _, ?_, ?_⟩
    · simp only [setTask, htasks, hini]
      simpa [Task.isInitialize] using hcountI
    · simp only [setTask, htasks, hpoll]
      simpa [hflight, Task.isInitialize] using hcountP
  · refine ⟨(hc.same.control h.control).setTasks _, ?_, ?_⟩
    · simp only [setTask, hc.tasks, hc.same.initializing]
      exact (countP_set_same hi hc.kind).trans h.inits
    · simp only [setTask, hc.tasks, hc.same.pollInFlight]
      exact (countP_set_same hi (by simp [hc.kind])).trans h.polls

theorem inv_step {s t : DataStore} {e : Event} (h : Inv s) (hclean : Clean s e)
    (hs : step s e = some t) : Inv t := by
  have hctl := h.control
  cases e with
  | callInitialize =>
    obtain rfl := Option.some.inj hs
    obtain ⟨hnone, hwoken⟩ := hclean
    refine ⟨⟨hctl.timer, hctl.polling, fun hw => ⟨(hctl.waiting hw).1, by simp [Idle]⟩,
      fun hw => absurd hwoken hw, fun hg => absurd hg Bool.false_ne_true, hctl.pauses⟩, ?_, ?_⟩
    · have hzero : s.tasks.countP Task.isInitialize = 0 :=
        List.countP_eq_zero.mpr hnone
      simp [hzero, Task.isInitialize]
    · simpa [Task.isInitialize] using h.polls
  | startPolling | resumePolling =>
    obtain rfl := Option.some.inj hs
    refine ⟨control_startPolling hctl hclean.1 hclean.2, ?_, ?_⟩
    · unfold startPolling
      split <;> exact h.inits
    · unfold startPolling
      split <;> exact h.polls
  | stopPolling =>
    obtain rfl := Option.some.inj hs
    exact ⟨⟨rfl, fun hp => absurd hp Bool.false_ne_true, hctl.waiting, hctl.woken, hctl.granted,
      hctl.pauses⟩, h.inits, h.polls⟩
  | pausePolling =>
    obtain rfl := Option.some.inj hs
    refine ⟨control_pausePolling hctl, ?_, ?_⟩
    · unfold pausePolling waitForIdle
      split <;> exact h.inits
    · unfold pausePolling waitForIdle
      split <;> exact h.polls
  | subscribe subscriptions =>
    obtain rfl := Option.some.inj hs
    exact ⟨⟨hctl.timer, hctl.polling, hctl.waiting, hctl.woken, hctl.granted, hctl.pauses⟩,
      h.inits, h.polls⟩
  | tick =>
    obtain ⟨htimer, ht⟩ := Option.ite_none_right_eq_some.mp hs
    obtain rfl := Option.some.inj ht
    exact inv_tick h htimer
  | settle i reply =>
    obtain ⟨task', htask', rfl⟩ := Option.map_eq_some_iff.mp hs
    obtain ⟨task, hi, hsettle⟩ := Option.bind_eq_some_iff.mp htask'
    have hkind := (settle_spec hsettle).1
    exact ⟨hctl.setTasks _, (countP_set_same hi hkind).trans h.inits,
      (countP_set_same hi (by simp [hkind])).trans h.polls⟩
  | goOn i throws =>
    obtain ⟨⟨u, next⟩, hgo, rfl⟩ := Option.map_eq_some_iff.mp hs
    obtain ⟨task, hi, hgo⟩ := Option.bind_eq_some_iff.mp hgo
    exact inv_goOn h hi hgo
  | resolve id =>
    obtain ⟨hmem, ht⟩ := Option.ite_none_right_eq_some.mp hs
    obtain rfl := Option.some.inj ht
    have hpi := hctl.woken (List.ne_nil_of_mem hmem)
    refine ⟨⟨hctl.timer, hctl.polling, hctl.waiting, fun _ => hpi, fun _ => hpi, ?_⟩, h.inits,
      h.polls⟩
    intro p hp
    rcases hctl.pauses p hp with hw | hw | hw
    · exact .inl hw
    · by_cases heq : p = id
      · exact .inr (.inr (List.mem_append_right _ (by simp [heq])))
      · exact .inr (.inl ((List.mem_erase_of_ne heq).mpr hw))
    · exact .inr (.inr (List.mem_append_left _ hw))

/-- While polling is paused and nothing is fetched, no request is made, and unless `initialize` is
called nothing is fetched after it. -/
theorem issued_step {s t : DataStore} {e : Event} (h : Inv s) (hp : s.pollingPaused)
    (hinit : s.initializing = false) (hs : step s e = some t) :
    t.issued = s.issued ∧ (e.starts = false → t.initializing = false) := by
  cases e with
  | callInitialize | startPolling | resumePolling =>
    obtain rfl := Option.some.inj hs
    refine ⟨?_, fun he => by cases he⟩
    first | rfl | (unfold startPolling; split <;> rfl)
  | stopPolling | subscribe =>
    obtain rfl := Option.some.inj hs
    exact ⟨rfl, fun _ => hinit⟩
  | pausePolling =>
    obtain rfl := Option.some.inj hs
    unfold pausePolling waitForIdle
    split <;> exact ⟨rfl, fun _ => hinit⟩
  | tick =>
    obtain ⟨htimer, -⟩ := Option.ite_none_right_eq_some.mp hs
    have hpaused := h.control.polling (h.control.timer ▸ htimer)
    simp [hpaused] at hp
  | settle i reply =>
    obtain ⟨task, -, rfl⟩ := Option.map_eq_some_iff.mp hs
    exact ⟨rfl, fun _ => hinit⟩
  | goOn i throws =>
    obtain ⟨⟨u, next⟩, hgo, rfl⟩ := Option.map_eq_some_iff.mp hs
    obtain ⟨task, hi, hgo⟩ := Option.bind_eq_some_iff.mp hgo
    have hset : (u.setTask i next).issued = u.issued ∧
        (u.setTask i next).initializing = u.initializing := by
      cases next <;> exact ⟨rfl, rfl⟩
    rw [hset.1, hset.2]
    obtain ⟨ok, rfl, rfl, -⟩ | ⟨rfl, rfl, -⟩ | ⟨task', -, hc⟩ := goOn_cases hgo
    · obtain ⟨-, hini, -, hissued⟩ := s.finishInitialize_tasks ok
      exact ⟨hissued, fun _ => hini⟩
    · obtain ⟨-, hini, -, hissued⟩ := s.finishPoll_tasks
      exact ⟨hissued, fun _ => hini.trans hinit⟩
    · refine ⟨hc.issued (Bool.eq_false_iff.mpr fun htask => ?_) hp,
        fun _ => hc.same.initializing.trans hinit⟩
      simp [h.initializing hi htask] at hinit
  | resolve id =>
    obtain ⟨-, ht⟩ := Option.ite_none_right_eq_some.mp hs
    obtain rfl := Option.some.inj ht
    exact ⟨rfl, fun _ => hinit⟩

/-- What is left to do, where nothing starts. -/
def work (s : DataStore) : ℕ := (s.tasks.map Task.work).sum

theorem paused_resolveIdleWaiters (s : DataStore) :
    s.resolveIdleWaiters.pollingPaused = s.pollingPaused := by
  unfold resolveIdleWaiters
  split <;> rfl

theorem paused_finishInitialize {s : DataStore} (ok : Bool) (hp : s.pollingPaused) :
    (s.finishInitialize ok).pollingPaused := by
  unfold finishInitialize
  rw [if_neg fun h => h.2 hp]
  exact (paused_resolveIdleWaiters _).trans hp

/-- Polling stays paused while nothing starts, and whatever goes on has less to do. -/
theorem work_step {s t : DataStore} {e : Event} (h : Inv s) (hp : s.pollingPaused)
    (he : e.starts = false) (hs : step s e = some t) :
    t.pollingPaused ∧ t.work + e.goesOn.toNat ≤ s.work := by
  cases e with
  | callInitialize | startPolling | resumePolling => cases he
  | stopPolling | subscribe =>
    obtain rfl := Option.some.inj hs
    exact ⟨hp, le_rfl⟩
  | pausePolling =>
    obtain rfl := Option.some.inj hs
    unfold pausePolling waitForIdle
    split <;> exact ⟨rfl, le_rfl⟩
  | tick =>
    obtain ⟨htimer, -⟩ := Option.ite_none_right_eq_some.mp hs
    have hpaused := h.control.polling (h.control.timer ▸ htimer)
    simp [hpaused] at hp
  | settle i reply =>
    obtain ⟨task', htask', rfl⟩ := Option.map_eq_some_iff.mp hs
    obtain ⟨task, hi, hsettle⟩ := Option.bind_eq_some_iff.mp htask'
    have hless := (settle_spec hsettle).2
    have hsum := sum_map_set_add (f := Task.work) (b := task') hi
    refine ⟨hp, ?_⟩
    simp only [work, setTask, Event.goesOn, Bool.toNat_true]
    omega
  | goOn i throws =>
    obtain ⟨⟨u, next⟩, hgo, rfl⟩ := Option.map_eq_some_iff.mp hs
    obtain ⟨task, hi, hgo⟩ := Option.bind_eq_some_iff.mp hgo
    have herase := sum_map_eraseIdx_add (f := Task.work) hi
    obtain ⟨ok, rfl, rfl, rfl⟩ | ⟨rfl, rfl, rfl⟩ | ⟨task', rfl, hc⟩ := goOn_cases hgo
    · refine ⟨paused_finishInitialize ok hp, ?_⟩
      simp only [work, setTask, (s.finishInitialize_tasks ok).1, Event.goesOn, Bool.toNat_true]
      exact herase.le
    · refine ⟨(paused_resolveIdleWaiters _).trans hp, ?_⟩
      simp only [work, setTask, s.finishPoll_tasks.1, Event.goesOn, Bool.toNat_true]
      exact herase.le
    · have hless := hc.work (.inr hp)
      have hsum := sum_map_set_add (f := Task.work) (b := task') hi
      refine ⟨hc.same.pollingPaused.trans hp, ?_⟩
      simp only [work, setTask, hc.tasks, Event.goesOn, Bool.toNat_true]
      omega
  | resolve id =>
    obtain ⟨-, ht⟩ := Option.ite_none_right_eq_some.mp hs
    obtain rfl := Option.some.inj ht
    exact ⟨hp, le_rfl⟩

theorem clean_of_starts {s : DataStore} {e : Event} (he : e.starts = false) : Clean s e := by
  cases e with
  | callInitialize | startPolling | resumePolling => cases he
  | _ => trivial

/-- As long as nothing starts, what goes on comes to its end, and a poll cycle makes no request. -/
theorem exec_work {s u : DataStore} {more : List Event} (h : Inv s) (hp : s.pollingPaused)
    (hmore : ∀ e ∈ more, e.starts = false) (hu : exec step s more = some u) :
    Inv u ∧ more.countP Event.goesOn + u.work ≤ s.work ∧
      (s.initializing = false → u.issued = s.issued) := by
  induction more generalizing s with
  | nil =>
    obtain rfl := Option.some.inj hu
    exact ⟨h, by simp, fun _ => rfl⟩
  | cons e more ih =>
    obtain ⟨t, ht, hu⟩ := Option.bind_eq_some_iff.mp hu
    have he := hmore e List.mem_cons_self
    obtain ⟨hp', hwork⟩ := work_step h hp he ht
    obtain ⟨hinv, hless, hquiet⟩ := ih (inv_step h (clean_of_starts he) ht) hp'
      (fun e' he' => hmore e' (List.mem_cons_of_mem e he')) hu
    refine ⟨hinv, ?_, fun hinit => ?_⟩
    · rw [List.countP_cons]
      cases hgo : e.goesOn <;> simp only [hgo, Bool.toNat_true, Bool.toNat_false] at hwork ⊢ <;>
        simp only [Bool.false_eq_true, if_false, if_true] <;> omega
    · obtain ⟨hissued, hfetch⟩ := issued_step h hp hinit ht
      exact (hquiet (hfetch he)).trans hissued

/-- A task in progress can go on. -/
theorem exists_goesOn (s : DataStore) {i : ℕ} (hi : i < s.tasks.length) :
    ∃ e ∈ [Event.settle i none, .goOn i false], (step s e).isSome := by
  have htask : s.tasks[i]? = some s.tasks[i] := List.getElem?_eq_getElem hi
  have hgo : (s.tasks[i].settle none).isSome ∨ (s.goOn false s.tasks[i]).isSome := by
    match s.tasks[i] with
    | .quiescing | .fetched _ | .polled => exact .inr rfl
    | .types .outstanding | .chunk .outstanding _ _ | .single .outstanding _ _
    | .bundled .outstanding _ | .extra .outstanding _ => exact .inl rfl
    | .types (.settled _) | .chunk (.settled none) _ _ | .chunk (.settled (some _)) _ _
    | .single (.settled _) _ _ | .bundled (.settled none) _ | .bundled (.settled (some _)) _
    | .extra (.settled _) _ => exact .inr rfl
  rcases hgo with hgo | hgo
  · exact ⟨_, List.mem_cons_self, by simpa [step, htask] using hgo⟩
  · exact ⟨_, List.mem_cons_of_mem _ List.mem_cons_self, by simpa [step, htask] using hgo⟩

/-- With a pause granted no request is made, and none is outstanding. -/
structure Exclusive (s : DataStore) (_ : Event) (t : DataStore) : Prop where
  issued : s.granted → t.issued = s.issued
  outstanding : t.granted → ∀ task ∈ t.tasks, ¬ task.Outstanding

/-- A pause that has not been resolved will be: what is in progress can go on, and only for so many
events where nothing is started; then every pause has been woken. A poll cycle alone makes no
further request. -/
structure Resolves (s : DataStore) : Prop where
  goesOn : ∀ i < s.tasks.length, ∃ e ∈ [Event.settle i none, .goOn i false], (step s e).isSome
  ends : ∀ more u, (∀ e ∈ more, e.starts = false) → exec step s more = some u →
    more.countP Event.goesOn ≤ s.work ∧
      (u.tasks = [] → ∀ id < u.nextPause, id ∈ u.woken ∨ id ∈ u.resolved)
  quiet : s.initializing = false → ∀ more u, (∀ e ∈ more, e.starts = false) →
    exec step s more = some u → u.issued = s.issued
  resolve : ∀ id ∈ s.woken, ∃ t, step s (.resolve id) = some t ∧ id ∈ t.resolved

theorem inv_init : Inv {} :=
  ⟨⟨rfl, fun h => absurd h Bool.false_ne_true, fun h => absurd rfl h, fun h => absurd rfl h,
    fun h => absurd h Bool.false_ne_true, fun _ h => absurd h (Nat.not_lt_zero _)⟩, rfl, rfl⟩

theorem Inv.exclusive {s t : DataStore} {e : Event} (h : Inv s) (ht : Inv t)
    (hs : step s e = some t) : Exclusive s e t where
  issued hg := by
    obtain ⟨hp, hidle⟩ := h.control.granted hg
    exact (issued_step h hp hidle.1 hs).1
  outstanding hg := by
    have hnil := ht.tasks_eq_nil (ht.control.granted hg).2
    intro task htask
    simp [hnil] at htask

theorem Inv.resolves {s : DataStore} (h : Inv s) (hp : s.pollingPaused) : Resolves s where
  goesOn _ hi := exists_goesOn s hi
  ends more u hmore hu := by
    obtain ⟨hinv, hless, -⟩ := exec_work h hp hmore hu
    refine ⟨by omega, fun htasks id hid => ?_⟩
    have hnone : u.idleWaiters = [] :=
      Decidable.byContradiction fun hw => (hinv.control.waiting hw).2 (hinv.idle htasks)
    exact (hinv.control.pauses id hid).resolve_left (by simp [hnone])
  quiet hinit more u hmore hu := (exec_work h hp hmore hu).2.2 hinit
  resolve _ hid := ⟨_, if_pos hid, List.mem_append_right _ List.mem_cons_self⟩

/-- In every run in which `initialize` does not overlap itself and nobody starts polling before a
pause is resolved, a pause that is granted is exclusive and one that is not comes to be. -/
theorem pause_exclusive_resolves {es : List Event}
    (h : Steps step (fun s e _ => Clean s e) {} es) :
    Steps step Exclusive {} es ∧
      ∀ s, exec step {} es = some s → (∃ id < s.nextPause, id ∉ s.resolved) → Resolves s := by
  have hstep : ∀ {s : DataStore} {e t}, Inv s → Clean s e → step s e = some t →
      Inv t ∧ Exclusive s e t := by
    intro s e t hi hc hs
    have ht := inv_step hi hc hs
    exact ⟨ht, hi.exclusive ht hs⟩
  have hinv : ∀ {s : DataStore} {e t}, Inv s → Clean s e → step s e = some t → Inv t :=
    fun hi hc hs => (hstep hi hc hs).1
  refine ⟨Steps.of_inv hstep inv_init h, fun s hs hopen => ?_⟩
  have hi : Inv s := Steps.inv_exec hinv inv_init h hs
  obtain ⟨id, hid, hunresolved⟩ := hopen
  rcases hi.control.pauses id hid with hw | hw | hw
  · exact hi.resolves (hi.control.waiting (List.ne_nil_of_mem hw)).1
  · exact hi.resolves (hi.control.woken (List.ne_nil_of_mem hw)).1
  · exact absurd hw hunresolved

/-- A poll cycle is paused with its request outstanding, and the pause granted after it. -/
theorem pause_exclusive_resolves_poll :
    let es : List Event := [.subscribe [.state 0xF200 none], .startPolling, .tick, .pausePolling]
    Steps step Exclusive {}
        (es ++ [.settle 0 (some {}), .goOn 0 false, .goOn 0 false, .resolve 0]) ∧
      ∃ s, exec step {} es = some s ∧ s.idleWaiters = [0] ∧ Resolves s := by
  have hes : Steps step (fun s e _ => Clean s e) {}
      [.subscribe [.state 0xF200 none], .startPolling, .tick, .pausePolling] :=
    ⟨trivial, ⟨rfl, rfl⟩, trivial, trivial, trivial⟩
  have hall : Steps step (fun s e _ => Clean s e) {}
      [.subscribe [.state 0xF200 none], .startPolling, .tick, .pausePolling,
        .settle 0 (some {}), .goOn 0 false, .goOn 0 false, .resolve 0] :=
    ⟨trivial, ⟨rfl, rfl⟩, trivial, trivial, trivial, trivial, trivial, trivial, trivial⟩
  refine ⟨(pause_exclusive_resolves hall).1, _, rfl, rfl, ?_⟩
  exact (pause_exclusive_resolves hes).2 _ rfl ⟨0, by decide, by decide⟩

/-- A pause during the initial fetch waits for all of it: with no request outstanding at the call,
nor after it, it still waits. -/
theorem pause_waits_for_fetch :
    ¬ ∀ (es more : List Event) (s t u : DataStore), exec step {} es = some s →
      (∀ task ∈ s.tasks, ¬ task.Outstanding) → step s .pausePolling = some t →
      exec step t more = some u → (∀ task ∈ u.tasks, ¬ task.Outstanding) →
      s.nextPause ∉ u.idleWaiters := by
  intro h
  have hwaits := h [.callInitialize] [.goOn 0 false, .settle 0 none] _ _ _ rfl (by decide) rfl rfl
    (by decide)
  exact hwaits (by decide)

end DataStore

end DiveCANHead.Diagnostics
