import DiveCANHead.Maintenance.WriterPause

/-!
# The writer is paused exactly while somebody needs it quiet

The download, the log transfer, the flash commands and the copy of a restore hold the arena, so no
two of them overlap (`Owned`). A failed mount, a settings save and a restore around its claim pause
without it. `unshared` says that none of these overlaps what ends; exactly then every step leaves
the flag as it should be.
-/

namespace DiveCANHead.Maintenance

open DiveCANHead.Lib DiveCANHead.Uds

/-- The conditions on a step that ends a pause: no operation that pauses without the arena is on
besides, and where it is such an operation that ends, nothing else is on. -/
def unshared (s : PauseSystem) : PauseEvent → Bool
  | .bootIdSaved =>
    s.mount = .saving true || !(s.uds.active || s.transferring || s.worker.active)
  | .udsStart .transferExit | .udsStart .stopStream => !(s.mount.active || s.worker.loose)
  | .udsStart .resetOta => !downloads s.ota || !(s.mount.active || s.worker.loose)
  | .udsNext _ =>
    match s.uds with
    | .otaErasing | .activating | .flashBusy false => !(s.mount.active || s.worker.loose)
    | .saving false => !(s.mount.active || s.transferring || s.worker.active)
    | _ => true
  | .workerNext _ => s.worker ≠ .leaving || !(s.mount.active || s.uds.active || s.transferring)
  | _ => true

/-! ## The arena -/

@[grind =]
def UdsPhase.holds : UdsPhase → Option MaintArenaOwner
  | .otaClaimed | .otaErasing | .otaErased _ | .activating => some .ota
  | .streamClaimed | .streamLeaving => some .logStream
  | .flashClaimed _ | .flashBusy _ | .flashDone => some .flash
  | .idle | .otaLeaving | .saving _ | .rebooting => none

@[grind =]
def WorkerPhase.holds : WorkerPhase → Option MaintArenaOwner
  | .copying | .capturing => some .factory
  | .idle | .entered | .leaving | .rebooting => none

@[grind →]
theorem WorkerPhase.eq_factory {w : WorkerPhase} {o : MaintArenaOwner} (h : w.holds = some o) :
    o = .factory := by
  cases w <;> cases h <;> rfl

@[grind →]
theorem UdsPhase.ne_factory {u : UdsPhase} {o : MaintArenaOwner} (h : u.holds = some o) :
    o ≠ .factory ∧ o ≠ .logIndex ∧ o ≠ .autotune := by
  cases u <;> cases h <;> decide

/-- Whether the phase belongs to a download that has not begun, or is over. -/
@[grind =]
def UdsPhase.aroundOta : UdsPhase → Bool
  | .otaClaimed | .otaErasing | .otaErased _ | .otaLeaving => true
  | _ => false

/-- Whether something is going on that claimed the arena for `o`. -/
@[grind =]
def PauseSystem.Holds (s : PauseSystem) (o : MaintArenaOwner) : Prop :=
  s.uds.holds = some o ∨ (s.ota ≠ .idle ∧ o = .ota) ∨ (s.streaming = true ∧ o = .logStream) ∨
    s.worker.holds = some o

/-- Where the UDS thread may be, from the states of the download and the log transfer. -/
structure Placed (s : PauseSystem) : Prop where
  around : s.uds.aroundOta = true → s.ota = .idle
  activating : s.uds = .activating → s.ota = .awaitingActivate
  stream : s.uds.holds = some .logStream → s.streaming = false

/-- Whoever works under a claim owns the arena. -/
def Owned (s : PauseSystem) : Prop := ∀ o, s.Holds o → s.arena.owner = some o

variable {s t : PauseSystem}

theorem PauseSystem.Holds.ne {o : MaintArenaOwner} (ho : s.Holds o) :
    o ≠ .logIndex ∧ o ≠ .autotune := by
  rcases ho with h | ⟨-, rfl⟩ | ⟨-, rfl⟩ | h
  · exact (UdsPhase.ne_factory h).2
  · decide
  · decide
  · rw [WorkerPhase.eq_factory h]
    decide

theorem Owned.exclusive {o d : MaintArenaOwner} (hi : Owned s) (ho : s.Holds o) (hd : s.Holds d) :
    o = d :=
  Option.some.inj ((hi o ho).symm.trans (hi d hd))

theorem Owned.mono (hi : Owned s) (harena : t.arena = s.arena) (h : ∀ o, t.Holds o → s.Holds o) :
    Owned t :=
  fun o ho => harena ▸ hi o (h o ho)

theorem Owned.handOver {o : MaintArenaOwner} (hi : Owned s) (hg : grants s.arena o = true)
    (harena : t.arena = Maintenance.handOver s.arena o) (h : ∀ d, t.Holds d → d = o ∨ s.Holds d) :
    Owned t := by
  intro d hd
  rw [harena]
  rcases h d hd with rfl | hd
  · rfl
  · have hne := hd.ne.1
    have hown := hi d hd
    simp only [grants, evictable, hown, hne, Option.some.injEq, reduceCtorEq, decide_false,
      Bool.false_and, Bool.or_false, Bool.false_or, decide_eq_true_eq] at hg
    rw [hg]
    rfl

theorem Owned.released {o : MaintArenaOwner} (hi : Owned s)
    (harena : t.arena = maintArenaRelease s.arena (some o))
    (h : ∀ d, t.Holds d → s.Holds d ∧ d ≠ o) : Owned t := by
  intro d hd
  obtain ⟨hd, hne⟩ := h d hd
  have hown := hi d hd
  rw [harena, maintArenaRelease, hown, if_neg (by simpa using hne.symm), hown]

/-- The invariant of every run: the claims are exclusive. -/
structure Excluded (s : PauseSystem) : Prop where
  owned : Owned s
  placed : Placed s

theorem excluded_boot : Excluded .boot := by
  refine ⟨fun o ho => ?_, ⟨fun h => (by cases h), fun h => (by cases h), fun _ => rfl⟩⟩
  rcases ho with h | ⟨h, -⟩ | ⟨h, -⟩ | h
  · cases h
  · exact absurd rfl h
  · cases h
  · cases h

theorem excluded_claim {g : PauseSystem} {o : MaintArenaOwner} (hi : Excluded s)
    (h : ∀ d, g.Holds d → d = o ∨ s.Holds d) (hp : Placed g) : Excluded (s.claim o g s) := by
  unfold PauseSystem.claim
  split
  · rename_i hg
    exact ⟨hi.owned.handOver hg rfl h, ⟨hp.around, hp.activating, hp.stream⟩⟩
  · exact hi

theorem excluded_udsStart {call : UdsCall} (hi : Excluded s) (hu : s.uds = .idle)
    (h : udsStart s call = some t) : Excluded t := by
  obtain ⟨hown, hp⟩ := hi
  cases call with
  | requestDownload =>
    simp only [udsStart] at h
    split at h
    · rename_i hidle
      refine Option.some.inj h ▸ excluded_claim ⟨hown, hp⟩ (fun d hd => ?_) ⟨?_, ?_, ?_⟩
      all_goals grind
    · cases h
  | beginStream =>
    simp only [udsStart] at h
    split at h
    · cases h
    · rename_i hidle
      refine Option.some.inj h ▸ excluded_claim ⟨hown, hp⟩ (fun d hd => ?_) ⟨?_, ?_, ?_⟩
      all_goals grind
  | flashCommand reboots =>
    simp only [udsStart] at h
    refine Option.some.inj h ▸ excluded_claim ⟨hown, hp⟩ (fun d hd => ?_) ⟨?_, ?_, ?_⟩
    all_goals grind
  | transferExit | activate | stopStream =>
    simp only [udsStart] at h
    split at h
    · refine Option.some.inj h ▸ ⟨hown.mono rfl fun d hd => ?_, ?_, ?_, ?_⟩
      all_goals grind
    · cases h
  | resetOta | saveSetting =>
    refine Option.some.inj h ▸ ⟨hown.mono ?_ fun d hd => ?_, ?_, ?_, ?_⟩
    all_goals grind

/-- The claims do not read the flag. -/
theorem Excluded.paused (hi : Excluded s) (b : Bool) : Excluded { s with paused := b } :=
  ⟨hi.owned, hi.placed.around, hi.placed.activating, hi.placed.stream⟩

/-- The thread goes on under the claim it has, or under none. -/
theorem Excluded.goesOn {u : UdsPhase} (hi : Excluded s)
    (hh : u.holds = s.uds.holds ∨ u.holds = none)
    (ha : u.aroundOta = true → s.uds.aroundOta = true) (hu : u ≠ .activating) :
    Excluded { s with uds := u } := by
  refine ⟨hi.owned.mono rfl fun o ho => ?_, fun h => hi.placed.around (ha h),
    fun h => absurd h hu, fun h => ?_⟩
  · rcases ho with ho | ho
    · rcases hh with hh | hh
      · exact .inl (hh ▸ ho)
      · exact absurd (hh.symm.trans ho) (by simp)
    · exact .inr ho
  · rcases hh with hh | hh
    · exact hi.placed.stream (hh ▸ h)
    · exact absurd (hh.symm.trans h) (by simp)

/-- The thread gives up the arena: nothing else is going on under that claim. -/
theorem Excluded.leaves {o : MaintArenaOwner} (hi : Excluded s) (hf : o ≠ .factory)
    (ho : o = .ota → s.ota = .idle) (hs : o = .logStream → s.streaming = false) :
    Excluded ({ s with uds := .idle }.release o) := by
  refine ⟨hi.owned.released rfl fun d hd => ⟨?_, ?_⟩, fun h => (by cases h), fun h => (by cases h),
    fun h => (by cases h)⟩
  · rcases hd with hd | hd
    · cases hd
    · exact .inr hd
  · rintro rfl
    rcases hd with hd | ⟨hd, rfl⟩ | ⟨hd, rfl⟩ | hd
    · cases hd
    · exact hd (ho rfl)
    · exact Bool.noConfusion (hd.symm.trans (hs rfl))
    · exact hf (WorkerPhase.eq_factory hd)

theorem excluded_udsNext {ok : Bool} (hi : Excluded s) (h : udsNext s ok = some t) :
    Excluded t := by
  have hp := hi.placed
  cases hu : s.uds with
  | idle | rebooting => simp [udsNext, hu] at h
  | otaClaimed | otaErasing =>
    simp only [udsNext, hu] at h
    exact Option.some.inj h ▸ (hi.goesOn (.inl (by rw [hu]; rfl)) (fun _ => by rw [hu]; rfl)
      (by simp)).paused _
  | otaErased done =>
    have hidle : s.ota = .idle := hp.around (by rw [hu]; rfl)
    simp only [udsNext, hu] at h
    cases done with
    | true =>
      refine Option.some.inj h ▸ ⟨hi.owned.mono rfl fun d hd => ?_, fun h => (by cases h),
        fun h => (by cases h), fun h => (by cases h)⟩
      rcases hd with hd | ⟨-, rfl⟩ | hd
      · cases hd
      · exact .inl (by rw [hu]; rfl)
      · exact .inr (.inr hd)
    | false => exact Option.some.inj h ▸ hi.leaves (by decide) (fun _ => hidle) (by simp)
  | otaLeaving =>
    have hidle : s.ota = .idle := hp.around (by rw [hu]; rfl)
    simp only [udsNext, hu] at h
    exact Option.some.inj h ▸ hi.leaves (by decide) (fun _ => hidle) (by simp)
  | activating =>
    have hawait := hp.activating hu
    simp only [udsNext, hu] at h
    refine Option.some.inj h ▸ Excluded.paused ?_ false
    cases ok with
    | true =>
      refine ⟨hi.owned.mono rfl fun d hd => ?_, fun h => (by cases h), fun h => (by cases h),
        fun h => (by cases h)⟩
      rcases hd with hd | ⟨-, rfl⟩ | hd
      · cases hd
      · exact .inr (.inl ⟨by simp [hawait], rfl⟩)
      · exact .inr (.inr hd)
    | false => exact hi.goesOn (.inr rfl) (fun h => (by cases h)) (by decide)
  | streamClaimed =>
    simp only [udsNext, hu] at h
    refine Option.some.inj h ▸ ⟨hi.owned.mono rfl fun d hd => ?_, fun h => (by cases h),
      fun h => (by cases h), fun h => (by cases h)⟩
    rcases hd with hd | hd | ⟨-, rfl⟩ | hd
    · cases hd
    · exact .inr (.inl hd)
    · exact .inl (by rw [hu]; rfl)
    · exact .inr (.inr (.inr hd))
  | streamLeaving =>
    have hs : s.streaming = false := hp.stream (by rw [hu]; rfl)
    simp only [udsNext, hu] at h
    exact Option.some.inj h ▸ hi.leaves (by decide) (by simp) (fun _ => hs)
  | flashClaimed reboots =>
    simp only [udsNext, hu] at h
    cases ok with
    | true =>
      exact Option.some.inj h ▸ (hi.goesOn (.inl (by rw [hu]; rfl)) (fun h => (by cases h))
        (by simp)).paused _
    | false => exact Option.some.inj h ▸ hi.leaves (by decide) (by simp) (by simp)
  | flashBusy reboots =>
    cases reboots with
    | true => simp [udsNext, hu] at h
    | false =>
      simp only [udsNext, hu] at h
      exact Option.some.inj h ▸ (hi.goesOn (.inl (by rw [hu]; rfl)) (fun h => (by cases h))
        (by decide)).paused _
  | flashDone =>
    simp only [udsNext, hu] at h
    exact Option.some.inj h ▸ hi.leaves (by decide) (by simp) (by simp)
  | saving wasPaused =>
    have hidle := hi.goesOn (u := .idle) (.inr rfl) (fun h => (by cases h)) (by decide)
    simp only [udsNext, hu] at h
    refine Option.some.inj h ▸ ?_
    unfold quietSaveEnd
    split
    · exact hidle
    · exact hidle.paused _

theorem excluded_workerNext {ok : Bool} (hi : Excluded s) (h : workerNext s ok = some t) :
    Excluded t := by
  obtain ⟨hown, haround, hact, hst⟩ := hi
  cases hw : s.worker with
  | idle | rebooting => grind [workerNext]
  | entered =>
    have hleave : Excluded { s with worker := .leaving } := by
      refine ⟨hown.mono rfl fun d hd => ?_, haround, hact, hst⟩
      grind
    simp only [workerNext, hw] at h
    cases ok with
    | true =>
      simp only [if_true, PauseSystem.claim] at h
      split at h
      · rename_i hg
        refine Option.some.inj h ▸ ⟨hown.handOver hg rfl fun d hd => ?_, ?_, ?_, ?_⟩
        all_goals grind
      · exact Option.some.inj h ▸ hleave
    | false => exact Option.some.inj h ▸ hleave
  | copying | capturing =>
    simp only [workerNext, hw] at h
    refine Option.some.inj h ▸ ⟨hown.released (o := .factory) rfl fun d hd => ?_, ?_, ?_, ?_⟩
    all_goals grind
  | leaving =>
    simp only [workerNext, hw] at h
    refine Option.some.inj h ▸ ⟨hown.mono rfl fun d hd => ?_, ?_, ?_, ?_⟩
    all_goals grind

theorem excluded_others {call : ArenaEvent} {arena : Arena} (hi : Excluded s)
    (hcall : unpausing call = true) (h : arenaStep s.arena call = some arena) :
    Excluded { s with arena } := by
  refine ⟨fun o ho => ?_, hi.placed.around, hi.placed.activating, hi.placed.stream⟩
  have ho : s.Holds o := ho
  have hne : call ≠ .release o := by
    rintro rfl
    have := ho.ne
    simp [unpausing, this] at hcall
  exact (arenaStep_exclusive ho.ne.1 (hi.owned o ho) hne h).1

/-- Every step of every thread keeps the claims exclusive. -/
theorem excluded_step {e : PauseEvent} (hi : Excluded s) (h : pauseStep s e = some t) :
    Excluded t := by
  cases e with
  | mount ok =>
    simp only [pauseStep] at h
    split at h
    · exact Option.some.inj h ▸ ⟨hi.owned.mono rfl fun _ => id, hi.placed.around,
        hi.placed.activating, hi.placed.stream⟩
    · cases h
  | bootIdSaved =>
    simp only [pauseStep] at h
    split at h
    · rename_i was _
      cases Option.some.inj h
      cases was <;> exact ⟨hi.owned.mono rfl fun _ => id, hi.placed.around,
        hi.placed.activating, hi.placed.stream⟩
    all_goals cases h
  | udsStart call =>
    simp only [pauseStep] at h
    split at h
    · rename_i hu
      exact excluded_udsStart hi hu h
    · cases h
  | udsNext ok => exact excluded_udsNext hi h
  | restore =>
    simp only [pauseStep] at h
    split at h
    · refine Option.some.inj h ▸ ⟨hi.owned.mono rfl fun o ho => ?_, hi.placed.around,
        hi.placed.activating, hi.placed.stream⟩
      grind
    · cases h
  | capture =>
    simp only [pauseStep] at h
    split at h
    · refine Option.some.inj h ▸ excluded_claim hi (fun d hd => ?_) ⟨hi.placed.around,
        hi.placed.activating, hi.placed.stream⟩
      grind
    · cases h
  | workerNext ok => exact excluded_workerNext hi h
  | others call =>
    simp only [pauseStep] at h
    split at h
    · rename_i hcall
      obtain ⟨arena, harena, rfl⟩ := Option.map_eq_some_iff.mp h
      exact excluded_others hi hcall harena
    · cases h
  | reboot => exact Option.some.inj h ▸ excluded_boot

/-! ## The flag -/

/-- A save that found the flag set does not count: it leaves the flag to whoever set it. -/
def MountPhase.solid : MountPhase → Bool
  | .failed | .saving false => true
  | .unmounted | .saving true | .mounted => false

def UdsPhase.solid (u : UdsPhase) : Bool := u.active && u ≠ .saving true

def PauseSystem.solid (s : PauseSystem) : Bool :=
  s.mount.solid || s.uds.solid || s.transferring || s.worker.active

/-- The writer is paused exactly while somebody needs it quiet. -/
def PausedIffActive (_s : PauseSystem) (_e : PauseEvent) (t : PauseSystem) : Prop :=
  t.paused = t.active

/-- What a run in which nothing overlaps keeps. -/
structure PauseInv (s : PauseSystem) : Prop where
  excluded : Excluded s
  paused : s.paused = s.active
  solid : s.active = true → s.solid = true

/-- While the UDS thread's side holds the arena a restore that is on is not under its claim. -/
theorem Owned.worker_loose {o : MaintArenaOwner} (hi : Owned s) (ho : s.Holds o)
    (hne : o ≠ .factory) : s.worker.active = s.worker.loose := by
  have hcopy : s.worker ≠ .copying := fun hw =>
    hne (hi.exclusive ho (.inr (.inr (.inr (by rw [hw]; rfl)))))
  revert hcopy
  cases s.worker <;> decide

theorem Owned.not_streaming {o : MaintArenaOwner} (hi : Owned s) (ho : s.Holds o)
    (hne : o ≠ .logStream) : s.streaming = false :=
  Bool.eq_false_iff.mpr fun hs => hne (hi.exclusive ho (.inr (.inr (.inl ⟨hs, rfl⟩))))

theorem Owned.ota_idle {o : MaintArenaOwner} (hi : Owned s) (ho : s.Holds o) (hne : o ≠ .ota) :
    s.ota = .idle :=
  not_not.mp fun hs => hne (hi.exclusive ho (.inr (.inl ⟨hs, rfl⟩)))

/-- What a step has to show of the flag. -/
structure FlagKept (s : PauseSystem) (e : PauseEvent) (t : PauseSystem) : Prop where
  paused : t.paused = t.active ↔ unshared s e = true
  solid : unshared s e = true → t.active = true → t.solid = true

theorem active_of_solid (h : t.solid = true) : t.active = true := by
  simp only [PauseSystem.solid, PauseSystem.active, UdsPhase.solid, Bool.or_eq_true,
    Bool.and_eq_true] at h ⊢
  rcases h with ((h | h) | h) | h
  · refine .inl (.inl (.inl ?_))
    revert h
    cases t.mount with
    | unmounted | mounted => exact id
    | failed | saving => exact fun _ => rfl
  · exact .inl (.inl (.inr h.1))
  · exact .inl (.inr h)
  · exact .inr h

/-- A step that pauses for an operation of its own. -/
theorem FlagKept.begun {e : PauseEvent} (hu : unshared s e = true) (hp : t.paused = true)
    (hs : t.solid = true) : FlagKept s e t :=
  ⟨iff_of_true (hp.trans (active_of_solid hs).symm) hu, fun _ _ => hs⟩

/-- A step that resumes. -/
theorem FlagKept.ended {e : PauseEvent} (hp : t.paused = false)
    (hu : unshared s e = !t.active) : FlagKept s e t := by
  constructor
  · rw [hu, hp]
    cases t.active <;> decide
  · intro hfalse ht
    rw [hu, ht] at hfalse
    cases hfalse

/-- A step that leaves the flag and who needs it alone. -/
theorem FlagKept.same {e : PauseEvent} (hi : PauseInv s) (hu : unshared s e = true)
    (hp : t.paused = s.paused) (ha : t.active = s.active) (hs : t.solid = s.solid) :
    FlagKept s e t :=
  ⟨iff_of_true (by rw [hp, ha, hi.paused]) hu, fun _ ht => hs ▸ hi.solid (ha ▸ ht)⟩

/-- A claim pauses nobody. -/
theorem FlagKept.claimed {e : PauseEvent} {o : MaintArenaOwner} {g : PauseSystem}
    (hi : PauseInv s) (hu : unshared s e = true) (hp : g.paused = s.paused)
    (ha : g.active = s.active) (hs : g.solid = s.solid) : FlagKept s e (s.claim o g s) := by
  unfold PauseSystem.claim
  split
  · exact .same hi hu hp ha hs
  · exact .same hi hu rfl rfl rfl

/-- A save that leaves the flag to whoever set it does not count among those. -/
theorem PauseInv.kept (hi : PauseInv s) (hp : t.paused = s.paused) (hsome : s.active = true)
    (hs : t.solid = s.solid) : t.paused = t.active ∧ (t.active = true → t.solid = true) := by
  have ht : t.solid = true := hs.trans (hi.solid hsome)
  exact ⟨by rw [hp, hi.paused, hsome, active_of_solid ht], fun _ => ht⟩

theorem flag_udsStart {call : UdsCall} (hi : PauseInv s) (hu : s.uds = .idle)
    (h : udsStart s call = some t) : FlagKept s (.udsStart call) t := by
  have hown := hi.excluded.owned
  cases call with
  | requestDownload =>
    simp only [udsStart] at h
    split at h
    · refine Option.some.inj h ▸ .claimed hi rfl rfl ?_ ?_
      · simp [PauseSystem.active, PauseSystem.transferring, UdsPhase.active, hu]
      · simp [PauseSystem.solid, PauseSystem.transferring, UdsPhase.solid, UdsPhase.active, hu]
    · cases h
  | beginStream =>
    simp only [udsStart] at h
    split at h
    · cases h
    · refine Option.some.inj h ▸ .claimed hi rfl rfl ?_ ?_
      · simp [PauseSystem.active, PauseSystem.transferring, UdsPhase.active, hu]
      · simp [PauseSystem.solid, PauseSystem.transferring, UdsPhase.solid, UdsPhase.active, hu]
  | flashCommand reboots =>
    refine Option.some.inj h ▸ .claimed hi rfl rfl ?_ ?_
    · simp [PauseSystem.active, PauseSystem.transferring, UdsPhase.active, hu]
    · simp [PauseSystem.solid, PauseSystem.transferring, UdsPhase.solid, UdsPhase.active, hu]
  | activate =>
    simp only [udsStart] at h
    split at h
    · exact Option.some.inj h ▸ .begun rfl rfl (by simp [PauseSystem.solid, UdsPhase.solid,
      UdsPhase.active])
    · cases h
  | saveSetting =>
    cases Option.some.inj h
    refine .begun rfl rfl ?_
    cases hp : s.paused with
    | false => simp [PauseSystem.solid, UdsPhase.solid, UdsPhase.active]
    | true =>
      have hs := hi.solid (hi.paused ▸ hp)
      simpa [PauseSystem.solid, PauseSystem.transferring, UdsPhase.solid, UdsPhase.active,
        hu] using hs
  | transferExit =>
    simp only [udsStart] at h
    split at h
    · rename_i hota
      have hold : s.Holds .ota := .inr (.inl ⟨by rw [hota]; decide, rfl⟩)
      refine Option.some.inj h ▸ .ended rfl ?_
      simp [unshared, PauseSystem.active, PauseSystem.transferring, UdsPhase.active, downloads, hu,
        hown.not_streaming hold (by decide), hown.worker_loose hold (by decide)]
    · cases h
  | resetOta =>
    simp only [udsStart] at h
    split at h
    · rename_i hota
      have hold : s.Holds .ota := .inr (.inl ⟨by rw [hota]; decide, rfl⟩)
      refine Option.some.inj h ▸ .ended rfl ?_
      simp [unshared, PauseSystem.active, PauseSystem.transferring, UdsPhase.active, downloads,
        hota,
        hown.not_streaming hold (by decide), hown.worker_loose hold (by decide)]
    · rename_i hota
      have hno : downloads s.ota = false := by
        revert hota
        cases s.ota <;> decide
      refine Option.some.inj h ▸ .same hi ?_ rfl ?_ ?_
      · rw [unshared, hno]
        rfl
      · simp [PauseSystem.active, PauseSystem.transferring, UdsPhase.active, hu, hno,
          show downloads .idle = false from rfl]
      · simp [PauseSystem.solid, PauseSystem.transferring, UdsPhase.solid, UdsPhase.active, hu, hno,
          show downloads .idle = false from rfl]
  | stopStream =>
    simp only [udsStart] at h
    split at h
    · rename_i hs
      have hold : s.Holds .logStream := .inr (.inr (.inl ⟨hs, rfl⟩))
      refine Option.some.inj h ▸ .ended rfl ?_
      simp [unshared, PauseSystem.active, PauseSystem.transferring, UdsPhase.active, downloads,
        hown.ota_idle hold (by decide), hown.worker_loose hold (by decide)]
    · cases h

theorem flag_udsNext {ok : Bool} (hi : PauseInv s) (h : udsNext s ok = some t) :
    FlagKept s (.udsNext ok) t := by
  obtain ⟨hown, haround, hact, -⟩ := hi.excluded
  have hworker : ∀ o, s.uds.holds = some o → s.worker.active = s.worker.loose := fun o ho =>
    hown.worker_loose (.inl ho) (UdsPhase.ne_factory ho).1
  have hstream : ∀ o, s.uds.holds = some o → o ≠ .logStream → s.streaming = false :=
    fun o ho => hown.not_streaming (.inl ho)
  have hota : ∀ o, s.uds.holds = some o → o ≠ .ota → s.ota = .idle :=
    fun o ho => hown.ota_idle (.inl ho)
  cases hu : s.uds with
  | idle | rebooting => simp only [udsNext, hu, reduceCtorEq] at h
  | otaClaimed =>
    simp only [udsNext, hu] at h
    exact Option.some.inj h ▸ .begun (by simp [unshared, hu]) rfl (by simp [PauseSystem.solid,
      UdsPhase.solid, UdsPhase.active])
  | streamClaimed =>
    simp only [udsNext, hu] at h
    exact Option.some.inj h ▸ .begun (by simp [unshared, hu]) rfl
      (by simp [PauseSystem.solid, PauseSystem.transferring, downloads])
  | otaErased done =>
    simp only [udsNext, hu] at h
    cases done with
    | true =>
      exact Option.some.inj h ▸ .begun (by simp [unshared, hu]) rfl
        (by simp [PauseSystem.solid, PauseSystem.transferring, downloads])
    | false =>
      refine Option.some.inj h ▸ .same hi (by simp [unshared, hu]) rfl ?_ ?_
      · simp [PauseSystem.active, PauseSystem.transferring, UdsPhase.active, hu]
      · simp [PauseSystem.solid, PauseSystem.transferring, UdsPhase.solid, UdsPhase.active, hu]
  | otaLeaving | streamLeaving | flashDone =>
    simp only [udsNext, hu] at h
    refine Option.some.inj h ▸ .same hi (by simp [unshared, hu]) rfl ?_ ?_
    · simp [PauseSystem.active, PauseSystem.transferring, UdsPhase.active, hu]
    · simp [PauseSystem.solid, PauseSystem.transferring, UdsPhase.solid, UdsPhase.active, hu]
  | otaErasing =>
    simp only [udsNext, hu] at h
    refine Option.some.inj h ▸ .ended rfl ?_
    rw [hu] at hworker hstream haround
    simp [unshared, PauseSystem.active, PauseSystem.transferring, UdsPhase.active, downloads, hu,
      haround rfl,
      hstream _ rfl (by decide), hworker _ rfl]
  | activating =>
    simp only [udsNext, hu] at h
    refine Option.some.inj h ▸ .ended (by simp) ?_
    rw [hu] at hworker hstream
    cases ok <;>
      simp [unshared, PauseSystem.active, PauseSystem.transferring, UdsPhase.active, downloads, hu,
        hact hu,
        hstream _ rfl (by decide), hworker _ rfl]
  | flashClaimed reboots =>
    simp only [udsNext, hu] at h
    cases ok with
    | true =>
      exact Option.some.inj h ▸ .begun (by simp [unshared, hu]) rfl (by simp [PauseSystem.solid,
        UdsPhase.solid, UdsPhase.active])
    | false =>
      refine Option.some.inj h ▸ .same hi (by simp [unshared, hu]) rfl ?_ ?_
      · simp [PauseSystem.active, PauseSystem.transferring, UdsPhase.active, hu]
      · simp [PauseSystem.solid, PauseSystem.transferring, UdsPhase.solid, UdsPhase.active, hu]
  | flashBusy reboots =>
    cases reboots with
    | true => simp only [udsNext, hu, reduceCtorEq] at h
    | false =>
      simp only [udsNext, hu] at h
      refine Option.some.inj h ▸ .ended rfl ?_
      rw [hu] at hworker hstream hota
      simp [unshared, PauseSystem.active, PauseSystem.transferring, UdsPhase.active, downloads, hu,
        hota _ rfl (by decide),
        hstream _ rfl (by decide), hworker _ rfl]
  | saving wasPaused =>
    simp only [udsNext, hu] at h
    cases wasPaused with
    | true =>
      -- What found the flag set leaves it to whoever set it, who still needs it.
      have hkeep := hi.kept (t := { s with uds := .idle }) rfl
        (by simp [PauseSystem.active, PauseSystem.transferring, UdsPhase.active, hu])
        (by simp [PauseSystem.solid, PauseSystem.transferring, UdsPhase.solid, UdsPhase.active, hu])
      exact Option.some.inj h ▸ ⟨iff_of_true hkeep.1 (by simp [unshared, hu]), fun _ => hkeep.2⟩
    | false =>
      refine Option.some.inj h ▸ .ended rfl ?_
      simp [unshared, PauseSystem.active, PauseSystem.transferring, UdsPhase.active, hu]

theorem flag_workerNext {ok : Bool} (hi : PauseInv s) (h : workerNext s ok = some t) :
    FlagKept s (.workerNext ok) t := by
  cases hw : s.worker with
  | idle | rebooting => simp only [workerNext, hw, reduceCtorEq] at h
  | entered =>
    have hleave : FlagKept s (.workerNext ok) { s with worker := .leaving } := by
      refine .same hi (by simp [unshared, hw]) rfl ?_ ?_
      · simp [PauseSystem.active, PauseSystem.transferring, WorkerPhase.active, hw]
      · simp [PauseSystem.solid, PauseSystem.transferring, WorkerPhase.active, hw]
    simp only [workerNext, hw] at h
    cases ok with
    | true =>
      simp only [if_true, PauseSystem.claim] at h
      split at h
      · refine Option.some.inj h ▸ .same hi (by simp [unshared, hw]) rfl ?_ ?_
        · simp [PauseSystem.active, PauseSystem.transferring, WorkerPhase.active, hw]
        · simp [PauseSystem.solid, PauseSystem.transferring, WorkerPhase.active, hw]
      · exact Option.some.inj h ▸ hleave
    | false => exact Option.some.inj h ▸ hleave
  | copying =>
    simp only [workerNext, hw] at h
    refine Option.some.inj h ▸ .same hi (by simp [unshared, hw]) rfl ?_ ?_
    · cases ok <;> simp [PauseSystem.active, PauseSystem.transferring, WorkerPhase.active, hw]
    · cases ok <;> simp [PauseSystem.solid, PauseSystem.transferring, WorkerPhase.active, hw]
  | capturing =>
    simp only [workerNext, hw] at h
    refine Option.some.inj h ▸ .same hi (by simp [unshared, hw]) rfl ?_ ?_
    · simp [PauseSystem.active, PauseSystem.transferring, WorkerPhase.active, hw]
    · simp [PauseSystem.solid, PauseSystem.transferring, WorkerPhase.active, hw]
  | leaving =>
    simp only [workerNext, hw] at h
    refine Option.some.inj h ▸ .ended rfl ?_
    simp [unshared, PauseSystem.active, PauseSystem.transferring, WorkerPhase.active, hw]

theorem flag_step {e : PauseEvent} (hi : PauseInv s) (h : pauseStep s e = some t) :
    FlagKept s e t := by
  cases e with
  | udsStart call =>
    simp only [pauseStep] at h
    split at h
    · rename_i hu
      exact flag_udsStart hi hu h
    · cases h
  | udsNext ok => exact flag_udsNext hi h
  | workerNext ok => exact flag_workerNext hi h
  | mount ok =>
    simp only [pauseStep] at h
    split at h
    · rename_i hm
      refine Option.some.inj h ▸ .begun rfl rfl ?_
      cases ok with
      | false => simp [PauseSystem.solid, MountPhase.solid]
      | true =>
        cases hp : s.paused with
        | false => simp [PauseSystem.solid, MountPhase.solid]
        | true =>
          have hs := hi.solid (hi.paused ▸ hp)
          simpa [PauseSystem.solid, PauseSystem.transferring, MountPhase.solid, hm] using hs
    · cases h
  | bootIdSaved =>
    simp only [pauseStep] at h
    split at h
    · rename_i was hm
      cases was with
      | true =>
        have hkeep := hi.kept (t := { s with mount := .mounted }) rfl
          (by simp [PauseSystem.active, MountPhase.active, hm])
          (by simp [PauseSystem.solid, PauseSystem.transferring, MountPhase.solid, hm])
        exact Option.some.inj h ▸ ⟨iff_of_true hkeep.1 (by simp [unshared, hm]), fun _ => hkeep.2⟩
      | false =>
        refine Option.some.inj h ▸ .ended rfl ?_
        simp [unshared, PauseSystem.active, PauseSystem.transferring, MountPhase.active, hm]
    all_goals cases h
  | restore =>
    simp only [pauseStep] at h
    split at h
    · exact Option.some.inj h ▸ .begun rfl rfl (by simp [PauseSystem.solid, WorkerPhase.active])
    · cases h
  | capture =>
    simp only [pauseStep] at h
    split at h
    · rename_i hw
      refine Option.some.inj h ▸ .claimed hi rfl rfl ?_ ?_
      · simp [PauseSystem.active, PauseSystem.transferring, WorkerPhase.active, hw]
      · simp [PauseSystem.solid, PauseSystem.transferring, WorkerPhase.active, hw]
    · cases h
  | others call =>
    simp only [pauseStep] at h
    split at h
    · obtain ⟨arena, -, rfl⟩ := Option.map_eq_some_iff.mp h
      exact .same hi rfl rfl rfl rfl
    · cases h
  | reboot => exact Option.some.inj h ▸ ⟨iff_of_true rfl rfl, fun _ => id⟩

theorem pauseInv_boot : PauseInv .boot := ⟨excluded_boot, rfl, by decide⟩

/-- Over every run, the writer is paused exactly while somebody needs it quiet if and only if no
step ends a pause that somebody who does not hold the arena shares. -/
theorem paused_iff_active (es : List PauseEvent) :
    Steps pauseStep PausedIffActive .boot es ↔
      Steps pauseStep (fun s e _ => unshared s e = true) .boot es := by
  have hstep : ∀ {s e t}, PauseInv s → pauseStep s e = some t →
      (PausedIffActive s e t ↔ unshared s e = true) ∧ (unshared s e = true → PauseInv t) := by
    intro s e t hi h
    obtain ⟨hiff, hsolid⟩ := flag_step hi h
    exact ⟨hiff, fun hu => ⟨excluded_step hi.excluded h, hiff.mpr hu, hsolid hu⟩⟩
  exact Steps.iff_of_inv hstep pauseInv_boot

/-- A log transfer that ends after a failed mount resumes the writer. -/
theorem failedMount_resumed :
    ¬ Steps pauseStep PausedIffActive .boot
      [.mount false, .udsStart .beginStream, .udsNext true, .udsStart .stopStream] := by
  unfold PausedIffActive
  decide

end DiveCANHead.Maintenance
