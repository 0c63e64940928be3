import Mathlib.Data.Int.Notation
import Mathlib.Data.Nat.Notation
import DiveCANHead.Lib.Runs

/-!
# The shutdown request (`power_management.c`)

A request opens a window in which the head lets go of CAN_EN and reads it up to twenty times; it
shuts down if the line has gone quiet and stayed quiet. A read that fails counts as quiet, so the
window is sound exactly if all of its reads succeed.
-/

namespace DiveCANHead.Power

open DiveCANHead.Lib

/-- `SHUTDOWN_ABORT_WINDOW_ATTEMPTS`. -/
def shutdownAbortWindowAttempts : ℕ := 20

/-- `SHUTDOWN_CONFIRM_INACTIVE_POLLS`. -/
def shutdownConfirmInactivePolls : ℕ := 2

/-- `-ENODEV`. -/
def enodev : ℤ := -19

/-- The part of `struct power_config` for CAN_EN. -/
structure PowerConfig where
  hasCanEn : Bool := true
  deriving DecidableEq

/-- `power_is_can_active` for what `gpio_pin_get_dt` returns: an error or the logical level. -/
def powerIsCanActive (cfg : PowerConfig) (level : ℤ) : Bool :=
  if cfg.hasCanEn then if level < 0 then false else level ≠ 0 else false

/-! ## The window -/

/-- The locals of `scan_shutdown_abort_window`. -/
structure AbortScan where
  sawQuiet : Bool := false
  reasserted : Bool := false
  abortScan : Bool := false
  inactiveRun : ℕ := 0
  deriving DecidableEq

/-- One attempt. -/
def AbortScan.poll (s : AbortScan) (active : Bool) : AbortScan :=
  if active then
    { s with
      inactiveRun := 0
      reasserted := s.reasserted || s.sawQuiet
      abortScan := s.abortScan || s.sawQuiet }
  else
    { s with
      inactiveRun := s.inactiveRun + 1
      sawQuiet := s.sawQuiet || shutdownConfirmInactivePolls ≤ s.inactiveRun + 1 }

/-- The first attempts of the window, with the reads that they make. -/
def scanAttempts (cfg : PowerConfig) (reads : ℕ → ℤ) : ℕ → AbortScan × List ℤ
  | 0 => ({}, [])
  | n + 1 =>
    let before := scanAttempts cfg reads n
    if before.1.abortScan then before
    else (before.1.poll (powerIsCanActive cfg (reads n)), before.2 ++ [reads n])

/-- The reads of `scan_shutdown_abort_window`. -/
def readsOf (cfg : PowerConfig) (reads : ℕ → ℤ) : List ℤ :=
  (scanAttempts cfg reads shutdownAbortWindowAttempts).2

/-- `scan_shutdown_abort_window`. -/
def scanShutdownAbortWindow (cfg : PowerConfig) (reads : ℕ → ℤ) : Bool :=
  let scan := (scanAttempts cfg reads shutdownAbortWindowAttempts).1
  scan.sawQuiet && !scan.reasserted

/-! ## The thread -/

/-- What the GPIO answers to one request, the reads of the window among it; `againRc` is the
release inside `power_shutdown`. -/
structure ShutdownWindow where
  releaseRc : ℤ := 0
  reads : ℕ → ℤ
  assertRc : ℤ := 0
  againRc : ℤ := 0

/-- What the thread does to the rest of the head. -/
inductive ShutdownAction where
  | assertCanEn
  | accessoriesShutdown
  | powerShutdown
  deriving DecidableEq

/-- Whether the head holds CAN_EN, and what the last request made it do. -/
structure ShutdownState where
  hold : Bool := true
  actions : List ShutdownAction := []
  deriving DecidableEq

/-- `power_can_enable_release` and `power_can_enable_assert`. -/
def canEnableRc (cfg : PowerConfig) (rc : ℤ) : ℤ := if cfg.hasCanEn then rc else enodev

/-- A turn of `shutdown_thread_fn`, for a request that is true. `power_shutdown` releases CAN_EN
again and may come back. -/
def handleRequest (cfg : PowerConfig) (s : ShutdownState) (w : ShutdownWindow) : ShutdownState :=
  let releaseRc := canEnableRc cfg w.releaseRc
  let hold := if releaseRc = 0 then false else s.hold
  if releaseRc = 0 ∧ scanShutdownAbortWindow cfg w.reads = true then
    { hold := if canEnableRc cfg w.againRc = 0 then false else hold
      actions := [.accessoriesShutdown, .powerShutdown] }
  else
    { hold := if canEnableRc cfg w.assertRc = 0 then true else hold
      actions := [.assertCanEn] }

inductive ShutdownEvent where
  | waitError
  | request (req : Bool) (window : ShutdownWindow)

/-- `shutdown_thread_fn`, one message after the other. -/
def shutdownStep (cfg : PowerConfig) (s : ShutdownState) : ShutdownEvent → Option ShutdownState
  | .waitError => some { s with actions := [] }
  | .request false _ => some { s with actions := [] }
  | .request true w => some (handleRequest cfg s w)

/-! ## Two signs -/

/-- A window that ends in a shutdown had let go of CAN_EN and saw two quiet reads and only quiet
ones after them; only a read that succeeds is taken as quiet; and any other window ends by
asserting CAN_EN. -/
structure WindowSafe (cfg : PowerConfig) (w : ShutdownWindow) (t : ShutdownState) : Prop where
  commits : .powerShutdown ∈ t.actions → canEnableRc cfg w.releaseRc = 0 ∧
    ∃ pre post, readsOf cfg w.reads = pre ++ 0 :: 0 :: post ∧ ∀ level ∈ post, level = 0
  quiet : canEnableRc cfg w.releaseRc = 0 → ∀ level ∈ readsOf cfg w.reads,
    powerIsCanActive cfg level = false → level = 0
  asserts : .powerShutdown ∉ t.actions → t.actions.getLast? = some .assertCanEn

/-- Only a request for which the window is safe may shut the head down. -/
def ShutdownSafe (cfg : PowerConfig) (t : ShutdownState) : ShutdownEvent → Prop
  | .request true w => WindowSafe cfg w t
  | .request false _ | .waitError => .powerShutdown ∉ t.actions

/-- The reads of the window that a request opens succeed. -/
def ReadsSucceed (cfg : PowerConfig) : ShutdownEvent → Prop
  | .request true w =>
    canEnableRc cfg w.releaseRc = 0 → ∀ level ∈ readsOf cfg w.reads, 0 ≤ level
  | .request false _ | .waitError => True

instance decidableReadsSucceed (cfg : PowerConfig) : ∀ e, Decidable (ReadsSucceed cfg e)
  | .request true _ => inferInstanceAs (Decidable (_ → ∀ _ ∈ _, _))
  | .request false _ | .waitError => isTrue trivial

variable {cfg : PowerConfig} {reads : ℕ → ℤ}

theorem hasCanEn_of_release {rc : ℤ} (h : canEnableRc cfg rc = 0) : cfg.hasCanEn = true := by
  unfold canEnableRc at h
  split at h
  · assumption
  · exact absurd h (by decide)

/-- What is taken as quiet is an inactive level or an error. -/
theorem quiet_iff (h : cfg.hasCanEn = true) (level : ℤ) :
    powerIsCanActive cfg level = false ↔ level ≤ 0 := by
  unfold powerIsCanActive
  rw [if_pos h]
  split
  · exact iff_of_true rfl (by omega)
  · rw [decide_eq_false_iff_not, Decidable.not_not]
    omega

/-- What a scan that goes on has seen: after two quiet reads nothing but quiet ones, and a quiet
one last while the run of them lasts. -/
structure Scanned (scan : AbortScan) (levels : List ℤ) : Prop where
  aborts : scan.abortScan = scan.reasserted
  quiet : scan.reasserted = false → scan.sawQuiet = true →
    ∃ pre post, levels = pre ++ 0 :: 0 :: post ∧ ∀ level ∈ post, level = 0
  last : scan.reasserted = false → 0 < scan.inactiveRun → ∃ pre, levels = pre ++ [0]

theorem Scanned.poll {scan : AbortScan} {levels : List ℤ} (h : Scanned scan levels)
    (hgoes : scan.abortScan = false) {level : ℤ} (hen : cfg.hasCanEn = true) (hok : 0 ≤ level) :
    Scanned (scan.poll (powerIsCanActive cfg level)) (levels ++ [level]) := by
  have hnot : scan.reasserted = false := h.aborts.symm.trans hgoes
  cases hactive : powerIsCanActive cfg level with
  | true =>
    refine ⟨?_, fun hre hsaw => ?_, fun _ hrun => absurd hrun (Nat.lt_irrefl 0)⟩
    · exact congrArg (· || scan.sawQuiet) h.aborts
    · have hboth : (scan.reasserted || scan.sawQuiet) = false := hre
      rw [hnot, Bool.false_or] at hboth
      exact absurd (hboth.symm.trans hsaw) Bool.false_ne_true
  | false =>
    have hzero : level = 0 := Int.le_antisymm ((quiet_iff hen level).mp hactive) hok
    refine ⟨h.aborts, fun _ hsaw => ?_, fun _ _ => ⟨levels, by rw [hzero]⟩⟩
    have hcases : scan.sawQuiet = true ∨ 0 < scan.inactiveRun := by
      rcases Bool.or_eq_true_iff.mp hsaw with hold | hnew
      · exact .inl hold
      · have hrun : 2 ≤ scan.inactiveRun + 1 := of_decide_eq_true hnew
        exact .inr (by omega)
    rcases hcases with hold | hrun
    · obtain ⟨pre, post, rfl, hpost⟩ := h.quiet hnot hold
      refine ⟨pre, post ++ [level], by simp, fun l hl => ?_⟩
      rcases List.mem_append.mp hl with hl | hl
      · exact hpost l hl
      · rw [List.mem_singleton.mp hl, hzero]
    · obtain ⟨pre, rfl⟩ := h.last hnot hrun
      exact ⟨pre, [], by simp [hzero], fun l hl => absurd hl List.not_mem_nil⟩

theorem scanned_attempts (hen : cfg.hasCanEn = true) (n : ℕ)
    (hok : ∀ level ∈ (scanAttempts cfg reads n).2, 0 ≤ level) :
    Scanned (scanAttempts cfg reads n).1 (scanAttempts cfg reads n).2 := by
  induction n with
  | zero =>
    exact ⟨rfl, fun _ h => absurd h Bool.false_ne_true, fun _ h => absurd h (Nat.lt_irrefl 0)⟩
  | succ n ih =>
    unfold scanAttempts at hok ⊢
    dsimp only at hok ⊢
    by_cases habort : (scanAttempts cfg reads n).1.abortScan = true
    · rw [if_pos habort] at hok ⊢
      exact ih hok
    · rw [if_neg habort] at hok ⊢
      have hbefore := ih fun level hlevel => hok level (List.mem_append_left _ hlevel)
      exact hbefore.poll (Bool.eq_false_iff.mpr habort) hen
        (hok _ (List.mem_append_right _ (List.mem_singleton.mpr rfl)))

/-- A window is safe exactly if its reads succeed. -/
theorem windowSafe_iff (s : ShutdownState) (w : ShutdownWindow) :
    WindowSafe cfg w (handleRequest cfg s w) ↔
      (canEnableRc cfg w.releaseRc = 0 → ∀ level ∈ readsOf cfg w.reads, 0 ≤ level) := by
  constructor
  · intro h hrelease level hlevel
    refine Int.not_lt.mp fun hfailed => ?_
    have hzero := h.quiet hrelease level hlevel
      ((quiet_iff (hasCanEn_of_release hrelease) level).mpr (by omega))
    omega
  · intro hok
    unfold handleRequest
    dsimp only
    split
    · next hcommit =>
      obtain ⟨hrelease, hscan⟩ := hcommit
      have hen := hasCanEn_of_release hrelease
      refine ⟨fun _ => ⟨hrelease, ?_⟩, fun _ level hlevel hquiet => ?_, fun h => ?_⟩
      · obtain ⟨hsaw, hre⟩ := Bool.and_eq_true_iff.mp hscan
        rw [Bool.not_eq_true'] at hre
        exact (scanned_attempts hen _ (hok hrelease)).quiet hre hsaw
      · exact Int.le_antisymm ((quiet_iff hen level).mp hquiet) (hok hrelease level hlevel)
      · exact absurd (List.mem_cons_of_mem _ List.mem_cons_self) h
    · next hstay =>
      refine ⟨fun h => ?_, fun hrelease level hlevel hquiet => ?_, fun _ => rfl⟩
      · exact absurd (List.mem_singleton.mp h) (by decide)
      · exact Int.le_antisymm ((quiet_iff (hasCanEn_of_release hrelease) level).mp hquiet)
          (hok hrelease level hlevel)

/-- Over any sequence of requests shutting down is safe exactly if every read of every window
succeeds. -/
theorem shutdownSafe_iff (cfg : PowerConfig) (s : ShutdownState) (es : List ShutdownEvent) :
    Steps (shutdownStep cfg) (fun _ e t => ShutdownSafe cfg t e) s es ↔
      Steps (shutdownStep cfg) (fun _ e _ => ReadsSucceed cfg e) s es := by
  have hkeep : ∀ {s e t}, True → shutdownStep cfg s e = some t →
      (ShutdownSafe cfg t e ↔ ReadsSucceed cfg e) ∧ (ReadsSucceed cfg e → True) := by
    intro s e t _ hstep
    refine ⟨?_, fun _ => trivial⟩
    cases e with
    | waitError =>
      rw [← Option.some.inj hstep]
      exact iff_of_true List.not_mem_nil trivial
    | request req w =>
      cases req with
      | false =>
        rw [← Option.some.inj hstep]
        exact iff_of_true List.not_mem_nil trivial
      | true =>
        rw [← Option.some.inj hstep]
        exact windowSafe_iff s w
  exact Steps.iff_of_inv hkeep trivial

/-- A request while CAN_EN cannot be read. -/
def unreadable : ShutdownWindow := { reads := fun _ => -5 }

/-- The head shuts down though no read has shown the line quiet. -/
theorem unreadable_shutsDown :
    ¬Steps (shutdownStep {}) (fun _ e t => ShutdownSafe {} t e) {} [.request true unreadable] := by
  intro h
  have hsafe : WindowSafe {} unreadable (handleRequest {} {} unreadable) :=
    ((steps_cons_some rfl).mp h).1
  obtain ⟨-, pre, post, hreads, -⟩ := hsafe.commits (by decide)
  have hquiet : 0 ∈ readsOf {} unreadable.reads := by
    rw [hreads]
    exact List.mem_append_right _ List.mem_cons_self
  exact absurd hquiet (by decide)

end DiveCANHead.Power
