import Mathlib.Data.List.Count
import DiveCANHead.Bus.Quiet

/-!
# A transaction under the bus lock (`i2c1_transact`)

A try takes the lock, waits for a quiet bus and runs the transfer; after the last one that fails in
a way worth retrying, the bus is recovered, under the lock, and the transfer tried once more. On
every path the lock is taken and released in turn, and nothing touches the bus without it.
-/

namespace DiveCANHead.Bus

open DiveCANHead.Lib

/-- What a transaction does. -/
inductive BusAction where
  | lock
  | unlock
  | waitQuiet
  | xfer
  | noteActivity
  | classify
  | resetPeripheral
  | recoverBus
  | sleep (ms : UInt32)
  deriving DecidableEq, Repr

/-- What a transaction meets: the results of each try's wait and transfer, the device, the state of
the lines, the result of a bus clear, and the cycle counter. -/
structure BusEnv where
  waitQuiet : ℕ → ℤ
  xfer : ℕ → ℤ
  device : Bool
  lines : LineState
  recoverBus : ℤ
  cycles : ℕ → UInt32

/-- A return code, with the actions on the way to it. -/
structure Outcome where
  rc : ℤ
  log : List BusAction
  deriving DecidableEq, Repr

/-- `EIO`, `EAGAIN`, `EBUSY` and `ETIMEDOUT`, negative. -/
def retryable : List ℤ := [-16, -11, -116, -5]

/-- `i2c1_bus_lock_quiet`. -/
def busLockQuiet (env : BusEnv) (k : ℕ) : Outcome :=
  let ret := env.waitQuiet k
  if ret ≠ 0 then ⟨ret, [.lock, .waitQuiet, .unlock]⟩ else ⟨ret, [.lock, .waitQuiet]⟩

/-- `i2c1_bus_recover`; `ENODEV` is 19. -/
def busRecover (env : BusEnv) : Outcome :=
  if env.device = true then
    match env.lines with
    | .idle => ⟨0, [.lock, .classify, .resetPeripheral, .unlock]⟩
    | .sdaStuck => ⟨env.recoverBus, [.lock, .classify, .recoverBus, .resetPeripheral, .unlock]⟩
    | .sclStuck => ⟨-16, [.lock, .classify, .resetPeripheral, .unlock]⟩
    | .active => ⟨-16, [.lock, .classify, .unlock]⟩
  else ⟨-19, []⟩

/-- `i2c1_konce`. -/
def tryOnce (env : BusEnv) (k : ℕ) : Outcome :=
  let locked := busLockQuiet env k
  if locked.rc = 0 then ⟨env.xfer k, locked.log ++ [.xfer, .noteActivity, .unlock]⟩ else locked

/-- The pause before a try that is not the first. -/
def backoff (env : BusEnv) (base jitter : UInt32) (a : ℕ) : List BusAction :=
  if 0 < a then
    let delay := base <<< UInt32.ofNat (a - 1)
    [.sleep (delay + if jitter ≠ 0 then env.cycles a % jitter else 0)]
  else []

/-- The loop of `i2c1_transact` from try `a` on, with the number of tries left. -/
def attempts (env : BusEnv) (base jitter : UInt32) : ℕ → ℕ → ℤ → Outcome
  | 0, _, ret => ⟨ret, []⟩
  | left + 1, a, ret =>
    if ret ∈ retryable then
      let once := tryOnce env a
      let rest := attempts env base jitter left (a + 1) once.rc
      ⟨rest.rc, backoff env base jitter a ++ once.log ++ rest.log⟩
    else ⟨ret, []⟩

/-- `i2c1_transact`; `xfer` is whether there is one, and `EINVAL` is 22. -/
def transact (env : BusEnv) (xfer : Bool) (tries : UInt8) (base jitter : UInt32) : Outcome :=
  if xfer = false ∨ tries = 0 then ⟨-22, []⟩
  else
    let tried := attempts env base jitter tries.toNat 0 (-16)
    if tried.rc ∈ retryable then
      let recovered := busRecover env
      if recovered.rc = 0 then
        let again := tryOnce env tries.toNat
        ⟨again.rc, tried.log ++ recovered.log ++ again.log⟩
      else ⟨tried.rc, tried.log ++ recovered.log⟩
    else tried

/-! ## The lock -/

/-- How often the lock is held after an action; it must be held for all but a pause, and to be
released. -/
def heldStep : ℕ → BusAction → Option ℕ
  | held, .lock => some (held + 1)
  | held, .sleep _ => some held
  | 0, _ => none
  | held + 1, .unlock => some held
  | held + 1, _ => some (held + 1)

/-- The actions take and release the lock in turn. -/
def Paired (log : List BusAction) : Prop := exec heldStep 0 log = some 0

theorem Paired.append {log log' : List BusAction} (h : Paired log) (h' : Paired log') :
    Paired (log ++ log') := by
  rw [Paired, exec_append h]
  exact h'

theorem count_of_heldStep {held next : ℕ} {action : BusAction}
    (h : heldStep held action = some next) :
    held + [action].count .lock = next + [action].count .unlock := by
  cases action <;> cases held <;> first | exact absurd h (Option.some_ne_none _).symm | cases h; rfl

theorem count_of_exec {log : List BusAction} :
    ∀ {held held' : ℕ}, exec heldStep held log = some held' →
      held + log.count .lock = held' + log.count .unlock := by
  induction log with
  | nil =>
    intro held held' h
    rw [Option.some.inj h]
    rfl
  | cons action log ih =>
    intro held held' h
    obtain ⟨next, hnext, hrest⟩ := Option.bind_eq_some_iff.mp h
    have hfirst := count_of_heldStep hnext
    have hcount := ih hrest
    rw [← List.singleton_append, List.count_append, List.count_append]
    omega

/-- The lock is released as often as it is taken. -/
theorem Paired.count {log : List BusAction} (h : Paired log) :
    log.count .lock = log.count .unlock := by
  have hcount := count_of_exec h
  omega

theorem paired_busRecover (env : BusEnv) : Paired (busRecover env).log := by
  unfold busRecover
  split
  · split <;> rfl
  · rfl

theorem paired_tryOnce (env : BusEnv) (k : ℕ) : Paired (tryOnce env k).log := by
  unfold tryOnce busLockQuiet
  by_cases h : env.waitQuiet k = 0
  · simp only [h, ne_eq, not_true_eq_false, if_false, if_true]
    rfl
  · simp only [h, ne_eq, not_false_eq_true, if_false, if_true]
    rfl

theorem paired_backoff (env : BusEnv) (base jitter : UInt32) (a : ℕ) :
    Paired (backoff env base jitter a) := by
  unfold backoff
  split <;> rfl

theorem paired_attempts (env : BusEnv) (base jitter : UInt32) (left : ℕ) :
    ∀ (a : ℕ) (ret : ℤ), Paired (attempts env base jitter left a ret).log := by
  induction left with
  | zero => exact fun _ _ => rfl
  | succ left ih =>
    intro a ret
    unfold attempts
    split
    · exact ((paired_backoff env base jitter a).append (paired_tryOnce env a)).append (ih _ _)
    · rfl

theorem paired_transact (env : BusEnv) (xfer : Bool) (tries : UInt8) (base jitter : UInt32) :
    Paired (transact env xfer tries base jitter).log := by
  have htried := paired_attempts env base jitter tries.toNat 0 (-16)
  unfold transact
  dsimp only
  split
  · rfl
  · split
    · split
      · exact (htried.append (paired_busRecover env)).append (paired_tryOnce env _)
      · exact htried.append (paired_busRecover env)
    · exact htried

/-! ## The bus as a whole -/

/-- The classifier's verdicts hold of its samples, a wait for a quiet bus succeeds only after a
quiet interval, and a transaction releases the lock as often as it takes it: this is so exactly if
no wait ends on activity that its guard misjudges. -/
theorem busGuard_iff (pollClock : ℕ) (polls : List LinePoll) (waitClock : ℕ) (last : UInt32)
    (es : List QuietEvent) (env : BusEnv) (xfer : Bool) (tries : UInt8) (base jitter : UInt32) :
    ((∀ state, classifyLines pollClock polls = some state →
        state.Shown (samplesFrom pollClock polls)) ∧
      Steps quietStep QuietSafe (.init waitClock last) es ∧
      (transact env xfer tries base jitter).log.count .lock =
        (transact env xfer tries base jitter).log.count .unlock) ↔
    Steps quietStep (fun s e _ => QuietClean s e) (.init waitClock last) es := by
  rw [← quiet_safe_iff]
  constructor
  · exact fun h => h.2.1
  · exact fun h => ⟨classifyLines_shown pollClock polls, h,
      (paired_transact env xfer tries base jitter).count⟩

/-- The wait succeeds with activity noted a moment ago. -/
theorem quiet_unsafe : ¬ Steps quietStep QuietSafe (.init 10 0) noteBetweenReadings := by
  decide

end DiveCANHead.Bus
