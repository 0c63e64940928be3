import DiveCANHead.Cells.Consensus

/-!
# The POST gate (`firmware_confirm.c`)

The thread that confirms a freshly swapped image or reboots without confirming. One tick is one
`smf_run_state` with the sleep after it. The clock moves between any two reads of it by an arbitrary
amount, so ticks may be as late as they like.
-/

namespace DiveCANHead.Post

open DiveCANHead.Cells

/-- `PostState_t`. -/
inductive PostState where
  | init
  | waitingCells
  | waitingConsensus
  | waitingPpo2Tx
  | waitingHandset
  | waitingSolenoid
  | confirmed
  | failedTimeout
  | failedCell
  | failedConsensus
  | failedNoPpo2Tx
  | failedNoHandset
  | failedSolenoid
  deriving DecidableEq, Repr

/-- `POST_PASS_BIT_*`. -/
inductive PostCheck where
  | cells
  | consensus
  | ppo2Tx
  | handset
  | solenoid
  deriving DecidableEq, Repr

/-- The value of a `POST_PASS_BIT_*`. -/
def PostCheck.bit : PostCheck → UInt32
  | .cells => 0
  | .consensus => 1
  | .ppo2Tx => 2
  | .handset => 3
  | .solenoid => 4

/-- `POLL_INTERVAL_MS`. -/
def pollIntervalMs : ℤ := 50

/-- `POST_REQUIRED_PPO2_TX_COUNT`. -/
def postRequiredPpo2TxCount : UInt32 := 3

/-- `DIVECAN_ERR_SOL_NORM`. -/
def divecanErrSolNorm : UInt8 := 0x08

/-- The Kconfig values the gate is built with. -/
structure PostConfig where
  deadlineMs : ℤ
  cellMs : ℤ
  consensusMs : ℤ
  ppo2TxMs : ℤ
  handsetMs : ℤ
  solMs : ℤ
  cellCount : ℕ
  hasO2Solenoid : Bool
  deriving DecidableEq, Repr

/-- What one tick finds: the channel reads (`none` where the read fails), the counters, the time
that passes before the sample and then before each further read of the clock, and the result of
`boot_write_img_confirmed` should the tick get that far. -/
structure Tick where
  cell : ℕ → Option CellStatus
  consensus : Option UInt8
  txCount : UInt32
  busInitCount : UInt32
  busIdCount : UInt32
  solenoid : Option UInt8
  stall : ℕ
  toDeadline : ℕ
  toBudget : ℕ
  toEntry : ℕ
  confirmRc : ℤ

/-- A call of `mark_check_passed`: the tick it was made in and when that was sampled. -/
structure PostPass where
  check : PostCheck
  atMs : ℤ
  seen : Tick

/-- `PostSmCtx_t` with the clock and what the thread has done: the two atomics, the results of
`boot_write_img_confirmed`, the reboot. `live` is whether the thread runs and goes on. -/
structure PostSm where
  state : PostState
  startMs : ℤ
  stateStartMs : ℤ
  txBaseline : UInt32
  rxBaseline : UInt32
  now : ℤ
  reported : PostState
  passMask : UInt32
  passed : List PostPass
  confirms : List ℤ
  rebooted : Bool
  live : Bool

/-! ## The checks -/

def cellIsAlive : Option CellStatus → Bool
  | some .ok | some .needCal => true
  | some .degraded | some .fail | none => false

/-- The checks of the cells the build has. -/
def allCellsAlive (cfg : PostConfig) (tick : Tick) : Bool :=
  cellIsAlive (tick.cell 0) && (cfg.cellCount < 2 || cellIsAlive (tick.cell 1)) &&
    (cfg.cellCount < 3 || cellIsAlive (tick.cell 2))

def consensusIsAlive (tick : Tick) : Bool :=
  match tick.consensus with
  | some ppo2 => ppo2 ≠ ppo2Fail
  | none => false

def solenoidIsAlive (cfg : PostConfig) (tick : Tick) : Bool :=
  !cfg.hasO2Solenoid || tick.solenoid = some divecanErrSolNorm

/-- `handset_rx_total`, saturating at `UINT32_MAX`. -/
def handsetRxTotal (initCount idCount : UInt32) : UInt32 :=
  UInt32.ofNat (min (initCount.toNat + idCount.toNat) (2 ^ 32 - 1))

/-- What a waiting state tests in a tick. -/
def PostCheck.alive (cfg : PostConfig) (txBaseline rxBaseline : UInt32) (tick : Tick) :
    PostCheck → Bool
  | .cells => allCellsAlive cfg tick
  | .consensus => consensusIsAlive tick
  | .ppo2Tx => postRequiredPpo2TxCount ≤ tick.txCount - txBaseline
  | .handset => rxBaseline < handsetRxTotal tick.busInitCount tick.busIdCount
  | .solenoid => solenoidIsAlive cfg tick

def deadlineRemainingMs (cfg : PostConfig) (s : PostSm) : ℤ := cfg.deadlineMs - (s.now - s.startMs)

def overallDeadlineExceeded (cfg : PostConfig) (s : PostSm) : Bool := deadlineRemainingMs cfg s ≤ 0

def stateBudgetExceeded (s : PostSm) (budgetMs : ℤ) : Bool := budgetMs ≤ s.now - s.stateStartMs

/-! ## The state machine -/

def PostSm.elapse (s : PostSm) (ms : ℕ) : PostSm := { s with now := s.now + ms }

/-- `mark_check_passed`. -/
def markCheckPassed (s : PostSm) (check : PostCheck) (next : PostState) (tick : Tick) : PostSm :=
  { s with
    passMask := s.passMask ||| (1 <<< check.bit)
    reported := next
    passed := s.passed ++ [⟨check, s.now, tick⟩] }

/-- The common entry of the waiting states. -/
def enterWaitingState (s : PostSm) (state : PostState) (tick : Tick) : PostSm :=
  { (s.elapse tick.toEntry) with stateStartMs := s.now + tick.toEntry, reported := state }

/-- The entry of `POST_CONFIRMED`: the state stays as `mark_check_passed` left it whatever the call
returns. -/
def postConfirmedEntry (s : PostSm) (tick : Tick) : PostSm :=
  { s with confirms := s.confirms ++ [tick.confirmRc], live := false }

/-- `abort_and_reboot`, the entry of every failed state. -/
def abortAndReboot (s : PostSm) (failState : PostState) : PostSm :=
  { s with reported := failState, rebooted := true, live := false }

/-- `smf_set_state`, with the entry of the new state out of `post_states`. -/
def postSetState (s : PostSm) (state : PostState) (tick : Tick) : PostSm :=
  let s := { s with state }
  match state with
  | .init => s
  | .waitingCells | .waitingConsensus | .waitingPpo2Tx | .waitingHandset | .waitingSolenoid =>
    enterWaitingState s state tick
  | .confirmed => postConfirmedEntry s tick
  | .failedTimeout | .failedCell | .failedConsensus | .failedNoPpo2Tx | .failedNoHandset
  | .failedSolenoid => abortAndReboot s state

/-- The common shape of the run actions: the check first, then the deadline, then the budget. -/
def waitingRun (cfg : PostConfig) (s : PostSm) (tick : Tick) (check : PostCheck)
    (next failed : PostState) (budgetMs : ℤ) : PostSm :=
  if check.alive cfg s.txBaseline s.rxBaseline tick then
    postSetState (markCheckPassed s check next tick) next tick
  else if overallDeadlineExceeded cfg (s.elapse tick.toDeadline) then
    postSetState (s.elapse tick.toDeadline) .failedTimeout tick
  else if stateBudgetExceeded ((s.elapse tick.toDeadline).elapse tick.toBudget) budgetMs then
    postSetState ((s.elapse tick.toDeadline).elapse tick.toBudget) failed tick
  else (s.elapse tick.toDeadline).elapse tick.toBudget

def postCellsRun (cfg : PostConfig) (s : PostSm) (tick : Tick) : PostSm :=
  waitingRun cfg s tick .cells .waitingConsensus .failedCell cfg.cellMs

def postConsensusRun (cfg : PostConfig) (s : PostSm) (tick : Tick) : PostSm :=
  waitingRun cfg s tick .consensus .waitingPpo2Tx .failedConsensus cfg.consensusMs

def postPpo2TxRun (cfg : PostConfig) (s : PostSm) (tick : Tick) : PostSm :=
  waitingRun cfg s tick .ppo2Tx .waitingHandset .failedNoPpo2Tx cfg.ppo2TxMs

def postHandsetRun (cfg : PostConfig) (s : PostSm) (tick : Tick) : PostSm :=
  waitingRun cfg s tick .handset .waitingSolenoid .failedNoHandset cfg.handsetMs

def postSolenoidRun (cfg : PostConfig) (s : PostSm) (tick : Tick) : PostSm :=
  waitingRun cfg s tick .solenoid .confirmed .failedSolenoid cfg.solMs

/-- `smf_run_state`. -/
def smfRunState (cfg : PostConfig) (s : PostSm) (tick : Tick) : PostSm :=
  match s.state with
  | .waitingCells => postCellsRun cfg s tick
  | .waitingConsensus => postConsensusRun cfg s tick
  | .waitingPpo2Tx => postPpo2TxRun cfg s tick
  | .waitingHandset => postHandsetRun cfg s tick
  | .waitingSolenoid => postSolenoidRun cfg s tick
  | _ => s

/-- The sleep of a thread that goes on. -/
def postSleep (s : PostSm) : PostSm :=
  if s.live then { s with now := s.now + pollIntervalMs } else s

/-- One round of the loop of `run_post_sequence`, up to the end of its sleep. -/
def postTick (cfg : PostConfig) (s : PostSm) (tick : Tick) : PostSm :=
  if s.live then postSleep (smfRunState cfg (s.elapse tick.stall) tick) else s

/-! ## The boot -/

/-- `BOOT_SWAP_TYPE_*`. -/
inductive BootSwapType where
  | none
  | test
  | perm
  | revert
  | fail
  deriving DecidableEq, Repr

/-- `PostInitAction_t`. -/
inductive PostInitAction where
  | silent
  | defer
  | run
  deriving DecidableEq, Repr

def firmwareConfirmDecide (confirmed : Bool) (swapType : BootSwapType) : PostInitAction :=
  if confirmed then .silent else if swapType = .test then .defer else .run

/-- What the boot finds: MCUboot's state, the clock and the counters as the thread starts. -/
structure PostBoot where
  imgConfirmed : Bool
  swapType : BootSwapType
  uptimeMs : ℤ
  txCount : UInt32
  busInitCount : UInt32
  busIdCount : UInt32
  toEntry : ℕ
  deriving DecidableEq, Repr

/-- The context before the thread runs. -/
def PostBoot.fresh (boot : PostBoot) : PostSm where
  state := .init
  startMs := boot.uptimeMs
  stateStartMs := 0
  txBaseline := boot.txCount
  rxBaseline := handsetRxTotal boot.busInitCount boot.busIdCount
  now := boot.uptimeMs
  reported := .init
  passMask := 0
  passed := []
  confirms := []
  rebooted := false
  live := false

/-- `smf_set_initial`, and with it the entry of the first state. -/
def postStart (boot : PostBoot) : PostSm :=
  { boot.fresh with
    state := .waitingCells
    live := true
    now := boot.uptimeMs + boot.toEntry
    stateStartMs := boot.uptimeMs + boot.toEntry
    reported := .waitingCells }

/-- `firmware_confirm_init`: the thread starts only where there is something to validate. -/
def firmwareConfirmInit (boot : PostBoot) : PostSm :=
  match firmwareConfirmDecide boot.imgConfirmed boot.swapType with
  | .silent | .defer => { boot.fresh with reported := .confirmed }
  | .run => postStart boot

/-- The gate after `n` ticks. -/
def postRun (cfg : PostConfig) (boot : PostBoot) (env : ℕ → Tick) : ℕ → PostSm
  | 0 => firmwareConfirmInit boot
  | n + 1 => postTick cfg (postRun cfg boot env n) (env n)

end DiveCANHead.Post
