import DiveCANHead.Broadcast.Frames
import DiveCANHead.Cells.Consensus
import DiveCANHead.Cells.Digital
import DiveCANHead.Lib.Numerals
import DiveCANHead.Lib.Runs

/-!
# From the cells to the handset (`consensus_subscriber.c`, `divecan_ppo2_tx.c`)

The drivers publish what their cells read. The consensus thread reads the channels one after
another, votes and publishes the vote; the transmitter sends the last vote published, in three
frames. Every channel operation may time out, and the drivers may publish between any two reads.
The alarm that the consensus thread updates is a machine of its own.
-/

namespace DiveCANHead.Broadcast

open DiveCANHead.Lib DiveCANHead.IsoTp DiveCANHead.Cells

attribute [local instance] neZero_three

/-- The Kconfig symbols: `CELL_COUNT`, `DIVECAN_PPO2_SLOT_3_CONSENSUS` with what it depends on, and
the tick rate; with them the identity latched at boot. -/
structure TxBuild where
  cellCount : ℕ
  slot3Consensus : Bool
  tickRate : ℕ
  devType : DiveCANType
  fits : 1 ≤ cellCount ∧ cellCount ≤ 3
  two_cells : slot3Consensus = true → cellCount = 2

/-- `STALENESS_TIMEOUT_MS` in ticks. -/
def TxBuild.staleness (b : TxBuild) : ℤ := kMsToTicksCeil64 b.tickRate 10000

/-! ## The consensus thread -/

def zeroCell : OxygenCellMsg where
  ppo2 := 0
  precisionPpo2 := 0
  millivolts := 0
  status := .ok
  timestampTicks := 0

/-- A cell that could not be read, or is compiled out. -/
def failedCell : OxygenCellMsg := { zeroCell with status := .fail, ppo2 := ppo2Fail }

/-- `read_cell_or_fail`. -/
def readCellOrFail (chan : OxygenCellMsg) (ok : Bool) : OxygenCellMsg :=
  if ok = true then chan else failedCell

/-- What the vote is given: the cells that are compiled out have failed. -/
def cellsOf (b : TxBuild) (snapshot : PerCell OxygenCellMsg) : PerCell OxygenCellMsg := fun i =>
  if (i : ℕ) < b.cellCount then snapshot i else failedCell

/-! ## The transmitter -/

/-- A zeroed `ConsensusMsg_t`. -/
def zeroConsensus : ConsensusMsg where
  consensusPpo2 := 0
  precisionConsensus := 0
  ppo2Array _ := 0
  precisionPpo2Array _ := 0
  milliArray _ := 0
  statusArray _ := .ok
  includeArray _ := false
  confidence := 0

/-- `chan_consensus` before the first vote. -/
def initialConsensus : ConsensusMsg := { zeroConsensus with consensusPpo2 := ppo2Fail }

/-- What is sent where the channel could not be read. -/
def unreadConsensus : ConsensusMsg :=
  { zeroConsensus with
    ppo2Array := fun _ => ppo2Fail
    statusArray := fun _ => .fail
    includeArray := fun _ => false
    consensusPpo2 := ppo2Fail }

/-- `divecan_set_failed_cells`: the values, and whether the mask over all of them was applied. -/
def divecanSetFailedCells (ppo2 : PerCell UInt8) (status : PerCell CellStatus) (count : ℕ)
    (isCalibrating : Bool) : PerCell UInt8 × Bool :=
  let needsCal := cellIndices.any fun i => decide ((i : ℕ) < count ∧ status i = .needCal)
  if (needsCal && !isCalibrating) = true then
    (fun i => if (i : ℕ) < count then ppo2Fail else ppo2 i, true)
  else (fun i => if (i : ℕ) < count ∧ status i = .fail then ppo2Fail else ppo2 i, false)

/-- `calibration_masked`. -/
def calibrationMasked (consensus : ConsensusMsg) (isCalibrating : Bool) : Bool :=
  (divecanSetFailedCells consensus.ppo2Array consensus.statusArray 3 isCalibrating).2

/-- `ppo2`: with the consensus in the third slot where the build puts it there. -/
def ppo2Slots (b : TxBuild) (consensus : ConsensusMsg) (isCalibrating : Bool) : PerCell UInt8 :=
  let ppo2 :=
    (divecanSetFailedCells consensus.ppo2Array consensus.statusArray 3 isCalibrating).1
  if (b.slot3Consensus && !calibrationMasked consensus isCalibrating) = true then
    Function.update ppo2 2 consensus.consensusPpo2
  else ppo2

def cell3Included (b : TxBuild) (consensus : ConsensusMsg) (isCalibrating : Bool) : Bool :=
  if (b.slot3Consensus && !calibrationMasked consensus isCalibrating) = true then
    decide (ppo2Fail ≠ consensus.consensusPpo2) && decide (0 < consensus.confidence)
  else consensus.includeArray 2

/-- The frames of one turn of `divecan_ppo2_tx_thread`. -/
def ppo2Frames (b : TxBuild) (consensus : ConsensusMsg) (isCalibrating : Bool) :
    List DiveCANMessage :=
  let ppo2 := ppo2Slots b consensus isCalibrating
  [txPpo2 b.devType (ppo2 0) (ppo2 1) (ppo2 2),
    txMillivolts b.devType (consensus.milliArray 0) (consensus.milliArray 1)
      (consensus.milliArray 2),
    txCellState b.devType (consensus.includeArray 0) (consensus.includeArray 1)
      (cell3Included b consensus isCalibrating) consensus.consensusPpo2]

/-! ## The threads together -/

/-- What a vote went on: what was read of each cell, whether its channel could be read, and the
uptime. -/
structure Vote where
  cells : PerCell OxygenCellMsg
  readOk : PerCell Bool
  now : ℤ

/-- The channels, the consensus thread's array and how many cells it has read, and the bus. `said`
and `lastVote` are history: all that the channel of a cell has held, and the last vote that was
published. -/
structure TxState where
  cellChans : PerCell OxygenCellMsg
  consensusChan : ConsensusMsg
  snapshot : PerCell OxygenCellMsg
  readOk : PerCell Bool
  next : ℕ
  bus : List DiveCANMessage
  said : PerCell (List OxygenCellMsg)
  lastVote : Option Vote

/-- The channels as `oxygen_cell_channels.c` defines them. -/
def TxState.boot : TxState where
  cellChans _ := failedCell
  consensusChan := initialConsensus
  snapshot _ := zeroCell
  readOk _ := false
  next := 0
  bus := []
  said _ := [failedCell]
  lastVote := none

/-- A driver publishes; the consensus thread reads the next cell, or votes and publishes; the
transmitter takes a turn. A Boolean says whether a channel operation was in time. -/
inductive TxEvent where
  | publish (cell : Fin 3) (msg : OxygenCellMsg)
  | readCell (cell : Fin 3) (ok : Bool)
  | vote (now : ℤ) (ok : Bool)
  | transmit (ok isCalibrating : Bool)

def txStep (b : TxBuild) (s : TxState) : TxEvent → Option TxState
  | .publish cell msg =>
    if (cell : ℕ) < b.cellCount then
      some { s with
        cellChans := Function.update s.cellChans cell msg
        said := Function.update s.said cell (msg :: s.said cell) }
    else none
  | .readCell cell ok =>
    if (cell : ℕ) = s.next ∧ s.next < b.cellCount then
      some { s with
        snapshot := Function.update s.snapshot cell (readCellOrFail (s.cellChans cell) ok)
        readOk := Function.update s.readOk cell ok
        next := s.next + 1 }
    else none
  | .vote now ok =>
    if s.next = b.cellCount then
      let vote : Vote := ⟨cellsOf b s.snapshot, s.readOk, now⟩
      let s := { s with snapshot := fun _ => zeroCell, readOk := fun _ => false, next := 0 }
      if ok = true then
        some { s with
          consensusChan := consensusCalculate vote.cells b.cellCount now b.staleness
          lastVote := some vote }
      else some s
    else none
  | .transmit ok isCalibrating =>
    let consensus := if ok = true then s.consensusChan else unreadConsensus
    some { s with bus := s.bus ++ ppo2Frames b consensus isCalibrating }

end DiveCANHead.Broadcast
