import Mathlib.Data.Nat.Notation
import Mathlib.Logic.Function.Basic
import DiveCANHead.Lib.Runs

/-!
# Heartbeats and the watchdog feeder (`heartbeat.c`, `watchdog_feeder.c`)

Threads register a slot and kick it; the feeder compares the counters with those of its previous
check and feeds the watchdog if all have advanced, or if the flag of the long operations is set.
The steps of all threads are interleaved. Beside the state stand the operations in progress, and
which slots were kicked since the last check began and since the one before.
-/

namespace DiveCANHead.Watchdog

open DiveCANHead.Lib

/-- `HEARTBEAT_COUNT`. -/
def heartbeatCount : ℕ := 9

/-- What is bracketed by `heartbeat_set_long_op`: `fl_batch_flush`, `do_capture`,
`factory_image_restore_to_slot1`, `fl_mount_fcb` and `ota_erase_and_init_download`. -/
inductive LongOp where
  | flush
  | capture
  | restore
  | mountRecovery
  | otaErase
  deriving DecidableEq

/-- The locals of `heartbeat_check_all_alive`, and whether an operation was in progress when it
read the flag. -/
structure Scan where
  mask : ℕ → Bool
  longOp : Bool
  alive : Bool := true
  next : ℕ := 0
  opRunning : Bool

/-- Where the feeder is. -/
inductive FeederPc where
  | asleep
  | masked (mask : ℕ → Bool)
  | scanning (scan : Scan)

/-- The module state of the heartbeats, with the feeder. `checks` and `feeds` count; the fields
from `inProgress` on are a record of the run. -/
structure Heartbeats where
  registeredMask : ℕ → Bool := fun _ => false
  longOp : Bool := false
  counters : ℕ → UInt32 := fun _ => 0
  last : ℕ → UInt32 := fun _ => 0
  feeder : FeederPc := .asleep
  checks : ℕ := 0
  feeds : ℕ := 0
  inProgress : List LongOp := []
  kicked : ℕ → Bool := fun _ => false
  kickedBefore : ℕ → Bool := fun _ => false

inductive HeartbeatEvent where
  | register (id : ℕ)
  | kick (id : ℕ)
  | beginOp (op : LongOp)
  | endOp (op : LongOp)
  | readMask
  | readFlag
  | readSlot
  | conclude
  deriving DecidableEq

namespace Heartbeats

/-- `heartbeat_register`. -/
def register (s : Heartbeats) (id : ℕ) : Heartbeats :=
  if id < heartbeatCount then
    { s with registeredMask := Function.update s.registeredMask id true }
  else s

/-- `heartbeat_kick`. -/
def kick (s : Heartbeats) (id : ℕ) : Heartbeats :=
  if id < heartbeatCount then
    { s with
      counters := Function.update s.counters id (s.counters id + 1)
      kicked := Function.update s.kicked id true
      kickedBefore := Function.update s.kickedBefore id true }
  else s

/-- `heartbeat_set_long_op(true)`. -/
def beginOp (s : Heartbeats) (op : LongOp) : Heartbeats :=
  { s with longOp := true, inProgress := op :: s.inProgress }

/-- `heartbeat_set_long_op(false)`, by an operation in progress. -/
def endOp (s : Heartbeats) (op : LongOp) : Option Heartbeats :=
  if op ∈ s.inProgress then
    some { s with longOp := false, inProgress := s.inProgress.erase op }
  else none

/-- `heartbeat_check_all_alive` begins. -/
def readMask (s : Heartbeats) : Option Heartbeats :=
  match s.feeder with
  | .asleep =>
    some { s with
      feeder := .masked s.registeredMask
      kicked := fun _ => false
      kickedBefore := s.kicked }
  | _ => none

def readFlag (s : Heartbeats) : Option Heartbeats :=
  match s.feeder with
  | .masked mask =>
    some { s with
      feeder := .scanning
        { mask := mask, longOp := s.longOp, opRunning := !s.inProgress.isEmpty } }
  | _ => none

/-- One round of the loop over the slots. -/
def readSlot (s : Heartbeats) : Option Heartbeats :=
  match s.feeder with
  | .scanning c =>
    if c.next < heartbeatCount then
      if c.mask c.next then
        let now := s.counters c.next
        some { s with
          feeder := .scanning { c with
            alive := if now = s.last c.next ∧ c.longOp = false then false else c.alive
            next := c.next + 1 }
          last := Function.update s.last c.next now }
      else some { s with feeder := .scanning { c with next := c.next + 1 } }
    else none
  | _ => none

/-- `watchdog_feeder_thread` feeds, after its first check in any case. -/
def conclude (s : Heartbeats) : Option Heartbeats :=
  match s.feeder with
  | .scanning c =>
    if c.next < heartbeatCount then none
    else some { s with
      feeder := .asleep
      checks := s.checks + 1
      feeds := if s.checks = 0 ∨ c.alive = true then s.feeds + 1 else s.feeds }
  | _ => none

end Heartbeats

/-- One step of one of the threads. -/
def heartbeatStep (s : Heartbeats) : HeartbeatEvent → Option Heartbeats
  | .register id => some (s.register id)
  | .kick id => some (s.kick id)
  | .beginOp op => some (s.beginOp op)
  | .endOp op => s.endOp op
  | .readMask => s.readMask
  | .readFlag => s.readFlag
  | .readSlot => s.readSlot
  | .conclude => s.conclude

end DiveCANHead.Watchdog
