import DiveCANHead.LogClient.Pull
import Mathlib.Algebra.Group.Nat.Defs

/-!
# Resumable downloads (`downloadLogResumable`)

An attempt selects the log, begins the stream, negotiates the block, pulls, and exits the transfer.
One that fails for a reason that may pass is followed by another, which replays what the store
holds and goes on behind it.
-/

namespace DiveCANHead.LogClient

open DiveCANHead.Lib

/-- The options: `retry` and the limits of a pull. -/
structure LadderConfig where
  maxAttempts : ℕ
  initialDelayMs : ℕ
  maxDelayMs : ℕ
  maxBlocks : Option ℕ
  maxBytes : ℤ
  attempts : 1 ≤ maxAttempts

/-- `LOG_RETRY_DEFAULTS` and the default limits. -/
def logRetryDefaults : LadderConfig where
  maxAttempts := 5
  initialDelayMs := 5000
  maxDelayMs := 30000
  maxBlocks := none
  maxBytes := 64 * 1024 * 1024
  attempts := by decide

/-- `NRC_BUSY_REPEAT_REQUEST`. -/
def nrcBusyRepeatRequest : UInt8 := 0x21

/-- What a download fails with; a request that fails may carry a negative code. -/
inductive LadderError where
  | aborted
  | otherSelector
  | store
  | uds (nrc : Option UInt8)
  | pull (e : PullError) (nrc : Option UInt8)
  deriving DecidableEq, Repr

/-- No code, or the one of a head that is busy. -/
def nrcPasses : Option UInt8 → Bool
  | none => true
  | some nrc => nrc == nrcBusyRepeatRequest

/-- `_retryableLogError`. -/
def LadderError.retryable : LadderError → Bool
  | .aborted | .otherSelector => false
  | .store => true
  | .uds nrc => nrcPasses nrc
  | .pull .transport nrc => nrcPasses nrc
  | .pull .storeFailed _ => true
  | .pull _ _ => false

/-- Where `downloadLogResumable` is; an attempt that has ended is on its way through the exit of the
transfer and `finishAttempt`. -/
inductive LadderPhase where
  | ready
  | pulling (cfg : PullConfig) (p : Pull)
  | exiting (error : Option LadderError)
  | succeeding
  | presenting
  | failing (e : LadderError)
  | waiting (delayMs : ℕ)
  | done
  | failed (e : LadderError)
  deriving DecidableEq, Repr

/-- `complete` is the flag in the metadata of the store. -/
structure Ladder where
  phase : LadderPhase
  store : List UInt8
  complete : Bool
  attempt : ℕ
  deriving DecidableEq, Repr

/-- A saved part of another selector is not touched. -/
def Ladder.start (store : List UInt8) (complete : Bool) (savedKey resumeKey : Option String) :
    Ladder :=
  let keys := (savedKey.toList ++ resumeKey.toList).filter (· ≠ "")
  if keys.length = 2 ∧ savedKey ≠ resumeKey then ⟨.failed .otherSelector, store, complete, 1⟩
  else ⟨.ready, store, false, 1⟩

/-- What the download meets: whether the store could begin, and what the requests before the
pull came to; a turn of the pull, with the code of a response that failed; the exit of the transfer;
the end of an attempt in the store; and the wait, which may be aborted. -/
inductive LadderEvent where
  | start (store : Bool) (prepared : Except (Option UInt8) ℕ)
  | turn (t : Turn) (nrc : Option UInt8)
  | exit (error : Option (Option UInt8))
  | finish (ok : Bool)
  | delay (aborted : Bool)

/-- The pull of an attempt on this store. -/
def LadderConfig.pull (cfg : LadderConfig) (store : List UInt8) (block : ℕ) : PullConfig where
  resumeBytes := store.length
  negotiatedBlock := block
  maxBlocks := cfg.maxBlocks
  maxBytes := cfg.maxBytes

/-- After a turn of the pull. -/
def Pull.phase (cfg : PullConfig) (p : Pull) (nrc : Option UInt8) : LadderPhase :=
  match p.status with
  | .pulling => .pulling cfg p
  | .complete => .exiting none
  | .failed e => .exiting (some (.pull e nrc))

/-- `delayMs`. -/
def LadderConfig.delayMs (cfg : LadderConfig) (attempt : ℕ) : ℕ :=
  min cfg.maxDelayMs (cfg.initialDelayMs * 2 ^ (attempt - 1))

def ladderStep (cfg : LadderConfig) (s : Ladder) (e : LadderEvent) : Option Ladder :=
  match s.phase, e with
  | .ready, .start false _ => some { s with phase := .failed .store }
  | .ready, .start true (.error nrc) => some { s with phase := .failing (.uds nrc) }
  | .ready, .start true (.ok block) =>
    some { s with phase := .pulling (cfg.pull s.store block) (.start s.store) }
  | .pulling pcfg p, .turn t nrc =>
    (pullStep pcfg p t).map fun q => { s with store := q.store, phase := q.phase pcfg nrc }
  | .exiting none, .exit none => some { s with phase := .succeeding }
  | .exiting none, .exit (some nrc) => some { s with phase := .failing (.uds nrc) }
  | .exiting (some error), .exit _ => some { s with phase := .failing error }
  | .succeeding, .finish true => some { s with phase := .presenting, complete := true }
  | .succeeding, .finish false => some { s with phase := .failing .store }
  | .presenting, .finish true => some { s with phase := .done }
  | .presenting, .finish false => some { s with phase := .failing .store }
  | .failing error, .finish true =>
    if s.attempt < cfg.maxAttempts ∧ error.retryable = true then
      some { s with phase := .waiting (cfg.delayMs s.attempt), complete := false }
    else some { s with phase := .failed error, complete := false }
  | .failing _, .finish false => some { s with phase := .failed .store }
  | .waiting _, .delay true => some { s with phase := .failed .aborted }
  | .waiting _, .delay false => some { s with phase := .ready, attempt := s.attempt + 1 }
  | _, _ => none

end DiveCANHead.LogClient
