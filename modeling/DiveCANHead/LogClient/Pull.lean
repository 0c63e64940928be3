import DiveCANHead.Lib.Runs
import DiveCANHead.LogClient.Replay
import Mathlib.Data.Int.Notation

/-!
# Pulling a log into a store (`_pullLogChunks`)

One turn of the loop asks for a block. What overlaps with the saved part is compared with it, and
only what comes after that is appended.
-/

namespace DiveCANHead.LogClient

open DiveCANHead.Lib

/-- The arguments of an attempt with a store: `opts`, the negotiated block, and how much of the log
is saved. -/
structure PullConfig where
  resumeBytes : ℕ
  negotiatedBlock : ℕ
  maxBlocks : Option ℕ := none
  maxBytes : ℤ := 64 * 1024 * 1024
  deriving DecidableEq, Repr

/-- What `store.append` does; a write that fails may still be kept by the store, and written when
the attempt is finished. -/
inductive Append where
  | ok
  | failed (kept : Bool)
  deriving DecidableEq, Repr

/-- What one turn of the loop meets: an abort, the response or none, and what the store does. -/
structure Turn where
  aborted : Bool := false
  response : Option (List UInt8)
  readable : ℕ → ℕ → Bool := fun _ _ => true
  append : Append := .ok

inductive PullStatus where
  | pulling
  | complete
  | failed (e : PullError)
  deriving DecidableEq, Repr

/-- The variables of the loop; `blocks` are the bodies that were received. -/
structure Pull where
  status : PullStatus := .pulling
  store : List UInt8
  verifier : StorePrefixVerifier := {}
  saved : ℕ
  transferred : ℕ := 0
  replayStoredOffset : ℕ := 0
  reconciledFrom : ℕ := 0
  seq : UInt8 := 1
  blocks : List (List UInt8) := []
  deriving DecidableEq, Repr

namespace Pull

def fail (s : Pull) (e : PullError) : Pull := { s with status := .failed e }

/-- The first block of a resumed attempt says where the overlap starts. -/
def reconcile (cfg : PullConfig) (s : Pull) (t : Turn) (body : List UInt8) :
    Except PullError (ℕ × Pull) :=
  if s.transferred = 0 ∧ cfg.resumeBytes > 0 then
    match prepareStoredReplay s.store t.readable cfg.resumeBytes body with
    | .error e => .error e
    | .ok replay => .ok (replay.bodyOffset, { s with
        replayStoredOffset := replay.storedOffset
        reconciledFrom := replay.reconciledFrom })
  else .ok (0, s)

/-- What overlaps is compared with the store. -/
def compare (cfg : PullConfig) (s : Pull) (t : Turn) (body : List UInt8) (bodyOffset : ℕ) :
    Except PullError (ℕ × Pull) :=
  if s.replayStoredOffset < cfg.resumeBytes then
    let verifyLength := min (body.length - bodyOffset) (cfg.resumeBytes - s.replayStoredOffset)
    match s.verifier.verify s.store t.readable cfg.resumeBytes
        ((body.drop bodyOffset).take verifyLength) s.replayStoredOffset with
    | .error e => .error e
    | .ok verifier => .ok (bodyOffset + verifyLength, { s with
        verifier
        replayStoredOffset := s.replayStoredOffset + verifyLength })
  else .ok (bodyOffset, s)

/-- What comes after the overlap is appended. -/
def extend (cfg : PullConfig) (s : Pull) (t : Turn) (body : List UInt8) (bodyOffset : ℕ) :
    Pull :=
  if bodyOffset < body.length then
    let appendBytes := body.drop bodyOffset
    if cfg.maxBytes < (s.saved + appendBytes.length : ℕ) then s.fail .byteLimit
    else
      match t.append with
      | .ok => { s with
          store := s.store ++ appendBytes
          saved := s.saved + appendBytes.length }
      | .failed kept => { s with
          status := .failed .storeFailed
          store := if kept then s.store ++ appendBytes else s.store }
  else s

/-- The end of a turn: a short block ends the log. -/
def close (cfg : PullConfig) (s : Pull) (wireBody body : List UInt8) : Pull :=
  if s.status = .pulling then
    let s := { s with
      transferred := s.transferred + body.length
      seq := if s.seq + 1 = 0 then 1 else s.seq + 1 }
    if wireBody.length < cfg.negotiatedBlock then
      if s.replayStoredOffset < cfg.resumeBytes then
        s.fail (.endedEarly cfg.resumeBytes s.replayStoredOffset s.reconciledFrom)
      else { s with status := .complete }
    else s
  else s

/-- What is done with a body. -/
def take (cfg : PullConfig) (s : Pull) (t : Turn) (wireBody : List UInt8) : Pull :=
  match if s.transferred = 0 ∧ wireBody.length > 0 then firstStoredBody wireBody
      else .ok wireBody with
  | .error e => s.fail e
  | .ok body =>
    match s.reconcile cfg t body with
    | .error e => s.fail e
    | .ok (bodyOffset, r) =>
      match r.compare cfg t body bodyOffset with
      | .error e => r.fail e
      | .ok (bodyOffset, c) => (c.extend cfg t body bodyOffset).close cfg wireBody body

end Pull

/-- One turn of the loop. -/
def pullStep (cfg : PullConfig) (s : Pull) (t : Turn) : Option Pull :=
  if s.status ≠ .pulling then none
  else if t.aborted then some (s.fail .aborted)
  else if cfg.maxBlocks.any (· ≤ s.blocks.length) then some (s.fail .blockLimit)
  else
    match t.response with
    | none => some (s.fail .transport)
    | some resp => some ({ s with blocks := s.blocks ++ [resp.drop 2] }.take cfg t (resp.drop 2))

/-- An attempt on a store that holds the saved part. -/
def Pull.start (saved : List UInt8) : Pull := { store := saved, saved := saved.length }

end DiveCANHead.LogClient
