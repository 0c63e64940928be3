import DiveCANHead.FlashLog.Reader

/-!
# Selectors of a log download (`uds_log_download.c`, `flash_log_reader.c`)

A selector request is a routine id and a payload that starts with the stream byte.
The resolve worker turns the four index-backed ones into a range of the FCB of
that stream. `FlashView` is what one attempt of the worker finds: whether the
maintenance arena is free, whether the index can be built, and the content of the
two FCBs.
-/

namespace DiveCANHead.LogDownload

open DiveCANHead.FlashLog

/-- `FlashLogDest_t`. -/
inductive FlashLogDest where
  | telemetry
  | text
  deriving DecidableEq, Repr

/-- The destination of a stream byte, below `FL_DEST_COUNT`. -/
def FlashLogDest.ofByte (b : UInt8) : Option FlashLogDest :=
  if b = 0 then some .telemetry else if b = 1 then some .text else none

/-- The negative values of `Status_t`; `io` is any failure of the flash. -/
inductive Errno where
  | noent
  | io
  | busy
  | inval
  | notsup
  deriving DecidableEq, Repr

/-- `FlashLogRange_t`: a range of the FCB of `dest`. -/
structure LogRange where
  dest : FlashLogDest := .telemetry
  range : FlashLogRange := {}
  deriving DecidableEq, Repr

/-- What a resolver returns, and the range it fills in when that is 0. -/
abbrev Outcome := Except Errno LogRange

def Outcome.rc : Outcome → Option Errno
  | .error e => some e
  | .ok _ => none

/-- The caller's zeroed range after the call. -/
def Outcome.range : Outcome → LogRange
  | .error _ => {}
  | .ok r => r

/-! ## Requests -/

def ridSelectByRange : UInt16 := 0xF100

def ridSelectByBoot : UInt16 := 0xF101

def ridSelectByDive : UInt16 := 0xF102

def ridSelectLatestBoot : UInt16 := 0xF103

def ridSelectLatestDive : UInt16 := 0xF104

def ridBeginStream : UInt16 := 0xF105

def ridSelectAll : UInt16 := 0xF106

/-- `sizeof(resolve_params)`. -/
def resolveParamsSize : ℕ := 8

theorem noParams_fit : ([] : List UInt8).length ≤ resolveParamsSize :=
  Nat.zero_le _

/-- A selector request as the handshake keeps it: the id and at most eight bytes
of payload. -/
structure ResolveRequest where
  rid : UInt16 := 0
  params : List UInt8 := []
  fits : params.length ≤ resolveParamsSize := by exact noParams_fit
  deriving DecidableEq

namespace ResolveRequest

def ofData (rid : UInt16) (data : List UInt8) : ResolveRequest where
  rid := rid
  params := data.take resolveParamsSize
  fits := List.length_take_le _ _

/-- A byte of `params[8]`, which is zero behind the payload. -/
def param (q : ResolveRequest) (i : ℕ) : UInt8 := q.params.getD i 0

def bootId (q : ResolveRequest) : UInt32 :=
  (q.param 1).toUInt32 ||| ((q.param 2).toUInt32 <<< 8) ||| ((q.param 3).toUInt32 <<< 16) |||
    ((q.param 4).toUInt32 <<< 24)

def diveId (q : ResolveRequest) : UInt16 :=
  (q.param 1).toUInt16 ||| ((q.param 2).toUInt16 <<< 8)

theorem param_ofData (rid : UInt16) (data : List UInt8) :
    (ofData rid data).param 0 = data.getD 0 0 := by
  cases data with
  | nil => rfl
  | cons b data => rfl

theorem ofData_params (q : ResolveRequest) : ofData q.rid q.params = q := by
  cases q with
  | mk rid params fits =>
    unfold ofData
    congr
    exact List.take_of_length_le fits

end ResolveRequest

/-- `LOG_SELECT_BOOT_MIN_LEN`. -/
def logSelectBootMinLen : ℕ := 5

/-- `LOG_SELECT_DIVE_MIN_LEN`. -/
def logSelectDiveMinLen : ℕ := 3

/-- The least payload of an index-backed selector. -/
def minParams (rid : UInt16) : ℕ :=
  if rid = ridSelectByBoot then logSelectBootMinLen
  else if rid = ridSelectByDive then logSelectDiveMinLen
  else 1

/-- A selector for the worker, with all its parameters. -/
structure Indexed (q : ResolveRequest) : Prop where
  rid : q.rid = ridSelectByBoot ∨ q.rid = ridSelectByDive ∨ q.rid = ridSelectLatestBoot ∨
    q.rid = ridSelectLatestDive
  length : minParams q.rid ≤ q.params.length
  stream : (FlashLogDest.ofByte (q.param 0)).isSome = true

/-! ## Resolvers -/

/-- The loop over the index: the first of the rows of this kind that no other one is
newer than, and its sector. -/
def scanLatest (kind : FlashLogIndexEntry → Bool)
    (newer : FlashLogIndexEntry → FlashLogIndexEntry → Bool) :
    ℕ → Option (FlashLogIndexEntry × ℕ) → List FlashLogIndexEntry → Option (FlashLogIndexEntry × ℕ)
  | _, best, [] => best
  | i, none, row :: rows =>
    scanLatest kind newer (i + 1) (if kind row then some (row, i) else none) rows
  | i, some best, row :: rows =>
    scanLatest kind newer (i + 1)
      (if kind row && newer best.1 row then some (row, i) else some best) rows

def newerBoot (best row : FlashLogIndexEntry) : Bool :=
  best.firstBootId == flInvalidBootId || decide (best.firstBootId < row.firstBootId)

def newerDive (best row : FlashLogIndexEntry) : Bool :=
  decide (best.firstDiveId < row.firstDiveId)

/-- From the sector found to the end of the log. -/
def latestRange (best : Option (FlashLogIndexEntry × ℕ)) : Option FlashLogRange :=
  best.map fun b => sectorRange b.2 none

def resolveLatestBoot (f : Fcb) : Option FlashLogRange :=
  latestRange (scanLatest FlashLogIndexEntry.hasBoot newerBoot 0 none (buildIndex f))

def resolveLatestDive (f : Fcb) : Option FlashLogRange :=
  latestRange (scanLatest FlashLogIndexEntry.hasDiveStart newerDive 0 none (buildIndex f))

/-- What an attempt to resolve finds. -/
structure FlashView where
  arenaFree : Bool := true
  indexError : Option Errno := none
  fcb : FlashLogDest → Fcb

/-- `flash_log_reader_resolve_*`: the index is claimed and built before `impl` runs. -/
def resolveOn (v : FlashView) (stream : FlashLogDest) (impl : Fcb → Option FlashLogRange) :
    Outcome :=
  if v.arenaFree then
    match v.indexError with
    | some e => .error e
    | none =>
      match impl (v.fcb stream) with
      | some r => .ok ⟨stream, r⟩
      | none => .error .noent
  else .error .busy

/-- `fl_call_resolver`. -/
def callResolver (v : FlashView) (q : ResolveRequest) : Outcome :=
  match FlashLogDest.ofByte (q.param 0) with
  | none => .error .inval
  | some stream =>
    if q.rid = ridSelectLatestBoot then resolveOn v stream resolveLatestBoot
    else if q.rid = ridSelectLatestDive then resolveOn v stream resolveLatestDive
    else if q.rid = ridSelectByBoot then resolveOn v stream fun f => resolveBootId f q.bootId
    else if q.rid = ridSelectByDive then resolveOn v stream fun f => resolveDiveId f q.diveId
    else .error .inval

/-- `FL_RESOLVE_MAX_TRIES`. -/
def flResolveMaxTries : ℕ := 300

/-- The loop of `fl_worker_resolve`, over what the successive attempts find: a busy
arena is tried again. -/
def resolveRetrying (q : ResolveRequest) : ℕ → (ℕ → FlashView) → Outcome
  | 0, _ => .error .busy
  | tries + 1, views =>
    match callResolver (views 0) q with
    | .error .busy => resolveRetrying q tries (views ∘ Nat.succ)
    | outcome => outcome

def workerResolve (q : ResolveRequest) (views : ℕ → FlashView) : Outcome :=
  resolveRetrying q flResolveMaxTries views

end DiveCANHead.LogDownload
