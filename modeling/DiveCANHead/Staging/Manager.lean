import DiveCANHead.UdsClient.Queue

/-!
# Staging an image (`OTAManager.js`)

`stageImage` opens a download, sends the image in blocks, and asks for the exit. Each wait of it
is a `Stage`; what it does next is a function of what the call that it waits for has settled
with. A block whose reply is lost is sent again, and a retry that is answered with NRC 0x73 counts
as delivered; other losses start another attempt, which resumes an open download at the first
block that has not been counted.
-/

namespace DiveCANHead.Staging

open DiveCANHead.UdsClient

/-! ## The plan and how far it has come -/

/-- The arguments of `stageImage`: the image, the cap on a block if there is one, and
`OTA_RECOVERY`. -/
structure Plan where
  bytes : List UInt8
  blockSize : Option ℤ := none
  maxAttempts : ℤ := 4
  blockRetries : ℤ := 2
  retryDelayMs : ℤ := 1000
  staleDownloadWaitMs : ℤ := 35000
  deriving DecidableEq, Repr

/-- `progress`: while `active`, the head has a download open whose first `acked` blocks are
counted as written. -/
structure Progress where
  block : ℕ := 0
  total : ℕ := 0
  acked : ℕ := 0
  active : Bool := false
  deriving DecidableEq, Repr

/-- Where a RequestDownload under `_withSession` is: its first call, the session that it lapsed
into, its second call. -/
inductive SessionStep where
  | first
  | session
  | again
  deriving DecidableEq, Repr

/-- What goes on once the link has been recovered. -/
inductive After where
  | block (idx : ℕ) (retriesLeft : ℤ)
  | attempt
  deriving DecidableEq, Repr

/-- What `stageImage` waits for; the call is `none` where the client has turned it down at once. -/
inductive Stage where
  | download (second : Bool) (step : SessionStep) (call : Option ℕ)
  | stale (since : ℤ)
  | block (idx : ℕ) (retried : Bool) (retriesLeft : ℤ) (call : Option ℕ)
  | exit (call : Option ℕ)
  | recovering (after : After) (since : ℤ)
  | resolved
  | rejected
  deriving DecidableEq, Repr

/-- `stageImage` with its client; `mark` is the number of the first call since a block was counted
last, or a download opened or given up. -/
structure Stager where
  client : Client
  stage : Stage
  progress : Progress := {}
  attempt : ℤ := 1
  aborted : Bool := false
  mark : ℕ := 0
  deriving DecidableEq, Repr

/-! ## Errors -/

/-- An error as the recovery sees it: a negative response, a user abort, anything else. -/
inductive Fault where
  | nrc (code : UInt8)
  | validation
  | transport
  deriving DecidableEq, Repr

def nrcBusyRepeatRequest : UInt8 := 0x21

def nrcRequestSequenceError : UInt8 := 0x24

def nrcWrongBlockSequence : UInt8 := 0x73

def nrcServiceNotInSession : UInt8 := 0x7F

inductive Action where
  | resume
  | restart
  | abort
  deriving DecidableEq, Repr

/-- `_classifyStagingError`. -/
def classifyStagingError : Fault → Action
  | .validation => .abort
  | .nrc code =>
    if code = nrcRequestSequenceError ∨ code = nrcServiceNotInSession ∨
        code = nrcBusyRepeatRequest then .restart
    else .abort
  | .transport => .resume

/-- `_isTransientError`. -/
def isTransientError (f : Fault) : Bool := f = .transport

/-- The error that a call ends with, if it does. -/
def faultOf : Outcome → Fault
  | .nrc code _ => .nrc code
  | .resolved _ | .malformed _ | .failed _ => .transport

/-! ## Steps -/

/-- `OTA_REQ_OVERHEAD`. -/
def otaReqOverhead : ℤ := 3

/-- `UDS_SESSION_PROGRAMMING`. -/
def udsSessionProgramming : UInt8 := 0x02

/-- `MCUBOOT_IMAGE_MAGIC` as it lies in the image. -/
def mcubootImageMagic : List UInt8 := [0x3D, 0xB8, 0xF3, 0x96]

/-- `HEADER_MIN_LEN`. -/
def headerMinLen : ℕ := 28

/-- `parseMcubootImage(bytes).valid`. -/
def validImage (bytes : List UInt8) : Bool :=
  headerMinLen ≤ bytes.length ∧ bytes.take 4 = mcubootImageMagic

/-- `bytes.slice(off, off + progress.block)` for a block index. -/
def chunk (bytes : List UInt8) (block idx : ℕ) : List UInt8 :=
  (bytes.drop (idx * block)).take block

/-- The request for a block; index 0 has sequence number 1. -/
def blockService (plan : Plan) (p : Progress) (idx : ℕ) : Service :=
  .transferData ((idx + 1) % 256) (chunk plan.bytes p.block idx)

def downloadService (plan : Plan) : Service := .requestDownload 0 plan.bytes.length .be

namespace Stager

/-- A call of the client, which the stage waits for. -/
def call (s : Stager) (service : Service) (now : ℤ) (stage : Option ℕ → Stage) : Stager :=
  { s with
    client := s.client.sendRequest service now
    stage := stage (if s.client.transportAvailable then some s.client.nextId else none) }

/-- What the call has settled with. -/
def outcome (s : Stager) : Option ℕ → Option Outcome
  | some id => (s.client.settled.find? fun p => p.1.id = id).map Prod.snd
  | none => some (.failed .transportUnavailable)

/-- The progress changes; later calls are about what comes next. -/
def move (s : Stager) (progress : Progress) : Stager :=
  { s with progress := progress, mark := s.client.nextId }

/-- The `catch` of `stageImage`. -/
def stagingFailed (plan : Plan) (s : Stager) (f : Fault) (now : ℤ) : Stager :=
  if classifyStagingError f = .abort ∨ plan.maxAttempts ≤ s.attempt then
    { s with stage := .rejected }
  else
    let s :=
      if classifyStagingError f = .restart then
        s.move { s.progress with active := false, acked := 0 }
      else s
    { s with attempt := s.attempt + 1, stage := .recovering .attempt now }

/-- `uds.requestDownload`. -/
def requestDownload (plan : Plan) (s : Stager) (second : Bool) (step : SessionStep) (now : ℤ) :
    Stager :=
  s.call (downloadService plan) now (.download second step)

/-- `uds.transferData` for a block. -/
def sendBlock (plan : Plan) (s : Stager) (idx : ℕ) (retried : Bool) (retriesLeft now : ℤ) :
    Stager :=
  s.call (blockService plan s.progress idx) now (.block idx retried retriesLeft)

/-- The loop of `_stageAttempt`, and what follows it. -/
def nextBlock (plan : Plan) (s : Stager) (now : ℤ) : Stager :=
  if s.progress.acked < s.progress.total then
    if s.aborted then s.stagingFailed plan .validation now
    else s.sendBlock plan s.progress.acked false plan.blockRetries now
  else s.call .requestTransferExit now .exit

/-- `_stageAttempt`. -/
def stageAttempt (plan : Plan) (s : Stager) (now : ℤ) : Stager :=
  if s.progress.active then s.nextBlock plan now else s.requestDownload plan false .first now

/-- The negotiated block of a RequestDownload response. -/
def negotiatedBlock (response : List UInt8) : ℕ :=
  (response.getD 2 0).toNat * 256 + (response.getD 3 0).toNat

/-- The download is open. -/
def opened (plan : Plan) (s : Stager) (response : List UInt8) (now : ℤ) : Stager :=
  let negotiated := negotiatedBlock response
  let block := min (plan.blockSize.getD negotiated) negotiated - otaReqOverhead
  if block ≤ 0 then s.stagingFailed plan .transport now
  else
    let block := block.toNat
    (s.move ⟨block, (plan.bytes.length + (block - 1)) / block, 0, true⟩).nextBlock plan now

/-- A RequestDownload has failed: after the first, a stale download may be open. -/
def downloadFailed (plan : Plan) (s : Stager) (second : Bool) (f : Fault) (now : ℤ) : Stager :=
  if second = false ∧ f = .nrc nrcRequestSequenceError then { s with stage := .stale now }
  else s.stagingFailed plan f now

/-- `_withSession` in `_requestDownloadRecovered`. -/
def downloadSettled (plan : Plan) (s : Stager) (second : Bool) (step : SessionStep) (o : Outcome)
    (now : ℤ) : Stager :=
  match step, o with
  | .session, .resolved _ => s.requestDownload plan second .again now
  | .first, .resolved m | .again, .resolved m => s.opened plan m.data now
  | step, o =>
    if step = .first ∧ faultOf o = .nrc nrcServiceNotInSession then
      s.call (.enterSession udsSessionProgramming) now (.download second .session)
    else s.downloadFailed plan second (faultOf o) now

/-- The block counts as written. -/
def delivered (plan : Plan) (s : Stager) (idx : ℕ) (now : ℤ) : Stager :=
  (s.move { s.progress with acked := idx + 1 }).nextBlock plan now

/-- `_transferBlockRetried`. -/
def blockSettled (plan : Plan) (s : Stager) (idx : ℕ) (retried : Bool) (retriesLeft : ℤ)
    (o : Outcome) (now : ℤ) : Stager :=
  match o with
  | .resolved _ => s.delivered plan idx now
  | o =>
    if retried = true ∧ faultOf o = .nrc nrcWrongBlockSequence then s.delivered plan idx now
    else if s.aborted then s.stagingFailed plan .validation now
    else if isTransientError (faultOf o) = false ∨ retriesLeft ≤ 0 then
      s.stagingFailed plan (faultOf o) now
    else { s with stage := .recovering (.block idx (retriesLeft - 1)) now }

/-- The exit is answered. -/
def exitSettled (plan : Plan) (s : Stager) (o : Outcome) (now : ℤ) : Stager :=
  match o with
  | .resolved _ => { s.move { s.progress with active := false } with stage := .resolved }
  | o => s.stagingFailed plan (faultOf o) now

/-- The call that the stage waits for has settled. -/
def proceed (plan : Plan) (s : Stager) (now : ℤ) : Option Stager :=
  match s.stage with
  | .download second step call =>
    (s.outcome call).map fun o => s.downloadSettled plan second step o now
  | .block idx retried retriesLeft call =>
    (s.outcome call).map fun o => s.blockSettled plan idx retried retriesLeft o now
  | .exit call => (s.outcome call).map fun o => s.exitSettled plan o now
  | .stale _ | .recovering _ _ | .resolved | .rejected => none

/-- `_recoverLink` ends: the responses have been quiet and the reconnect has returned, or not. -/
def recover (plan : Plan) (s : Stager) (now : ℤ) (reconnected : Bool) : Option Stager :=
  match s.stage with
  | .recovering after since =>
    if s.aborted ∨ plan.retryDelayMs ≤ now - max since s.client.lastResponseTime then
      match after with
      | .attempt =>
        some (if s.aborted = true ∨ reconnected = false then { s with stage := .rejected }
          else s.stageAttempt plan now)
      | .block idx retriesLeft =>
        some (if s.aborted then s.stagingFailed plan .validation now
          else if reconnected then s.sendBlock plan idx true retriesLeft now
          else s.stagingFailed plan .transport now)
    else none
  | .download _ _ _ | .stale _ | .block _ _ _ _ | .exit _ | .resolved | .rejected => none

/-- The silence after which a stale download has expired is over. -/
def staleOver (plan : Plan) (s : Stager) (now : ℤ) : Option Stager :=
  match s.stage with
  | .stale since =>
    if s.aborted then some (s.stagingFailed plan .validation now)
    else if plan.staleDownloadWaitMs ≤ now - since then
      some (s.requestDownload plan true .first now)
    else none
  | .download _ _ _ | .block _ _ _ _ | .exit _ | .recovering _ _ | .resolved | .rejected => none

/-- `stageImage` is called on an idle client. -/
def start (plan : Plan) (client : Client) (now : ℤ) : Stager :=
  let s : Stager := { client, stage := .rejected }
  if validImage plan.bytes then s.stageAttempt plan now else s

end Stager

end DiveCANHead.Staging
