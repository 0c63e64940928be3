import DiveCANHead.Uds.Head

/-!
# Who pauses the flash-log writer (`flash_log.c`)

`fl_paused` is one flag that every user sets and clears. The UDS thread carries the download, the
log transfer, the short flash commands and the settings saves; the factory work queue carries the
restore and the captures; `flash_log_init` runs on whichever thread needs it first. A step is one
operation on the flag or on the maintenance arena, so every interleaving of the threads is a run.
-/

namespace DiveCANHead.Maintenance

open DiveCANHead.Lib DiveCANHead.Uds

/-- `flash_log_init`: the mount, and the quiet save of the boot counter after it. -/
inductive MountPhase where
  | unmounted
  | failed
  | saving (wasPaused : Bool)
  | mounted
  deriving DecidableEq, Repr

/-- Where the UDS thread is in an operation that moves the flag. `otaErased` is after the erase of
slot1 and before `ota_downloading_entry`; a `flashBusy true` command ends in a reboot. -/
inductive UdsPhase where
  | idle
  | otaClaimed
  | otaErasing
  | otaErased (ok : Bool)
  | otaLeaving
  | activating
  | streamClaimed
  | streamLeaving
  | flashClaimed (reboots : Bool)
  | flashBusy (reboots : Bool)
  | flashDone
  | saving (wasPaused : Bool)
  | rebooting
  deriving DecidableEq, Repr

/-- Where the factory work queue is. `restore_work_handler` pauses before the claim (`entered`) and
resumes after the release or the refusal (`leaving`). -/
inductive WorkerPhase where
  | idle
  | entered
  | copying
  | leaving
  | rebooting
  | capturing
  deriving DecidableEq, Repr

/-- `fl_paused` with everything that moves it. -/
structure PauseSystem where
  paused : Bool
  mount : MountPhase
  arena : Arena
  ota : OtaState
  streaming : Bool
  uds : UdsPhase
  worker : WorkerPhase
  deriving DecidableEq, Repr

def PauseSystem.boot : PauseSystem where
  paused := false
  mount := .unmounted
  arena := Arena.init
  ota := .idle
  streaming := false
  uds := .idle
  worker := .idle

@[simp, grind =]
def flashLogPause (s : PauseSystem) : PauseSystem := { s with paused := true }

@[simp, grind =]
def flashLogResume (s : PauseSystem) : PauseSystem := { s with paused := false }

/-- The end of `fl_settings_save_one_quiet`. -/
@[simp, grind =]
def quietSaveEnd (s : PauseSystem) (wasPaused : Bool) : PauseSystem :=
  if wasPaused then s else flashLogResume s

@[simp, grind =]
def PauseSystem.release (s : PauseSystem) (owner : MaintArenaOwner) : PauseSystem :=
  { s with arena := maintArenaRelease s.arena (some owner) }

/-- A claim, and where it leads. -/
def PauseSystem.claim (s : PauseSystem) (owner : MaintArenaOwner) (granted refused : PauseSystem) :
    PauseSystem :=
  if grants s.arena owner then { granted with arena := handOver s.arena owner } else refused

/-! ## The UDS thread -/

/-- The requests, and the polls of the receive loop, that move the flag. -/
inductive UdsCall where
  | requestDownload
  | transferExit
  | resetOta
  | activate
  | beginStream
  | stopStream
  | flashCommand (reboots : Bool)
  | saveSetting
  deriving DecidableEq, Repr

/-- The thread takes up a call. Leaving the downloading state resumes at once
(`ota_downloading_exit`), and so does the end of a stream (`fl_stop_streaming`). -/
def udsStart (s : PauseSystem) : UdsCall → Option PauseSystem
  | .requestDownload =>
    if s.ota = .idle then some (s.claim .ota { s with uds := .otaClaimed } s) else none
  | .transferExit =>
    if s.ota = .downloading then some (flashLogResume { s with ota := .awaitingActivate }) else none
  | .resetOta =>
    let left := { s with ota := .idle, uds := .otaLeaving }
    some (if s.ota = .downloading then flashLogResume left else left)
  | .activate =>
    if s.ota = .awaitingActivate then some (flashLogPause { s with uds := .activating }) else none
  | .beginStream =>
    if s.streaming then none else some (s.claim .logStream { s with uds := .streamClaimed } s)
  | .stopStream =>
    if s.streaming then
      some (flashLogResume { s with streaming := false, uds := .streamLeaving })
    else none
  | .flashCommand reboots => some (s.claim .flash { s with uds := .flashClaimed reboots } s)
  | .saveSetting => some (flashLogPause { s with uds := .saving s.paused })

/-- The thread goes on; `ok` is the result of what it was doing. -/
def udsNext (s : PauseSystem) (ok : Bool) : Option PauseSystem :=
  match s.uds with
  | .idle | .rebooting | .flashBusy true => none
  | .otaClaimed => some (flashLogPause { s with uds := .otaErasing })
  | .otaErasing => some (flashLogResume { s with uds := .otaErased ok })
  | .otaErased true => some (flashLogPause { s with ota := .downloading, uds := .idle })
  | .otaErased false | .otaLeaving => some ({ s with uds := .idle }.release .ota)
  | .activating =>
    some (flashLogResume
      (if ok then { s with ota := .activating, uds := .rebooting } else { s with uds := .idle }))
  | .streamClaimed => some (flashLogPause { s with streaming := true, uds := .idle })
  | .streamLeaving => some ({ s with uds := .idle }.release .logStream)
  | .flashClaimed reboots =>
    some (if ok then flashLogPause { s with uds := .flashBusy reboots }
      else { s with uds := .idle }.release .flash)
  | .flashBusy false => some (flashLogResume { s with uds := .flashDone })
  | .flashDone => some ({ s with uds := .idle }.release .flash)
  | .saving wasPaused => some (quietSaveEnd { s with uds := .idle } wasPaused)

/-! ## The factory work queue -/

/-- The queue goes on with `restore_work_handler` or a capture; `ok` is whether there is a captured
backup, and then whether the restore succeeded. -/
def workerNext (s : PauseSystem) (ok : Bool) : Option PauseSystem :=
  match s.worker with
  | .idle | .rebooting => none
  | .entered =>
    let leaving := { s with worker := .leaving }
    some (if ok then s.claim .factory { s with worker := .copying } leaving else leaving)
  | .copying =>
    some ({ s with worker := if ok then .rebooting else .leaving }.release .factory)
  | .leaving => some (flashLogResume { s with worker := .idle })
  | .capturing => some ({ s with worker := .idle }.release .factory)

/-! ## Runs -/

inductive PauseEvent where
  | mount (ok : Bool)
  | bootIdSaved
  | udsStart (call : UdsCall)
  | udsNext (ok : Bool)
  | restore
  | capture
  | workerNext (ok : Bool)
  | others (call : ArenaEvent)
  | reboot
  deriving DecidableEq, Repr

/-- The calls of the tenants that never pause the writer: the log index and the autotune. -/
def unpausing : ArenaEvent → Bool
  | .claim o | .release o | .write o _ => o = .logIndex || o = .autotune
  | .setIndexBuilding _ => true

def pauseStep (s : PauseSystem) : PauseEvent → Option PauseSystem
  | .mount ok =>
    if s.mount = .unmounted then
      some (flashLogPause { s with mount := if ok then .saving s.paused else .failed })
    else none
  | .bootIdSaved =>
    match s.mount with
    | .saving wasPaused => some (quietSaveEnd { s with mount := .mounted } wasPaused)
    | .unmounted | .failed | .mounted => none
  | .udsStart call => if s.uds = .idle then udsStart s call else none
  | .udsNext ok => udsNext s ok
  | .restore =>
    if s.worker = .idle then some (flashLogPause { s with worker := .entered }) else none
  | .capture =>
    if s.worker = .idle then some (s.claim .factory { s with worker := .capturing } s) else none
  | .workerNext ok => workerNext s ok
  | .others call =>
    if unpausing call then (arenaStep s.arena call).map fun arena => { s with arena } else none
  | .reboot => some .boot

/-! ## Who needs the writer quiet -/

/-- A failed mount, and the save after a good one. -/
def MountPhase.active : MountPhase → Bool
  | .failed | .saving _ => true
  | .unmounted | .mounted => false

def UdsPhase.active : UdsPhase → Bool
  | .otaErasing | .activating | .flashBusy _ | .saving _ => true
  | _ => false

def WorkerPhase.active : WorkerPhase → Bool
  | .entered | .copying | .leaving | .rebooting => true
  | .idle | .capturing => false

/-- Whether a restore has its pause and not the arena. -/
def WorkerPhase.loose : WorkerPhase → Bool
  | .entered | .leaving | .rebooting => true
  | .idle | .copying | .capturing => false

/-- Whether the block transfer of a download is on. -/
def downloads : OtaState → Bool
  | .downloading => true
  | .idle | .awaitingActivate | .activating => false

/-- Whether a download or a log transfer is on. -/
def PauseSystem.transferring (s : PauseSystem) : Bool := downloads s.ota || s.streaming

/-- Whether some operation is between its pause and its end. -/
def PauseSystem.active (s : PauseSystem) : Bool :=
  s.mount.active || s.uds.active || s.transferring || s.worker.active

end DiveCANHead.Maintenance
