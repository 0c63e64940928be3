import DiveCANHead.Factory.Flash

/-!
# Capture and restore of the factory image

`factory_image.c`: `slot0` is copied into the store of the backup once, or whenever a capture is
forced; a restore copies the image back into `slot1` and asks MCUboot for a test swap.
-/

namespace DiveCANHead.Factory

open DiveCANHead.Lib DiveCANHead.Lib.Prog

/-! ## Capture -/

/-- What a capture meets. -/
structure CaptureEnv where
  arena : Bool
  load : LoadResult
  sizeOpened : Status
  slot0Opened : Status
  erase : Command
  copy : ℕ → ℕ → CopyEnv
  save : SaveResult

def copySlot0ToBackend (geo : Geometry) (e : ℕ → ℕ → CopyEnv) (backendSize : ℕ) :
    Prog World Status :=
  forChunks geo.chunkSize (min (geo.size .slot0) backendSize) fun off len =>
    copyChunk fun k =>
      copyAttempt (areaRead geo .slot0 (e off k).source.rc off len)
        (fun chunk => flashBackendWrite geo (e off k).write off chunk len)
        fun chunk => verifyReadback
          (fun v step => flashBackendRead geo ((e off k).verify v) (off + v) step) chunk len

/-- Records that the copy in the store is verified. -/
def recordCopy : Prog World Unit :=
  move fun w => { w with copied := w.content .slot0 :: w.copied }

def captureCopyAndBless (geo : Geometry) (e : CaptureEnv) (backendSize : ℕ) : Prog World Status :=
  if backendSize < geo.size .slot0 then pure enospc
  else
    (flashBackendErase geo e.erase).onSuccess <|
      (copySlot0ToBackend geo e.copy backendSize).onSuccess do
        recordCopy
        flashBackendFlush.onSuccess (flashBackendMarkCaptured e.save true)

def captureSequence (geo : Geometry) (e : CaptureEnv) : Prog World Status :=
  (flashBackendInit e.load).onSuccess do
    let size ← flashBackendSize geo e.sizeOpened
    if size.1 = 0 then
      (pure e.slot0Opened : Prog World Status).onSuccess (captureCopyAndBless geo e size.2)
    else pure size.1

def doCapture (geo : Geometry) (e : CaptureEnv) : Prog World Status := do
  let w ← look id
  if !w.backend then pure enodev
  else if !e.arena then pure ebusy
  else captureSequence geo e

def captureWorkHandler (geo : Geometry) (e : CaptureEnv) : Prog World Status := do
  let w ← look id
  if w.backend && !w.captured then doCapture geo e else pure 0

def forceCaptureWorkHandler (geo : Geometry) (e : CaptureEnv) : Prog World Status := do
  let w ← look id
  if w.backend then doCapture geo e else pure 0

/-! ## The size of the image in the store -/

def imageHeaderMagic : ℕ := 0x96f3b83d
def imageTlvInfoMagic : ℕ := 0x6907
def imageTlvInfoSize : ℕ := 4
def imageHeaderHdrSizeOffset : ℕ := 8
def imageHeaderProtTlvOffset : ℕ := 10
def imageHeaderImgSizeOffset : ℕ := 12
def imageTlvInfoTotOffset : ℕ := 2

def rdLe16 (p : Region) (off : ℕ) : ℕ := (p off).toNat + (p (off + 1)).toNat * 256

def rdLe32 (p : Region) (off : ℕ) : ℕ := rdLe16 p off + rdLe16 p (off + 2) * 65536

def parseTlvTotal (geo : Geometry) (e : Readout) (tlvOff backendSize : ℕ) :
    Prog World (Status × ℕ) := do
  let tlvinfo ← flashBackendRead geo e tlvOff imageTlvInfoSize
  if tlvinfo.1 ≠ 0 then pure (tlvinfo.1, 0)
  else if rdLe16 tlvinfo.2 0 ≠ imageTlvInfoMagic then pure (ebadf, 0)
  else
    let total := (tlvOff + rdLe16 tlvinfo.2 imageTlvInfoTotOffset) % wordSize
    if total = 0 ∨ backendSize < total then pure (ebadf, 0) else pure (0, total)

/-- The sums are `uint32_t`, also the one compared with the size of the store. -/
def factoryBackupImageSize (geo : Geometry) (header tlvInfo : Readout) (backendSize : ℕ) :
    Prog World (Status × ℕ) := do
  let hdr ← flashBackendRead geo header 0 32
  if hdr.1 ≠ 0 then pure (hdr.1, 0)
  else if rdLe32 hdr.2 0 ≠ imageHeaderMagic then pure (ebadf, 0)
  else
    let hdrSize := rdLe16 hdr.2 imageHeaderHdrSizeOffset
    let protTlv := rdLe16 hdr.2 imageHeaderProtTlvOffset
    let imgSize := rdLe32 hdr.2 imageHeaderImgSizeOffset
    let tlvOff := (hdrSize + imgSize + protTlv) % wordSize
    if backendSize < (tlvOff + imageTlvInfoSize) % wordSize then pure (ebadf, 0)
    else parseTlvTotal geo tlvInfo tlvOff backendSize

/-! ## Restore -/

/-- `mcuboot_swap_type`. -/
inductive SwapType where
  | none
  | test
  | perm
  | revert
  | fail
  deriving DecidableEq, Repr

/-- What one try of the staging meets. MCUboot's trailer lies in the last page of `slot1`, where a
request leaves `trailer`. -/
structure StageEnv where
  pageInfo : Status
  erase : Command
  acquired : Status
  requested : Status
  trailer : Region
  swapTypeA : SwapType
  swapTypeB : SwapType

/-- What a restore meets. -/
structure RestoreEnv where
  arena : Bool
  slot1Opened : Status
  sizeOpened : Status
  header : Readout
  tlvInfo : Readout
  erase : Command
  copy : ℕ → ℕ → CopyEnv
  reopened : Status
  magic : Status
  stage : ℕ → StageEnv

/-- Records the result of a step. -/
def note (what : RestoreStep) (rc : Status) : Prog World Unit :=
  move fun w => { w with steps := w.steps ++ [(what, rc)] }

def noted (what : RestoreStep) (m : Prog World Status) : Prog World Status := do
  let rc ← m
  note what rc
  pure rc

def streamImageToSlot1 (geo : Geometry) (e : ℕ → ℕ → CopyEnv) (copySize : ℕ) :
    Prog World Status :=
  forChunks geo.chunkSize copySize fun off len =>
    noted (.copyChunk off) <| copyChunk fun k =>
      copyAttempt (flashBackendRead geo (e off k).source off len)
        (fun chunk => areaWrite geo .slot1 (e off k).write off chunk len)
        fun chunk => verifyReadback
          (fun v step => areaRead geo .slot1 ((e off k).verify v).rc (off + v) step) chunk len

/-- Only the image is copied, over an erased slot. -/
def copyBackendToSlot1 (geo : Geometry) (e : RestoreEnv) : Prog World Status :=
  (noted .openSlot1 (pure e.slot1Opened)).onSuccess do
    let backendSize ← flashBackendSize geo e.sizeOpened
    note .backendSize backendSize.1
    if backendSize.1 ≠ 0 then pure backendSize.1
    else do
      let copySize ← factoryBackupImageSize geo e.header e.tlvInfo backendSize.2
      note .imageSize copySize.1
      if copySize.1 ≠ 0 then pure copySize.1
      else if geo.size .slot1 < copySize.2 then pure enospc
      else
        (noted .eraseSlot1 (areaErase geo .slot1 e.erase 0 (geo.size .slot1))).onSuccess
          (streamImageToSlot1 geo e.copy copySize.2)

def eraseSlot1TrailerPage (geo : Geometry) (e : StageEnv) : Prog World Status :=
  (pure e.pageInfo : Prog World Status).onSuccess
    (areaErase geo .slot1 e.erase geo.lastPage (geo.size .slot1 - geo.lastPage))

/-- `boot_request_upgrade`, with a record of what is asked for. -/
def bootRequestUpgrade (geo : Geometry) (e : StageEnv) : Prog World Status := do
  move fun w => { w with requests := w.requests ++ [⟨w.content .slot1, w.steps⟩] }
  move fun w => w.put .slot1 geo.lastPage (geo.size .slot1 - geo.lastPage) e.trailer
  pure e.requested

def stageSwapMaxAttempts : ℕ := 5

/-- One try of `stage_pending_swap`. The result of the trailer erase is discarded. -/
def stageAttempt (geo : Geometry) (e : StageEnv) (i : ℕ) : Prog World Status := do
  let _ ← (if 0 < i then eraseSlot1TrailerPage geo e else pure 0 : Prog World Status)
  let rc ← (pure e.acquired : Prog World Status).onSuccess (bootRequestUpgrade geo e)
  pure (if rc = 0 ∧ e.swapTypeA = .test ∧ e.swapTypeB = .test then 0 else eio)

def stagePendingSwap (geo : Geometry) (e : ℕ → StageEnv) : Prog World Status :=
  retry (fun i => stageAttempt geo (e i) i) (stageSwapMaxAttempts - 1) 0

def verifyAndStageSlot1 (geo : Geometry) (e : RestoreEnv) : Prog World Status :=
  (noted .reopenSlot1 (pure e.reopened)).onSuccess do
    let magic ← areaRead geo .slot1 e.magic 0 4
    note .readMagic magic.1
    if magic.1 ≠ 0 then pure magic.1
    else if rdLe32 magic.2 0 ≠ imageHeaderMagic then pure ebadf
    else stagePendingSwap geo e.stage

/-- RAM is lost. -/
def World.reset (w : World) : World :=
  { w with backend := false, initialised := false, captured := false }

/-- The record of the restore begins. -/
def beginRecord : Prog World Unit := move fun w => { w with steps := [], requests := [] }

/-- A restore that succeeds ends in a reboot. -/
def factoryImageRestoreToSlot1 (geo : Geometry) (e : RestoreEnv) : Prog World Status := do
  beginRecord
  let w ← look id
  if !w.backend then pure enodev
  else if !w.captured then pure enoent
  else if !e.arena then pure ebusy
  else
    ((copyBackendToSlot1 geo e).onSuccess (verifyAndStageSlot1 geo e)).onSuccess do
      move World.reset
      pure 0

/-! ## Start of the module -/

def factoryImageInit (e : LoadResult) : Prog World Status := do
  move fun w => { w with backend := true }
  flashBackendInit e

end DiveCANHead.Factory
