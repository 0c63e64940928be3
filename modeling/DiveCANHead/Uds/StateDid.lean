import DiveCANHead.Uds.Head
import DiveCANHead.Uds.Settings

/-!
# State DIDs (`uds_state_did.c`)

The DIDs F200 to F2FF show the control loop, the supply, the crash records, the firmware
slots and the log; F400 to F42F show the cells. A handler is given the number of bytes that
are left for its record, and only some of the handlers look at it.
-/

namespace DiveCANHead.Uds

/-! ## Serialisation -/

/-- `writeUint16`, little endian. -/
def writeUint16 (v : UInt16) : List UInt8 := [v.toUInt8, (v >>> 8).toUInt8]

/-- `writeUint32`, little endian. -/
def writeUint32 (v : UInt32) : List UInt8 :=
  [v.toUInt8, (v >>> 8).toUInt8, (v >>> 16).toUInt8, (v >>> 24).toUInt8]

/-- `writeFloat32`, from the bits of the number. -/
def writeFloat32 (bits : UInt32) : List UInt8 := writeUint32 bits

/-- A flag as the byte 1 or 0. -/
def flagByte (b : Bool) : UInt8 := if b then 1 else 0

/-! ## The build -/

/-- `CellKind_t`. -/
inductive CellKind where
  | diveO2
  | analog
  | o2s
  deriving DecidableEq, Repr

def CellKind.code : CellKind → UInt8
  | .diveO2 => 0
  | .analog => 1
  | .o2s => 2

/-- What the variant configures: the two build strings, the curated menu slots, the options
that decide which DIDs exist, and the kind of each cell. -/
structure Build where
  version : List UInt8 := ascii "dev"
  variant : List UInt8 := ascii "dev"
  menuOrder : List ℤ := []
  alarm : Bool := false
  poseidonAccessories : Bool := false
  o2Transducer : Bool := false
  dilTransducer : Bool := false
  flashLog : Bool := true
  o2Solenoid : Bool := true
  diveO2Cell : Bool := true
  cellKind : ℕ → CellKind := fun _ => .analog

/-- `CELL_MAX_COUNT`. -/
def cellMaxCount : ℕ := 3

/-! ## What the handlers read -/

/-- `AutotuneStatus_t`, with floats as their bits. -/
structure AutotuneStatus where
  state : UInt8 := 0
  abortReason : UInt8 := 0
  iteration : UInt16 := 0
  iterationBudget : UInt16 := 0
  bestKp : UInt32 := 0
  bestKi : UInt32 := 0
  bestKd : UInt32 := 0
  bestCost : UInt32 := 0
  elapsedS : UInt32 := 0
  plantGain : UInt32 := 0
  deadTimeS : UInt32 := 0
  timeConstantS : UInt32 := 0
  fitRmseBar : UInt32 := 0
  mixingExcursionBar : UInt32 := 0
  baselineDuty : UInt32 := 0
  baselineSlopeBarS : UInt32 := 0
  ambientPressureBar : UInt32 := 0
  deliveredDoseDutyS : UInt32 := 0
  baselineNoiseBar : UInt32 := 0

/-- `PoseidonGaugeStatus_t`. -/
structure PoseidonGaugeStatus where
  percent : UInt8 := 0
  everReceived : Bool := false
  fresh : Bool := false
  ageSeconds : UInt16 := 0

/-- `device_current_read`. -/
structure DeviceCurrent where
  currentUa : UInt32 := 0
  ageMs : UInt32 := 0
  valid : Bool := false

/-- `TankPressureMsg_t`. -/
structure TankPressure where
  o2Decibar : UInt16
  dilDecibar : UInt16

/-- `CrashInfo_t`, as far as it is shown. -/
structure CrashInfo where
  reason : UInt32
  pc : UInt32
  lr : UInt32
  cfsr : UInt32
  sp : UInt32
  xpsr : UInt32
  excReturn : UInt32
  stackSource : UInt32

/-- `BootCrashRecord_t`. -/
structure BootCrashRecord extends CrashInfo where
  rebootSequence : UInt32
  thread : UInt32

/-- `BootRebootRecord_t`. -/
structure BootRebootRecord where
  rebootSequence : UInt32
  resetCause : UInt32

/-- `struct mcuboot_img_sem_ver`. -/
structure SemVer where
  major : UInt8
  minor : UInt8
  revision : UInt16
  buildNum : UInt32

/-- `FlashLogFcbStats_t`. -/
structure FlashLogFcbStats where
  bootIdCurrent : UInt32 := 0
  bootIdOldest : UInt32 := 0
  diveIdLatest : UInt16 := 0
  entriesTotalEstimate : UInt32 := 0
  dropsSinceBoot : UInt32 := 0
  sectorsFree : UInt16 := 0
  sectorsTotal : UInt16 := 0

/-- The result of the last log selector. -/
structure SelectorResult where
  stream : UInt8
  startId : UInt16
  endId : UInt16
  entryCount : UInt32
  totalBytes : UInt32
  status : UInt32

/-- `OxygenCellMsg_t`, as far as it is shown; the PPO2 as the bits of the float. -/
structure CellReading where
  precisionPpo2 : UInt32 := 0
  status : UInt8 := 0
  rawSample : UInt32 := 0
  millivolts : UInt16 := 0
  temperatureMc : UInt32 := 0
  errCode : UInt32 := 0
  phaseMdeg : UInt32 := 0
  signalIntensityUv : UInt32 := 0
  ambientLightUv : UInt32 := 0
  ambientPressureUbar : UInt32 := 0
  housingHumidity : UInt32 := 0

/-- What the rest of the firmware has published when a DID is read. A channel that is not
there or cannot be read in time gives the zeros that the destination was set to; `tank` is
`none` then, and a version is `none` when there is no valid header. -/
structure StateReadings where
  consensusPpo2 : UInt32 := 0
  included : ℕ → Bool := fun _ => false
  setpoint : UInt32 := 0
  alarms : UInt32 := 0
  dutyCycle : UInt32 := 0
  integralState : UInt32 := 0
  saturationCount : UInt16 := 0
  autotune : AutotuneStatus := {}
  uptimeMs : UInt32 := 0
  vbus : UInt32 := 0
  vcc : UInt32 := 0
  battery : UInt32 := 0
  can : UInt32 := 0
  threshold : UInt32 := 0
  gauge : PoseidonGaugeStatus := {}
  current : DeviceCurrent := {}
  tank : Option TankPressure := none
  crash : Option CrashInfo := none
  crashes : List BootCrashRecord := []
  reboots : List BootRebootRecord := []
  histogram : ℕ → UInt16 := fun _ => 0
  swapType : ℤ := 0
  imgConfirmed : Bool := false
  activeSlot : UInt8 := 0
  factoryCaptured : Bool := false
  slot0 : Option SemVer := none
  slot1 : Option SemVer := none
  factory : Option SemVer := none
  postState : UInt8 := 0
  passMask : UInt32 := 0
  logTelemetry : FlashLogFcbStats := {}
  logText : FlashLogFcbStats := {}
  selector : Option SelectorResult := none
  rttLevel : UInt8 := 0
  canVerbose : UInt8 := 0
  cell : ℕ → CellReading := fun _ => {}

/-! ## What a handler does with its record -/

/-- A reported error: its code and its detail. -/
abbrev OpReport := OpError × UInt32

/-- A handler refuses, writes its record whatever room there is, or writes it when it fits. -/
inductive DidRecord where
  | refused (reports : List OpReport)
  | unchecked (bytes : List UInt8)
  | checked (bytes : List UInt8)
  deriving DecidableEq

/-- The outcome of a read: the bytes that the handler wrote, whether it says so, and what it
reported. -/
structure DidRead where
  accepted : Bool
  bytes : List UInt8 := []
  reports : List OpReport := []
  deriving DecidableEq

/-- The record under a limit of `maxLen` bytes. -/
def DidRecord.read (maxLen : UInt16) : DidRecord → DidRead
  | .refused reports => { accepted := false, reports := reports }
  | .unchecked bytes => { accepted := true, bytes := bytes }
  | .checked bytes =>
    if maxLen.toNat < bytes.length then
      { accepted := false, reports := [(.udsTooFull, maxLen.toUInt32)] }
    else { accepted := true, bytes := bytes }

/-- The record of a DID that the build may not have. -/
def DidRecord.onlyIf (configured : Bool) (record : DidRecord) : DidRecord :=
  if configured then record else .refused []

/-! ## Firmware slots -/

/-- `writeSemVer4`. -/
def writeSemVer4 (v : SemVer) : List UInt8 := [v.major, v.minor] ++ writeUint16 v.revision

/-- `writeSemVer8`. -/
def writeSemVer8 (v : SemVer) : List UInt8 := writeSemVer4 v ++ writeUint32 v.buildNum

/-- `writeInvalidVersion`. -/
def writeInvalidVersion (len : ℕ) : List UInt8 := List.replicate len 0xFF

/-- `fillSlotVersion4`, `fillFactoryVersion4`. -/
def fillVersion4 : Option SemVer → List UInt8
  | some v => writeSemVer4 v
  | none => writeInvalidVersion 4

/-- `fillSlotVersion8`, `fillFactoryVersion8`. -/
def fillVersion8 : Option SemVer → List UInt8
  | some v => writeSemVer8 v
  | none => writeInvalidVersion 8

/-- `buildMcubootStatus`. -/
def buildMcubootStatus (r : StateReadings) : List UInt8 :=
  [UInt8.ofInt (max r.swapType 0), flagByte r.imgConfirmed, r.activeSlot,
    flagByte r.factoryCaptured] ++
    fillVersion4 r.slot0 ++ fillVersion4 r.slot1 ++ fillVersion4 r.factory

/-- `buildPostStatus`. -/
def buildPostStatus (r : StateReadings) : List UInt8 := [r.postState, r.passMask.toUInt8, 0, 0]

/-- `handleOtaStatusDID`. -/
def otaStatusRecords (r : StateReadings) : List (UInt16 × DidRecord) :=
  [(0xF270, .checked (buildMcubootStatus r)),
    (0xF271, .checked (buildPostStatus r)),
    (0xF272, .checked (fillVersion8 r.slot0)),
    (0xF273, .checked (fillVersion8 r.slot1)),
    (0xF274, .checked (fillVersion8 r.factory))]

/-! ## Crash records -/

/-- `BOOT_HISTORY_DEPTH`. -/
def bootHistoryDepth : ℕ := 5

/-- `BOOT_HISTORY_WIRE_VERSION`. -/
def bootHistoryWireVersion : UInt8 := 1

def writeCrashRecord (c : BootCrashRecord) : List UInt8 :=
  [c.rebootSequence, c.reason, c.pc, c.lr, c.cfsr, c.sp, c.xpsr, c.excReturn, c.stackSource,
    c.thread].flatMap writeUint32

def writeRebootRecord (c : BootRebootRecord) : List UInt8 :=
  [c.rebootSequence, c.resetCause].flatMap writeUint32

/-- Version and count, then the records. -/
def writeHistory {α : Type} (write : α → List UInt8) (records : List α) : List UInt8 :=
  [bootHistoryWireVersion, UInt8.ofNat records.length] ++ records.flatMap write

/-- `buildCrashFieldStatus`. -/
def buildCrashFieldStatus (r : StateReadings) (field : CrashInfo → UInt32) : DidRecord :=
  .unchecked (writeUint32 ((r.crash.map field).getD 0))

/-- `handleCrashHistoryDID`. -/
def crashHistoryRecords (r : StateReadings) : List (UInt16 × DidRecord) :=
  [(0xF250, .unchecked [flagByte r.crash.isSome]),
    (0xF251, buildCrashFieldStatus r CrashInfo.reason),
    (0xF252, buildCrashFieldStatus r CrashInfo.pc),
    (0xF253, buildCrashFieldStatus r CrashInfo.lr),
    (0xF254, buildCrashFieldStatus r CrashInfo.cfsr),
    (0xF257, buildCrashFieldStatus r CrashInfo.sp),
    (0xF258, buildCrashFieldStatus r CrashInfo.xpsr),
    (0xF259, buildCrashFieldStatus r CrashInfo.excReturn),
    (0xF25A, buildCrashFieldStatus r CrashInfo.stackSource),
    (0xF255, .checked (writeHistory writeCrashRecord (r.crashes.take bootHistoryDepth))),
    (0xF256, .checked (writeHistory writeRebootRecord (r.reboots.take bootHistoryDepth)))]

/-! ## Control loop, supply and log -/

/-- `buildCellsValidStatus`. -/
def buildCellsValidStatus (r : StateReadings) : List UInt8 :=
  [(List.range cellMaxCount).foldl
    (fun valid i => if r.included i then valid ||| (1 <<< UInt8.ofNat i) else valid) 0]

/-- `buildAutotuneStatus`. -/
def buildAutotuneStatus (st : AutotuneStatus) : List UInt8 :=
  [st.state, st.abortReason] ++ writeUint16 st.iteration ++ writeUint16 st.iterationBudget ++
    [st.bestKp, st.bestKi, st.bestKd, st.bestCost, st.elapsedS, st.plantGain, st.deadTimeS,
      st.timeConstantS, st.fitRmseBar, st.mixingExcursionBar, st.baselineDuty,
      st.baselineSlopeBarS, st.ambientPressureBar, st.deliveredDoseDutyS,
      st.baselineNoiseBar].flatMap writeUint32

/-- `buildPoseidonGaugeStatus`: ever received, fresh, stale. -/
def buildPoseidonGaugeStatus (g : PoseidonGaugeStatus) : List UInt8 :=
  [g.percent, (if g.everReceived then 1 else 0) ||| (if g.fresh then 2 else 4)] ++
    writeUint16 g.ageSeconds

/-- `buildDeviceCurrentStatus`. -/
def buildDeviceCurrentStatus (c : DeviceCurrent) : List UInt8 :=
  writeUint32 c.currentUa ++ writeUint16 (min (c.ageMs / 1000) 0xFFFF).toUInt16 ++
    [flagByte c.valid, 0]

/-- `buildO2CylPressureStatus`, `buildDilCylPressureStatus`. -/
def buildCylPressureStatus (tank : Option TankPressure) (field : TankPressure → UInt16) :
    DidRecord :=
  match tank with
  | some t => .unchecked (writeUint16 (field t))
  | none => .refused []

/-- `ERROR_HISTOGRAM_COUNT`. -/
def errorHistogramCount : ℕ := 38

/-- `buildErrorHistogramStatus`. -/
def buildErrorHistogramStatus (r : StateReadings) : List UInt8 :=
  (List.range errorHistogramCount).flatMap fun i => writeUint16 (r.histogram i)

/-- `FlashLogFcbStats_t` in memory, with its padding and its reserved field as zeros. -/
def writeFcbStats (s : FlashLogFcbStats) : List UInt8 :=
  writeUint32 s.bootIdCurrent ++ writeUint32 s.bootIdOldest ++ writeUint16 s.diveIdLatest ++
    [0, 0] ++ writeUint32 s.entriesTotalEstimate ++ writeUint32 s.dropsSinceBoot ++
    writeUint16 s.sectorsFree ++ writeUint16 s.sectorsTotal ++ [0, 0, 0, 0]

/-- `UDS_LogDownload_FillSelectorResult`; the status without a result is `-ENOENT`. -/
def fillSelectorResult : Option SelectorResult → List UInt8
  | some s =>
    [s.stream, 0] ++ writeUint16 s.startId ++ writeUint16 s.endId ++ writeUint32 s.entryCount ++
      writeUint32 s.totalBytes ++ [0, 0] ++ writeUint32 s.status
  | none => List.replicate 16 0 ++ writeUint32 0xFFFFFFFE

/-- The cases of `handleControlStateDID` itself. -/
def controlStateRecords (b : Build) (r : StateReadings) : List (UInt16 × DidRecord) :=
  [(0xF200, .unchecked (writeFloat32 r.consensusPpo2)),
    (0xF202, .unchecked (writeFloat32 r.setpoint)),
    (0xF203, .unchecked (buildCellsValidStatus r)),
    (0xF204, .onlyIf b.alarm (.unchecked (writeUint32 r.alarms))),
    (0xF210, .unchecked (writeFloat32 r.dutyCycle)),
    (0xF211, .unchecked (writeFloat32 r.integralState)),
    (0xF212, .unchecked (writeUint16 r.saturationCount)),
    (0xF213, .checked (buildAutotuneStatus r.autotune)),
    (0xF220, .unchecked (writeUint32 (r.uptimeMs / 1000))),
    (0xF230, .unchecked (writeFloat32 r.vbus)),
    (0xF231, .unchecked (writeFloat32 r.vcc)),
    (0xF232, .unchecked (writeFloat32 r.battery)),
    (0xF233, .unchecked (writeFloat32 r.can)),
    (0xF234, .unchecked (writeFloat32 r.threshold)),
    (0xF235, .unchecked [0]),
    (0xF236, .onlyIf b.poseidonAccessories (.unchecked (buildPoseidonGaugeStatus r.gauge))),
    (0xF237, .unchecked (buildDeviceCurrentStatus r.current)),
    (0xF238, .onlyIf b.o2Transducer (buildCylPressureStatus r.tank TankPressure.o2Decibar)),
    (0xF239, .onlyIf b.dilTransducer (buildCylPressureStatus r.tank TankPressure.dilDecibar)),
    (0xF260, .checked (buildErrorHistogramStatus r)),
    (0xF280, .onlyIf b.flashLog (.checked (writeFcbStats r.logTelemetry ++
      writeFcbStats r.logText))),
    (0xF281, .onlyIf b.flashLog (.checked (fillSelectorResult r.selector))),
    (0xF283, .onlyIf b.flashLog (.unchecked [r.rttLevel])),
    (0xF284, .onlyIf b.flashLog (.unchecked [r.canVerbose]))]

/-- `handleControlStateDID`. -/
def handleControlStateDID (b : Build) (r : StateReadings) (did : UInt16) : DidRecord :=
  ((controlStateRecords b r ++ crashHistoryRecords r ++ otaStatusRecords r).lookup did).getD
    (.refused [])

/-! ## Cells -/

/-- `handleUniversalCellDID`. -/
def universalCellRecords (b : Build) (r : StateReadings) (cellNum : ℕ) :
    List (ℕ × DidRecord) :=
  [(0x00, .unchecked (writeFloat32 (r.cell cellNum).precisionPpo2)),
    (0x01, .unchecked [(b.cellKind cellNum).code]),
    (0x02, .unchecked [flagByte (r.included cellNum)]),
    (0x03, .unchecked [(r.cell cellNum).status])]

/-- `handleAnalogCellDID`; the sample is cut to 16 bits. -/
def analogCellRecords (c : CellReading) : List (ℕ × DidRecord) :=
  [(0x04, .unchecked (writeUint16 c.rawSample.toUInt16)),
    (0x05, .unchecked (writeUint16 c.millivolts))]

/-- `handleDigitalCellDID`. -/
def digitalCellRecords (c : CellReading) : List (ℕ × DidRecord) :=
  [(0x06, .unchecked (writeUint32 c.temperatureMc)),
    (0x07, .unchecked (writeUint32 c.errCode)),
    (0x08, .unchecked (writeUint32 c.phaseMdeg)),
    (0x09, .unchecked (writeUint32 c.signalIntensityUv)),
    (0x0A, .unchecked (writeUint32 c.ambientLightUv)),
    (0x0B, .unchecked (writeUint32 c.ambientPressureUbar)),
    (0x0C, .unchecked (writeUint32 c.housingHumidity))]

/-- The DIDs that a cell of this kind has besides the common ones. -/
def kindCellRecords : CellKind → CellReading → List (ℕ × DidRecord)
  | .analog, c => analogCellRecords c
  | .diveO2, c => digitalCellRecords c
  | .o2s, _ => []

/-- `CELL_DID_MAX_OFFSET`. -/
def cellDidMaxOffset : ℕ := 0x0C

/-- `handleCellDID`. -/
def handleCellDID (b : Build) (r : StateReadings) (cellNum offset : ℕ) : DidRecord :=
  if cellMaxCount ≤ cellNum then .refused [(.udsInvalid, UInt32.ofNat cellNum)]
  else if cellDidMaxOffset < offset then .refused [(.udsInvalid, UInt32.ofNat offset)]
  else
    ((universalCellRecords b r cellNum ++
      kindCellRecords (b.cellKind cellNum) (r.cell cellNum)).lookup offset).getD (.refused [])

/-! ## Dispatch -/

/-- `UDS_DID_CELL_BASE`. -/
def didCellBase : UInt16 := 0xF400

/-- `UDS_DID_CELL_RANGE`. -/
def didCellRange : ℕ := 16

def isControlDID (did : UInt16) : Bool := 0xF200 ≤ did ∧ did ≤ 0xF2FF

def isCellDID (did : UInt16) : Bool := 0xF400 ≤ did ∧ did < 0xF430

/-- `UDS_StateDID_IsStateDID`. -/
def isStateDID (did : UInt16) : Bool := isControlDID did || isCellDID did

/-- `UDS_StateDID_HandleRead`. -/
def stateDIDHandleRead (b : Build) (r : StateReadings) (did : UInt16) : DidRecord :=
  if isControlDID did then handleControlStateDID b r did
  else if isCellDID did then
    let place := (did - didCellBase).toNat
    handleCellDID b r (place / didCellRange) (place % didCellRange)
  else .refused []

/-! ## Sizes -/

/-- What an unchecked handler writes is short. -/
def DidRecord.Short : DidRecord → Prop
  | .unchecked bytes => bytes.length ≤ 8
  | .refused _ | .checked _ => True

@[simp] theorem short_refused (reports : List OpReport) : (DidRecord.refused reports).Short :=
  trivial

@[simp] theorem short_checked (bytes : List UInt8) : (DidRecord.checked bytes).Short := trivial

@[simp] theorem short_unchecked (bytes : List UInt8) :
    (DidRecord.unchecked bytes).Short ↔ bytes.length ≤ 8 := Iff.rfl

theorem short_onlyIf {record : DidRecord} (configured : Bool) (h : record.Short) :
    (record.onlyIf configured).Short := by
  unfold DidRecord.onlyIf
  split
  · exact h
  · trivial

theorem short_lookup {κ : Type} [BEq κ] [LawfulBEq κ] {records : List (κ × DidRecord)} {key : κ}
    (h : ∀ e ∈ records, e.2.Short) : ((records.lookup key).getD (.refused [])).Short := by
  cases hfind : records.lookup key with
  | none => trivial
  | some record =>
    obtain ⟨l₁, l₂, rfl, -⟩ := List.lookup_eq_some_iff.mp hfind
    exact h (key, record) (by simp)

theorem short_cylPressure (tank : Option TankPressure) (field : TankPressure → UInt16) :
    (buildCylPressureStatus tank field).Short := by
  cases tank with
  | none => trivial
  | some t => simp [buildCylPressureStatus, writeUint16]

theorem short_controlState (b : Build) (r : StateReadings) :
    ∀ e ∈ controlStateRecords b r, e.2.Short := by
  simp [controlStateRecords, short_onlyIf, short_cylPressure, writeFloat32, writeUint32,
    writeUint16, buildCellsValidStatus, buildDeviceCurrentStatus, buildPoseidonGaugeStatus]

theorem short_crashHistory (r : StateReadings) : ∀ e ∈ crashHistoryRecords r, e.2.Short := by
  simp [crashHistoryRecords, buildCrashFieldStatus, writeUint32]

theorem short_otaStatus (r : StateReadings) : ∀ e ∈ otaStatusRecords r, e.2.Short := by
  simp [otaStatusRecords]

theorem short_cell (b : Build) (r : StateReadings) (cellNum : ℕ) (kind : CellKind)
    (c : CellReading) :
    ∀ e ∈ universalCellRecords b r cellNum ++ kindCellRecords kind c, e.2.Short := by
  cases kind <;>
    simp [universalCellRecords, kindCellRecords, analogCellRecords, digitalCellRecords,
      writeFloat32, writeUint32, writeUint16]

theorem short_stateDIDHandleRead (b : Build) (r : StateReadings) (did : UInt16) :
    (stateDIDHandleRead b r did).Short := by
  unfold stateDIDHandleRead handleControlStateDID handleCellDID
  split
  · refine short_lookup fun e he => ?_
    rcases List.mem_append.mp he with he | he
    · rcases List.mem_append.mp he with he | he
      · exact short_controlState b r e he
      · exact short_crashHistory r e he
    · exact short_otaStatus r e he
  · split
    · dsimp only
      split
      · trivial
      · split
        · trivial
        · exact short_lookup (short_cell b r _ _ _)
    · trivial

end DiveCANHead.Uds
