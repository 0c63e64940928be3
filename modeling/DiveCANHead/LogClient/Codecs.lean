import DiveCANHead.LogClient.TelemetryLog

/-!
# The decoders agree on the payloads

What the head packs is what the parser, the viewer's tables and the script read, except for texts
that are not ASCII and a negative ambient pressure, which the parser and the viewer read without its
sign.
-/

namespace DiveCANHead.LogClient

open DiveCANHead.Lib DiveCANHead.Cells DiveCANHead.FlashLog

/-- The status and the include bit of each cell of a consensus. -/
def cellsOf (c : ConsensusMsg) : List (ℕ × Bool) :=
  (List.finRange 3).map fun i => ((statusCode (c.statusArray i)).toNat, c.includeArray i)

/-- Every reader gets the values of the fields back. -/
structure CodecsAgree (p : FlPayload) : Prop where
  parser : decodeRecord p.type p.bytes = some (dataOf p)
  viewer : ∀ t, tableForType p.type = some t → TableReads t p
  script : ∀ decode, TelemetryLog.decoderOf p.type = some decode → decode p.bytes = some (dataOf p)
  cells : ∀ c setpoint, p = .consensus (flashLogEnqueueConsensus c setpoint) →
    unpackConsensusStatus (statusPackedOf c).toNat = cellsOf c ∧
      TelemetryLog.consensusCells (statusPackedOf c).toNat = cellsOf c ∧
      ∀ i, channelOf p (.statusCell i) = some (.int (statusCode (c.statusArray i)).toNat) ∧
        channelOf p (.includeCell i) = some (.int (includeCode (c.includeArray i)).toNat)

/-- A text is ASCII, and the ambient pressure of a DiveO2 cell is not negative. -/
def Readable : FlPayload → Prop
  | .bootMarker p => ∀ b ∈ upToNul p.fwVersion.toList, b.toNat < 128
  | .logText p => ∀ b ∈ p.message, b.toNat < 128
  | .cellDiveO2 p => 0 ≤ p.ambientPressureUbar.toInt
  | _ => True

/-! ## The cells of a consensus -/

theorem unpack_cells (packed : UInt16) :
    unpackConsensusStatus packed.toNat =
        (List.finRange 3).map (fun i => (statusBits packed i, includeBit packed i == 1)) ∧
      TelemetryLog.consensusCells packed.toNat =
        (List.finRange 3).map (fun i => (statusBits packed i, includeBit packed i == 1)) := by
  have hstatus : ∀ k, (packed.toNat >>> k) &&& 3 = packed.toNat / 2 ^ k % 4 := fun k => by
    rw [Nat.shiftRight_eq_div_pow]
    exact Nat.and_two_pow_sub_one_eq_mod _ 2
  have hinclude : ∀ k, (packed.toNat >>> k) &&& 1 = packed.toNat / 2 ^ k % 2 := fun k => by
    rw [Nat.and_one_is_mod, Nat.shiftRight_eq_div_pow]
  have hbit : ∀ n : ℕ, (n % 2 != 0) = (n % 2 == 1) := fun n => by
    rcases Nat.mod_two_eq_zero_or_one n with h | h <;> rw [h] <;> rfl
  constructor
  · simp only [unpackConsensusStatus, consensusStatusShifts, consensusIncludeShifts,
      consensusStatusMask, List.zipWith, hstatus, hinclude]
    rfl
  · simp only [TelemetryLog.consensusCells, List.zipWith, hstatus, hinclude, hbit]
    rfl

/-- What is packed is what is unpacked. -/
theorem unpack_statusPackedOf (c : ConsensusMsg) :
    (List.finRange 3).map (fun i => (statusBits (statusPackedOf c) i,
      includeBit (statusPackedOf c) i == 1)) = cellsOf c := by
  refine List.map_congr_left fun i _ => ?_
  obtain ⟨hstatus, hinclude⟩ := statusPackedOf_cells c i
  have hcode : ((includeCode (c.includeArray i)).toNat == 1) = c.includeArray i := by
    cases c.includeArray i <;> rfl
  rw [hstatus, hinclude, hcode]

theorem consensus_cells (p : FlPayload) (c : ConsensusMsg) (setpoint : UInt8)
    (h : p = .consensus (flashLogEnqueueConsensus c setpoint)) :
    unpackConsensusStatus (statusPackedOf c).toNat = cellsOf c ∧
      TelemetryLog.consensusCells (statusPackedOf c).toNat = cellsOf c ∧
      ∀ i, channelOf p (.statusCell i) = some (.int (statusCode (c.statusArray i)).toNat) ∧
        channelOf p (.includeCell i) = some (.int (includeCode (c.includeArray i)).toNat) := by
  subst h
  obtain ⟨hparser, hscript⟩ := unpack_cells (statusPackedOf c)
  refine ⟨hparser.trans (unpack_statusPackedOf c), hscript.trans (unpack_statusPackedOf c),
    fun i => ?_⟩
  obtain ⟨hstatus, hinclude⟩ := statusPackedOf_cells c i
  exact ⟨congrArg (fun n : ℕ => some (Datum.int n)) hstatus,
    congrArg (fun n : ℕ => some (Datum.int n)) hinclude⟩

/-! ## Each type -/

theorem parser_cellDiveO2_iff (p : FlPayloadCellDiveO2) :
    decodeRecord (FlPayload.cellDiveO2 p).type (FlPayload.cellDiveO2 p).bytes =
      some (dataOf (.cellDiveO2 p)) ↔ 0 ≤ p.ambientPressureUbar.toInt := by
  have hrecord : decodeRecord (FlPayload.cellDiveO2 p).type (FlPayload.cellDiveO2 p).bytes =
      (decodeCellDiveO2 (FlPayload.cellDiveO2 p).bytes).map .cellDiveO2 := rfl
  rw [hrecord, decodeCellDiveO2_bytes, ← toUInt32_eq_iff]
  constructor
  · intro h
    exact congrArg CellDiveO2Data.ambientPressureUbar
      (LogData.cellDiveO2.inj (Option.some.inj h))
  · intro h
    exact congrArg (fun d => some (LogData.cellDiveO2 d))
      (CellDiveO2Data.ext rfl rfl rfl rfl rfl rfl rfl h rfl)

/-- Where the fields are readable the parser gives their values. -/
theorem Readable.parser {p : FlPayload} (h : Readable p) :
    decodeRecord p.type p.bytes = some (dataOf p) := by
  cases p with
  | bootMarker p =>
    exact (congrArg (Option.map LogData.bootMarker) (decodeBootMarker_bytes p)).trans
      (congrArg (fun text => some (LogData.bootMarker ⟨_, text, _, _⟩)) (decodeAscii_of_ascii h))
  | diveMarker isStart p =>
    cases isStart <;>
      exact congrArg (Option.map LogData.diveMarker) (decodeDiveMarker_bytes _ p)
  | canFrame isRx p =>
    cases isRx <;> exact congrArg (Option.map LogData.canFrame) (decodeCanFrame_bytes _ p)
  | consensus p => exact decodeConsensus_bytes p
  | pid p => exact congrArg (Option.map LogData.pid) (decodePidSnapshot_bytes p)
  | solenoidFire p => exact congrArg (Option.map LogData.solenoidFire) (decodeSolenoidFire_bytes p)
  | solenoidCurrent p =>
    exact congrArg (Option.map LogData.solenoidCurrent) (decodeSolenoidCurrent_bytes p)
  | atmosPressure p =>
    exact congrArg (Option.map LogData.atmosPressure) (decodeAtmosPressure_bytes p)
  | powerSnapshot p => exact decodePowerSnapshot_bytes p
  | cellDiveO2 p => exact (parser_cellDiveO2_iff p).mpr h
  | cellO2S p => exact congrArg (Option.map LogData.cellO2S) (decodeCellO2S_bytes p)
  | cellAnalog p => exact congrArg (Option.map LogData.cellAnalog) (decodeCellAnalog_bytes p)
  | error p => exact congrArg (Option.map LogData.error) (decodeErrorEvent_bytes p)
  | logText p =>
    exact (congrArg (Option.map LogData.logText) (decodeLogText_bytes p)).trans
      (congrArg (fun text => some (LogData.logText ⟨_, _, text⟩)) (decodeAscii_of_ascii h))
  | dropMarker p => exact congrArg (Option.map LogData.dropMarker) (decodeDropMarker_bytes p)

/-- Where the fields are readable the tables of the viewer read them. -/
theorem Readable.viewer {p : FlPayload} (h : Readable p) (t : TelemetryTable)
    (ht : tableForType p.type = some t) : TableReads t p := by
  cases p with
  | consensus p => exact Option.some.inj ht ▸ consensus_reads p
  | pid p => exact Option.some.inj ht ▸ pid_reads p
  | atmosPressure p => exact Option.some.inj ht ▸ atmos_reads p
  | powerSnapshot p => exact Option.some.inj ht ▸ power_reads p
  | cellDiveO2 p => exact Option.some.inj ht ▸ (diveo2_reads_iff p).mpr h
  | cellO2S p => exact Option.some.inj ht ▸ o2s_reads p
  | cellAnalog p => exact Option.some.inj ht ▸ analog_reads p
  | diveMarker isStart p =>
    have hnone : tableForType (FlPayload.diveMarker isStart p).type = none := by
      cases isStart <;> rfl
    cases hnone.symm.trans ht
  | canFrame isRx p =>
    have hnone : tableForType (FlPayload.canFrame isRx p).type = none := by cases isRx <;> rfl
    cases hnone.symm.trans ht
  | bootMarker p =>
    have hnone : tableForType (FlPayload.bootMarker p).type = none := rfl
    cases hnone.symm.trans ht
  | solenoidFire p =>
    have hnone : tableForType (FlPayload.solenoidFire p).type = none := rfl
    cases hnone.symm.trans ht
  | solenoidCurrent p =>
    have hnone : tableForType (FlPayload.solenoidCurrent p).type = none := rfl
    cases hnone.symm.trans ht
  | error p =>
    have hnone : tableForType (FlPayload.error p).type = none := rfl
    cases hnone.symm.trans ht
  | logText p =>
    have hnone : tableForType (FlPayload.logText p).type = none := rfl
    cases hnone.symm.trans ht
  | dropMarker p =>
    have hnone : tableForType (FlPayload.dropMarker p).type = none := rfl
    cases hnone.symm.trans ht

/-! ## The script -/

/-- The decoder of the script for the type of a record, if it has one. -/
theorem script_of {type : UInt8} {decode₀ decode : List UInt8 → Option LogData}
    (h₀ : TelemetryLog.decoderOf type = some decode₀)
    (h : TelemetryLog.decoderOf type = some decode) : decode = decode₀ :=
  Option.some.inj (h.symm.trans h₀)

/-- Where the fields are readable the script gives their values. -/
theorem Readable.script {p : FlPayload} (h : Readable p) (decode : List UInt8 → Option LogData)
    (hdecode : TelemetryLog.decoderOf p.type = some decode) : decode p.bytes = some (dataOf p) := by
  cases p with
  | bootMarker p =>
    rw [script_of rfl hdecode]
    refine (congrArg (Option.map LogData.bootMarker) (bootMarker_script p)).trans ?_
    rw [(decodeReplacing_iff _).mpr h]
    rfl
  | diveMarker isStart p =>
    have h₀ : TelemetryLog.decoderOf (FlPayload.diveMarker isStart p).type =
        some fun bytes => (TelemetryLog.decodeDiveMarker bytes).map .diveMarker := by
      cases isStart <;> rfl
    rw [script_of h₀ hdecode]
    exact congrArg (Option.map LogData.diveMarker) (diveMarker_script isStart p)
  | canFrame isRx p =>
    have h₀ : TelemetryLog.decoderOf (FlPayload.canFrame isRx p).type =
        some fun bytes => (TelemetryLog.decodeCanFrame bytes).map .canFrame := by
      cases isRx <;> rfl
    rw [script_of h₀ hdecode]
    exact congrArg (Option.map LogData.canFrame) (canFrame_script isRx p)
  | consensus p =>
    rw [script_of rfl hdecode]
    exact consensus_script p
  | pid p =>
    rw [script_of rfl hdecode]
    exact congrArg (Option.map LogData.pid) (pid_script p)
  | solenoidFire p =>
    rw [script_of rfl hdecode]
    exact congrArg (Option.map LogData.solenoidFire) (solenoidFire_script p)
  | solenoidCurrent p =>
    rw [script_of rfl hdecode]
    exact congrArg (Option.map LogData.solenoidCurrent) (solenoidCurrent_script p)
  | atmosPressure p =>
    have hnone : TelemetryLog.decoderOf (FlPayload.atmosPressure p).type = none := rfl
    cases hnone.symm.trans hdecode
  | powerSnapshot p =>
    have hnone : TelemetryLog.decoderOf (FlPayload.powerSnapshot p).type = none := rfl
    cases hnone.symm.trans hdecode
  | cellDiveO2 p =>
    rw [script_of rfl hdecode]
    exact cellDiveO2_script p
  | cellO2S p =>
    rw [script_of rfl hdecode]
    exact congrArg (Option.map LogData.cellO2S) (cellO2S_script p)
  | cellAnalog p =>
    rw [script_of rfl hdecode]
    exact congrArg (Option.map LogData.cellAnalog) (cellAnalog_script p)
  | error p =>
    rw [script_of rfl hdecode]
    exact congrArg (Option.map LogData.error) (error_script p)
  | logText p =>
    rw [script_of rfl hdecode]
    refine (congrArg (Option.map LogData.logText) (logText_script p)).trans ?_
    rw [(decodeReplacing_iff _).mpr h]
    rfl
  | dropMarker p =>
    rw [script_of rfl hdecode]
    exact congrArg (Option.map LogData.dropMarker) (dropMarker_script p)

/-! ## Agreement -/

theorem CodecsAgree.readable {p : FlPayload} (h : CodecsAgree p) : Readable p := by
  cases p with
  | bootMarker p =>
    have hdata := (congrArg (Option.map LogData.bootMarker) (bootMarker_script p)).symm.trans
      (h.script _ rfl)
    have hversion := congrArg BootMarkerData.fwVersion
      (LogData.bootMarker.inj (Option.some.inj hdata))
    exact (decodeReplacing_iff _).mp hversion
  | logText p =>
    have hdata := (congrArg (Option.map LogData.logText) (logText_script p)).symm.trans
      (h.script _ rfl)
    have htext := congrArg LogTextData.text (LogData.logText.inj (Option.some.inj hdata))
    exact (decodeReplacing_iff _).mp htext
  | cellDiveO2 p => exact (parser_cellDiveO2_iff p).mp h.parser
  | _ => trivial

/-- All three readers give the values the head packed if and only if the ambient pressure of a
DiveO2 cell is not negative and a text is ASCII. -/
theorem codecsAgree_iff (p : FlPayload) : CodecsAgree p ↔ Readable p :=
  ⟨CodecsAgree.readable, fun h =>
    { parser := h.parser
      viewer := h.viewer
      script := h.script
      cells := consensus_cells p }⟩

/-- A DiveO2 cell whose ambient pressure is −1. -/
def negativePressure : FlPayloadCellDiveO2 where
  cellIndex := 0
  ppo2 := 100
  temperatureMc := 25000
  errCode := 0
  phaseMdeg := 0
  signalIntensityUv := 0
  ambientLightUv := 0
  ambientPressureUbar := -1
  housingHumidityMpercentRh := 0

/-- The parser and the viewer read 4294967295 for a pressure of −1, and the script −1. -/
theorem negativePressure_misread :
    ¬ CodecsAgree (.cellDiveO2 negativePressure) ∧
      (decodeCellDiveO2 (FlPayload.cellDiveO2 negativePressure).bytes).map
        CellDiveO2Data.ambientPressureUbar = some 4294967295 ∧
      (TelemetryField.raw ⟨.pressureMbar, 22, .u32, none⟩
        (FlPayload.cellDiveO2 negativePressure).bytes) = .int 4294967295 ∧
      (TelemetryLog.decodeCellDiveO2 (FlPayload.cellDiveO2 negativePressure).bytes).map
        CellDiveO2Data.ambientPressureUbar = some (-1) := by
  have hnegative : ¬ 0 ≤ negativePressure.ambientPressureUbar.toInt := by decide
  exact ⟨fun h => hnegative h.readable, by decide +kernel, by decide +kernel, by decide +kernel⟩

end DiveCANHead.LogClient
