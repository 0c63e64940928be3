import DiveCANHead.LogClient.Channels
import DiveCANHead.Viewer.Epochs

/-!
# The viewer's tables (`buildTelemetry` of `TelemetryBuilder.js`)

There is a table for each record type that is plotted, or for each cell of it. A first walk over the
stream counts the records of each table, which gives its columns their length; a second fills them,
and leaves out what is too short. Then each table is sorted by time. The channels derived from
others and the overlay's events are left out.
-/

namespace DiveCANHead.Viewer

open DiveCANHead.Lib DiveCANHead.FlashLog DiveCANHead.LogClient

/-! ## Which table -/

/-- The name of a table, by its type; a cell that lies behind the stream is `undefined`. -/
inductive TableId where
  | whole (type : UInt8)
  | cell (type : UInt8) (index : Option UInt8)
  deriving DecidableEq, Repr

/-- The type of the records that a table is of. -/
def TableId.type : TableId → UInt8
  | .whole type => type
  | .cell type _ => type

/-- `CELL_COUNT`. -/
def cellCount : ℕ := 3

/-- The table of a payload at an offset. -/
def tableIdAt (decl : TelemetryTable) (bytes : List UInt8) (off : ℕ) : TableId :=
  match decl.cellOff with
  | none => .whole decl.type
  | some cellOff => .cell decl.type bytes[off + cellOff]?

/-- The tables that may be there. -/
def tableIds : List (TelemetryTable × TableId) :=
  tables.flatMap fun decl =>
    match decl.cellOff with
    | none => [(decl, .whole decl.type)]
    | some _ =>
      (List.range cellCount).map fun c => (decl, .cell decl.type (some (UInt8.ofNat c)))

def Visit.tableId (bytes : List UInt8) (v : Visit) : Option TableId :=
  (tableForType v.type).map fun decl => tableIdAt decl bytes v.off

/-- `++counts[id]` in `scanStream`. -/
def countRecord (bytes : List UInt8) (counts : TableId → ℕ) (v : Visit) : TableId → ℕ :=
  match v.tableId bytes with
  | none => counts
  | some id => Function.update counts id (counts id + 1)

/-- `counts`. -/
def scanCounts (bytes : List UInt8) (vs : List Visit) : TableId → ℕ :=
  vs.foldl (countRecord bytes) fun _ => 0

/-! ## Values -/

/-- The bits of `FL_POWER_*_VALID`, by the key of the field. -/
def validBit : TelemetryKey → Option UInt8
  | .batteryVoltage => some 0x01
  | .vbusVoltage => some 0x02
  | .vccVoltage => some 0x04
  | .canVoltage => some 0x08
  | .currentMa => some 0x10
  | .currentAge => some 0x10
  | .poseidonAge => some 0x20
  | .poseidonPercent => some 0x20
  | _ => none

/-- `raw > 0`. -/
def isPositive : Datum → Bool
  | .int n => 0 < n
  | .float bits => 0 < bits && bits ≤ 0x7F800000
  | .chars _ => false

/-- `validWhen === 'positive'`. -/
def validWhenPositive (decl : TelemetryTable) (f : TelemetryField) : Bool :=
  decl.type == flTypeAtmosPressure && f.key == .pressureMbar

/-- The value of a channel before it is scaled; `NaN` where it is not valid. -/
def channelValue (decl : TelemetryTable) (bytes : List UInt8) (off : ℕ) (f : TelemetryField) :
    Option Datum :=
  let raw := f.raw (bytes.drop off)
  let flagged :=
    match validBit f.key, decl.flagsOff with
    | none, _ => true
    | some _, none => false
    | some bit, some flagsOff => byteAt (bytes.drop off) flagsOff &&& bit != 0
  if flagged && (!validWhenPositive decl f || isPositive raw) then some raw else none

/-! ## Tables -/

/-- A row of a table. -/
structure Sample where
  time : ℚ
  bootTime : ℚ
  epoch : ℕ
  channels : List (TelemetryKey × Option Datum)
  deriving DecidableEq

/-- A table; its columns are arrays of `n` entries. -/
structure Table where
  n : ℕ
  fill : ℕ
  time : ℕ → ℚ
  bootTime : ℕ → ℚ
  epoch : ℕ → ℕ
  channels : List (TelemetryField × (ℕ → Option Datum))

def Table.sample (t : Table) (i : ℕ) : Sample :=
  ⟨t.time i, t.bootTime i, t.epoch i, t.channels.map fun ch => (ch.1.key, ch.2 i)⟩

def Table.samples (t : Table) : List Sample := (List.range t.n).map t.sample

/-- A new table; typed arrays begin as zeros. -/
def Table.new (decl : TelemetryTable) (n : ℕ) : Table :=
  ⟨n, 0, fun _ => 0, fun _ => 0, fun _ => 0, decl.fields.map fun f => (f, fun _ => some (.int 0))⟩

/-- The tables that are allocated. -/
def allocate (counts : TableId → ℕ) (id : TableId) : Option Table :=
  (tableIds.find? fun d => d.2 == id).bind fun d =>
    if counts id = 0 then none else some (Table.new d.1 (counts id))

/-- Writes a row; the epochs are an array of bytes. -/
def Table.push (t : Table) (time bootTime : ℚ) (epochIdx : ℕ)
    (value : TelemetryField → Option Datum) : Table where
  n := t.n
  fill := t.fill + 1
  time := Function.update t.time t.fill time
  bootTime := Function.update t.bootTime t.fill bootTime
  epoch := Function.update t.epoch t.fill (epochIdx % 256)
  channels := t.channels.map fun ch => (ch.1, Function.update ch.2 t.fill (value ch.1))

/-- The state of the second walk. -/
structure Fill where
  epochIdx : ℕ
  seenFirst : Bool
  tables : TableId → Option Table

/-- `epochIdx` at a record. -/
def Fill.nextEpoch (b : Fill) (v : Visit) : ℕ :=
  if v.type = flTypeBootMarker ∧ b.seenFirst = true then b.epochIdx + 1 else b.epochIdx

/-- What the second walk does with the tables at a record. -/
def Fill.write (bytes : List UInt8) (axis : List EpochAxis) (b : Fill) (v : Visit) :
    TableId → Option Table :=
  match tableForType v.type with
  | none => b.tables
  | some decl =>
    if decl.payloadLen ≤ v.len then
      let id := tableIdAt decl bytes v.off
      match b.tables id with
      | none => b.tables
      | some table =>
        let row := table.push (epochTime axis (b.nextEpoch v) v.tsUs) (v.tsUs / usPerS)
          (b.nextEpoch v) (channelValue decl bytes v.off)
        Function.update b.tables id (some row)
    else b.tables

def Fill.visit (bytes : List UInt8) (axis : List EpochAxis) (b : Fill) (v : Visit) : Fill :=
  ⟨b.nextEpoch v, true, b.write bytes axis v⟩

/-- The check of `sortTableByTime`. -/
def Table.isOrdered (t : Table) : Bool :=
  (List.range (t.n - 1)).all fun i => !decide (t.time (i + 1) < t.time i)

/-- `sortTableByTime`: the column of the epochs is left as it is. -/
def sortTableByTime (t : Table) : Table :=
  if t.isOrdered then t
  else
    let order := sortBy t.time (List.range t.n)
    { t with
      time := permute order t.time
      bootTime := permute order t.bootTime
      channels := t.channels.map fun ch => (ch.1, permute order ch.2) }

/-- The tables before they are sorted. -/
def fillTables (bytes : List UInt8) : Fill :=
  (visits bytes).foldl (Fill.visit bytes (epochAxis bytes (visits bytes)))
    ⟨0, false, allocate (scanCounts bytes (visits bytes))⟩

/-- The `tables` of `buildTelemetry`. -/
def buildTelemetry (bytes : List UInt8) (id : TableId) : Option Table :=
  ((fillTables bytes).tables id).map sortTableByTime

/-- The rows of a table, none if it is not there. -/
def tableSamples (bytes : List UInt8) (id : TableId) : List Sample :=
  ((buildTelemetry bytes id).map Table.samples).getD []

end DiveCANHead.Viewer
