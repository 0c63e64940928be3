import DiveCANHead.Lib.LittleEndian
import DiveCANHead.UdsClient.Service
import Mathlib.Data.List.AList

/-!
# State DIDs at the client (`constants.js`, `UDSClient.js`)

The records of a response carry neither their size nor their type. The client takes both from
a table of its own, by which it cuts the response and reads the numbers.
-/

namespace DiveCANHead.UdsClient

open DiveCANHead.Uds DiveCANHead.Lib

/-! ## The registry -/

/-- The `type` of an entry. -/
inductive DidType where
  | float32
  | int32
  | uint32
  | int16
  | uint16
  | tankPressure
  | uint8
  | bool
  | deviceCurrent
  deriving DecidableEq, Repr

/-- An entry of `STATE_DIDS`, as far as reading needs it. -/
structure DidInfo where
  did : ℕ
  size : ℕ
  type : DidType
  deriving DecidableEq, Repr

/-- The entries besides those of the cells. -/
def controlStateDids : List DidInfo :=
  [⟨0xF200, 4, .float32⟩, ⟨0xF202, 4, .float32⟩, ⟨0xF203, 1, .uint8⟩, ⟨0xF210, 4, .float32⟩,
    ⟨0xF211, 4, .float32⟩, ⟨0xF212, 2, .uint16⟩, ⟨0xF220, 4, .uint32⟩, ⟨0xF230, 4, .float32⟩,
    ⟨0xF231, 4, .float32⟩, ⟨0xF232, 4, .float32⟩, ⟨0xF233, 4, .float32⟩, ⟨0xF234, 4, .float32⟩,
    ⟨0xF235, 1, .uint8⟩, ⟨0xF237, 8, .deviceCurrent⟩, ⟨0xF238, 2, .tankPressure⟩,
    ⟨0xF239, 2, .tankPressure⟩]

/-- The entries of a cell, from its first DID on. -/
def cellStateDids (base : ℕ) : List DidInfo :=
  [⟨base, 4, .float32⟩, ⟨base + 0x01, 1, .uint8⟩, ⟨base + 0x02, 1, .bool⟩,
    ⟨base + 0x03, 1, .uint8⟩, ⟨base + 0x04, 2, .int16⟩, ⟨base + 0x05, 2, .uint16⟩,
    ⟨base + 0x06, 4, .int32⟩, ⟨base + 0x07, 4, .uint32⟩, ⟨base + 0x08, 4, .int32⟩,
    ⟨base + 0x09, 4, .int32⟩, ⟨base + 0x0A, 4, .int32⟩, ⟨base + 0x0B, 4, .uint32⟩,
    ⟨base + 0x0C, 4, .int32⟩]

/-- `STATE_DIDS`. -/
def stateDids : List DidInfo :=
  controlStateDids ++ cellStateDids 0xF400 ++ cellStateDids 0xF410 ++ cellStateDids 0xF420

/-- `getDIDInfo`. -/
def getDIDInfo (did : ℕ) : Option DidInfo := stateDids.find? fun info => info.did == did

/-! ## Cutting a response -/

/-- `Map<number, Uint8Array>`. -/
abbrev DidMap := AList fun _ : ℕ => List UInt8

/-- The size that an unknown DID is given: up to where the next known one seems to start. -/
def unknownSize : List UInt8 → ℕ
  | hi :: lo :: rest =>
    if (getDIDInfo (beToUint16 [hi, lo])).isSome then 0 else unknownSize (lo :: rest) + 1
  | rest => rest.length

/-- `dataSize`. -/
def dataSize (did : ℕ) (rest : List UInt8) : ℕ :=
  match getDIDInfo did with
  | some info => info.size
  | none => unknownSize rest

/-- The loop over the response; what is left is shorter than a record at the end. -/
def parseRecords (result : DidMap) : List UInt8 → DidMap
  | hi :: lo :: first :: rest =>
    let did := beToUint16 [hi, lo]
    let data := first :: rest
    parseRecords (result.insert did (data.take (dataSize did data)))
      (data.drop (dataSize did data))
  | _ => result
  termination_by bytes => bytes.length
  decreasing_by
    simp only [List.length_drop, List.length_cons]
    omega

/-- `readMultipleDIDs`, over the exchange of a request for its reply. -/
def readMultipleDIDs {ε : Type} (sendRequest : List UInt8 → Except ε (List UInt8)) :
    List ℕ → Except ε DidMap
  | [] => .ok ∅
  | did :: dids =>
    (sendRequest (Service.readMultipleDIDs did dids).request).map fun response =>
      parseRecords ∅ (response.drop 1)

/-! ## Values -/

/-- A value as the client has it: a float by its bits, a quotient by its terms. -/
inductive DidValue where
  | float (bits : ℕ)
  | int (v : ℤ)
  | quotient (v : ℤ) (unit : ℕ)
  | flag (b : Bool)
  | nan
  | raw (data : List UInt8)
  deriving DecidableEq, Repr

/-- `decodeDeviceCurrent`, with the bytes from the fourth on that it needs. -/
structure DecodedCurrent where
  valid : Bool
  currentUa : ℤ
  ageS : ℕ
  deriving DecidableEq, Repr

def decodeDeviceCurrent (data : List UInt8) : Option DecodedCurrent :=
  if data.length < 8 then none
  else some
    { valid := data.getD 6 0 ≠ 0
      currentUa := leInt (data.take 4)
      ageS := leNat ((data.drop 4).take 2) }

/-- The value of data of this type. -/
def DidType.parse (data : List UInt8) : DidType → DidValue
  | .float32 => .float (leNat (data.take 4))
  | .int32 => .int (leInt (data.take 4))
  | .uint32 => .int (leNat (data.take 4))
  | .int16 => .int (leInt (data.take 2))
  | .uint16 => .int (leNat (data.take 2))
  | .tankPressure =>
    let decibar := leNat (data.take 2)
    if decibar = 0xFFFF then .nan else .quotient decibar 10
  | .uint8 => .int (data.getD 0 0).toNat
  | .bool => .flag (data.getD 0 0 ≠ 0)
  | .deviceCurrent =>
    match decodeDeviceCurrent data with
    | some decoded => if decoded.valid then .quotient decoded.currentUa 1000 else .nan
    | none => .nan

/-- `parseDIDValue`; `none` is `undefined`. -/
def parseDIDValue (did : ℕ) (data : List UInt8) : Option DidValue :=
  match getDIDInfo did with
  | none => some (.raw data)
  | some info => if data.length < info.size then none else some (info.type.parse data)

end DiveCANHead.UdsClient
