import DiveCANHead.Uds.Request

/-!
# The services of the client (`UDSClient.js`)

One request for each service method, with the guard that it gives the queue and what it checks
of the reply itself. A positive reply starts with the service id plus 0x40; `echo` is what the
service makes it repeat after that.
-/

namespace DiveCANHead.UdsClient

open DiveCANHead.Uds

/-! ## Numbers on the wire -/

/-- `ByteUtils.uint16ToBE`. -/
def uint16ToBE (value : ℕ) : List UInt8 := [UInt8.ofNat (value / 256), UInt8.ofNat value]

/-- `ByteUtils.uint32ToBE`. -/
def uint32ToBE (value : ℕ) : List UInt8 :=
  [UInt8.ofNat (value / 16777216), UInt8.ofNat (value / 65536), UInt8.ofNat (value / 256),
    UInt8.ofNat value]

/-- `ByteUtils.uint32ToLE`. -/
def uint32ToLE (value : ℕ) : List UInt8 := (uint32ToBE value).reverse

/-- `ByteUtils.beToUint16`; what is missing counts as zero. -/
def beToUint16 (bytes : List UInt8) : ℕ :=
  (bytes.getD 0 0).toNat * 256 + (bytes.getD 1 0).toNat

/-! ## Services -/

inductive SizeEndian where
  | be
  | le
  deriving DecidableEq, Repr

/-- The calls of the client that send a request. -/
inductive Service where
  | readDataByIdentifier (did : ℕ)
  | writeDataByIdentifier (did : ℕ) (data : List UInt8)
  | readMultipleDIDs (did : ℕ) (dids : List ℕ)
  | enterSession (session : UInt8)
  | routineControl (routineId : ℕ) (params : List UInt8)
  | requestDownload (address size : ℕ) (sizeEndian : SizeEndian)
  | transferData (seq : ℕ) (data : List UInt8)
  | requestTransferExit
  deriving DecidableEq, Repr

namespace Service

/-- `OTA_DATA_FMT` and `OTA_ADDR_LEN_FMT`. -/
def downloadFormat : List UInt8 := [0x00, 0x44]

/-- StartRoutine. -/
def startRoutine : UInt8 := 0x01

def sid : Service → UInt8
  | readDataByIdentifier _ | readMultipleDIDs _ _ => sidReadDataById
  | writeDataByIdentifier _ _ => sidWriteDataById
  | enterSession _ => sidDiagSessionCtrl
  | routineControl _ _ => sidRoutineControl
  | requestDownload _ _ _ => sidRequestDownload
  | transferData _ _ => sidTransferData
  | requestTransferExit => sidRequestTransferExit

/-- What follows the service id in the request. -/
def body : Service → List UInt8
  | readDataByIdentifier did => uint16ToBE did
  | writeDataByIdentifier did data => uint16ToBE did ++ data
  | readMultipleDIDs did dids => uint16ToBE did ++ dids.flatMap uint16ToBE
  | enterSession session => [session]
  | routineControl routineId params => startRoutine :: uint16ToBE routineId ++ params
  | requestDownload address size .be => downloadFormat ++ uint32ToLE address ++ uint32ToBE size
  | requestDownload address size .le => downloadFormat ++ uint32ToLE address ++ uint32ToLE size
  | transferData seq data => UInt8.ofNat seq :: data
  | requestTransferExit => []

/-- The bytes that are sent. -/
def request (s : Service) : List UInt8 := s.sid :: s.body

/-- The guard that is queued with the request; only TransferData has one. -/
def responseMatcher : Service → Option (List UInt8 → Bool)
  | transferData seq _ => some fun response => response[1]? == some (UInt8.ofNat seq)
  | _ => none

/-- What the method checks of the reply that its request resolved with. -/
def accepts : Service → List UInt8 → Bool
  | readDataByIdentifier did, response => beToUint16 (response.drop 1) == did
  | requestDownload _ _ _, response => decide (4 ≤ response.length)
  | _, _ => true

/-- The DID, the routine or the block number that a positive reply repeats. -/
def echo : Service → List UInt8
  | readDataByIdentifier did | writeDataByIdentifier did _ | readMultipleDIDs did _ =>
    uint16ToBE did
  | routineControl routineId _ => startRoutine :: uint16ToBE routineId
  | transferData seq _ => [UInt8.ofNat seq]
  | enterSession _ | requestDownload _ _ _ | requestTransferExit => []

end Service

end DiveCANHead.UdsClient
