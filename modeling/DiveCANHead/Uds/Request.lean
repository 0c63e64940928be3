import Mathlib.Data.List.Basic

/-!
# Requests and responses (`uds.h`)

A request lies in a receive buffer whose bytes from `length` on are what earlier
messages left there; a handler can read them. Requests start with a pad byte,
responses with the service id.
-/

namespace DiveCANHead.Uds

/-- A received message: the buffer and how much of it the message fills. -/
structure Request where
  buffer : List UInt8
  length : ℕ
  fits : length ≤ buffer.length
  deriving DecidableEq, Repr

namespace Request

/-- `request_data[i]`. -/
def byte (q : Request) (i : ℕ) : UInt8 := q.buffer.getD i 0

/-- The bytes from `i` up to the end of the message. -/
def payload (q : Request) (i : ℕ) : List UInt8 := (q.buffer.take q.length).drop i

/-- A message that fills its buffer. -/
def ofBytes (bytes : List UInt8) : Request := ⟨bytes, bytes.length, Nat.le_refl _⟩

def sid (q : Request) : UInt8 := q.byte 1

/-- A big-endian 16-bit field. -/
def word (q : Request) (i : ℕ) : UInt16 := ((q.byte i).toUInt16 <<< 8) ||| (q.byte (i + 1)).toUInt16

/-- A big-endian 32-bit field. -/
def longBE (q : Request) (i : ℕ) : UInt32 :=
  ((q.byte i).toUInt32 <<< 24) ||| ((q.byte (i + 1)).toUInt32 <<< 16) |||
    ((q.byte (i + 2)).toUInt32 <<< 8) ||| (q.byte (i + 3)).toUInt32

/-- A little-endian 32-bit field. -/
def longLE (q : Request) (i : ℕ) : UInt32 :=
  (q.byte i).toUInt32 ||| ((q.byte (i + 1)).toUInt32 <<< 8) |||
    ((q.byte (i + 2)).toUInt32 <<< 16) ||| ((q.byte (i + 3)).toUInt32 <<< 24)

end Request

/-! ## Service ids -/

def sidDiagSessionCtrl : UInt8 := 0x10

def sidReadDataById : UInt8 := 0x22

def sidWriteDataById : UInt8 := 0x2E

def sidRoutineControl : UInt8 := 0x31

def sidRequestDownload : UInt8 := 0x34

def sidTransferData : UInt8 := 0x36

def sidRequestTransferExit : UInt8 := 0x37

def responseSidOffset : UInt8 := 0x40

def sidNegativeResponse : UInt8 := 0x7F

/-! ## Negative responses -/

/-- `UDS_NRC_t`, as far as it is used. -/
inductive Nrc where
  | serviceNotSupported
  | subfuncNotSupported
  | incorrectMsgLen
  | responseTooLong
  | busyRepeatRequest
  | conditionsNotCorrect
  | requestSequenceErr
  | requestOutOfRange
  | generalProgFail
  | wrongBlockSeqCounter
  | serviceNotInSession
  deriving DecidableEq, Repr

def Nrc.code : Nrc → UInt8
  | .serviceNotSupported => 0x11
  | .subfuncNotSupported => 0x12
  | .incorrectMsgLen => 0x13
  | .responseTooLong => 0x14
  | .busyRepeatRequest => 0x21
  | .conditionsNotCorrect => 0x22
  | .requestSequenceErr => 0x24
  | .requestOutOfRange => 0x31
  | .generalProgFail => 0x72
  | .wrongBlockSeqCounter => 0x73
  | .serviceNotInSession => 0x7F

/-- The message of `UDS_SendNegativeResponse`. -/
def negativeResponse (sid : UInt8) (nrc : Nrc) : List UInt8 :=
  [sidNegativeResponse, sid, nrc.code]

/-- `UDS_MAX_RESPONSE_LENGTH`. -/
def maxResponseLength : ℕ := 256

/-- `UDS_MAX_REQUEST_LENGTH`. -/
def maxRequestLength : ℕ := 256

end DiveCANHead.Uds
