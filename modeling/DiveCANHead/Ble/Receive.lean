import DiveCANHead.Ble.Slip
import DiveCANHead.Lib.Batch

/-!
# The receive path (`BLEConnection.js`, `DiveCANFramer.js`, `DiveCANProtocolStack.js`)

A notification loses its transport header, its bytes go through the SLIP decoder, and the packets
that they complete are parsed and handed to the transport one by one, all under one exception
handler: what is left of a notification after an exception is lost.
-/

namespace DiveCANHead.Ble

open DiveCANHead.Lib

/-! ## The layers -/

/-- `_handleData`: a header is stripped if there is one. -/
def handleData (data : List UInt8) : List UInt8 :=
  if data.length ≥ 2 ∧ (data.getD 0 0 = 0x01 ∨ data.getD 0 0 = 0x02) ∧ data.getD 1 0 = 0x00 then
    data.drop 2
  else data

structure Datagram where
  source : UInt8
  target : UInt8
  length : ℕ
  chunk : UInt8
  payload : List UInt8
  deriving DecidableEq, Repr

/-- `ValidationError(message, layer, { length })`. -/
structure ValidationError where
  message : String
  layer : String
  length : ℕ
  deriving DecidableEq, Repr

/-- `DiveCANFramer.parse`. -/
def parse (datagram : List UInt8) : Except ValidationError Datagram :=
  if datagram.length < 4 then
    .error ⟨"Datagram too short (minimum 4 bytes)", "DiveCAN", datagram.length⟩
  else
    let lenHigh := datagram.getD 3 0
    let length := (datagram.getD 2 0).toNat + lenHigh.toNat * 256
    let payload := datagram.drop 4
    .ok {
      source := datagram.getD 0 0
      target := datagram.getD 1 0
      length :=
        if length > 1000 ∨ ((payload.length : ℤ) - length).natAbs > 10 then payload.length
        else length
      chunk := lenHigh
      payload }

inductive StackError where
  | slip (e : SLIPError)
  | validation (e : ValidationError)
  deriving DecidableEq, Repr

/-- The receiving side of the stack: the decoder, what the transport was handed, and the `error`
events. -/
structure Stack where
  slip : SLIPCodec := {}
  processed : List (List UInt8) := []
  errors : List StackError := []
  deriving DecidableEq, Repr

namespace Stack

/-- The packets of a notification are parsed and handed over, up to the first that is not a
datagram. -/
def deliver (s : Stack) : List (List UInt8) → Stack
  | [] => s
  | packet :: packets =>
    match parse packet with
    | .ok datagram => { s with processed := s.processed ++ [datagram.payload] }.deliver packets
    | .error e => { s with errors := s.errors ++ [.validation e] }

/-- The handler of the `data` event. -/
def receive (s : Stack) (data : List UInt8) : Stack :=
  match s.slip.decode data with
  | (slip, .ok packets) => { s with slip }.deliver packets
  | (slip, .error e) => { s with slip, errors := s.errors ++ [.slip e] }

def notify (s : Stack) (value : List UInt8) : Stack := s.receive (handleData value)

end Stack

/-! ## Streams -/

/-- A notification: the header of a first or a further fragment, and a piece of the stream. -/
structure Notification where
  continuation : Bool
  chunk : List UInt8

def Notification.value (n : Notification) : List UInt8 :=
  (if n.continuation then 0x02 else 0x01) :: 0x00 :: n.chunk

/-- What is sent between two ENDs: a datagram, or something damaged, which no datagram is encoded
to. -/
inductive Segment where
  | datagram (data : List UInt8) (hlong : 4 ≤ data.length)
  | damaged (body : List UInt8) (hstop : slipEnd ∉ body)
      (hbad : ∀ data, SLIPCodec.slipMarks.unstuff false body = some data → data.length < 4)

namespace Segment

def bytes : Segment → List UInt8
  | datagram data _ => SLIPCodec.encode data
  | damaged body _ _ => body ++ [slipEnd]

/-- What the transport should be handed. -/
def payload : Segment → Option (List UInt8)
  | datagram data _ => some (data.drop 4)
  | damaged _ _ _ => none

/-- Whatever ends with the first END is one of them. -/
theorem exists_bytes (body : List UInt8) (hstop : slipEnd ∉ body) :
    ∃ seg : Segment, seg.bytes = body ++ [slipEnd] := by
  by_cases h : ∃ data, SLIPCodec.slipMarks.unstuff false body = some data ∧ 4 ≤ data.length
  · obtain ⟨data, hdata, hlong⟩ := h
    refine ⟨.datagram data hlong, ?_⟩
    rw [bytes, SLIPCodec.encode_eq, SLIPCodec.slipMarks.stuff_unstuff hdata]
  · refine ⟨.damaged body hstop fun data hdata => ?_, rfl⟩
    exact Nat.lt_of_not_le fun hlong => h ⟨data, hdata, hlong⟩

end Segment

def stream (segs : List Segment) : List UInt8 := segs.flatMap Segment.bytes

/-- The stack after these notifications. -/
def received (s : Stack) (ns : List Notification) : Stack :=
  ns.foldl (fun s n => s.notify n.value) s

/-- However the stream is split into notifications, the transport is handed the payloads of the
datagrams, each once, as they were and in order. -/
def Lossless (segs : List Segment) : Prop :=
  ∀ ns : List Notification, ns.flatMap Notification.chunk = stream segs →
    (received {} ns).processed = segs.filterMap Segment.payload

end DiveCANHead.Ble
