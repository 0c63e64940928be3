import DiveCANHead.IsoTp.Message

/-!
# The client's transport (`IsoTpCanTransport.js`)

The client runs the same padded format over raw CAN. `events` is everything it
emitted to its listeners and `sent` every frame it gave to the CAN layer; its
timers are not part of the model. Numbers that JavaScript keeps unbounded are
`ℕ` or `ℤ`.
-/

namespace DiveCANHead.IsoTp

open DiveCANHead.Lib

structure CanFrame where
  id : UInt32
  data : List UInt8
  extended : Bool := true
  remote : Bool := false
  deriving DecidableEq, Repr

/-- The client's receive state, `this.rx`. -/
structure ClientRx where
  total : ℤ
  bytes : List UInt8
  seq : ℕ
  source : UInt8
  deriving DecidableEq, Repr

inductive ClientEvent where
  | message (bytes : List UInt8)
  | sequenceMismatch
  | flowControl (blockSize stmin : UInt8)
  | flowControlStatus (status : UInt8)
  deriving DecidableEq, Repr

structure Client where
  sourceAddress : UInt8 := 0xFF
  targetAddress : UInt8 := 0x04
  messageId : UInt32 := menuId
  rx : Option ClientRx := none
  fcWaiter : Bool := false
  events : List ClientEvent := []
  sent : List CanFrame := []
  deriving DecidableEq, Repr

namespace Client

def emit (c : Client) (e : ClientEvent) : Client := { c with events := c.events ++ [e] }

def idFor (c : Client) (target : UInt8) : UInt32 :=
  c.messageId ||| ((target &&& 0x0F).toUInt32 <<< 8) ||| c.sourceAddress.toUInt32

/-! ## Receiving -/

def handleFlowControl (c : Client) (data : List UInt8) (source : UInt8) : Client :=
  if c.fcWaiter ∧ (source = c.targetAddress ∨ source = 0xFF) then
    let c := { c with fcWaiter := false }
    let status := data.getD 0 0 &&& 0x0F
    if status = 0 then c.emit (.flowControl (data.getD 1 0) (data.getD 2 0))
    else c.emit (.flowControlStatus status)
  else c

def handleSingleFrame (c : Client) (data : List UInt8) : Client :=
  let length : ℤ := (data.getD 0 0 &&& 0x0F).toNat - 1
  if 0 ≤ length then c.emit (.message ((data.drop 2).take length.toNat)) else c

def handleFirstFrame (c : Client) (data : List UInt8) (source : UInt8) : Client :=
  let total : ℤ := (data.getD 0 0 &&& 0x0F).toNat * 256 + (data.getD 1 0).toNat - 1
  { c with
    rx := some ⟨total, (data.drop 3).take (min 5 total).toNat, 1, source⟩
    sent := c.sent ++ [{ id := c.idFor source, data := [0x30, 0, 0] }] }

/-- The receive state after the data of one Consecutive Frame. -/
def appendFrame (rx : ClientRx) (data : List UInt8) : ClientRx :=
  let left := rx.total - rx.bytes.length
  { rx with
    bytes := rx.bytes ++ (data.drop 1).take (min 7 left).toNat
    seq := (rx.seq + 1) % 16 }

def handleConsecutiveFrame (c : Client) (rx : ClientRx) (data : List UInt8) : Client :=
  if (data.getD 0 0 &&& 0x0F).toNat ≠ rx.seq then ({ c with rx := none }).emit .sequenceMismatch
  else
    let rx := appendFrame rx data
    if rx.total ≤ rx.bytes.length then
      ({ c with rx := none }).emit (.message (rx.bytes.take rx.total.toNat))
    else { c with rx := some rx }

def processFrame (c : Client) (f : CanFrame) : Client :=
  if f.extended = false ∨ f.remote = true ∨ f.id &&& 0x1FFF0000 ≠ c.messageId ∨
      (f.id >>> 8).toUInt8 &&& 0x0F ≠ c.sourceAddress &&& 0x0F then c
  else
    let source := f.id.toUInt8
    let pci := f.data.getD 0 0 &&& 0xF0
    if pci = 0x30 then c.handleFlowControl f.data source
    else if source ≠ c.targetAddress ∧ c.targetAddress ≠ 0xFF then c
    else if pci = 0x00 then c.handleSingleFrame f.data
    else if pci = 0x10 then c.handleFirstFrame f.data source
    else if pci = 0x20 then
      match c.rx with
      | some rx => if source = rx.source then c.handleConsecutiveFrame rx f.data else c
      | none => c
    else c

/-! ## Sending -/

/-- What a Flow Control waiter resolves to. -/
structure FcGrant where
  blockSize : UInt8
  stmin : UInt8
  deriving DecidableEq, Repr

/-- A frame of eight bytes to the client's target. -/
def frame (c : Client) (bytes : List UInt8) : CanFrame :=
  { id := c.idFor c.targetAddress, data := padTo 8 0 bytes }

/-- At a block boundary the next grant is awaited; `none` when it never comes. -/
def awaitBlock (fc : FcGrant) (count : ℕ) (grants : List FcGrant) :
    Option (FcGrant × ℕ × List FcGrant) :=
  if fc.blockSize ≠ 0 ∧ fc.blockSize.toNat ≤ count then
    match grants with
    | [] => none
    | fc :: grants => some (fc, 0, grants)
  else some (fc, count, grants)

/-- The loop of `_send`; every iteration sends a byte, so the number of bytes
left bounds it. -/
def sendLoop (c : Client) (data : List UInt8) :
    ℕ → ℕ → ℕ → ℕ → FcGrant → List FcGrant → Option (List CanFrame)
  | 0, _, _, _, _, _ => some []
  | left + 1, offset, seq, count, fc, grants =>
    if offset < data.length then
      (awaitBlock fc count grants).bind fun (fc, count, grants) =>
        let n := min 7 (data.length - offset)
        let f := c.frame ((0x20 ||| UInt8.ofNat (seq % 16)) :: (data.drop offset).take n)
        (sendLoop c data left (offset + n) ((seq + 1) % 16) (count + 1) fc grants).map (f :: ·)
    else some []

/-- The frames `_send` gives to the CAN layer, for these resolved grants; `none`
when a grant it waits for never comes. -/
def sendFrames (c : Client) (data : List UInt8) (grants : List FcGrant) :
    Option (List CanFrame) :=
  if data.length ≤ 6 then some [c.frame (UInt8.ofNat (data.length + 1) :: 0 :: data)]
  else
    let total := data.length + 1
    let first := c.frame ((0x10 ||| UInt8.ofNat (total / 256 % 16)) :: UInt8.ofNat (total % 256) ::
      0 :: data.take 5)
    match grants with
    | [] => none
    | fc :: grants =>
      (sendLoop c data (data.length - 5) 5 1 0 fc grants).map (first :: ·)

end Client

end DiveCANHead.IsoTp
