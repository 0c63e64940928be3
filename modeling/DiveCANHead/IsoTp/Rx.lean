import DiveCANHead.IsoTp.Message

/-!
# The ISO-TP receiver (`isotp.c`)

One context reassembles one message at a time. `sent` is every Flow Control
frame it sent. The context's transmit fields, which `ISOTP_Reset` clears and
nothing reads, are left out. `rxDataLength` and `rxBytesReceived` are
`uint16_t`, and their difference is taken modulo `2 ^ 16`.
-/

namespace DiveCANHead.IsoTp

open DiveCANHead.Lib

def isotpFcLength : UInt8 := 3

def isotpDefaultBlockSize : UInt8 := 0

def isotpDefaultStmin : UInt8 := 0

def isotpFfSeqStart : UInt8 := 1

inductive IsotpState where
  | idle
  | receiving
  deriving DecidableEq, Repr

inductive IsotpRxEvent where
  | none
  | sf
  | ff
  | cf
  | timeout
  deriving DecidableEq, Repr

/-- `ISOTPContext_t`. -/
structure IsotpContext where
  state : IsotpState := .idle
  rxDataLength : ℕ := 0
  rxBytesReceived : ℕ := 0
  rxSequenceNumber : UInt8 := 0
  rxBuffer : List UInt8 := List.replicate isotpMaxPayload 0
  rxLastFrameTime : UInt32 := 0
  rxComplete : Bool := false
  source : UInt8
  target : UInt8
  messageId : UInt32
  broadcastTx : Bool
  sent : List DiveCANMessage := []
  deriving DecidableEq, Repr

def isotpInit (source target : UInt8) (messageId : UInt32) : IsotpContext :=
  { source := source, target := target, messageId := messageId
    broadcastTx := target == isotpBroadcastAddr }

def pciToEvent (pci : UInt8) : IsotpRxEvent :=
  if pci = isotpPciSf then .sf
  else if pci = isotpPciFf then .ff
  else if pci = isotpPciCf then .cf
  else .none

/-- `smf_set_state` to idle, with its entry: a completed message keeps its
length. -/
def setIdle (ctx : IsotpContext) : IsotpContext :=
  { ctx with
    state := .idle
    rxDataLength := if ctx.rxComplete then ctx.rxDataLength else 0
    rxBytesReceived := 0
    rxSequenceNumber := 0
    rxLastFrameTime := 0 }

def isotpReset (ctx : IsotpContext) : IsotpContext := setIdle ctx

def sendFlowControl (ctx : IsotpContext) (flowStatus blockSize stmin : UInt8) : IsotpContext :=
  { ctx with
    sent := ctx.sent ++ [.ofBytes
      (ctx.messageId ||| (ctx.target.toUInt32 <<< 8) ||| ctx.source.toUInt32)
      isotpFcLength [flowStatus, blockSize, stmin]] }

/-! ## Frame handlers: whether the message was consumed, and the context -/

def handleSingleFrame (ctx : IsotpContext) (m : DiveCANMessage) : Bool × IsotpContext :=
  let length := (m.byte 0 &&& isotpPciLenMask).toNat
  if length = 0 ∨ isotpSfMaxData < length then (false, ctx)
  else if m.length.toNat < length + 1 then (false, ctx)
  else
    (true, setIdle { ctx with
      rxBuffer := overlay ctx.rxBuffer 0 ((m.data.drop 1).take length)
      rxDataLength := length
      rxComplete := true })

/-- The 12-bit length of a First Frame. -/
def ffDataLength (m : DiveCANMessage) : ℕ :=
  (m.byte 0 &&& isotpPciLenMask).toNat * 256 + (m.byte 1).toNat

def handleFirstFrame (ctx : IsotpContext) (m : DiveCANMessage) (now : UInt32) :
    Bool × IsotpContext :=
  let dataLength := ffDataLength m
  if dataLength = 0 ∨ isotpMaxPayload < dataLength then
    (true, isotpReset (sendFlowControl ctx isotpFcOvflw 0 0))
  else
    let ctx := { ctx with
      rxDataLength := dataLength
      rxSequenceNumber := isotpFfSeqStart
      rxBuffer := overlay ctx.rxBuffer 0 ((m.data.drop 2).take isotpFfDataBytes)
      rxBytesReceived := isotpFfDataBytes
      rxLastFrameTime := now }
    let ctx := sendFlowControl ctx isotpFcCts isotpDefaultBlockSize isotpDefaultStmin
    (true, { ctx with state := .receiving })

/-- `rx_data_length - rx_bytes_received` as a `uint16_t`. -/
def bytesRemaining (ctx : IsotpContext) : ℕ :=
  (ctx.rxDataLength + 2 ^ 16 - ctx.rxBytesReceived) % 2 ^ 16

/-- The context after the data of one Consecutive Frame. -/
def appendFrame (ctx : IsotpContext) (m : DiveCANMessage) (now : UInt32) : IsotpContext :=
  let bytesToCopy := min (bytesRemaining ctx) isotpCfDataBytes
  { ctx with
    rxBuffer := overlay ctx.rxBuffer ctx.rxBytesReceived ((m.data.drop 1).take bytesToCopy)
    rxBytesReceived := ctx.rxBytesReceived + bytesToCopy
    rxLastFrameTime := now
    rxSequenceNumber := (ctx.rxSequenceNumber + 1) &&& isotpSeqMask }

def handleConsecutiveFrame (ctx : IsotpContext) (m : DiveCANMessage) (now : UInt32) :
    Bool × IsotpContext :=
  if m.byte 0 &&& isotpPciLenMask ≠ ctx.rxSequenceNumber then (true, isotpReset ctx)
  else
    let ctx := appendFrame ctx m now
    if ctx.rxDataLength ≤ ctx.rxBytesReceived then
      (true, isotpReset { ctx with rxComplete := true })
    else (true, ctx)

/-! ## State machine -/

def isotpIdleRun (ctx : IsotpContext) (event : IsotpRxEvent) (m : DiveCANMessage) (now : UInt32) :
    Bool × IsotpContext :=
  match event with
  | .sf => handleSingleFrame ctx m
  | .ff => handleFirstFrame ctx m now
  | .cf | .timeout | .none => (false, ctx)

def isotpReceivingRun (ctx : IsotpContext) (event : IsotpRxEvent) (m : DiveCANMessage)
    (now : UInt32) : Bool × IsotpContext :=
  match event with
  | .cf => handleConsecutiveFrame ctx m now
  | .sf => handleSingleFrame ctx m
  | .ff => handleFirstFrame ctx m now
  | .timeout => (false, isotpReset ctx)
  | .none => (false, ctx)

def isotpRunState (ctx : IsotpContext) (event : IsotpRxEvent) (m : DiveCANMessage)
    (now : UInt32) : Bool × IsotpContext :=
  match ctx.state with
  | .idle => isotpIdleRun ctx event m now
  | .receiving => isotpReceivingRun ctx event m now

/-- The context follows whoever spoke last, unless it is a broadcast sender. -/
def retarget (ctx : IsotpContext) (m : DiveCANMessage) : IsotpContext :=
  let isShearwaterFC := (m.byte 0 &&& isotpPciMask) == isotpPciFc &&
    msgSource m.id == isotpBroadcastAddr
  if msgSource m.id ≠ ctx.target ∧ isShearwaterFC = false ∧ ctx.broadcastTx = false then
    { ctx with target := msgSource m.id }
  else ctx

def isotpProcessRxFrame (ctx : IsotpContext) (m : DiveCANMessage) (now : UInt32) :
    Bool × IsotpContext :=
  if msgTarget m.id ≠ ctx.source then (false, ctx)
  else
    let ctx := retarget ctx m
    let pci := m.byte 0 &&& isotpPciMask
    if pci = isotpPciFc then (false, ctx)
    else
      let event := pciToEvent pci
      if event = .none then (false, ctx)
      else isotpRunState ctx event m now

def isotpPoll (ctx : IsotpContext) (currentTime : UInt32) : IsotpContext :=
  if ctx.state = .receiving ∧ isotpTimeoutNCr < currentTime - ctx.rxLastFrameTime then
    isotpReset ctx
  else ctx

/-! ## What a Consecutive Frame leaves -/

section Fields

variable (ctx : IsotpContext) (m : DiveCANMessage) (now : UInt32)

theorem appendFrame_kept : (appendFrame ctx m now).state = ctx.state ∧
    (appendFrame ctx m now).rxDataLength = ctx.rxDataLength ∧
    (appendFrame ctx m now).source = ctx.source := by
  unfold appendFrame
  -- the kernel would compute with the modulus of `bytesRemaining`
  generalize min (bytesRemaining ctx) isotpCfDataBytes = n
  exact ⟨rfl, rfl, rfl⟩

theorem appendFrame_state : (appendFrame ctx m now).state = ctx.state :=
  (appendFrame_kept ctx m now).1

theorem appendFrame_rxDataLength : (appendFrame ctx m now).rxDataLength = ctx.rxDataLength :=
  (appendFrame_kept ctx m now).2.1

theorem appendFrame_source : (appendFrame ctx m now).source = ctx.source :=
  (appendFrame_kept ctx m now).2.2

theorem appendFrame_rxBytesReceived : (appendFrame ctx m now).rxBytesReceived =
    ctx.rxBytesReceived + min (bytesRemaining ctx) isotpCfDataBytes := rfl

theorem appendFrame_rxSequenceNumber : (appendFrame ctx m now).rxSequenceNumber =
    (ctx.rxSequenceNumber + 1) &&& isotpSeqMask := rfl

theorem appendFrame_rxBuffer : (appendFrame ctx m now).rxBuffer =
    overlay ctx.rxBuffer ctx.rxBytesReceived
      ((m.data.drop 1).take (min (bytesRemaining ctx) isotpCfDataBytes)) := rfl

/-- A completed message keeps its length and its bytes through the reset. -/
theorem reset_complete : (isotpReset { ctx with rxComplete := true }).rxComplete = true ∧
    (isotpReset { ctx with rxComplete := true }).rxDataLength = ctx.rxDataLength ∧
    (isotpReset { ctx with rxComplete := true }).rxBuffer = ctx.rxBuffer ∧
    (isotpReset { ctx with rxComplete := true }).source = ctx.source := ⟨rfl, rfl, rfl, rfl⟩

/-- A frame under the expected number is appended. -/
theorem handleConsecutiveFrame_expected {ctx : IsotpContext} {m : DiveCANMessage}
    (h : m.byte 0 &&& isotpPciLenMask = ctx.rxSequenceNumber) (now : UInt32) :
    (handleConsecutiveFrame ctx m now).2 =
      if (appendFrame ctx m now).rxDataLength ≤ (appendFrame ctx m now).rxBytesReceived then
        isotpReset { appendFrame ctx m now with rxComplete := true }
      else appendFrame ctx m now := by
  unfold handleConsecutiveFrame
  rw [if_neg (not_not_intro h)]
  exact apply_ite Prod.snd _ _ _

end Fields

/-! ## Frame conditions of the addressing -/

theorem retarget_eq (ctx : IsotpContext) (m : DiveCANMessage) :
    ∃ target, retarget ctx m = { ctx with target := target } := by
  simp only [retarget]
  split
  · exact ⟨_, rfl⟩
  · exact ⟨ctx.target, rfl⟩

/-- Both states hand a Single Frame and a First Frame to the same handler. -/
theorem runState_sf (ctx : IsotpContext) (m : DiveCANMessage) (now : UInt32) :
    isotpRunState ctx .sf m now = handleSingleFrame ctx m := by
  unfold isotpRunState
  split <;> rfl

theorem runState_ff (ctx : IsotpContext) (m : DiveCANMessage) (now : UInt32) :
    isotpRunState ctx .ff m now = handleFirstFrame ctx m now := by
  unfold isotpRunState
  split <;> rfl

theorem runState_cf_idle {ctx : IsotpContext} (h : ctx.state = .idle) (m : DiveCANMessage)
    (now : UInt32) : isotpRunState ctx .cf m now = (false, ctx) := by
  unfold isotpRunState
  rw [h]
  rfl

theorem runState_cf_receiving {ctx : IsotpContext} (h : ctx.state = .receiving)
    (m : DiveCANMessage) (now : UInt32) :
    isotpRunState ctx .cf m now = handleConsecutiveFrame ctx m now := by
  unfold isotpRunState
  rw [h]
  rfl

/-- A frame for this context reaches the handler of its type. -/
theorem processRxFrame_of_event {ctx : IsotpContext} {m : DiveCANMessage}
    (ht : msgTarget m.id = ctx.source) {event : IsotpRxEvent} (hne : event ≠ .none)
    (he : pciToEvent (m.byte 0 &&& isotpPciMask) = event) (now : UInt32) :
    isotpProcessRxFrame ctx m now = isotpRunState (retarget ctx m) event m now := by
  have hfc : ¬ (m.byte 0 &&& isotpPciMask) = isotpPciFc := by
    intro h
    rw [h] at he
    exact hne (he.symm.trans (by decide))
  have hnone : ¬ pciToEvent (m.byte 0 &&& isotpPciMask) = .none := by
    rw [he]
    exact hne
  simp only [isotpProcessRxFrame, ht, ne_eq, not_true_eq_false, if_false, if_neg hfc, if_neg hnone]
  rw [he]

end DiveCANHead.IsoTp
