import DiveCANHead.IsoTp.ToClient
import DiveCANHead.IsoTp.ToFirmware

/-!
# The wire round trip

A firmware node, with its transmit queue and its receive context, and a client
that addresses it.
-/

namespace DiveCANHead.IsoTp

open DiveCANHead.Lib

/-- What the firmware sends is one message to the client it addresses, however
the transfer is granted, and what the client sends is reassembled behind its pad
byte; the firmware's own grant lets every client send run to its end. -/
theorem wire_round_trip {q : TxQueue} {ctx : IsotpContext} {c : Client} (hq : Quiet q)
    (hsize : ctx.rxBuffer.length = isotpMaxPayload)
    (htarget : msgTarget (c.idFor c.targetAddress) = ctx.source) :
    (∀ (payload : Payload isotpTxBufferSize) (source target : UInt8) (messageId : UInt32)
        (fcs : List DiveCANMessage),
      let r : TxRequest := ⟨payload.bytes, source, target, messageId⟩
      AddressedTo c r → (∀ fc ∈ fcs, CtsFor r fc) →
      (r.length ≤ isotpSfMaxWithPad ∨ r.target = isotpBroadcastAddr ∨
        Granted (cfCount r.length) (fcs.map blockSize)) →
      ((transmit q r fcs).wire.foldl deliver c).events = c.events ++ [.message payload.bytes]) ∧
    (∀ (payload : Payload (isotpMaxPayload - 1)) (grants : List Client.FcGrant)
        (frames : List CanFrame) (times : ℕ → UInt32),
      c.sendFrames payload.bytes grants = some frames →
      Completed (receive ctx times (frames.map ofCan)) (0 :: payload.bytes)) ∧
    ∀ data : List UInt8,
      (c.sendFrames data [⟨isotpDefaultBlockSize, isotpDefaultStmin⟩]).isSome := by
  refine ⟨?_, ?_, sendFrames_isSome c⟩
  · intro payload source target messageId fcs r ha hfc hg
    rw [transmit_wire (r := r) hq payload.pos payload.le hfc hg]
    exact deliver_wireFrames ha payload.pos payload.le
  · intro payload grants frames times h
    have hle : payload.bytes.length < isotpMaxPayload := Nat.lt_of_le_sub_one (by decide) payload.le
    exact receive_sendFrames htarget hsize hle h times

/-- A client at address 1. -/
def clientOne : Client := { sourceAddress := 1 }

/-- Twelve bytes, granted in one block of one frame, and back. -/
theorem wire_round_trip_twelve :
    ((transmit (.boot 0) twelveBytes [continueToSend 1 0]).wire.foldl deliver clientOne).events =
        [.message twelveBytes.data] ∧
      Completed (receive (isotpInit 4 1 menuId) (fun _ => 0)
        (((clientOne.sendFrames twelveBytes.data [⟨0, 0⟩]).getD []).map ofCan))
        (0 :: twelveBytes.data) := by
  have hall := @wire_round_trip (.boot 0) (isotpInit 4 1 menuId) clientOne
    ⟨rfl, rfl, rfl⟩ List.length_replicate (by decide)
  refine ⟨?_, ?_⟩
  · refine hall.1 ⟨twelveBytes.data, by decide, by decide⟩ 4 1 menuId [continueToSend 1 0]
      ⟨by decide, by decide, .inl (by decide)⟩ ?_ (.inr (.inr (.inr (by decide))))
    intro fc hfc
    obtain rfl := List.mem_singleton.mp hfc
    exact ⟨by decide, by decide⟩
  · exact hall.2.1 ⟨twelveBytes.data, by decide, by decide⟩ [⟨0, 0⟩] _ (fun _ => 0) (by decide)

end DiveCANHead.IsoTp
