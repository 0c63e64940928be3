import DiveCANHead.IsoTp.Message
import DiveCANHead.Lib.Runs
import Mathlib

/-!
# Sends that wait for the bus (`divecan_send.c`)

`divecan_send_blocking` gives its frame to the controller and waits on a semaphore that the
completion of any frame raises, whatever came of it. A call is answered for its own frame as long
as the first completion since the call began is that frame's, without an error.
-/

namespace DiveCANHead.IsoTp

open DiveCANHead.Lib

/-! ## The send layer -/

/-- `struct can_frame`, whose data array has eight bytes. -/
structure CanTxFrame where
  id : UInt32
  dlc : UInt8
  flags : UInt8
  data : List UInt8
  deriving DecidableEq, Repr

/-- `CAN_FRAME_IDE`. -/
def canFrameIde : UInt8 := 1

/-- `msg_to_frame`. -/
def msgToFrame (msg : DiveCANMessage) : CanTxFrame :=
  ⟨msg.id, msg.length, canFrameIde, (padTo 8 0 (msg.data.take msg.length.toNat)).take 8⟩

/-- A call of `tx_done_callback`: for which of the accepted frames, and with which error. -/
structure TxDone where
  frame : ℕ
  error : ℤ
  deriving DecidableEq, Repr

/-- Where `divecan_send_blocking` is: not called, behind the reset, or in `k_sem_take`. -/
inductive SendPhase where
  | idle
  | sending (frame : CanTxFrame)
  | waiting (frame : ℕ)
  deriving DecidableEq, Repr

/-- The send layer and the controller. Accepted frames are numbered from the start of the run. The
count of `tx_done_sem` is one where it holds the completion that raised it; `bus` is what has left,
in order, and `flying` what still waits for its callback. -/
structure CanTx where
  dev : Bool
  txDoneSem : Option TxDone
  txCount : UInt32
  phase : SendPhase := .idle
  accepted : List CanTxFrame := []
  flying : List ℕ := []
  bus : List ℕ := []
  calls : List DiveCANMessage := []
  returned : List ℤ := []
  succeeded : List ℕ := []
  errors : List UInt32 := []
  deriving DecidableEq, Repr

inductive CanTxEvent where
  | call (msg : DiveCANMessage)
  | canSend (rc : ℤ)
  | leave (frame : ℕ)
  | callback (done : TxDone)
  | take
  | timeout
  deriving DecidableEq, Repr

namespace CanTx

/-- The call returns. -/
def finish (s : CanTx) (rc : ℤ) : CanTx :=
  { s with phase := .idle, returned := s.returned ++ [rc] }

/-- `OP_ERROR_DETAIL(OP_ERR_CAN_TX, detail)`. -/
def opError (s : CanTx) (detail : UInt32) : CanTx := { s with errors := s.errors ++ [detail] }

/-- The head of `divecan_send_blocking`; `ENODEV` is 19. -/
def beginSend (s : CanTx) (msg : DiveCANMessage) : CanTx :=
  let s := { s with calls := s.calls ++ [msg] }
  if s.dev = true then { s with txDoneSem := none, phase := .sending (msgToFrame msg) }
  else (s.opError 0).finish (-19)

/-- What `can_send` returned; an accepted frame may leave from here on. -/
def sent (s : CanTx) (frame : CanTxFrame) (rc : ℤ) : CanTx :=
  if rc ≠ 0 then (s.opError (UInt32.ofInt (-rc))).finish rc
  else
    { s with
      phase := .waiting s.accepted.length
      accepted := s.accepted ++ [frame]
      flying := s.flying ++ [s.accepted.length] }

/-- `tx_done_callback`; a semaphore that is up stays as it is. -/
def txDoneCallback (s : CanTx) (done : TxDone) : CanTx :=
  let s := if done.error ≠ 0 then s.opError (UInt32.ofInt (-done.error)) else s
  { s with flying := s.flying.erase done.frame, txDoneSem := s.txDoneSem <|> some done }

/-- `k_sem_take` succeeded: `bump_tx_count`, and zero. -/
def taken (s : CanTx) (frame : ℕ) : CanTx :=
  { s with
    txDoneSem := none, txCount := s.txCount + 1, succeeded := s.succeeded ++ [frame] }.finish 0

/-- `k_sem_take` gave up; `ETIMEDOUT` is 116. -/
def timedOut (s : CanTx) : CanTx := (s.opError 0xFF).finish (-116)

end CanTx

/-- The controller calls back once for a frame, with error zero exactly where it has left. -/
def canTxStep (s : CanTx) : CanTxEvent → Option CanTx
  | .call msg => if s.phase = .idle then some (s.beginSend msg) else none
  | .canSend rc =>
    match s.phase with
    | .sending frame => some (s.sent frame rc)
    | _ => none
  | .leave frame =>
    if frame ∈ s.flying ∧ frame ∉ s.bus then some { s with bus := s.bus ++ [frame] } else none
  | .callback done =>
    if done.frame ∈ s.flying ∧ (done.error = 0 ↔ done.frame ∈ s.bus) then
      some (s.txDoneCallback done)
    else none
  | .take =>
    match s.phase, s.txDoneSem with
    | .waiting frame, some _ => some (s.taken frame)
    | _, _ => none
  | .timeout =>
    match s.phase, s.txDoneSem with
    | .waiting _, none => some s.timedOut
    | _, _ => none

/-- A moment between calls when no accepted frame is without its callback; the records start
here. -/
def CanTx.start (dev : Bool) (sem : Option TxDone) (count : UInt32) : CanTx := ⟨dev, sem, count,
  .idle, [], [], [], [], [], [], []⟩

/-! ## What a call promises -/

/-- A call that returns zero has been completed by its own frame, which has left. -/
def Truthful (s : CanTx) : CanTxEvent → Prop
  | .take => ∀ frame, s.phase = .waiting frame →
      s.txDoneSem = some ⟨frame, 0⟩ ∧ frame ∈ s.bus
  | _ => True

/-- Between calls, the frames of the calls that returned zero have left once each and in call order;
where all calls did, nothing else has. -/
def InOrder (s : CanTx) : Prop :=
  s.phase = .idle →
    (s.succeeded.Sublist s.bus ∧ s.bus.Nodup) ∧
    ((∀ rc ∈ s.returned, rc = 0) →
      s.bus.map (s.accepted[·]?) = s.calls.map fun msg => some (msgToFrame msg))

/-- The first completion since a call began is of its own frame, without an error. -/
def OwnCompletion (s : CanTx) : CanTxEvent → Prop
  | .callback done =>
    match s.phase with
    | .idle => True
    | .sending _ => False
    | .waiting frame => s.txDoneSem = none → done = ⟨frame, 0⟩
  | _ => True

/-! ## The invariant -/

/-- What the phase says about the frames. -/
def CanTx.Current (s : CanTx) : Prop :=
  match s.phase with
  | .idle => True
  | .sending _ => s.txDoneSem = none
  | .waiting frame =>
    frame + 1 = s.accepted.length ∧
      (frame ∈ s.bus → (s.succeeded ++ [frame]).Sublist s.bus) ∧
      ∀ done, s.txDoneSem = some done → done = ⟨frame, 0⟩ ∧ frame ∈ s.bus

/-- While every call has returned zero, every call has had its frame accepted. -/
def CanTx.AllAccepted (s : CanTx) : Prop :=
  match s.phase with
  | .idle => s.succeeded = List.range s.accepted.length ∧
      s.accepted = s.calls.map msgToFrame
  | .sending frame => s.succeeded = List.range s.accepted.length ∧
      s.accepted ++ [frame] = s.calls.map msgToFrame
  | .waiting frame => s.succeeded = List.range frame ∧ s.accepted = s.calls.map msgToFrame

structure CanTx.Kept (s : CanTx) : Prop where
  once : s.bus.Nodup
  left : ∀ n ∈ s.bus, n < s.accepted.length
  flying : ∀ n ∈ s.flying, n < s.accepted.length
  ordered : s.succeeded.Sublist s.bus
  current : s.Current
  all : (∀ rc ∈ s.returned, rc = 0) → s.AllAccepted

theorem CanTx.kept_start (dev : Bool) (sem : Option TxDone) (count : UInt32) :
    (CanTx.start dev sem count).Kept where
  once := List.nodup_nil
  left := nofun
  flying := nofun
  ordered := List.Sublist.refl []
  current := trivial
  all := fun _ => ⟨rfl, rfl⟩

/-- A call that has failed is no call that returned zero. -/
theorem not_all_zero {returned : List ℤ} {rc : ℤ} (hrc : rc ≠ 0) {P : Prop}
    (h : ∀ r ∈ returned ++ [rc], r = 0) : P :=
  absurd (h rc (List.mem_append_right _ List.mem_cons_self)) hrc

namespace CanTx

variable {s t : CanTx}

theorem Kept.beginSend (h : s.Kept) (hidle : s.phase = .idle) (msg : DiveCANMessage) :
    (s.beginSend msg).Kept := by
  have hall := h.all
  unfold AllAccepted at hall
  rw [hidle] at hall
  unfold CanTx.beginSend
  dsimp only
  split
  · refine ⟨h.once, h.left, h.flying, h.ordered, rfl, fun hzero => ?_⟩
    obtain ⟨hsucceeded, haccepted⟩ := hall hzero
    refine ⟨hsucceeded, ?_⟩
    rw [List.map_append, ← haccepted]
    rfl
  · exact ⟨h.once, h.left, h.flying, h.ordered, trivial, not_all_zero (by decide)⟩

theorem Kept.sent (h : s.Kept) {frame : CanTxFrame} (hsending : s.phase = .sending frame)
    (rc : ℤ) : (s.sent frame rc).Kept := by
  have hcurrent := h.current
  have hall := h.all
  unfold Current at hcurrent
  unfold AllAccepted at hall
  rw [hsending] at hcurrent hall
  unfold CanTx.sent
  split
  · next hrc => exact ⟨h.once, h.left, h.flying, h.ordered, trivial, not_all_zero hrc⟩
  · have hlen : (s.accepted ++ [frame]).length = s.accepted.length + 1 := List.length_append
    refine ⟨h.once, fun n hn => ?_, fun n hn => ?_, h.ordered, ⟨hlen.symm, fun hleft => ?_, ?_⟩,
      fun hzero => hall hzero⟩
    · exact hlen ▸ Nat.lt_succ_of_lt (h.left n hn)
    · rw [hlen]
      rcases List.mem_append.mp hn with hn | hn
      · exact Nat.lt_succ_of_lt (h.flying n hn)
      · exact List.mem_singleton.mp hn ▸ Nat.lt_succ_self _
    · exact absurd (h.left _ hleft) (Nat.lt_irrefl _)
    · intro done hdone
      exact absurd (hcurrent.symm.trans hdone) nofun

theorem Kept.leave (h : s.Kept) {frame : ℕ} (hflying : frame ∈ s.flying)
    (hnew : frame ∉ s.bus) : ({ s with bus := s.bus ++ [frame] } : CanTx).Kept := by
  refine ⟨List.nodup_append.mpr ⟨h.once, List.pairwise_singleton _ _, ?_⟩, fun n hn => ?_, h.flying,
    h.ordered.trans (List.sublist_append_left _ _), ?_, h.all⟩
  · rintro a ha b hb rfl
    exact hnew (List.mem_singleton.mp hb ▸ ha)
  · rcases List.mem_append.mp hn with hn | hn
    · exact h.left n hn
    · exact List.mem_singleton.mp hn ▸ h.flying frame hflying
  · have hcurrent := h.current
    unfold Current at hcurrent ⊢
    dsimp only
    split
    · trivial
    · next hsending =>
      rw [hsending] at hcurrent
      exact hcurrent
    · next n hwaiting =>
      rw [hwaiting] at hcurrent
      obtain ⟨hlast, hin, hsem⟩ := hcurrent
      refine ⟨hlast, fun hn => ?_, fun done hdone => ?_⟩
      · rcases List.mem_append.mp hn with hn | hn
        · exact (hin hn).trans (List.sublist_append_left _ _)
        · rw [List.mem_singleton.mp hn]
          exact h.ordered.append (List.Sublist.refl _)
      · exact ⟨(hsem done hdone).1, List.mem_append_left _ (hsem done hdone).2⟩

theorem Kept.callback (h : s.Kept) {done : TxDone}
    (hsent : done.error = 0 ↔ done.frame ∈ s.bus) (hown : OwnCompletion s (.callback done)) :
    (s.txDoneCallback done).Kept := by
  have hcurrent := h.current
  have hkept : ∀ errors, ({ s with
      errors := errors, flying := s.flying.erase done.frame,
      txDoneSem := s.txDoneSem <|> some done } : CanTx).Kept := fun errors => by
    refine ⟨h.once, h.left, fun n hn => h.flying n (List.mem_of_mem_erase hn), h.ordered, ?_, h.all⟩
    unfold Current at hcurrent ⊢
    unfold OwnCompletion at hown
    dsimp only at hown ⊢
    split
    · trivial
    · next hsending =>
      rw [hsending] at hown
      exact hown.elim
    · next frame hwaiting =>
      rw [hwaiting] at hcurrent hown
      obtain ⟨hlast, hin, hsem⟩ := hcurrent
      refine ⟨hlast, hin, fun other hother => ?_⟩
      cases hs : s.txDoneSem with
      | some first =>
        rw [hs] at hother
        exact hsem other (hs.trans hother)
      | none =>
        rw [hs] at hother
        obtain rfl := Option.some.inj hother
        obtain rfl := hown hs
        exact ⟨rfl, hsent.mp rfl⟩
  unfold txDoneCallback
  dsimp only
  split
  · exact hkept _
  · exact hkept s.errors

theorem Kept.taken (h : s.Kept) {frame : ℕ} {done : TxDone} (hwaiting : s.phase = .waiting frame)
    (hdone : s.txDoneSem = some done) : (s.taken frame).Kept ∧ Truthful s .take := by
  have hcurrent := h.current
  have hall := h.all
  unfold Current at hcurrent
  unfold AllAccepted at hall
  rw [hwaiting] at hcurrent hall
  obtain ⟨hlast, hin, hsem⟩ := hcurrent
  obtain ⟨rfl, hleft⟩ := hsem done hdone
  refine ⟨⟨h.once, h.left, h.flying, hin hleft, trivial, fun hzero => ?_⟩, fun n hn => ?_⟩
  · obtain ⟨hsucceeded, haccepted⟩ := hall fun rc hrc => hzero rc (List.mem_append_left _ hrc)
    refine ⟨?_, haccepted⟩
    change s.succeeded ++ [frame] = List.range s.accepted.length
    rw [hsucceeded, ← hlast, List.range_succ]
  · obtain rfl := SendPhase.waiting.inj (hwaiting.symm.trans hn)
    exact ⟨hdone, hleft⟩

theorem Kept.timedOut (h : s.Kept) : s.timedOut.Kept :=
  ⟨h.once, h.left, h.flying, h.ordered, trivial, not_all_zero (by decide)⟩

theorem Kept.step (h : s.Kept) {e : CanTxEvent} (hown : OwnCompletion s e)
    (ht : canTxStep s e = some t) : t.Kept ∧ Truthful s e := by
  cases e with
  | call msg =>
    obtain ⟨hidle, ht⟩ := Option.ite_none_right_eq_some.mp ht
    obtain rfl := Option.some.inj ht
    exact ⟨h.beginSend hidle msg, trivial⟩
  | canSend rc =>
    simp only [canTxStep] at ht
    split at ht
    · next frame hsending =>
      obtain rfl := Option.some.inj ht
      exact ⟨h.sent hsending rc, trivial⟩
    · cases ht
  | leave frame =>
    obtain ⟨⟨hflying, hnew⟩, ht⟩ := Option.ite_none_right_eq_some.mp ht
    obtain rfl := Option.some.inj ht
    exact ⟨h.leave hflying hnew, trivial⟩
  | callback done =>
    obtain ⟨⟨_, hsent⟩, ht⟩ := Option.ite_none_right_eq_some.mp ht
    obtain rfl := Option.some.inj ht
    exact ⟨h.callback hsent hown, trivial⟩
  | take =>
    simp only [canTxStep] at ht
    split at ht
    · next frame done hwaiting hdone =>
      obtain rfl := Option.some.inj ht
      exact h.taken hwaiting hdone
    · cases ht
  | timeout =>
    simp only [canTxStep] at ht
    split at ht
    · obtain rfl := Option.some.inj ht
      exact ⟨h.timedOut, trivial⟩
    · cases ht

theorem Kept.inOrder (h : s.Kept) : InOrder s := by
  intro hidle
  refine ⟨⟨h.ordered, h.once⟩, fun hzero => ?_⟩
  have hall := h.all hzero
  unfold AllAccepted at hall
  rw [hidle] at hall
  obtain ⟨hsucceeded, haccepted⟩ := hall
  have hsub : s.bus ⊆ List.range s.accepted.length := fun n hn => List.mem_range.mpr (h.left n hn)
  have hbus : List.range s.accepted.length = s.bus :=
    (hsucceeded ▸ h.ordered).eq_of_length_le (h.once.subperm hsub).length_le
  have hcalls : (s.calls.map fun msg => some (msgToFrame msg)) = s.accepted.map some := by
    rw [haccepted, List.map_map]
    rfl
  rw [← hbus, hcalls]
  exact List.ext_getElem (by simp) (by simp)

end CanTx

/-! ## Runs -/

@[simp] theorem CanTx.txDoneCallback_phase (s : CanTx) (done : TxDone) :
    (s.txDoneCallback done).phase = s.phase := by
  unfold CanTx.txDoneCallback
  dsimp only
  split <;> rfl

theorem CanTx.txDoneCallback_txDoneSem {s : CanTx} (done : TxDone) (hs : s.txDoneSem = none) :
    (s.txDoneCallback done).txDoneSem = some done := by
  unfold CanTx.txDoneCallback
  dsimp only
  split
  · exact congrArg (· <|> some done) hs
  · exact congrArg (· <|> some done) hs

/-- Every call returns zero for its own frame, and the frames have left in order. -/
def Answered (s : CanTx) (e : CanTxEvent) (t : CanTx) : Prop := Truthful s e ∧ InOrder t

theorem not_answered_take {s : CanTx} {frame : ℕ} {done : TxDone}
    (hwaiting : s.phase = .waiting frame) (hdone : s.txDoneSem = some done)
    (hne : done ≠ ⟨frame, 0⟩) : ¬ Steps canTxStep Answered s [.take] := by
  have hstep : canTxStep s .take = some (s.taken frame) := by
    simp only [canTxStep, hwaiting, hdone]
  intro hsteps
  have hown := (((steps_cons_some hstep).mp hsteps).1.1 frame hwaiting).1
  exact hne (Option.some.inj (hdone.symm.trans hown))

/-- The completion of a foreign frame, or one with an error, lets the call return zero. -/
theorem CanTx.Kept.not_answered {s t : CanTx} (h : s.Kept) {e : CanTxEvent}
    (ht : canTxStep s e = some t) (hown : ¬ OwnCompletion s e) :
    ∃ rest, ¬ Steps canTxStep Answered s (e :: rest) := by
  cases e with
  | callback done =>
    simp only [canTxStep] at ht
    obtain ⟨⟨hflying, _⟩, heq⟩ := Option.ite_none_right_eq_some.mp ht
    have hstep : canTxStep s (.callback done) = some (s.txDoneCallback done) := ht.trans heq.symm
    have hcurrent := h.current
    unfold CanTx.Current at hcurrent
    unfold OwnCompletion at hown
    dsimp only at hown
    split at hown
    · exact absurd trivial hown
    · -- the frame is accepted after the completion, and its call returns at once
      next frame hsending =>
      rw [hsending] at hcurrent
      have hphase : (s.txDoneCallback done).phase = .sending frame := by
        rw [CanTx.txDoneCallback_phase, hsending]
      have hsent : canTxStep (s.txDoneCallback done) (.canSend 0) =
          some ((s.txDoneCallback done).sent frame 0) := by
        simp only [canTxStep, hphase]
      have haccepted : (s.txDoneCallback done).accepted = s.accepted := by
        unfold CanTx.txDoneCallback
        dsimp only
        split <;> rfl
      refine ⟨[.canSend 0, .take], not_steps_cons hstep (not_steps_cons hsent ?_)⟩
      refine not_answered_take rfl (s.txDoneCallback_txDoneSem done hcurrent) fun hdone => ?_
      have hlt := h.flying done.frame hflying
      rw [hdone, haccepted] at hlt
      exact Nat.lt_irrefl _ hlt
    · next frame hwaiting =>
      obtain ⟨hs, hne⟩ := Classical.not_imp.mp hown
      refine ⟨[.take], not_steps_cons hstep ?_⟩
      exact not_answered_take ((s.txDoneCallback_phase done).trans hwaiting)
        (CanTx.txDoneCallback_txDoneSem done hs) hne
  | call _ => exact absurd trivial hown
  | canSend _ => exact absurd trivial hown
  | leave _ => exact absurd trivial hown
  | take => exact absurd trivial hown
  | timeout => exact absurd trivial hown

/-- In every run in which the first completion of each call is its own frame's, without an error, a
call returns zero only for its own frame, and the frames leave once each and in order; any other
first completion can be followed by a call that returns zero for it. -/
theorem sendBlocking_truthful (dev : Bool) (sem : Option TxDone) (count : UInt32)
    (es : List CanTxEvent)
    (hclean : Steps canTxStep (fun s e _ => OwnCompletion s e) (CanTx.start dev sem count) es) :
    Steps canTxStep Answered (CanTx.start dev sem count) es ∧
      ∀ s e t, exec canTxStep (CanTx.start dev sem count) es = some s →
        canTxStep s e = some t → ¬ OwnCompletion s e →
          ∃ rest, ¬ Steps canTxStep Answered s (e :: rest) := by
  have hstart := CanTx.kept_start dev sem count
  have hstep : ∀ {s e t}, CanTx.Kept s → OwnCompletion s e → canTxStep s e = some t →
      CanTx.Kept t ∧ Answered s e t := fun hs hown ht =>
    ⟨(hs.step hown ht).1, (hs.step hown ht).2, (hs.step hown ht).1.inOrder⟩
  refine ⟨Steps.of_inv hstep hstart hclean, fun s e t hs ht hown => ?_⟩
  have hkept : CanTx.Kept s :=
    Steps.inv_exec (fun hk hc hst => (hstep hk hc hst).1) hstart hclean hs
  exact hkept.not_answered ht hown

/-- Two frames, each completed while its call waits. -/
theorem sendBlocking_truthful_two :
    Steps canTxStep Answered (CanTx.start true none 0)
      [.call (.ofBytes 1 8 [0x10]), .canSend 0, .leave 0, .callback ⟨0, 0⟩, .take,
        .call (.ofBytes 1 8 [0x21]), .canSend 0, .leave 1, .callback ⟨1, 0⟩, .take] :=
  (sendBlocking_truthful true none 0 _ (by
    refine (steps_cons_some rfl).mpr ⟨trivial, ?_⟩
    refine (steps_cons_some rfl).mpr ⟨trivial, ?_⟩
    refine (steps_cons_some rfl).mpr ⟨trivial, ?_⟩
    refine (steps_cons_some rfl).mpr ⟨fun _ => rfl, ?_⟩
    refine (steps_cons_some rfl).mpr ⟨trivial, ?_⟩
    refine (steps_cons_some rfl).mpr ⟨trivial, ?_⟩
    refine (steps_cons_some rfl).mpr ⟨trivial, ?_⟩
    refine (steps_cons_some rfl).mpr ⟨trivial, ?_⟩
    refine (steps_cons_some rfl).mpr ⟨fun _ => rfl, ?_⟩
    exact (steps_cons_some rfl).mpr ⟨trivial, trivial⟩)).1

/-- A frame whose transmission fails, and one whose call is completed by the late completion of the
frame before it: both calls return zero. -/
theorem sendBlocking_not_truthful :
    ¬ Steps canTxStep Answered (CanTx.start true none 0)
        [.call (.ofBytes 1 8 [0x10]), .canSend 0, .callback ⟨0, -5⟩, .take] ∧
      ¬ Steps canTxStep Answered (CanTx.start true none 0)
        [.call (.ofBytes 1 8 [0x10]), .canSend 0, .timeout, .call (.ofBytes 1 8 [0x21]),
          .canSend 0, .leave 0, .callback ⟨0, 0⟩, .take] :=
  ⟨not_steps_cons rfl <| not_steps_cons rfl <| not_steps_cons rfl <|
      not_answered_take rfl rfl (by decide),
    not_steps_cons rfl <| not_steps_cons rfl <| not_steps_cons rfl <| not_steps_cons rfl <|
      not_steps_cons rfl <| not_steps_cons rfl <| not_steps_cons rfl <|
        not_answered_take rfl rfl (by decide)⟩

end DiveCANHead.IsoTp
