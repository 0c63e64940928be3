import DiveCANHead.LogPush.Push

/-!
# Log push in order

The messages that ISO-TP takes are the accepted ones in their order, without those that were
overwritten as the oldest of a full queue, as long as nobody takes an item out of the queue while
the poll works on the one it has popped, and ISO-TP takes what it is given.
-/

namespace DiveCANHead.LogPush

open DiveCANHead.Lib

/-- The message that the poll has popped and not handed on yet. -/
def PollPc.held : PollPc → List Accepted
  | .idle | .allowed => []
  | .popped source | .copying source _ _ => [source]

/-- The accepted messages that were not overwritten are those that ISO-TP took, byte for byte,
the one that the poll holds, and those in the queue, in this order. -/
def Fifo (s : LogPushState) : Prop :=
  ∃ sent : List Accepted, s.handed = sent.map Accepted.message ∧
    s.accepted.filter (fun a => a.id ∉ s.overwritten) =
      sent ++ s.poll.held ++ s.queue.items.map Queued.source

/-- Messages fit their item, the oldest entry is dropped while the queue is still full and the
poll holds no message, and ISO-TP takes every message. -/
def Undisturbed (s : LogPushState) : PushEvent → Prop
  | .beginSend message => message.length ≤ udsLogMaxPayload
  | .dropOldest => s.poll.held = [] ∧ s.queue.full = true
  | .transmit sent => sent = true
  | .checkFree | .put | .setSuspended _ | .noteDialogActivity _ | .beginPoll _ _ | .pop
  | .readLength | .copyByte => True

instance decidableUndisturbed (s : LogPushState) : ∀ e, Decidable (Undisturbed s e)
  | .beginSend message => inferInstanceAs (Decidable (message.length ≤ udsLogMaxPayload))
  | .dropOldest => inferInstanceAs (Decidable (_ ∧ _))
  | .transmit sent => inferInstanceAs (Decidable (sent = true))
  | .checkFree | .put | .setSuspended _ | .noteDialogActivity _ | .beginPoll _ _ | .pop
  | .readLength | .copyByte => isTrue trivial

/-! ## The invariant -/

/-- The whole message as an item. -/
def IsItem (item : QueueItem) (message : List UInt8) : Prop :=
  item.length = message.length ∧ item.data = message

theorem isItem_ofMessage {message : List UInt8} (h : message.length ≤ udsLogMaxPayload) :
    IsItem (.ofMessage message) message :=
  ⟨Nat.min_eq_left h, List.take_of_length_le h⟩

/-- The item of the log thread is its message. -/
def SendPc.Holds (item : QueueItem) : SendPc → Prop
  | .idle => True
  | .filled message | .full message | .putting message => IsItem item message

/-- The item of the poll is its message, and so is what it has copied. -/
def PollPc.Holds (item : QueueItem) (buffer : ℕ → UInt8) : PollPc → Prop
  | .idle | .allowed => True
  | .popped source => IsItem item source.message
  | .copying source copied length =>
    IsItem item source.message ∧ length = source.message.length ∧ copied ≤ length ∧
      (List.range copied).map buffer = source.message.take copied

structure PushInv (s : LogPushState) : Prop where
  fifo : Fifo s
  numbered : s.accepted.map Accepted.id = List.range s.accepted.length
  overwritten : ∀ id ∈ s.overwritten, id < s.accepted.length
  items : ∀ x ∈ s.queue.items, IsItem x.item x.source.message
  send : s.send.Holds s.txItem
  poll : s.poll.Holds s.rxItem s.txBuffer

variable {s t : LogPushState}

theorem PushInv.nodup (h : PushInv s) : (s.accepted.map Accepted.id).Nodup := by
  rw [h.numbered]
  exact List.nodup_range

theorem PushInv.lt (h : PushInv s) {a : Accepted} (ha : a ∈ s.accepted) :
    a.id < s.accepted.length := by
  have hid : a.id ∈ s.accepted.map Accepted.id := List.mem_map_of_mem ha
  rw [h.numbered] at hid
  exact List.mem_range.mp hid

/-! ## The log thread -/

theorem PushInv.beginSend (h : PushInv s) {message : List UInt8}
    (hfits : message.length ≤ udsLogMaxPayload) : PushInv (s.beginSend message) := by
  unfold LogPushState.beginSend
  split
  · exact { h with send := isItem_ofMessage hfits }
  · exact h

theorem PushInv.checkFree (h : PushInv s) (hstep : s.checkFree = some t) : PushInv t := by
  unfold LogPushState.checkFree at hstep
  have hsend := h.send
  split at hstep
  · next message hpc =>
    rw [hpc] at hsend
    rw [← Option.some.inj hstep]
    refine { h with send := ?_ }
    dsimp only
    split <;> exact hsend
  · cases hstep

/-- What is overwritten leaves the list, at one place. -/
theorem filter_overwritten {accepted sent rest : List Accepted} {a : Accepted}
    {overwritten : List ℕ} (hnodup : (accepted.map Accepted.id).Nodup)
    (h : accepted.filter (fun a => a.id ∉ overwritten) = sent ++ a :: rest) :
    accepted.filter (fun b => b.id ∉ a.id :: overwritten) = sent ++ rest := by
  have hmore : accepted.filter (fun b => b.id ∉ a.id :: overwritten) =
      (accepted.filter fun b => b.id ∉ overwritten).filter fun b => b.id ≠ a.id := by
    rw [List.filter_filter]
    refine List.filter_congr fun b _ => ?_
    simp only [List.mem_cons, not_or, ne_eq, Bool.decide_and]
  have hleft : ((sent ++ a :: rest).map Accepted.id).Nodup := by
    rw [← h]
    exact (List.filter_sublist.map _).nodup hnodup
  rw [List.map_append, List.map_cons] at hleft
  obtain ⟨-, hrest, hapart⟩ := List.nodup_append.mp hleft
  rw [hmore, h, List.filter_append, List.filter_cons_of_neg (by simp)]
  congr 1
  · refine List.filter_eq_self.mpr fun b hb => decide_eq_true fun hid => ?_
    exact hapart _ (List.mem_map_of_mem hb) _ List.mem_cons_self hid
  · refine List.filter_eq_self.mpr fun b hb => decide_eq_true fun hid => ?_
    exact (List.nodup_cons.mp hrest).1 (hid ▸ List.mem_map_of_mem hb)

theorem holds_of_held {pc : PollPc} (h : pc.held = []) (item : QueueItem) (buffer : ℕ → UInt8) :
    pc.Holds item buffer := by
  cases pc with
  | idle | allowed => trivial
  | popped | copying => cases h

/-- The oldest entry of a full queue counts as overwritten. -/
theorem PushInv.dropOldest (h : PushInv s) (hheld : s.poll.held = []) (hfull : s.queue.full = true)
    (hstep : s.dropOldest = some t) : PushInv t := by
  unfold LogPushState.dropOldest at hstep
  have hsend := h.send
  split at hstep
  · next message hpc =>
    rw [hpc] at hsend
    split at hstep
    · rw [← Option.some.inj hstep]
      exact { h with send := hsend }
    · next oldest queue hget =>
      rw [← Option.some.inj hstep, if_pos hfull]
      have hitems := BoundedQueue.get_eq_some.mp hget
      obtain ⟨sent, hhanded, hleft⟩ := h.fifo
      rw [hheld, List.append_nil, hitems, List.map_cons] at hleft
      have hmem : oldest.source ∈ s.accepted := by
        refine (List.mem_filter (p := fun a => a.id ∉ s.overwritten).mp ?_).1
        rw [hleft]
        exact List.mem_append_right _ List.mem_cons_self
      refine ⟨⟨sent, hhanded, ?_⟩, h.numbered, fun id hid => ?_, fun x hx => ?_, hsend,
        holds_of_held hheld _ _⟩
      · dsimp only
        rw [hheld, List.append_nil]
        exact filter_overwritten h.nodup hleft
      · rcases List.mem_cons.mp hid with rfl | hid
        · exact h.lt hmem
        · exact h.overwritten id hid
      · exact h.items x (hitems ▸ List.mem_cons_of_mem _ hx)
  · cases hstep

/-- A message that is put is accepted under the next number. -/
theorem PushInv.put (h : PushInv s) (hstep : s.put = some t) : PushInv t := by
  unfold LogPushState.put at hstep
  have hsend := h.send
  split at hstep
  · next message hpc =>
    rw [hpc] at hsend
    split at hstep
    · rw [← Option.some.inj hstep]
      exact { h with send := trivial }
    · next queue hput =>
      rw [← Option.some.inj hstep]
      have hitems : queue.items = s.queue.items ++ [⟨s.txItem, s.accepted.length, message⟩] := by
        cases hfull : s.queue.full with
        | true =>
          rw [BoundedQueue.put_of_full hfull] at hput
          cases hput
        | false =>
          obtain ⟨r, hr, hri⟩ := BoundedQueue.put_of_not_full hfull
            (⟨s.txItem, s.accepted.length, message⟩ : Queued)
          rw [hput] at hr
          rwa [Option.some.inj hr]
      obtain ⟨sent, hhanded, hleft⟩ := h.fifo
      have hnew : s.accepted.length ∉ s.overwritten := fun hmem =>
        Nat.lt_irrefl _ (h.overwritten _ hmem)
      refine ⟨⟨sent, hhanded, ?_⟩, ?_, fun id hid => ?_, fun x hx => ?_, trivial, h.poll⟩
      · dsimp only
        rw [List.filter_append, hleft, hitems, List.map_append, ← List.append_assoc]
        congr 1
        exact List.filter_cons_of_pos (decide_eq_true hnew)
      · rw [List.map_append, h.numbered, List.length_append, List.length_singleton,
          List.range_succ]
        rfl
      · rw [List.length_append]
        exact Nat.lt_add_right _ (h.overwritten id hid)
      · rw [hitems] at hx
        rcases List.mem_append.mp hx with hx | hx
        · exact h.items x hx
        · rw [List.mem_singleton.mp hx]
          exact hsend
  · cases hstep

/-! ## The poll -/

theorem PushInv.beginPoll (h : PushInv s) {now : UInt32} {transport : Transport}
    (hstep : s.beginPoll now transport = some t) : PushInv t := by
  unfold LogPushState.beginPoll at hstep
  split at hstep
  · cases hstep
  next hidle =>
  have hpc : s.poll = .idle := Decidable.not_not.mp hidle
  split at hstep
  · rwa [← Option.some.inj hstep]
  split at hstep
  · rwa [← Option.some.inj hstep]
  · obtain ⟨sent, hhanded, hleft⟩ := h.fifo
    rw [hpc] at hleft
    rw [← Option.some.inj hstep]
    refine { h with fifo := ⟨sent, hhanded, ?_⟩, poll := ?_ }
    · dsimp only
      split <;> exact hleft
    · dsimp only
      split <;> trivial

/-- The poll takes over the oldest entry. -/
theorem PushInv.pop (h : PushInv s) (hstep : s.pop = some t) : PushInv t := by
  unfold LogPushState.pop at hstep
  split at hstep
  · next hpc =>
    obtain ⟨sent, hhanded, hleft⟩ := h.fifo
    rw [hpc] at hleft
    split at hstep
    · rw [← Option.some.inj hstep]
      exact { h with fifo := ⟨sent, hhanded, hleft⟩, poll := trivial }
    · next oldest queue hget =>
      have hitems := BoundedQueue.get_eq_some.mp hget
      rw [hitems, List.map_cons] at hleft
      rw [← Option.some.inj hstep]
      refine { h with fifo := ⟨sent, hhanded, ?_⟩, items := fun x hx => ?_, poll := ?_ }
      · rw [hleft]
        simp [PollPc.held]
      · exact h.items x (hitems ▸ List.mem_cons_of_mem _ hx)
      · exact h.items oldest (hitems ▸ List.mem_cons_self)
  · cases hstep

theorem PushInv.readLength (h : PushInv s) (hstep : s.readLength = some t) : PushInv t := by
  unfold LogPushState.readLength at hstep
  have hpoll := h.poll
  split at hstep
  · next source hpc =>
    obtain ⟨sent, hhanded, hleft⟩ := h.fifo
    rw [hpc] at hpoll hleft
    rw [← Option.some.inj hstep]
    exact { h with
      fifo := ⟨sent, hhanded, hleft⟩
      poll := ⟨hpoll, hpoll.1, Nat.zero_le _, List.take_zero.symm⟩ }
  · cases hstep

/-- The bytes copied so far are those of the message. -/
theorem PushInv.copyByte (h : PushInv s) (hstep : s.copyByte = some t) : PushInv t := by
  unfold LogPushState.copyByte at hstep
  have hpoll := h.poll
  split at hstep
  · next source copied length hpc =>
    obtain ⟨sent, hhanded, hleft⟩ := h.fifo
    rw [hpc] at hpoll hleft
    split at hstep
    · next hmore =>
      obtain ⟨hitem, hlength, -, hcopied⟩ := hpoll
      rw [← Option.some.inj hstep]
      refine { h with fifo := ⟨sent, hhanded, hleft⟩, poll := ⟨hitem, hlength, hmore, ?_⟩ }
      have hbyte : copied < source.message.length := hlength ▸ hmore
      have hbefore : (List.range copied).map (Function.update s.txBuffer copied
          (s.rxItem.data.getD copied 0)) = (List.range copied).map s.txBuffer := by
        refine List.map_congr_left fun i hi => ?_
        exact Function.update_of_ne (Nat.ne_of_lt (List.mem_range.mp hi)) _ _
      dsimp only
      rw [List.range_succ, List.map_append, hbefore, hcopied, List.map_singleton,
        Function.update_self, hitem.2, List.take_succ_eq_append_getElem hbyte,
        List.getD_eq_getElem?_getD, List.getElem?_eq_getElem hbyte, Option.getD_some]
    · cases hstep
  · cases hstep

/-- ISO-TP is given the message that was popped. -/
theorem PushInv.transmit (h : PushInv s) (hstep : s.transmit true = some t) : PushInv t := by
  unfold LogPushState.transmit at hstep
  have hpoll := h.poll
  split at hstep
  · next source copied length hpc =>
    obtain ⟨sent, hhanded, hleft⟩ := h.fifo
    rw [hpc] at hpoll hleft
    split at hstep
    · cases hstep
    · next hdone =>
      obtain ⟨hitem, hlength, hle, hcopied⟩ := hpoll
      have hall : copied = source.message.length := by omega
      have hpayload : (List.range s.rxItem.length).map s.txBuffer = source.message := by
        rw [hitem.1, ← hall, hcopied, hall, List.take_length]
      rw [if_pos rfl] at hstep
      rw [← Option.some.inj hstep]
      refine { h with fifo := ⟨sent ++ [source], ?_, ?_⟩, poll := trivial }
      · rw [hpayload, hhanded, List.map_append]
        rfl
      · rw [hleft]
        simp [PollPc.held]
  · cases hstep

/-! ## Runs -/

theorem PushInv.step (h : PushInv s) {e : PushEvent} (hclean : Undisturbed s e)
    (hstep : pushStep s e = some t) : PushInv t := by
  cases e with
  | beginSend message => exact Option.some.inj hstep ▸ h.beginSend hclean
  | checkFree => exact h.checkFree hstep
  | dropOldest => exact h.dropOldest hclean.1 hclean.2 hstep
  | put => exact h.put hstep
  | setSuspended suspended =>
    rw [← Option.some.inj hstep]
    exact { h with }
  | noteDialogActivity now =>
    rw [← Option.some.inj hstep]
    exact { h with }
  | beginPoll now transport => exact h.beginPoll hstep
  | pop => exact h.pop hstep
  | readLength => exact h.readLength hstep
  | copyByte => exact h.copyByte hstep
  | transmit sent =>
    obtain rfl : sent = true := hclean
    exact h.transmit hstep

theorem pushInv_init : PushInv {} :=
  ⟨⟨[], rfl, rfl⟩, rfl, fun _ h => absurd h List.not_mem_nil,
    fun _ h => absurd h List.not_mem_nil, trivial, trivial⟩

/-- In a run in which nothing disturbs the poll, every state reached is in order. -/
theorem fifo_of_undisturbed (es : List PushEvent)
    (h : Steps pushStep (fun s e _ => Undisturbed s e) {} es) :
    Steps pushStep (fun _ _ t => Fifo t) {} es := by
  have hkeep : ∀ {s e t}, PushInv s → Undisturbed s e → pushStep s e = some t →
      PushInv t ∧ Fifo t :=
    fun hinv hclean hstep => ⟨hinv.step hclean hstep, (hinv.step hclean hstep).fifo⟩
  exact Steps.of_inv hkeep pushInv_init h

/-- What ISO-TP took is the front of what was not overwritten. -/
theorem Fifo.handed_eq (h : Fifo s) :
    s.handed = ((s.accepted.filter fun a => a.id ∉ s.overwritten).map Accepted.message).take
      s.handed.length := by
  obtain ⟨sent, hhanded, hleft⟩ := h
  rw [hleft, List.append_assoc, List.map_append, ← hhanded, List.take_left]

/-- The steps that send a message, and those that poll for one of a single byte. -/
def sending (message : List UInt8) : List PushEvent := [.beginSend message, .checkFree, .put]

def polling : List PushEvent :=
  [.beginPoll 100 {}, .pop, .readLength, .copyByte, .transmit true]

theorem fifo_sendingPolling :
    Steps pushStep (fun s e _ => Undisturbed s e) {} (sending [7] ++ polling) ∧
      Steps pushStep (fun _ _ t => Fifo t) {} (sending [7] ++ polling) := by
  have hclean : Steps pushStep (fun s e _ => Undisturbed s e) {} (sending [7] ++ polling) := by
    decide +kernel
  exact ⟨hclean, fifo_of_undisturbed _ hclean⟩

/-- Ten messages in the queue, the first of which the poll pops; two more are sent before it
copies, and the second of them drops the oldest entry into the item buffer. -/
def overtaken : List PushEvent :=
  (List.range 10).flatMap (fun i => sending [UInt8.ofNat i]) ++ [.beginPoll 100 {}, .pop] ++
    sending [10] ++ [.beginSend [11], .checkFree, .dropOldest, .put] ++ [.readLength, .copyByte]

/-- ISO-TP is given the message that was dropped in place of the one that was popped. -/
theorem overtaken_notFifo :
    ¬Steps pushStep (fun _ _ t => Fifo t) {} (overtaken ++ [.transmit true]) := by
  intro h
  have hfront : Steps pushStep (fun _ _ t => t.handed = ((t.accepted.filter fun a =>
      a.id ∉ t.overwritten).map Accepted.message).take t.handed.length) {}
      (overtaken ++ [.transmit true]) := h.mono Fifo.handed_eq
  exact absurd hfront (by decide +kernel)

end DiveCANHead.LogPush
