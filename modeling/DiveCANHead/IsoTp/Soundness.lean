import DiveCANHead.IsoTp.Rx
import DiveCANHead.Lib.Runs

/-!
# What a completed reception is made of

`lastReception` reads the last First Frame addressed to a node, and the
Consecutive Frames since, off the frames that were fed to it. A run in which
every accepted Consecutive Frame comes from the sender of that First Frame only
completes messages of one sender (`receive_sound`). The receiver does not check
the sender itself, and splices two of them (`receive_unsound`).
-/

namespace DiveCANHead.IsoTp

open DiveCANHead.Lib

/-! ## The frames of a message -/

/-- What a frame is to the node it is addressed to. -/
def heardAs (node : UInt8) (m : DiveCANMessage) : IsotpRxEvent :=
  if msgTarget m.id = node then pciToEvent (m.byte 0 &&& isotpPciMask) else .none

def track (node : UInt8) (last : Option (DiveCANMessage × List DiveCANMessage))
    (m : DiveCANMessage) : Option (DiveCANMessage × List DiveCANMessage) :=
  match heardAs node m with
  | .ff => some (m, [])
  | .cf => last.map fun l => (l.1, l.2 ++ [m])
  | .sf | .timeout | .none => last

/-- The last First Frame for this node and the Consecutive Frames for it since. -/
def lastReception (node : UInt8) (frames : List DiveCANMessage) :
    Option (DiveCANMessage × List DiveCANMessage) :=
  frames.foldl (track node) none

/-- The data bytes of a First Frame and its Consecutive Frames. -/
def messageBytes (first : DiveCANMessage) (cfs : List DiveCANMessage) : List UInt8 :=
  first.data.drop 2 ++ cfs.flatMap fun m => m.data.drop 1

def sequenceNumber (m : DiveCANMessage) : ℕ := (m.byte 0 &&& isotpPciLenMask).toNat

/-- The frames are numbered consecutively and have one sender. -/
structure OneMessage (first : DiveCANMessage) (cfs : List DiveCANMessage) : Prop where
  numbers : cfs.map sequenceNumber = (List.range cfs.length).map fun i => (i + 1) % 16
  sender : ∀ m ∈ cfs, msgSource m.id = msgSource first.id

instance (first : DiveCANMessage) (cfs : List DiveCANMessage) : Decidable (OneMessage first cfs) :=
  decidable_of_iff (_ ∧ _) ⟨fun h => ⟨h.1, h.2⟩, fun h => ⟨h.numbers, h.sender⟩⟩

/-- The buffer holds their bytes, up to the length the First Frame declares. -/
structure Reassembles (ctx : IsotpContext) (first : DiveCANMessage)
    (cfs : List DiveCANMessage) : Prop where
  one : OneMessage first cfs
  length : ctx.rxDataLength = ffDataLength first
  buffer : ctx.rxBuffer.take ctx.rxDataLength = (messageBytes first cfs).take (ffDataLength first)

instance (ctx : IsotpContext) (first : DiveCANMessage) (cfs : List DiveCANMessage) :
    Decidable (Reassembles ctx first cfs) :=
  decidable_of_iff (_ ∧ _ ∧ _)
    ⟨fun h => ⟨h.1, h.2.1, h.2.2⟩, fun h => ⟨h.one, h.length, h.buffer⟩⟩

theorem messageBytes_append (first : DiveCANMessage) (cfs : List DiveCANMessage)
    (m : DiveCANMessage) :
    messageBytes first (cfs ++ [m]) = messageBytes first cfs ++ m.data.drop 1 := by
  simp [messageBytes]

theorem length_messageBytes (first : DiveCANMessage) (cfs : List DiveCANMessage) :
    (messageBytes first cfs).length = isotpFfDataBytes + isotpCfDataBytes * cfs.length := by
  have hflat : (cfs.flatMap fun m => m.data.drop 1).length = 7 * cfs.length := by
    induction cfs with
    | nil => rfl
    | cons m cfs ih =>
      rw [List.flatMap_cons, List.length_append, ih, List.length_drop, m.size, List.length_cons]
      omega
  rw [messageBytes, List.length_append, hflat, List.length_drop, first.size]
  rfl

theorem lastReception_append (node : UInt8) (frames : List DiveCANMessage) (m : DiveCANMessage) :
    lastReception node (frames ++ [m]) = track node (lastReception node frames) m := by
  rw [lastReception, List.foldl_append]
  rfl

theorem OneMessage.nil (first : DiveCANMessage) : OneMessage first [] := ⟨rfl, nofun⟩

theorem OneMessage.snoc {first m : DiveCANMessage} {cfs : List DiveCANMessage}
    (h : OneMessage first cfs) (hnum : sequenceNumber m = (cfs.length + 1) % 16)
    (hsource : msgSource m.id = msgSource first.id) : OneMessage first (cfs ++ [m]) := by
  refine ⟨?_, ?_⟩
  · rw [List.map_append, h.numbers, List.length_append, List.length_singleton, List.range_succ,
      List.map_append, List.map_singleton, List.map_singleton, hnum]
  · intro f hf
    rcases List.mem_append.mp hf with hf | hf
    · exact h.sender f hf
    · rw [List.mem_singleton.mp hf]
      exact hsource

/-! ## The receiver and its caller -/

inductive RxEvent where
  | frame (m : DiveCANMessage) (now : UInt32)
  | poll (now : UInt32)
  deriving DecidableEq, Repr

/-- A context and the frames that were fed to it. -/
structure Reception where
  ctx : IsotpContext
  frames : List DiveCANMessage
  deriving DecidableEq, Repr

/-- The caller takes a completed message before it goes on. -/
def takeMessage (ctx : IsotpContext) : IsotpContext := { ctx with rxComplete := false }

def Reception.step (s : Reception) : RxEvent → Option Reception
  | .frame m now => some ⟨(isotpProcessRxFrame (takeMessage s.ctx) m now).2, s.frames ++ [m]⟩
  | .poll now => some { s with ctx := isotpPoll (takeMessage s.ctx) now }

def Reception.start (source target : UInt8) (messageId : UInt32) : Reception :=
  ⟨isotpInit source target messageId, []⟩

/-- A Consecutive Frame the receiver takes: it is receiving, and the number is the
expected one. -/
def acceptsCf (ctx : IsotpContext) (m : DiveCANMessage) : Prop :=
  heardAs ctx.source m = .cf ∧ ctx.state = .receiving ∧
    m.byte 0 &&& isotpPciLenMask = ctx.rxSequenceNumber

instance (ctx : IsotpContext) (m : DiveCANMessage) : Decidable (acceptsCf ctx m) :=
  inferInstanceAs (Decidable (_ ∧ _))

/-- An accepted Consecutive Frame comes from the sender of the last First Frame. -/
def SenderKept (s : Reception) : RxEvent → Prop
  | .frame m _ => acceptsCf s.ctx m →
      ∀ l ∈ lastReception s.ctx.source s.frames, msgSource m.id = msgSource l.1.id
  | .poll _ => True

/-- A message that a Consecutive Frame completes is the last reception. -/
def Sound (_ : Reception) : RxEvent → Reception → Prop
  | .frame m _, t => heardAs t.ctx.source m = .cf → t.ctx.rxComplete = true →
      ∃ l ∈ lastReception t.ctx.source t.frames, Reassembles t.ctx l.1 l.2
  | .poll _, t => t.ctx.rxComplete = false

/-! ## What a frame can do -/

/-- A reception in progress. Only its own fields of the context matter. -/
structure InProgress (ctx : IsotpContext) (first : DiveCANMessage)
    (cfs : List DiveCANMessage) : Prop where
  one : OneMessage first cfs
  total : ctx.rxDataLength = ffDataLength first
  total_le : ctx.rxDataLength ≤ isotpMaxPayload
  received : ctx.rxBytesReceived = isotpFfDataBytes + isotpCfDataBytes * cfs.length
  room : cfs ≠ [] → ctx.rxBytesReceived < ctx.rxDataLength
  number : ctx.rxSequenceNumber.toNat = (cfs.length + 1) % 16
  bytes : ctx.rxBuffer.take ctx.rxBytesReceived = messageBytes first cfs

theorem InProgress.congr {ctx ctx' : IsotpContext} {first : DiveCANMessage}
    {cfs : List DiveCANMessage} (h : InProgress ctx first cfs)
    (hlength : ctx'.rxDataLength = ctx.rxDataLength)
    (hreceived : ctx'.rxBytesReceived = ctx.rxBytesReceived)
    (hnumber : ctx'.rxSequenceNumber = ctx.rxSequenceNumber)
    (hbuffer : ctx'.rxBuffer = ctx.rxBuffer) : InProgress ctx' first cfs := by
  constructor
  · exact h.one
  · rw [hlength, h.total]
  · rw [hlength]
    exact h.total_le
  · rw [hreceived, h.received]
  · rw [hreceived, hlength]
    exact h.room
  · rw [hnumber, h.number]
  · rw [hbuffer, hreceived, h.bytes]

/-- What a frame leaves: the context but for its target, an idle one, the start
of a reception, or the reception with one more Consecutive Frame. -/
inductive Reaction (ctx : IsotpContext) (m : DiveCANMessage) (now : UInt32) : IsotpContext → Prop
  | ignored (target : UInt8) (hff : heardAs ctx.source m ≠ .ff)
      (hcf : heardAs ctx.source m = .cf → ctx.state = .idle) :
      Reaction ctx m now { ctx with target := target }
  | idle (ctx' : IsotpContext) (hstate : ctx'.state = .idle) (hsource : ctx'.source = ctx.source)
      (hsize : ctx'.rxBuffer.length = isotpMaxPayload)
      (hcf : heardAs ctx.source m = .cf → ctx'.rxComplete = ctx.rxComplete) :
      Reaction ctx m now ctx'
  | first (ctx' : IsotpContext) (hff : heardAs ctx.source m = .ff)
      (hsource : ctx'.source = ctx.source) (hsize : ctx'.rxBuffer.length = isotpMaxPayload)
      (hopen : InProgress ctx' m []) : Reaction ctx m now ctx'
  | next (target : UInt8) (hcf : acceptsCf ctx m) :
      Reaction ctx m now
        (let ctx' := appendFrame { ctx with target := target } m now
         if ctx'.rxDataLength ≤ ctx'.rxBytesReceived then
           isotpReset { ctx' with rxComplete := true } else ctx')

section Reaction

variable {ctx : IsotpContext} {m : DiveCANMessage} {now : UInt32}

theorem singleFrame_reaction (hsize : ctx.rxBuffer.length = isotpMaxPayload) (target : UInt8)
    (h : heardAs ctx.source m = .sf) :
    Reaction ctx m now (handleSingleFrame { ctx with target := target } m).2 := by
  unfold handleSingleFrame
  simp only
  split_ifs with hlen hshort
  · exact .ignored target (by rw [h]; nofun) (by rw [h]; nofun)
  · exact .ignored target (by rw [h]; nofun) (by rw [h]; nofun)
  · refine .idle _ rfl rfl ?_ (by rw [h]; nofun)
    simp only [setIdle]
    rw [length_overlay, hsize]
    rw [List.length_take, hsize]
    simp only [isotpSfMaxData] at hlen
    exact (Nat.zero_add _).trans_le ((Nat.min_le_left _ _).trans
      ((not_lt.mp (not_or.mp hlen).2).trans (by decide)))

theorem firstFrame_reaction (hsize : ctx.rxBuffer.length = isotpMaxPayload) (target : UInt8)
    (h : heardAs ctx.source m = .ff) :
    Reaction ctx m now (handleFirstFrame { ctx with target := target } m now).2 := by
  have hlen : ((m.data.drop 2).take isotpFfDataBytes).length = isotpFfDataBytes := by
    rw [List.length_take, List.length_drop, m.size]
    rfl
  have hbuf : (overlay ctx.rxBuffer 0 ((m.data.drop 2).take isotpFfDataBytes)).length =
      isotpMaxPayload := by
    rw [length_overlay (by rw [hlen, hsize]; decide), hsize]
  unfold handleFirstFrame
  simp only
  split_ifs with hrange
  · exact .idle _ rfl rfl hsize (by rw [h]; nofun)
  · refine .first _ h rfl hbuf ⟨.nil m, rfl, not_lt.mp (not_or.mp hrange).2, rfl, nofun, rfl, ?_⟩
    refine (take_overlay_zero hlen.ge).trans ?_
    rw [List.take_take, Nat.min_self, messageBytes, List.flatMap_nil, List.append_nil]
    exact List.take_of_length_le (by rw [List.length_drop, m.size]; decide)

theorem consecutiveFrame_reaction (hsize : ctx.rxBuffer.length = isotpMaxPayload) (target : UInt8)
    (h : heardAs ctx.source m = .cf) (hstate : ctx.state = .receiving) :
    Reaction ctx m now (handleConsecutiveFrame { ctx with target := target } m now).2 := by
  by_cases hseq : m.byte 0 &&& isotpPciLenMask = ctx.rxSequenceNumber
  · rw [@handleConsecutiveFrame_expected { ctx with target := target } m hseq now]
    exact .next target ⟨h, hstate, hseq⟩
  · unfold handleConsecutiveFrame
    rw [if_pos hseq]
    exact .idle _ rfl rfl hsize fun _ => rfl

/-- A frame for this context that is not of a known type only retargets it. -/
theorem processRxFrame_unknown (ht : msgTarget m.id = ctx.source)
    (he : pciToEvent (m.byte 0 &&& isotpPciMask) = .none) (now : UInt32) :
    (isotpProcessRxFrame ctx m now).2 = retarget ctx m := by
  have hfor : ¬ msgTarget m.id ≠ ctx.source := not_not_intro ht
  simp only [isotpProcessRxFrame, if_neg hfor, he, if_true, ite_self]

theorem pciToEvent_ne_timeout (pci : UInt8) : pciToEvent pci ≠ .timeout := by
  unfold pciToEvent
  split_ifs <;> nofun

/-- Every frame has one of these effects. -/
theorem processRxFrame_reaction (hsize : ctx.rxBuffer.length = isotpMaxPayload)
    (m : DiveCANMessage) (now : UInt32) : Reaction ctx m now (isotpProcessRxFrame ctx m now).2 := by
  by_cases ht : msgTarget m.id = ctx.source
  · obtain ⟨target, hretarget⟩ := retarget_eq ctx m
    have hheard : heardAs ctx.source m = pciToEvent (m.byte 0 &&& isotpPciMask) := if_pos ht
    have hdispatch : ∀ {event}, event ≠ .none → heardAs ctx.source m = event →
        isotpProcessRxFrame ctx m now =
          isotpRunState { ctx with target := target } event m now := by
      intro event hne h
      rw [processRxFrame_of_event ht hne (hheard.symm.trans h) now, hretarget]
    cases he : heardAs ctx.source m with
    | none =>
      rw [processRxFrame_unknown ht (hheard.symm.trans he), hretarget]
      exact .ignored target (by rw [he]; nofun) (by rw [he]; nofun)
    | timeout => exact absurd (hheard.symm.trans he) (pciToEvent_ne_timeout _)
    | sf =>
      rw [hdispatch (by decide) he, runState_sf]
      exact singleFrame_reaction hsize target he
    | ff =>
      rw [hdispatch (by decide) he, runState_ff]
      exact firstFrame_reaction hsize target he
    | cf =>
      have hstates : ctx.state = .idle ∨ ctx.state = .receiving := by
        cases ctx.state
        · exact .inl rfl
        · exact .inr rfl
      rw [hdispatch (by decide) he]
      rcases hstates with hstate | hstate
      · rw [runState_cf_idle (by exact hstate)]
        exact .ignored target (by rw [he]; nofun) fun _ => hstate
      · rw [runState_cf_receiving (by exact hstate)]
        exact consecutiveFrame_reaction hsize target he hstate
  · have hnone : heardAs ctx.source m = .none := if_neg ht
    have hsame : (isotpProcessRxFrame ctx m now).2 = ctx := by
      simp only [isotpProcessRxFrame, ne_eq, ht, not_false_eq_true, if_true]
    rw [hsame]
    exact .ignored ctx.target (by rw [hnone]; nofun) (by rw [hnone]; nofun)

end Reaction

/-! ## One more Consecutive Frame -/

section Append

variable {ctx : IsotpContext} {first m : DiveCANMessage} {cfs : List DiveCANMessage} {now : UInt32}

/-- What is taken from a frame: at most seven bytes, and the buffer has room. -/
theorem InProgress.room_for (h : InProgress ctx first cfs) :
    min (bytesRemaining ctx) isotpCfDataBytes ≤ isotpCfDataBytes ∧
      ctx.rxBytesReceived + min (bytesRemaining ctx) isotpCfDataBytes ≤ isotpMaxPayload ∧
      (ctx.rxDataLength - ctx.rxBytesReceived ≤ bytesRemaining ctx) ∧
      (ctx.rxBytesReceived < ctx.rxDataLength →
        bytesRemaining ctx = ctx.rxDataLength - ctx.rxBytesReceived) := by
  have hle := h.total_le
  have hreceived := h.received
  have hroom : cfs = [] ∨ ctx.rxBytesReceived < ctx.rxDataLength := by
    by_cases hnil : cfs = []
    · exact .inl hnil
    · exact .inr (h.room hnil)
  simp only [bytesRemaining, isotpCfDataBytes, isotpMaxPayload, isotpFfDataBytes] at *
  rcases hroom with rfl | hroom
  · -- a First Frame may declare less than it carries
    rw [List.length_nil] at hreceived
    omega
  · omega

/-- The buffer after a Consecutive Frame, up to what has been received. -/
theorem InProgress.take_append (h : InProgress ctx first cfs)
    (hsize : ctx.rxBuffer.length = isotpMaxPayload) (m : DiveCANMessage) (now : UInt32) :
    (appendFrame ctx m now).rxBuffer.length = isotpMaxPayload ∧
      ∀ k ≤ (appendFrame ctx m now).rxBytesReceived,
        (appendFrame ctx m now).rxBuffer.take k = (messageBytes first (cfs ++ [m])).take k := by
  obtain ⟨hseven, hfits, -, -⟩ := h.room_for
  set n := min (bytesRemaining ctx) isotpCfDataBytes with hn
  have hcopied : ((m.data.drop 1).take n).length = n := by
    rw [List.length_take, List.length_drop, m.size]
    exact Nat.min_eq_left hseven
  have hbefore : (messageBytes first cfs).length = ctx.rxBytesReceived := by
    rw [length_messageBytes, h.received]
  rw [appendFrame_rxBuffer, appendFrame_rxBytesReceived, ← hn]
  refine ⟨by rw [length_overlay (by rw [hcopied, hsize]; exact hfits), hsize], fun k hk => ?_⟩
  have hsent : ctx.rxBytesReceived ≤ ctx.rxBuffer.length := by
    rw [hsize]
    exact (Nat.le_add_right _ _).trans hfits
  have htail : ((m.data.drop 1).take n).take (k - ctx.rxBytesReceived) =
      (m.data.drop 1).take (k - ctx.rxBytesReceived) := by
    rw [List.take_take, Nat.min_eq_left (Nat.sub_le_iff_le_add'.mpr hk)]
  rw [take_overlay hsent (by rw [hcopied]; exact hk), h.bytes, messageBytes_append,
    List.take_append, List.take_append, hbefore, htail]

/-- The frame that completes the reception. -/
theorem InProgress.complete (h : InProgress ctx first cfs)
    (hsize : ctx.rxBuffer.length = isotpMaxPayload) (hone : OneMessage first (cfs ++ [m]))
    (hfull : (appendFrame ctx m now).rxDataLength ≤ (appendFrame ctx m now).rxBytesReceived) :
    Reassembles (isotpReset { appendFrame ctx m now with rxComplete := true }) first
      (cfs ++ [m]) := by
  obtain ⟨-, hlength, hbuffer, -⟩ := reset_complete (appendFrame ctx m now)
  have htotal : (appendFrame ctx m now).rxDataLength = ffDataLength first :=
    (appendFrame_rxDataLength ..).trans h.total
  refine ⟨hone, hlength.trans htotal, ?_⟩
  rw [hlength, hbuffer, (h.take_append hsize m now).2 _ hfull, htotal]

/-- Any other frame carries the reception on. -/
theorem InProgress.append (h : InProgress ctx first cfs)
    (hsize : ctx.rxBuffer.length = isotpMaxPayload) (hone : OneMessage first (cfs ++ [m]))
    (hopen : (appendFrame ctx m now).rxBytesReceived < (appendFrame ctx m now).rxDataLength) :
    InProgress (appendFrame ctx m now) first (cfs ++ [m]) := by
  obtain ⟨-, -, hleft, hexact⟩ := h.room_for
  have hcount := appendFrame_rxBytesReceived ctx m now
  have htotal := appendFrame_rxDataLength ctx m now
  have hreceived : (appendFrame ctx m now).rxBytesReceived =
      isotpFfDataBytes + isotpCfDataBytes * (cfs ++ [m]).length := by
    have hbefore := h.received
    rw [hcount, htotal] at hopen
    rw [hcount, hbefore, List.length_append, List.length_singleton]
    simp only [isotpCfDataBytes, isotpFfDataBytes] at *
    omega
  refine ⟨hone, htotal.trans h.total, htotal.trans_le h.total_le, hreceived, fun _ => hopen, ?_, ?_⟩
  · rw [appendFrame_rxSequenceNumber, seq_succ_toNat, h.number, List.length_append,
        List.length_singleton]
    omega
  · rw [(h.take_append hsize m now).2 _ le_rfl, hreceived, ← length_messageBytes,
      List.take_length]

end Append

/-! ## Runs -/

/-- A receiving context is in the reception that the frames describe. -/
structure ReceptionInv (s : Reception) : Prop where
  size : s.ctx.rxBuffer.length = isotpMaxPayload
  receiving : s.ctx.state = .receiving →
    ∃ l, lastReception s.ctx.source s.frames = some l ∧ InProgress s.ctx l.1 l.2

theorem track_of_cf {node : UInt8} {m : DiveCANMessage} (h : heardAs node m = .cf)
    (l : DiveCANMessage × List DiveCANMessage) :
    track node (some l) m = some (l.1, l.2 ++ [m]) := by
  simp only [track, h, Option.map_some]

theorem track_of_ff {node : UInt8} {m : DiveCANMessage} (h : heardAs node m = .ff)
    (last : Option (DiveCANMessage × List DiveCANMessage)) : track node last m = some (m, []) := by
  simp only [track, h]

theorem track_of_other {node : UInt8} {m : DiveCANMessage} (hff : heardAs node m ≠ .ff)
    (hcf : heardAs node m ≠ .cf) (last : Option (DiveCANMessage × List DiveCANMessage)) :
    track node last m = last := by
  unfold track
  split
  · contradiction
  · contradiction
  · rfl
  · rfl
  · rfl

/-- A frame from the sender of the last First Frame keeps the invariant, and what
it completes is the last reception. -/
theorem frame_sound {s : Reception} (hi : ReceptionInv s) {m : DiveCANMessage} {now : UInt32}
    (hc : SenderKept s (.frame m now)) {ctx' : IsotpContext}
    (hr : Reaction (takeMessage s.ctx) m now ctx') :
    ReceptionInv ⟨ctx', s.frames ++ [m]⟩ ∧ Sound s (.frame m now) ⟨ctx', s.frames ++ [m]⟩ := by
  cases hr with
  | ignored target hff hcf =>
    refine ⟨⟨hi.size, fun hstate => ?_⟩, fun _ hcomplete => by cases hcomplete⟩
    obtain ⟨l, hl, hopen⟩ := hi.receiving hstate
    have hncf : heardAs s.ctx.source m ≠ .cf := by
      intro h
      have hidle : s.ctx.state = .idle := hcf h
      rw [show s.ctx.state = .receiving from hstate] at hidle
      cases hidle
    refine ⟨l, ?_, hopen.congr rfl rfl rfl rfl⟩
    rw [lastReception_append]
    exact (track_of_other hff hncf _).trans hl
  | idle ctx' hstate hsource hsize hcf =>
    refine ⟨⟨hsize, fun h => ?_⟩, fun hheard hcomplete => ?_⟩
    · rw [show ctx'.state = .receiving from h] at hstate
      cases hstate
    · rw [show ctx'.source = s.ctx.source from hsource] at hheard
      rw [show ctx'.rxComplete = true from hcomplete] at hcf
      cases hcf hheard
  | first ctx' hff hsource hsize hopen =>
    have hlast : lastReception ctx'.source (s.frames ++ [m]) = some (m, []) := by
      rw [lastReception_append, hsource]
      exact track_of_ff hff _
    refine ⟨⟨hsize, fun _ => ⟨_, hlast, hopen⟩⟩, fun hheard _ => ?_⟩
    rw [show ctx'.source = s.ctx.source from hsource, show heardAs s.ctx.source m = .ff from hff]
      at hheard
    cases hheard
  | next target hcf =>
    obtain ⟨l, hl, hopen⟩ := hi.receiving hcf.2.1
    have hlast : lastReception s.ctx.source (s.frames ++ [m]) = some (l.1, l.2 ++ [m]) := by
      rw [lastReception_append, hl]
      exact track_of_cf hcf.1 l
    have hnum : sequenceNumber m = (l.2.length + 1) % 16 := by
      rw [sequenceNumber, hcf.2.2]
      exact hopen.number
    have hone := hopen.one.snoc hnum (hc hcf l hl)
    have hopen' : InProgress { takeMessage s.ctx with target := target } l.1 l.2 :=
      hopen.congr rfl rfl rfl rfl
    have hsource := appendFrame_source { takeMessage s.ctx with target := target } m now
    obtain ⟨-, -, hbuffer, hkept⟩ :=
      reset_complete (appendFrame { takeMessage s.ctx with target := target } m now)
    have hsize := (hopen'.take_append hi.size m now).1
    simp only
    split
    · next hfull =>
      refine ⟨⟨(congrArg List.length hbuffer).trans hsize, nofun⟩, fun _ _ =>
        ⟨(l.1, l.2 ++ [m]), ?_, hopen'.complete hi.size hone hfull⟩⟩
      rw [hkept, hsource]
      exact hlast
    · next hmore =>
      refine ⟨⟨hsize, fun _ =>
        ⟨(l.1, l.2 ++ [m]), ?_, hopen'.append hi.size hone (not_le.mp hmore)⟩⟩, ?_⟩
      · rw [hsource]
        exact hlast
      · intro _ hcomplete
        cases hcomplete

/-- A poll at most ends the reception. -/
theorem poll_sound {s : Reception} (hi : ReceptionInv s) (now : UInt32) :
    ReceptionInv { s with ctx := isotpPoll (takeMessage s.ctx) now } ∧
      (isotpPoll (takeMessage s.ctx) now).rxComplete = false := by
  unfold isotpPoll
  split
  · exact ⟨⟨hi.size, nofun⟩, rfl⟩
  · refine ⟨⟨hi.size, fun hstate => ?_⟩, rfl⟩
    obtain ⟨l, hl, hopen⟩ := hi.receiving hstate
    exact ⟨l, hl, hopen.congr rfl rfl rfl rfl⟩

theorem reception_step_sound {s t : Reception} {e : RxEvent} (hi : ReceptionInv s)
    (hc : SenderKept s e) (h : s.step e = some t) : ReceptionInv t ∧ Sound s e t := by
  cases e with
  | frame m now =>
    obtain rfl := Option.some.inj h
    have hsize : (takeMessage s.ctx).rxBuffer.length = isotpMaxPayload := hi.size
    exact frame_sound hi hc (processRxFrame_reaction hsize m now)
  | poll now =>
    obtain rfl := Option.some.inj h
    exact poll_sound hi now

/-- If every accepted Consecutive Frame comes from the sender of the last First
Frame, every completed message is one sender's. -/
theorem receive_sound (source target : UInt8) (messageId : UInt32) {es : List RxEvent}
    (h : Steps Reception.step (fun s e _ => SenderKept s e) (.start source target messageId) es) :
    Steps Reception.step Sound (.start source target messageId) es :=
  Steps.of_inv reception_step_sound ⟨List.length_replicate, nofun⟩ h

instance (s : Reception) (e : RxEvent) : Decidable (SenderKept s e) :=
  match e with
  | .frame _ _ => inferInstanceAs (Decidable (_ → _))
  | .poll _ => inferInstanceAs (Decidable True)

instance (s : Reception) (e : RxEvent) (t : Reception) : Decidable (Sound s e t) :=
  match e with
  | .frame _ _ => inferInstanceAs (Decidable (_ → _ → _))
  | .poll _ => inferInstanceAs (Decidable (_ = _))

/-- A First Frame of ten bytes to node 4. -/
def tenByteFirst (source : UInt8) : DiveCANMessage :=
  .ofBytes (menuId ||| 0x400 ||| source.toUInt32) 8 [0x10, 10, 1, 2, 3, 4, 5, 6]

/-- The Consecutive Frame that completes it. -/
def tenByteRest (source : UInt8) : DiveCANMessage :=
  .ofBytes (menuId ||| 0x400 ||| source.toUInt32) 8 [0x21, 7, 8, 9, 10]

theorem receive_sound_one_sender :
    Steps Reception.step Sound (.start 4 1 menuId)
      [.frame (tenByteFirst 1) 0, .poll 5, .frame (tenByteRest 1) 10] :=
  receive_sound 4 1 menuId (by decide +kernel)

/-- A bridge's Consecutive Frame is spliced onto a handset's First Frame. -/
theorem receive_unsound :
    ¬ Steps Reception.step Sound (.start 4 1 menuId)
      [.frame (tenByteFirst 1) 0, .frame (tenByteRest 0xFF) 10] := by
  decide +kernel

end DiveCANHead.IsoTp
