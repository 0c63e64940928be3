import DiveCANHead.Staging.Sync

/-!
# Steps of the manager

Each function of `stageImage` keeps the two ends in step, from what its caller knows about the
progress.
-/

namespace DiveCANHead.Staging

open DiveCANHead.Lib DiveCANHead.Uds DiveCANHead.UdsClient

section

variable {plan : Plan} {s : Link} {now : ℤ}

/-- The manager goes on in this way, and is not done. -/
structure Goes (plan : Plan) (s : Link) (st : Stager) : Prop where
  inv : LinkInv plan { s with stager := st }
  going : st.stage ≠ .resolved

theorem Goes.of_moved {st st' : Stager} (h : Goes plan { s with stager := st' } st) :
    Goes plan s st := ⟨h.inv, h.going⟩

/-- What the client calls the next request, if it takes it. -/
def nextCall (st : Stager) : Option ℕ :=
  if st.client.transportAvailable then some st.client.nextId else none

theorem mem_nextCall {st : Stager} {id : ℕ} (h : id ∈ nextCall st) : id = st.client.nextId := by
  unfold nextCall at h
  split at h
  · exact (Option.some.inj h).symm
  · cases h

/-- A call that fits the progress. -/
theorem Base.call (h : Base plan s) (service : Service) (stage : Option ℕ → Stage)
    (hfits : Fits plan s.stager.progress service)
    (hopens : ∀ id ∈ (stage (nextCall s.stager)).opens,
      id = s.stager.client.nextId ∧ service = downloadService plan) :
    Base plan { s with stager := s.stager.call service now stage } := by
  have hstage := h.withStage (stage (nextCall s.stager)) s.stager.attempt s.stager.aborted
    fun id hid => .inr (Nat.le_of_eq (hopens id hid).1.symm)
  exact hstage.withClient (e := .request service now)
    (d := s.stager.client.sendRequest service now)
    (JobOk.of_fits hfits fun id hid => (hopens id hid).2) rfl

/-- The call that a stage waits for is for the step at hand. -/
theorem Base.marked_call (h : Base plan s) : ∀ id ∈ nextCall s.stager, s.stager.mark ≤ id :=
  fun _ hid => mem_nextCall hid ▸ h.marked

theorem Base.rejected (h : Base plan s) :
    Goes plan s { s.stager with stage := .rejected } :=
  ⟨⟨h.withStage .rejected s.stager.attempt s.stager.aborted nofun, trivial⟩, nofun⟩

theorem Base.stagingFailed (h : Base plan s) (f : Fault) :
    Goes plan s (s.stager.stagingFailed plan f now) := by
  unfold Stager.stagingFailed
  split
  · exact h.rejected
  · split
    · have hmove := h.move { s.stager.progress with active := false, acked := 0 } nofun
      exact ⟨⟨hmove.withStage _ _ s.stager.aborted nofun, trivial⟩, nofun⟩
    · exact ⟨⟨h.withStage _ _ s.stager.aborted nofun, trivial⟩, nofun⟩

theorem Base.requestDownload (h : Base plan s) (hactive : s.stager.progress.active = false)
    (second : Bool) (step : SessionStep) :
    Goes plan s (s.stager.requestDownload plan second step now) := by
  refine ⟨⟨h.call (downloadService plan) _ hactive fun id hid => ⟨mem_nextCall ?_, rfl⟩, hactive,
    h.marked_call⟩, nofun⟩
  cases step with
  | first | again => exact hid
  | session => cases hid

theorem Base.sendBlock (h : Base plan s) (hactive : s.stager.progress.active = true)
    (hlt : s.stager.progress.acked < s.stager.progress.total) (retried : Bool)
    (retriesLeft : ℤ) :
    Goes plan s (s.stager.sendBlock plan s.stager.progress.acked retried retriesLeft now) :=
  ⟨⟨h.call (blockService plan s.stager.progress _) _ ⟨hactive, hlt, rfl⟩ nofun, hactive, rfl, hlt,
    h.marked_call⟩, nofun⟩

theorem Base.nextBlock (h : Base plan s) (hactive : s.stager.progress.active = true) :
    Goes plan s (s.stager.nextBlock plan now) := by
  unfold Stager.nextBlock
  split
  · next hlt =>
    split
    · exact h.stagingFailed _
    · exact h.sendBlock hactive hlt _ _
  · next hge =>
    have hle := not_lt.mp hge
    exact ⟨⟨h.call .requestTransferExit _ ⟨hactive, hle⟩ nofun, hactive, hle, h.marked_call⟩, nofun⟩

theorem Base.stageAttempt (h : Base plan s) : Goes plan s (s.stager.stageAttempt plan now) := by
  unfold Stager.stageAttempt
  split
  · next hactive => exact h.nextBlock hactive
  · next hactive => exact h.requestDownload (Bool.eq_false_iff.mpr hactive) _ _

/-- The head has an empty download open, or none. -/
theorem Base.opened (h : Base plan s) (hslot : s.slot = [])
    (hseq : s.head.ota.state = .downloading → s.head.ota.nextSeq = 1) (response : List UInt8) :
    Goes plan s (s.stager.opened plan response now) := by
  unfold Stager.opened
  dsimp only
  split
  · exact h.stagingFailed _
  · next hblock =>
    generalize hb : (min (plan.blockSize.getD (Stager.negotiatedBlock response : ℤ))
      (Stager.negotiatedBlock response : ℤ) - otaReqOverhead).toNat = block
    have hpos : 0 < block := by omega
    have hmove := h.move ⟨block, (plan.bytes.length + (block - 1)) / block, 0, true⟩ fun _ =>
      ⟨⟨hpos, rfl, Nat.zero_le _⟩, 0, .inl rfl, hslot, hseq⟩
    exact (hmove.nextBlock rfl).of_moved

theorem Base.downloadFailed (h : Base plan s) (hactive : s.stager.progress.active = false)
    (second : Bool) (f : Fault) : Goes plan s (s.stager.downloadFailed plan second f now) := by
  unfold Stager.downloadFailed
  split
  · exact ⟨⟨h.withStage _ s.stager.attempt s.stager.aborted nofun, hactive⟩, nofun⟩
  · exact h.stagingFailed f

/-- The head has been acknowledged for the block. -/
theorem Base.delivered (h : Base plan s) (hactive : s.stager.progress.active = true)
    (hslot : s.slot = blocks s.stager.progress.block (s.stager.progress.acked + 1) plan.bytes)
    (hlt : s.stager.progress.acked < s.stager.progress.total) :
    Goes plan s (s.stager.delivered plan s.stager.progress.acked now) := by
  obtain ⟨hopen, k, hk⟩ := h.step hactive
  have hlen : s.stager.progress.acked + 1 = k := by
    rw [← length_blocks s.stager.progress.block k plan.bytes, ← hk.slot, hslot, length_blocks]
  subst hlen
  have hmove := h.move { s.stager.progress with acked := s.stager.progress.acked + 1 } fun _ =>
    ⟨⟨hopen.block, hopen.total, hlt⟩, _, .inl rfl, hslot, hk.seq⟩
  exact (hmove.nextBlock hactive).of_moved

end

end DiveCANHead.Staging
