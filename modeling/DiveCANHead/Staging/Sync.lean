import DiveCANHead.Lib.Segment
import DiveCANHead.Staging.HeadSide

/-!
# What keeps the two ends in step

While a download is open, the head has been acknowledged for the blocks that the manager has
counted, or for one more, and it expects the block after those. A request from `mark` on is for
the step at hand, and an answer to one says how far the head is.
-/

namespace DiveCANHead.Staging

open DiveCANHead.Lib DiveCANHead.Uds DiveCANHead.UdsClient

/-! ## Requests and answers of the step at hand -/

/-- A service that `stageImage` calls. -/
def Ours : Service → Prop
  | .requestDownload _ _ _ | .enterSession _ | .transferData _ _ | .requestTransferExit => True
  | .readDataByIdentifier _ | .writeDataByIdentifier _ _ | .readMultipleDIDs _ _
  | .routineControl _ _ => False

/-- The service is for this progress: a download is being opened, or the next block sent, or the
download closed. -/
def Fits (plan : Plan) (p : Progress) : Service → Prop
  | .requestDownload _ _ _ | .enterSession _ => p.active = false
  | .transferData seq data =>
    p.active = true ∧ p.acked < p.total ∧ .transferData seq data = blockService plan p p.acked
  | .requestTransferExit => p.active = true ∧ p.total ≤ p.acked
  | .readDataByIdentifier _ | .writeDataByIdentifier _ _ | .readMultipleDIDs _ _
  | .routineControl _ _ => False

/-- The RequestDownload that the stage waits for. -/
def Stage.opens : Stage → Option ℕ
  | .download _ .first call | .download _ .again call => call
  | .download _ .session _ | .stale _ | .block _ _ _ _ | .exit _ | .recovering _ _ | .resolved
  | .rejected => none

/-- A job of the manager; from `mark` on it is for the step at hand. -/
structure JobOk (plan : Plan) (s : Stager) (job : Job) : Prop where
  ours : Ours job.service
  fits : s.mark ≤ job.id → Fits plan s.progress job.service
  opens : ∀ id ∈ s.stage.opens, job.id = id → job.service = downloadService plan

/-- What an answer tells about the head. -/
structure Tells (plan : Plan) (s : Link) (m : Message) : Prop where
  opened : s.stager.progress.active = false →
    m.data.head? = some (sidRequestDownload + responseSidOffset) →
      s.slot = [] ∧ (s.head.ota.state = .downloading → s.head.ota.nextSeq = 1)
  written : s.stager.progress.active = true →
    m.data.head? = some (sidTransferData + responseSidOffset) ∨
        m.refuses sidTransferData = some nrcWrongBlockSequence →
      s.slot = blocks s.stager.progress.block (s.stager.progress.acked + 1) plan.bytes

/-- A message answers an earlier request, and if that is for the step at hand, it tells the
truth. -/
def Heard (plan : Plan) (s : Link) (m : Message) : Prop :=
  ∀ i ∈ m.origin, i < s.stager.client.nextId ∧ (s.stager.mark ≤ i → Tells plan s m)

/-- What the calls settle with. -/
def OutcomeOk (plan : Plan) (s : Link) (job : Job) : Outcome → Prop
  | .resolved m | .malformed m =>
    JobOk plan s.stager job ∧ LooksPositive m job ∧ Heard plan s m
  | .nrc code m =>
    JobOk plan s.stager job ∧ m.refuses job.service.sid = some code ∧ Heard plan s m
  | .failed _ => JobOk plan s.stager job

/-! ## The invariant -/

/-- How far the head is while a download is open. -/
structure InStep (plan : Plan) (s : Link) (k : ℕ) : Prop where
  count : k = s.stager.progress.acked ∨
    k = s.stager.progress.acked + 1 ∧ s.stager.progress.acked < s.stager.progress.total
  slot : s.slot = blocks s.stager.progress.block k plan.bytes
  seq : s.head.ota.state = .downloading → s.head.ota.nextSeq = UInt8.ofNat (k + 1)

/-- The progress of an open download. -/
structure Open (plan : Plan) (p : Progress) : Prop where
  block : 0 < p.block
  total : p.total = (plan.bytes.length + (p.block - 1)) / p.block
  acked : p.acked ≤ p.total

/-- The stage is for the progress, and waits for a call of the step at hand. -/
def StageOk (s : Stager) : Prop :=
  match s.stage with
  | .download _ _ call => s.progress.active = false ∧ ∀ id ∈ call, s.mark ≤ id
  | .stale _ => s.progress.active = false
  | .block idx _ _ call =>
    s.progress.active = true ∧ idx = s.progress.acked ∧ s.progress.acked < s.progress.total ∧
      ∀ id ∈ call, s.mark ≤ id
  | .exit call => s.progress.active = true ∧ s.progress.total ≤ s.progress.acked ∧
      ∀ id ∈ call, s.mark ≤ id
  | .recovering (.block idx _) _ =>
    s.progress.active = true ∧ idx = s.progress.acked ∧ s.progress.acked < s.progress.total
  | .recovering .attempt _ | .resolved | .rejected => True

/-- Everything but the stage. -/
structure Base (plan : Plan) (s : Link) : Prop where
  client : ∃ c t, s.stager.client = c.inTurn t ∧
    Kept (JobOk plan s.stager) (OutcomeOk plan s) c t
  marked : s.stager.mark ≤ s.stager.client.nextId
  head : Ready s.head
  replies : ∀ m ∈ s.replies, Heard plan s m
  step : s.stager.progress.active = true →
    Open plan s.stager.progress ∧ ∃ k, InStep plan s k

structure LinkInv (plan : Plan) (s : Link) : Prop extends Base plan s where
  stage : StageOk s.stager

section

variable {plan : Plan} {s s' : Link}

theorem JobOk.of_fits {st : Stager} {job : Job} (h : Fits plan st.progress job.service)
    (hopens : ∀ id ∈ st.stage.opens, job.service = downloadService plan) : JobOk plan st job := by
  refine ⟨?_, fun _ => h, fun id hid _ => hopens id hid⟩
  cases hs : job.service <;> first | trivial | (rw [hs] at h; exact h)

/-- An outcome's job is one of the manager's. -/
theorem OutcomeOk.job {job : Job} {o : Outcome} (h : OutcomeOk plan s job o) :
    JobOk plan s.stager job := by
  cases o with
  | resolved | malformed | nrc => exact h.1
  | failed => exact h

/-- An outcome stays what it is while what the messages say stays true. -/
theorem OutcomeOk.imp {job : Job} {o : Outcome} (h : OutcomeOk plan s job o)
    (hjob : JobOk plan s.stager job → JobOk plan s'.stager job)
    (hheard : ∀ m, Heard plan s m → Heard plan s' m) : OutcomeOk plan s' job o := by
  cases o with
  | resolved m | malformed m | nrc code m => exact ⟨hjob h.1, h.2.1, hheard m h.2.2⟩
  | failed => exact hjob h

/-- A reply settles the request in flight as the message allows. -/
theorem OutcomeOk.of_reply {job : Job} {m : Message} {o : Outcome} (hjob : JobOk plan s.stager job)
    (hm : Heard plan s m) (ho : job.reply m = some o) : OutcomeOk plan s job o := by
  rcases reply_cases ho with ⟨reason, rfl⟩ | ⟨hlooks, rfl⟩ | ⟨code, hcode, rfl⟩
  · exact hjob
  · unfold Service.conclude
    split
    · exact ⟨hjob, hlooks, hm⟩
    · exact ⟨hjob, hlooks, hm⟩
  · exact ⟨hjob, hcode, hm⟩

/-- The client's side stays as it is, and what the messages say stays true. -/
structure SameStep (plan : Plan) (s s' : Link) : Prop where
  client : s'.stager.client = s.stager.client
  mark : s'.stager.mark = s.stager.mark
  progress : s'.stager.progress = s.stager.progress
  opens : ∀ id ∈ s'.stager.stage.opens,
    id ∈ s.stager.stage.opens ∨ s.stager.client.nextId ≤ id
  tells : ∀ m, Tells plan s m → Tells plan s' m

theorem SameStep.job (h : SameStep plan s s') {job : Job}
    (hid : job.id < s.stager.client.nextId) (hjob : JobOk plan s.stager job) :
    JobOk plan s'.stager job := by
  refine ⟨hjob.ours, by rw [h.mark, h.progress]; exact hjob.fits, fun id hopens heq => ?_⟩
  rcases h.opens id hopens with hopens | hnext
  · exact hjob.opens id hopens heq
  · omega

theorem SameStep.heard (h : SameStep plan s s') {m : Message} (hm : Heard plan s m) :
    Heard plan s' m := by
  intro i hi
  obtain ⟨hlt, htells⟩ := hm i hi
  rw [h.client, h.mark]
  exact ⟨hlt, fun hmark => h.tells m (htells hmark)⟩

/-- What happens at the other end. -/
theorem Base.same (h : Base plan s) (hsame : SameStep plan s s') (hhead : Ready s'.head)
    (hreplies : ∀ m ∈ s'.replies, Heard plan s' m)
    (hstep : s'.stager.progress.active = true →
      Open plan s'.stager.progress ∧ ∃ k, InStep plan s' k) : Base plan s' := by
  obtain ⟨c, t, hc, hkept⟩ := h.client
  refine ⟨⟨c, t, hsame.client.trans hc, ?_⟩, ?_, hhead, hreplies, hstep⟩
  · have hnext : s.stager.client.nextId = c.nextId := by rw [hc]; rfl
    exact hkept.imp (fun job hid => hsame.job (hnext ▸ hid)) fun job o hid ho =>
      ho.imp (hsame.job (hnext ▸ hid)) fun m => hsame.heard
  · rw [hsame.client, hsame.mark]
    exact h.marked

/-- The stage and the abort flag change, and no RequestDownload that is under way is waited for
anew. -/
theorem Base.withStage (h : Base plan s) (stage : Stage) (attempt : ℤ) (aborted : Bool)
    (hopens : ∀ id ∈ stage.opens, id ∈ s.stager.stage.opens ∨ s.stager.client.nextId ≤ id) :
    Base plan { s with stager := { s.stager with stage, attempt, aborted } } := by
  have hsame : SameStep plan s { s with stager := { s.stager with stage, attempt, aborted } } :=
    ⟨rfl, rfl, rfl, hopens, fun m hm => ⟨hm.opened, hm.written⟩⟩
  refine h.same hsame h.head (fun m hm => hsame.heard (h.replies m hm)) fun hactive => ?_
  obtain ⟨hopen, k, hk⟩ := h.step hactive
  exact ⟨hopen, k, hk.count, hk.slot, hk.seq⟩

/-- The client moves, and its jobs and outcomes are as they should be. -/
theorem Base.withClient (h : Base plan s) {e : ClientEvent} {d : Client}
    (he : Admits (JobOk plan s.stager) (OutcomeOk plan s) s.stager.client e)
    (hstep : clientStep s.stager.client e = some d) : Base plan (s.withClient d) := by
  obtain ⟨c, t, hc, hkept⟩ := h.client
  rw [hc] at he hstep
  obtain ⟨c', t', rfl, hkept', hnext, -⟩ :=
    clientStep_leads (fun _ _ hjob => hjob) hkept he hstep
  have hheard : ∀ m, Heard plan s m → Heard plan (s.withClient (c'.inTurn t')) m := by
    intro m hm i hi
    obtain ⟨hlt, htells⟩ := hm i hi
    have hlt' : i < c.nextId := by
      rw [hc] at hlt
      exact hlt
    exact ⟨Nat.lt_of_lt_of_le hlt' hnext,
      fun hmark => ⟨(htells hmark).opened, (htells hmark).written⟩⟩
  refine ⟨⟨c', t', rfl, ?_⟩, ?_, h.head, fun m hm => hheard m (h.replies m hm), fun hactive => ?_⟩
  · exact hkept'.imp (fun job _ hjob => ⟨hjob.ours, hjob.fits, hjob.opens⟩) fun job o _ ho =>
      ho.imp (fun hjob => ⟨hjob.ours, hjob.fits, hjob.opens⟩) hheard
  · have hmarked := h.marked
    rw [hc] at hmarked
    exact Nat.le_trans hmarked hnext
  · obtain ⟨hopen, k, hk⟩ := h.step hactive
    exact ⟨hopen, k, hk.count, hk.slot, hk.seq⟩

/-- The progress changes; what is under way is then no longer for the step at hand. -/
theorem Base.move (h : Base plan s) (p : Progress)
    (hstep : p.active = true → Open plan p ∧
      ∃ k, InStep plan { s with stager := s.stager.move p } k) :
    Base plan { s with stager := s.stager.move p } := by
  obtain ⟨c, t, hc, hkept⟩ := h.client
  have hnext : s.stager.client.nextId = c.nextId := by rw [hc]; rfl
  have hjob : ∀ job : Job, job.id < c.nextId → JobOk plan s.stager job →
      JobOk plan (s.stager.move p) job := fun job hid hjob =>
    ⟨hjob.ours, fun hmark => absurd (hnext ▸ hmark) (Nat.not_le_of_lt hid), hjob.opens⟩
  have hheard : ∀ m, Heard plan s m → Heard plan { s with stager := s.stager.move p } m :=
    fun m hm i hi => ⟨(hm i hi).1, fun hmark => absurd hmark (Nat.not_le_of_lt (hm i hi).1)⟩
  refine ⟨⟨c, t, hc, ?_⟩, Nat.le_refl _, h.head, fun m hm => hheard m (h.replies m hm), hstep⟩
  exact hkept.imp hjob fun job o hid ho => ho.imp (hjob job hid) hheard

end

end DiveCANHead.Staging
