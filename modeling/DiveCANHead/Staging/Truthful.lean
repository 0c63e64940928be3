import DiveCANHead.Staging.Steps
import DiveCANHead.Uds.Sessions

/-!
# When staging is truthful

The manager infers from a 0x73 to a retry that the head has the block. That holds of the answer
to a send of the block itself; a late 0x73 to an earlier block counts as well, and the head
accepts the exit of a download that is not complete.
-/

namespace DiveCANHead.Staging

open DiveCANHead.Lib DiveCANHead.Uds DiveCANHead.UdsClient

/-! ## What is counted on -/

/-- The message that a download is opened on, or a block counted. -/
def Stager.counted (s : Stager) : Option Message :=
  match s.stage with
  | .download _ .first call | .download _ .again call =>
    match s.outcome call with
    | some (.resolved m) => some m
    | _ => none
  | .block _ retried _ call =>
    match s.outcome call with
    | some (.resolved m) => some m
    | some (.nrc code m) => if retried = true ∧ code = nrcWrongBlockSequence then some m else none
    | _ => none
  | _ => none

/-- Nothing is counted, written or erased on behalf of an earlier step: the message that opens a
download or counts a block answers a request from `mark` on, a block that the head takes is one,
and no RequestDownload starts a download under the one that is open. -/
def UpToDate (s : Link) : LinkEvent → Prop
  | .proceed _ => ∀ m ∈ s.stager.counted, ∃ i ∈ m.origin, s.stager.mark ≤ i
  | .toHead id env => ∀ job ∈ s.stager.client.sent, job.id = id →
      (Acknowledges env.toOtaEnv (maintained env s.head) (wire job) → s.stager.mark ≤ id) ∧
        ((wire job).sid = sidRequestDownload → (maintained env s.head).ota.state = .idle →
          Admitted env.toOtaEnv (maintained env s.head) → s.stager.progress.active = false)
  | _ => True

/-- The counted blocks have been acknowledged as written, in order; when staging resolves, that is
the whole image, every block once. -/
structure Truthful (plan : Plan) (s t : Link) : Prop where
  counted : t.stager.progress.active = true →
    blocks t.stager.progress.block t.stager.progress.acked plan.bytes <+: t.slot
  whole : s.stager.stage ≠ .resolved → t.stager.stage = .resolved →
    t.slot = blocks t.stager.progress.block t.stager.progress.total plan.bytes ∧
      t.slot.flatten = plan.bytes

section

variable {plan : Plan} {s t : Link} {now : ℤ}

theorem Base.counted (h : Base plan s) (hactive : s.stager.progress.active = true) :
    blocks s.stager.progress.block s.stager.progress.acked plan.bytes <+: s.slot := by
  obtain ⟨-, k, hk⟩ := h.step hactive
  rw [hk.slot]
  refine blocks_prefix _ ?_ _
  rcases hk.count with rfl | ⟨rfl, -⟩ <;> omega

/-- All blocks are the image. -/
theorem Open.flatten (h : Open plan s.stager.progress) :
    (blocks s.stager.progress.block s.stager.progress.total plan.bytes).flatten = plan.bytes := by
  rw [flatten_blocks, List.take_of_length_le]
  rw [h.total]
  have hdiv := Nat.div_add_mod (plan.bytes.length + (s.stager.progress.block - 1))
    s.stager.progress.block
  have hmod := Nat.mod_lt (plan.bytes.length + (s.stager.progress.block - 1)) h.block
  have hpos := h.block
  rw [Nat.mul_comm]
  omega

/-! ## Settled calls -/

/-- A call has been turned down, or its job has settled. -/
theorem Base.outcome (h : Base plan s) {call : Option ℕ} {o : Outcome}
    (ho : s.stager.outcome call = some o) :
    (∃ reason, o = .failed reason) ∨ ∃ job, call = some job.id ∧ OutcomeOk plan s job o := by
  cases call with
  | none => exact .inl ⟨_, (Option.some.inj ho).symm⟩
  | some id =>
    right
    obtain ⟨p, hp, rfl⟩ := Option.map_eq_some_iff.mp ho
    obtain ⟨c, t, hc, hkept⟩ := h.client
    have hid : p.1.id = id := by simpa using List.find?_some hp
    have hmem : p ∈ c.settled := by
      have hmem := List.mem_of_find?_eq_some hp
      rwa [hc] at hmem
    exact ⟨p.1, by rw [hid], hkept.ledger.outcomes p hmem⟩

/-- What a fresh message tells. -/
theorem Heard.tells {m : Message} (h : Heard plan s m)
    (hfresh : ∃ i ∈ m.origin, s.stager.mark ≤ i) : Tells plan s m := by
  obtain ⟨i, hi, hmark⟩ := hfresh
  exact (h i hi).2 hmark

/-- A RequestDownload or a session that has failed. -/
theorem Base.downloadRetried (h : Base plan s) (hactive : s.stager.progress.active = false)
    (second : Bool) (step : SessionStep) {o : Outcome} (ho : ∀ m, o ≠ .resolved m) :
    Goes plan s (s.stager.downloadSettled plan second step o now) := by
  have heq : s.stager.downloadSettled plan second step o now =
      if step = .first ∧ faultOf o = .nrc nrcServiceNotInSession then
        s.stager.call (.enterSession udsSessionProgramming) now (.download second .session)
      else s.stager.downloadFailed plan second (faultOf o) now := by
    cases o with
    | resolved m => exact absurd rfl (ho m)
    | malformed | nrc | failed => cases step <;> rfl
  rw [heq]
  split
  · exact ⟨⟨h.call _ _ hactive nofun, hactive, h.marked_call⟩, nofun⟩
  · exact h.downloadFailed hactive second (faultOf o)

/-- A RequestDownload that has resolved. -/
theorem Base.downloadOpened (h : Base plan s) {call : Option ℕ} {m : Message}
    (hactive : s.stager.progress.active = false) (hopens : s.stager.stage.opens = call)
    (ho : s.stager.outcome call = some (.resolved m))
    (hfresh : ∃ i ∈ m.origin, s.stager.mark ≤ i) :
    Goes plan s (s.stager.opened plan m.data now) := by
  rcases h.outcome ho with ⟨reason, hr⟩ | ⟨job, hcall, hjob, hlooks, hheard⟩
  · cases hr
  · have hservice := hjob.opens job.id (hopens.trans hcall) rfl
    have hhead := hlooks.1
    rw [hservice] at hhead
    obtain ⟨hslot, hseq⟩ := (hheard.tells hfresh).opened hactive hhead
    exact h.opened hslot hseq m.data

theorem Base.downloadSettled (h : Base plan s) {second : Bool} {step : SessionStep}
    {call : Option ℕ} {o : Outcome} (hstage : s.stager.stage = .download second step call)
    (hactive : s.stager.progress.active = false) (ho : s.stager.outcome call = some o)
    (hfresh : ∀ m ∈ s.stager.counted, ∃ i ∈ m.origin, s.stager.mark ≤ i) :
    Goes plan s (s.stager.downloadSettled plan second step o now) := by
  cases o with
  | malformed | nrc | failed => exact h.downloadRetried hactive second step nofun
  | resolved m =>
    cases step with
    | session => exact h.requestDownload hactive second .again
    | first | again =>
      have hcounted : m ∈ s.stager.counted := by
        simp only [Stager.counted, hstage, ho]
        rfl
      exact h.downloadOpened hactive (by rw [hstage]; rfl) ho (hfresh m hcounted)

/-- A message that counts a block: the head has it. -/
theorem Base.blockCounted (h : Base plan s) {job : Job} {m : Message}
    (hactive : s.stager.progress.active = true)
    (hlt : s.stager.progress.acked < s.stager.progress.total)
    (hjob : JobOk plan s.stager job) (hmark : s.stager.mark ≤ job.id) (hheard : Heard plan s m)
    (hfresh : ∃ i ∈ m.origin, s.stager.mark ≤ i)
    (hm : m.data.head? = some (job.service.sid + responseSidOffset) ∨
      m.refuses job.service.sid = some nrcWrongBlockSequence) :
    Goes plan s (s.stager.delivered plan s.stager.progress.acked now) := by
  have hsid : job.service.sid = sidTransferData := by
    have hfits := hjob.fits hmark
    cases hs : job.service with
    | transferData => rfl
    | requestTransferExit =>
      rw [hs] at hfits
      exact absurd hfits.2 (Nat.not_le_of_lt hlt)
    | requestDownload | enterSession =>
      rw [hs] at hfits
      exact absurd (hactive.symm.trans hfits) nofun
    | readDataByIdentifier | writeDataByIdentifier | readMultipleDIDs | routineControl =>
      rw [hs] at hfits
      exact hfits.elim
  rw [hsid] at hm
  exact h.delivered hactive ((hheard.tells hfresh).written hactive hm) hlt

theorem Base.blockSettled (h : Base plan s) {retried : Bool} {retriesLeft : ℤ}
    {call : Option ℕ} {o : Outcome}
    (hstage : s.stager.stage = .block s.stager.progress.acked retried retriesLeft call)
    (hactive : s.stager.progress.active = true)
    (hlt : s.stager.progress.acked < s.stager.progress.total)
    (hmark : ∀ id ∈ call, s.stager.mark ≤ id) (ho : s.stager.outcome call = some o)
    (hfresh : ∀ m ∈ s.stager.counted, ∃ i ∈ m.origin, s.stager.mark ≤ i) :
    Goes plan s
      (s.stager.blockSettled plan s.stager.progress.acked retried retriesLeft o now) := by
  have hfailed : ∀ f, Goes plan s (if s.stager.aborted then
      s.stager.stagingFailed plan .validation now
      else if isTransientError f = false ∨ retriesLeft ≤ 0 then s.stager.stagingFailed plan f now
      else { s.stager with
        stage := .recovering (.block s.stager.progress.acked (retriesLeft - 1)) now }) := by
    intro f
    split
    · exact h.stagingFailed _
    split
    · exact h.stagingFailed _
    · exact ⟨⟨h.withStage _ s.stager.attempt s.stager.aborted nofun, hactive, rfl, hlt⟩, nofun⟩
  cases o with
  | resolved m =>
    have hcounted : m ∈ s.stager.counted := by
      simp only [Stager.counted, hstage, ho]
      rfl
    rcases h.outcome ho with ⟨reason, hr⟩ | ⟨job, hcall, hjob, hlooks, hheard⟩
    · cases hr
    · exact h.blockCounted hactive hlt hjob (hmark _ hcall) hheard (hfresh m hcounted)
        (.inl hlooks.1)
  | nrc code m =>
    unfold Stager.blockSettled
    dsimp only
    split
    · next hretried =>
      obtain ⟨hretried, hcode⟩ := hretried
      have hcode : code = nrcWrongBlockSequence := Fault.nrc.inj hcode
      have hcounted : m ∈ s.stager.counted := by
        simp only [Stager.counted, hstage, ho, hretried, hcode, and_self, if_true]
        rfl
      rcases h.outcome ho with ⟨reason, hr⟩ | ⟨job, hcall, hjob, hrefuses, hheard⟩
      · cases hr
      · exact h.blockCounted hactive hlt hjob (hmark _ hcall) hheard (hfresh m hcounted)
          (.inr (hcode ▸ hrefuses))
    · exact hfailed _
  | malformed m | failed reason =>
    unfold Stager.blockSettled
    dsimp only
    rw [if_neg (fun h => absurd h.2 nofun)]
    exact hfailed _

/-- A step that does not end the staging is truthful. -/
theorem LinkInv.safe (h : LinkInv plan t)
    (hstage : t.stager.stage = .resolved → s.stager.stage = .resolved) :
    LinkInv plan t ∧ Truthful plan s t :=
  ⟨h, ⟨h.toBase.counted, fun hs ht => absurd (hstage ht) hs⟩⟩

theorem Goes.safe {st : Stager} (h : Goes plan s st) :
    LinkInv plan { s with stager := st } ∧ Truthful plan s { s with stager := st } :=
  h.inv.safe fun ht => absurd ht h.going

/-- At the exit the head has been acknowledged for every block. -/
theorem Base.whole (h : Base plan s) (hactive : s.stager.progress.active = true)
    (hle : s.stager.progress.total ≤ s.stager.progress.acked) :
    s.slot = blocks s.stager.progress.block s.stager.progress.total plan.bytes ∧
      s.slot.flatten = plan.bytes := by
  obtain ⟨hopen, k, hk⟩ := h.step hactive
  have htotal : k = s.stager.progress.total := by
    have hacked := hopen.acked
    rcases hk.count with rfl | ⟨-, hlt⟩ <;> omega
  have hslot := hk.slot
  rw [htotal] at hslot
  exact ⟨hslot, hslot ▸ hopen.flatten⟩

theorem Base.exitSettled (h : Base plan s) (hactive : s.stager.progress.active = true)
    (hle : s.stager.progress.total ≤ s.stager.progress.acked) (o : Outcome) :
    LinkInv plan { s with stager := s.stager.exitSettled plan o now } ∧
      Truthful plan s { s with stager := s.stager.exitSettled plan o now } := by
  cases o with
  | malformed | nrc | failed => exact (h.stagingFailed _).safe
  | resolved m =>
    have hmove := h.move { s.stager.progress with active := false } nofun
    have hbase := hmove.withStage .resolved s.stager.attempt s.stager.aborted nofun
    exact ⟨⟨hbase, trivial⟩, ⟨nofun, fun _ _ => h.whole hactive hle⟩⟩

/-! ## The manager's events -/

theorem LinkInv.proceed (h : LinkInv plan s) (hclean : UpToDate s (.proceed now)) {st : Stager}
    (hstep : s.stager.proceed plan now = some st) :
    LinkInv plan { s with stager := st } ∧ Truthful plan s { s with stager := st } := by
  have hok := h.stage
  unfold Stager.proceed at hstep
  unfold StageOk at hok
  cases hstage : s.stager.stage with
  | download second step call =>
    rw [hstage] at hstep hok
    obtain ⟨o, ho, rfl⟩ := Option.map_eq_some_iff.mp hstep
    exact (h.toBase.downloadSettled hstage hok.1 ho hclean).safe
  | block idx retried retriesLeft call =>
    rw [hstage] at hstep hok
    obtain ⟨o, ho, rfl⟩ := Option.map_eq_some_iff.mp hstep
    obtain ⟨hactive, rfl, hlt, hmark⟩ := hok
    exact (h.toBase.blockSettled hstage hactive hlt hmark ho hclean).safe
  | exit call =>
    rw [hstage] at hstep hok
    obtain ⟨o, ho, rfl⟩ := Option.map_eq_some_iff.mp hstep
    exact h.toBase.exitSettled hok.1 hok.2.1 o
  | stale | recovering | resolved | rejected =>
    rw [hstage] at hstep
    cases hstep

theorem LinkInv.recover (h : LinkInv plan s) {reconnected : Bool} {st : Stager}
    (hstep : s.stager.recover plan now reconnected = some st) : Goes plan s st := by
  have hok := h.stage
  unfold Stager.recover at hstep
  unfold StageOk at hok
  cases hstage : s.stager.stage with
  | recovering after since =>
    rw [hstage] at hstep hok
    dsimp only at hstep
    split at hstep
    · cases after with
      | attempt =>
        obtain rfl := Option.some.inj hstep
        split
        · exact h.toBase.rejected
        · exact h.toBase.stageAttempt
      | block idx retriesLeft =>
        obtain ⟨hactive, rfl, hlt⟩ := hok
        obtain rfl := Option.some.inj hstep
        split
        · exact h.toBase.stagingFailed _
        split
        · exact h.toBase.sendBlock hactive hlt _ _
        · exact h.toBase.stagingFailed _
    · cases hstep
  | download | stale | block | exit | resolved | rejected =>
    rw [hstage] at hstep
    cases hstep

theorem LinkInv.staleOver (h : LinkInv plan s) {st : Stager}
    (hstep : s.stager.staleOver plan now = some st) : Goes plan s st := by
  have hok := h.stage
  unfold Stager.staleOver at hstep
  unfold StageOk at hok
  cases hstage : s.stager.stage with
  | stale since =>
    rw [hstage] at hstep hok
    dsimp only at hstep
    split at hstep
    · exact Option.some.inj hstep ▸ h.toBase.stagingFailed _
    split at hstep
    · exact Option.some.inj hstep ▸ h.toBase.requestDownload hok _ _
    · cases hstep
  | download | recovering | block | exit | resolved | rejected =>
    rw [hstage] at hstep
    cases hstep

end

end DiveCANHead.Staging
