import DiveCANHead.Staging.Truthful

/-!
# Staging over a lossy link

What the head and the link do keeps the two ends in step as long as nothing is counted, written
or erased on behalf of an earlier step. The client does not see which send of a block a 0x73 is
for, and a late one counts a block that the head has not got.
-/

namespace DiveCANHead.Staging

open DiveCANHead.Lib DiveCANHead.Uds DiveCANHead.UdsClient

section

variable {plan : Plan} {s t : Link} {now : ℤ}

/-! ## The client's events -/

theorem LinkInv.withClient (h : LinkInv plan s) {e : ClientEvent} {d : Client}
    (he : Admits (JobOk plan s.stager) (OutcomeOk plan s) s.stager.client e)
    (hstep : clientStep s.stager.client e = some d) : LinkInv plan (s.withClient d) :=
  ⟨h.toBase.withClient he hstep, h.stage⟩

/-- A reply reaches the client. -/
theorem LinkInv.toClient (h : LinkInv plan s) {i : ℕ} {m : Message} (hm : s.replies[i]? = some m) :
    LinkInv plan ({ s with replies := s.replies.eraseIdx i }.withClient
      (s.stager.client.handleResponse m now)) := by
  have hsame : SameStep plan s { s with replies := s.replies.eraseIdx i } :=
    ⟨rfl, rfl, rfl, fun _ hid => .inl hid, fun m hm => ⟨hm.opened, hm.written⟩⟩
  have hbase : Base plan { s with replies := s.replies.eraseIdx i } := by
    refine h.toBase.same hsame h.head (fun m hm => ?_) fun hactive => ?_
    · exact hsame.heard (h.replies m (List.mem_of_mem_eraseIdx hm))
    · obtain ⟨hopen, k, hk⟩ := h.step hactive
      exact ⟨hopen, k, hk.count, hk.slot, hk.seq⟩
  have hinv : LinkInv plan { s with replies := s.replies.eraseIdx i } := ⟨hbase, h.stage⟩
  refine hinv.withClient (e := .message m now) (fun job _ hjob o ho => ?_) rfl
  exact .of_reply hjob (hsame.heard (h.replies m (List.mem_of_getElem? hm))) ho

/-! ## The head's events -/

/-- What happens at the head alone. -/
theorem LinkInv.atHead (h : LinkInv plan s) (hstager : t.stager = s.stager) (hhead : Ready t.head)
    (htells : ∀ m, Tells plan s m → Tells plan t m)
    (hreplies : ∀ m ∈ t.replies, m ∈ s.replies ∨ Heard plan t m)
    (hstep : ∀ k, s.stager.progress.active = true → InStep plan s k → ∃ k, InStep plan t k) :
    LinkInv plan t := by
  have hsame : SameStep plan s t :=
    ⟨by rw [hstager], by rw [hstager], by rw [hstager], by rw [hstager]; exact
      fun _ => .inl, htells⟩
  refine ⟨h.toBase.same hsame hhead (fun m hm => ?_) fun hactive => ?_, hstager ▸ h.stage⟩
  · exact (hreplies m hm).elim (fun hm => hsame.heard (h.replies m hm)) id
  · rw [hstager] at hactive
    obtain ⟨hopen, k, hk⟩ := h.step hactive
    exact ⟨hstager ▸ hopen, hstep k hactive hk⟩

/-- The head restarts: no download is open. -/
theorem LinkInv.restartHead (h : LinkInv plan s) : LinkInv plan { s with head := .boot } :=
  h.atHead rfl ready_boot
    (fun _ hm => ⟨fun hactive hhead => ⟨(hm.opened hactive hhead).1, nofun⟩, hm.written⟩)
    (fun _ hm => .inl hm) fun k _ hk => ⟨k, hk.count, hk.slot, nofun⟩

/-- A request that the client has sent is one of the manager's. -/
theorem LinkInv.sent (h : LinkInv plan s) {job : Job} (hjob : job ∈ s.stager.client.sent) :
    JobOk plan s.stager job ∧ job.id < s.stager.client.nextId := by
  obtain ⟨c, t, hc, hkept⟩ := h.client
  rw [hc] at hjob ⊢
  obtain ⟨hok, hmem⟩ := hkept.sent job hjob
  exact ⟨hok, hkept.ledger.accepted _ (List.mem_append_left _ hmem)⟩

theorem JobOk.wire {st : Stager} {job : Job} (h : JobOk plan st job) :
    isTransferSid (wire job).sid = true ∨ (wire job).sid = sidDiagSessionCtrl := by
  have hours := h.ours
  rw [wire_sid]
  cases hs : job.service with
  | enterSession => exact .inr rfl
  | requestDownload | transferData | requestTransferExit => exact .inl rfl
  | readDataByIdentifier | writeDataByIdentifier | readMultipleDIDs | routineControl =>
    rw [hs] at hours
    exact hours.elim

/-- A TransferData that fits is the next block. -/
theorem Fits.block {p : Progress} {job : Job} (h : Fits plan p job.service)
    (hsid : (wire job).sid = sidTransferData) :
    p.active = true ∧ p.acked < p.total ∧ (wire job).byte 2 = UInt8.ofNat (p.acked + 1) ∧
      (wire job).payload otaTransferOverhead =
      (plan.bytes.drop (p.acked * p.block)).take p.block := by
  rw [wire_sid] at hsid
  cases hs : job.service with
  | transferData seq data =>
    rw [hs] at h
    obtain ⟨hactive, hlt, heq⟩ := h
    obtain ⟨-, hbyte, hpayload⟩ := wire_transferData (hs.trans heq)
    refine ⟨hactive, hlt, hbyte.trans ?_, hpayload⟩
    exact UInt8.toNat_inj.mp (by simp)
  | enterSession | requestDownload | requestTransferExit =>
    rw [hs] at hsid
    exact absurd hsid (by simp only [Service.sid]; decide)
  | readDataByIdentifier | writeDataByIdentifier | readMultipleDIDs | routineControl =>
    rw [hs] at h
    exact h.elim

/-- While a download is open, what fits is a block or the exit. -/
theorem Fits.transfers {p : Progress} {job : Job} (h : Fits plan p job.service)
    (hactive : p.active = true) :
    (wire job).sid = sidTransferData ∨ (wire job).sid = sidRequestTransferExit := by
  rw [wire_sid]
  cases hs : job.service with
  | transferData => exact .inl rfl
  | requestTransferExit => exact .inr rfl
  | enterSession | requestDownload =>
    rw [hs] at h
    exact absurd (hactive.symm.trans h) nofun
  | readDataByIdentifier | writeDataByIdentifier | readMultipleDIDs | routineControl =>
    rw [hs] at h
    exact h.elim

theorem ofNat_succ_ne (n : ℕ) : UInt8.ofNat (n + 1) ≠ UInt8.ofNat (n + 1 + 1) := by
  intro h
  have hnat := congrArg UInt8.toNat h
  simp only [UInt8.toNat_ofNat'] at hnat
  omega

/-- The block that the head expects is the one that is being sent. -/
theorem InStep.expected {k : ℕ} (h : InStep plan s k) (hstate : s.head.ota.state = .downloading)
    (hseq : UInt8.ofNat (s.stager.progress.acked + 1) = s.head.ota.nextSeq) :
    k = s.stager.progress.acked := by
  rcases h.count with hk | ⟨rfl, -⟩
  · exact hk
  · exact absurd (hseq.trans (h.seq hstate)) (ofNat_succ_ne _)

/-- The block that the head expects is not the one that is being sent. -/
theorem InStep.ahead {k : ℕ} (h : InStep plan s k) (hstate : s.head.ota.state = .downloading)
    (hseq : UInt8.ofNat (s.stager.progress.acked + 1) ≠ s.head.ota.nextSeq) :
    k = s.stager.progress.acked + 1 := by
  rcases h.count with rfl | ⟨hk, -⟩
  · exact absurd (h.seq hstate).symm hseq
  · exact hk

/-- A request that neither opens a download nor writes a block. -/
theorem LinkInv.kept (h : LinkInv plan s) {job : Job} {env : RequestEnv} {served : Head}
    (hsent : job ∈ s.stager.client.sent) (hserved : serve env s.head (wire job) = served)
    (hready : Ready served) (hstager : t.stager = s.stager) (hhead : t.head = served)
    (hslot : t.slot = s.slot)
    (hreplies : t.replies =
      s.replies ++ (answers served.effects).map fun data => ⟨data, some job.id⟩)
    (hkept : served.ota.state = .downloading →
      s.head.ota.state = .downloading ∧ served.ota.nextSeq = s.head.ota.nextSeq)
    (hanswers : ∀ payload ∈ answers served.effects,
      payload.head? ≠ some (sidRequestDownload + responseSidOffset) ∧
        payload.head? ≠ some (sidTransferData + responseSidOffset)) : LinkInv plan t := by
  obtain ⟨hok, hlt⟩ := h.sent hsent
  refine h.atHead hstager (hhead ▸ hready) (fun m hm => ⟨fun hactive hopens => ?_, ?_⟩)
    (fun m hm => ?_) fun k _ hk => ⟨k, ?_, ?_, fun hstate => ?_⟩
  · rw [hstager] at hactive
    obtain ⟨hnil, hseq⟩ := hm.opened hactive hopens
    rw [hslot, hhead]
    exact ⟨hnil, fun hstate => (hkept hstate).2.trans (hseq (hkept hstate).1)⟩
  · rw [hstager, hslot]
    exact hm.written
  · rw [hreplies] at hm
    refine (List.mem_append.mp hm).imp_right fun hm => ?_
    obtain ⟨payload, hp, rfl⟩ := List.mem_map.mp hm
    rintro i ⟨⟩
    rw [hstager]
    refine ⟨hlt, fun hmark => ⟨fun _ hopens => absurd hopens (hanswers payload hp).1, ?_⟩⟩
    rintro hactive (hpos | hneg)
    · exact absurd hpos (hanswers payload hp).2
    · rw [hstager] at hactive ⊢
      have hfits := hok.fits hmark
      have hsid := hfits.transfers hactive
      rw [← hserved] at hp
      obtain ⟨hdata, hstate, hne⟩ :=
        wrongBlock_of_answer h.head (wire_length_ne job) hsid hp hneg
      obtain ⟨-, -, hbyte, -⟩ := hfits.block hdata
      obtain ⟨-, k, hk⟩ := h.step hactive
      rw [hslot, hk.slot, hk.ahead hstate (hbyte ▸ hne)]
  · rw [hstager]
    exact hk.count
  · rw [hslot, hstager]
    exact hk.slot
  · rw [hhead] at hstate ⊢
    exact (hkept hstate).2.trans (hk.seq (hkept hstate).1)

/-- The head erases the slot, with no download open at the client. -/
theorem LinkInv.erased (h : LinkInv plan s) {job : Job} {served : Head}
    (hsent : job ∈ s.stager.client.sent) (hready : Ready served) (hstager : t.stager = s.stager)
    (hhead : t.head = served) (hslot : t.slot = [])
    (hreplies : t.replies =
      s.replies ++ (answers served.effects).map fun data => ⟨data, some job.id⟩)
    (hactive : s.stager.progress.active = false)
    (hseq : served.ota.state = .downloading → served.ota.nextSeq = 1) : LinkInv plan t := by
  obtain ⟨-, hlt⟩ := h.sent hsent
  have htells : ∀ m, Tells plan t m := fun m => by
    refine ⟨fun _ _ => ⟨hslot, hhead ▸ hseq⟩, fun hopen => ?_⟩
    rw [hstager] at hopen
    exact absurd (hopen.symm.trans hactive) nofun
  refine h.atHead hstager (hhead ▸ hready) (fun m _ => htells m) (fun m hm => ?_)
    fun _ hopen => absurd (hopen.symm.trans hactive) nofun
  rw [hreplies] at hm
  refine (List.mem_append.mp hm).imp_right fun hm => ?_
  obtain ⟨payload, -, rfl⟩ := List.mem_map.mp hm
  rintro i ⟨⟩
  rw [hstager]
  exact ⟨hlt, fun _ => htells _⟩

/-- The head writes the block at hand. -/
theorem LinkInv.wrote (h : LinkInv plan s) {job : Job} {served : Head}
    (hsent : job ∈ s.stager.client.sent) (hready : Ready served) (hstager : t.stager = s.stager)
    (hhead : t.head = served) (hslot : t.slot = s.slot ++ [(wire job).payload otaTransferOverhead])
    (hreplies : t.replies =
      s.replies ++ (answers served.effects).map fun data => ⟨data, some job.id⟩)
    (hmark : s.stager.mark ≤ job.id) (hdata : (wire job).sid = sidTransferData)
    (hstate : s.head.ota.state = .downloading) (hseq : (wire job).byte 2 = s.head.ota.nextSeq)
    (hnext : served.ota.nextSeq = s.head.ota.nextSeq + 1) : LinkInv plan t := by
  obtain ⟨hok, hid⟩ := h.sent hsent
  obtain ⟨hactive, hlt, hbyte, hpayload⟩ := (hok.fits hmark).block hdata
  obtain ⟨-, k, hk⟩ := h.step hactive
  have hexpected := hk.expected hstate (hbyte ▸ hseq)
  have hblocks : t.slot =
      blocks s.stager.progress.block (s.stager.progress.acked + 1) plan.bytes := by
    rw [hslot, hk.slot, hexpected, hpayload, blocks_succ]
  have htells : ∀ m, Tells plan t m := fun m => by
    rw [← hstager] at hactive hblocks
    exact ⟨fun hclosed => absurd (hactive.symm.trans hclosed) nofun, fun _ _ => hblocks⟩
  refine h.atHead hstager (hhead ▸ hready) (fun m _ => htells m) (fun m hm => ?_)
    fun _ _ _ => ⟨s.stager.progress.acked + 1, ?_, ?_, fun _ => ?_⟩
  · rw [hreplies] at hm
    refine (List.mem_append.mp hm).imp_right fun hm => ?_
    obtain ⟨payload, -, rfl⟩ := List.mem_map.mp hm
    rintro i ⟨⟩
    rw [hstager]
    exact ⟨hid, fun _ => htells _⟩
  · rw [hstager]
    exact .inr ⟨rfl, hlt⟩
  · rw [hstager]
    exact hblocks
  · rw [hhead, hnext, hk.seq hstate, hexpected]
    exact UInt8.toNat_inj.mp (by simp)

/-- The head serves a request. -/
theorem LinkInv.reach (h : LinkInv plan s) {job : Job} {env : RequestEnv}
    (hsent : job ∈ s.stager.client.sent)
    (hclean : (Acknowledges env.toOtaEnv (maintained env s.head) (wire job) →
        s.stager.mark ≤ job.id) ∧
      ((wire job).sid = sidRequestDownload → (maintained env s.head).ota.state = .idle →
        Admitted env.toOtaEnv (maintained env s.head) → s.stager.progress.active = false)) :
    LinkInv plan (s.reach job env) := by
  obtain ⟨hrestarts, hready, hmove⟩ :
      _ ∧ Ready (serve env s.head (wire job)) ∧ HeadMove env s.head (wire job) s.slot _ _ _ :=
    serve_move h.head (wire_length_ne job) (h.sent hsent).1.wire
  have hhead : (s.reach job env).head = serve env s.head (wire job) :=
    if_neg (Bool.eq_false_iff.mp hrestarts)
  have hslot : (s.reach job env).slot = slotAfter s.slot (serve env s.head (wire job)).effects :=
    rfl
  generalize hserved : serve env s.head (wire job) = served at hready hhead hslot hmove
  have hreplies : (s.reach job env).replies =
      s.replies ++ (answers served.effects).map fun data => ⟨data, some job.id⟩ := by
    rw [← hserved]
    rfl
  generalize slotAfter s.slot served.effects = slot at hslot hmove
  generalize hanswered : answers served.effects = replies at hmove
  cases hmove with
  | kept hkept hanswers =>
    exact h.kept hsent hserved hready rfl hhead hslot hreplies hkept (hanswered ▸ hanswers)
  | erased hsid hidle hadm hseq _ =>
    exact h.erased hsent hready rfl hhead hslot hreplies (hclean.2 hsid hidle hadm) hseq
  | wrote hack hstate hseq hnext _ =>
    exact h.wrote hsent hready rfl hhead hslot hreplies (hclean.1 hack) hack.sid hstate hseq hnext

/-! ## Runs -/

theorem linkInv_step {e : LinkEvent} (h : LinkInv plan s) (hclean : UpToDate s e)
    (hstep : linkStep plan s e = some t) : LinkInv plan t ∧ Truthful plan s t := by
  cases e with
  | client e =>
    simp only [linkStep] at hstep
    split at hstep
    · next hown =>
      obtain ⟨d, hd, rfl⟩ := Option.map_eq_some_iff.mp hstep
      refine (h.withClient ?_ hd).safe id
      cases e with
      | request | message => cases hown
      | delayOver | sendDone | sendFailed | error | timeout | abort | available | advance => trivial
    · cases hstep
  | toHead i env =>
    simp only [linkStep] at hstep
    split at hstep
    · cases hstep
    · obtain ⟨job, hjob, rfl⟩ := Option.map_eq_some_iff.mp hstep
      have hid : job.id = i := by simpa using List.find?_some hjob
      have hsent := List.mem_of_find?_eq_some hjob
      exact (h.reach hsent (hid ▸ hclean job hsent hid)).safe id
  | toClient i now =>
    obtain ⟨m, hm, rfl⟩ := Option.map_eq_some_iff.mp hstep
    exact (h.toClient hm).safe id
  | restartHead =>
    obtain rfl := Option.some.inj hstep
    exact h.restartHead.safe id
  | proceed now =>
    obtain ⟨st, hst, rfl⟩ := Option.map_eq_some_iff.mp hstep
    exact h.proceed hclean hst
  | recover now reconnected =>
    obtain ⟨st, hst, rfl⟩ := Option.map_eq_some_iff.mp hstep
    exact (h.recover hst).safe
  | staleOver now =>
    obtain ⟨st, hst, rfl⟩ := Option.map_eq_some_iff.mp hstep
    exact (h.staleOver hst).safe
  | abort =>
    obtain rfl := Option.some.inj hstep
    have hbase := h.toBase.withStage s.stager.stage s.stager.attempt true fun _ => .inl
    exact LinkInv.safe ⟨hbase, h.stage⟩ id

/-- Staging starts in step. -/
theorem linkInv_start (plan : Plan) {head : Head} (hhead : Ready head) (requestDelay now : ℤ) :
    LinkInv plan (.start plan head requestDelay now) := by
  have hbase : Base plan
      { stager := { client := .start requestDelay, stage := .rejected }, head } :=
    ⟨⟨.start requestDelay, .idle, rfl, .start, nofun, fun _ => rfl⟩, Nat.le_refl _, hhead, nofun,
      nofun⟩
  unfold Link.start Stager.start
  dsimp only
  split
  · exact hbase.stageAttempt.inv
  · exact ⟨hbase, trivial⟩

end

/-- As long as nothing is counted, written or erased on behalf of an earlier step, staging is
truthful, whatever is lost or late. -/
theorem staging_truthful (plan : Plan) (head : Head) (hhead : Ready head) (requestDelay now : ℤ)
    (es : List LinkEvent)
    (hclean : Steps (linkStep plan) (fun s e _ => UpToDate s e)
      (.start plan head requestDelay now) es) :
    Steps (linkStep plan) (fun s _ t => Truthful plan s t) (.start plan head requestDelay now) es :=
  Steps.of_inv linkInv_step (linkInv_start plan hhead requestDelay now) hclean

/-! ## A block that was lost, and one that was not -/

instance decidableAcknowledges (env : OtaEnv) (h : Head) (q : Request) :
    Decidable (Acknowledges env h q) :=
  decidable_of_iff (q.sid = sidTransferData ∧ h.ota.state = .downloading ∧
      otaTransferMinReqLen ≤ q.length ∧ q.byte 2 = h.ota.nextSeq ∧ env.write.rc = 0)
    ⟨fun ⟨hsid, hstate, hlen, hseq, hwrite⟩ => ⟨hsid, hstate, hlen, hseq, hwrite⟩,
      fun h => ⟨h.sid, h.state, h.length, h.seq, h.write⟩⟩

instance decidableAdmitted (env : OtaEnv) (h : Head) : Decidable (Admitted env h) :=
  decidable_of_iff (h.session = .programming ∧ isInDive env.pressure = false)
    ⟨fun ⟨hsession, hsurface⟩ => ⟨hsession, hsurface⟩, fun h => ⟨h.session, h.surface⟩⟩

instance decidableUpToDate (s : Link) : ∀ e, Decidable (UpToDate s e)
  | .proceed _ =>
    inferInstanceAs (Decidable (∀ m ∈ s.stager.counted, ∃ i ∈ m.origin, s.stager.mark ≤ i))
  | .toHead id env =>
    inferInstanceAs (Decidable (∀ job ∈ s.stager.client.sent, job.id = id →
      (Acknowledges env.toOtaEnv (maintained env s.head) (wire job) → s.stager.mark ≤ id) ∧
        ((wire job).sid = sidRequestDownload → (maintained env s.head).ota.state = .idle →
          Admitted env.toOtaEnv (maintained env s.head) → s.stager.progress.active = false)))
  | .client _ | .toClient _ _ | .restartHead | .recover _ _ | .staleOver _ | .abort =>
    isTrue trivial

instance decidableTruthful (plan : Plan) (s t : Link) : Decidable (Truthful plan s t) :=
  decidable_of_iff ((t.stager.progress.active = true →
      blocks t.stager.progress.block t.stager.progress.acked plan.bytes <+: t.slot) ∧
    (s.stager.stage ≠ .resolved → t.stager.stage = .resolved →
      t.slot = blocks t.stager.progress.block t.stager.progress.total plan.bytes ∧
        t.slot.flatten = plan.bytes))
    ⟨fun ⟨hcounted, hwhole⟩ => ⟨hcounted, hwhole⟩, fun h => ⟨h.counted, h.whole⟩⟩

/-- An image of 30 bytes, which goes over in two blocks. -/
def smallPlan : Plan :=
  { bytes := mcubootImageMagic ++ List.replicate 26 7, blockSize := some 20 }

def smallStart : Link := .start smallPlan { Head.boot with session := .programming } 0 0

/-- The download opens, and block 0 is written, but its send is reported as failed; the link
recovers and block 0 is sent again. -/
def blockSentTwice : List LinkEvent :=
  [.toHead 0 calmEnv, .toClient 0 50, .client (.sendDone 0), .client (.advance 0 50), .proceed 50,
    .toHead 1 calmEnv, .client (.sendFailed 1), .client (.advance 1 100), .proceed 100,
    .recover 1200 true, .client (.sendDone 2), .toHead 2 calmEnv]

/-- The 0x73 to the second send of block 0 counts it, and block 1 follows. -/
def countedByRetry : List LinkEvent :=
  blockSentTwice ++ [.toClient 1 1300, .client (.advance 2 1300), .proceed 1300,
    .client (.sendDone 3), .toHead 3 calmEnv, .toClient 1 1400, .client (.advance 3 1400),
    .proceed 1400, .client (.sendDone 4), .toHead 4 calmEnv, .toClient 1 1500,
    .client (.advance 4 1500), .proceed 1500]

theorem staging_truthful_countedByRetry :
    Steps (linkStep smallPlan) (fun s e _ => UpToDate s e) smallStart countedByRetry ∧
      (exec (linkStep smallPlan) smallStart countedByRetry).map (·.stager.stage) = some .resolved ∧
      Steps (linkStep smallPlan) (fun s _ t => Truthful smallPlan s t) smallStart
        countedByRetry := by
  have hclean : Steps (linkStep smallPlan) (fun s e _ => UpToDate s e) smallStart
      countedByRetry := by
    decide +kernel
  refine ⟨hclean, by decide +kernel, ?_⟩
  exact staging_truthful smallPlan { Head.boot with session := .programming }
    ⟨fun _ => rfl, nofun⟩ 0 0 _ hclean

/-- The 0x76 to the first send of block 0 counts it; block 1 is lost, and while it is sent again
the 0x73 to the second send of block 0 arrives. -/
def lateWrongBlock : List LinkEvent :=
  blockSentTwice ++ [.toClient 0 1300, .client (.advance 2 1300), .proceed 1300,
    .client (.sendFailed 3), .client (.advance 3 1400), .proceed 1400, .recover 2500 true,
    .client (.sendDone 4), .toClient 0 2600, .client (.advance 4 2600), .proceed 2600,
    .client (.sendDone 5), .toHead 5 calmEnv, .toClient 0 2700,
    .client (.advance 5 2700), .proceed 2700]

/-- The exit is answered, and block 1 has never reached the head. -/
theorem late_wrong_block_counted :
    ¬Steps (linkStep smallPlan) (fun s _ t => Truthful smallPlan s t) smallStart lateWrongBlock ∧
      (exec (linkStep smallPlan) smallStart lateWrongBlock).map
          (fun s => (s.stager.stage, s.slot)) =
        some (.resolved, [smallPlan.bytes.take 17]) := by
  decide +kernel

end DiveCANHead.Staging
