import DiveCANHead.Factory.Restored

/-!
# Which backups are restored soundly

A backup that passes the code's checks but does not end before MCUboot's trailer is handed over
wrong by some restore: one in which the first request does not register. So the condition of
`ensures_restore` is exact.
-/

namespace DiveCANHead.Factory

open DiveCANHead.Lib DiveCANHead.Lib.Prog

variable {geo : Geometry} {b : Region} {a : Area} {off len total : ℕ} {s t w : World}
  {C : World → Prop}

/-! ## A flash without faults -/

/-- No state: the postcondition of a failure that does not happen. -/
abbrev Never : World → Prop := fun _ => False

theorem outcome_never {R : World → Prop} {rc : Status} (h : outcome R Never rc t) : R t :=
  outcome_self.mp ⟨h.1, fun hrc => (h.2 hrc).elim⟩

theorem ensures_areaRead (h : off + len ≤ geo.size a) :
    (areaRead geo a 0 off len).Ensures C
      (fun got t => t = s ∧ got = (0, window (s.content a) off)) s := by
  unfold areaRead
  rw [if_neg (Nat.not_lt.mpr h)]
  exact ensures_look ⟨rfl, rfl⟩

theorem ensures_flashBackendRead (h : off + len ≤ geo.size .factory) :
    (flashBackendRead geo ⟨0, 0⟩ off len).Ensures C
      (fun got t => t = s ∧ got = (0, window (s.content .factory) off)) s := by
  unfold flashBackendRead
  rw [if_pos rfl]
  exact ensures_areaRead h

theorem ensures_areaWrite {left : Option Region} {buf : Region} (h : off + len ≤ geo.size a) :
    (areaWrite geo a (.sound left) off buf len).Ensures (fun _ => True)
      (outcome (fun t => t = s.put a off len (left.getD buf)) Never) s := by
  unfold areaWrite
  rw [if_neg (Nat.not_lt.mpr h)]
  refine (ensures_move (P := fun _ t => ∃ buf', t = s.put a off len buf') trivial
    ⟨_, rfl⟩).bind fun _ t ht => ?_
  obtain ⟨buf', rfl⟩ := ht
  refine (ensures_move (P := fun _ t => t = s.put a off len (left.getD buf)) trivial
    (World.put_put ..)).bind fun _ t ht => ?_
  exact ensures_pure (outcome_zero.mpr ht)

theorem ensures_verifyReadback_ok {expected : Region} (h : off + len ≤ geo.size a)
    (heq : AgreeBelow expected (window (s.content a) off) len) :
    (verifyReadback (fun v step => areaRead geo a 0 (off + v) step) expected len).Ensures
      (fun _ => True) (outcome (fun t => t = s) Never) s := by
  refine ensures_forChunks (I := fun _ t => t = s) (by decide) (fun v t hv ht => ?_) rfl
  subst ht
  refine (ensures_areaRead (by omega)).bind fun got u hgot => ?_
  obtain ⟨rfl, rfl⟩ := hgot
  have hstep : AgreeBelow (window expected v) (window (u.content a) (off + v))
      (min verifyBufSize (len - v)) := by
    intro i hi
    rw [← window_window]
    exact heq (v + i) (by omega)
  rw [if_neg (by simp), if_pos hstep]
  exact ensures_pure (outcome_zero.mpr rfl)

/-! ## The restore that goes through -/

/-- The request does not register; before the next one the erase of the trailer succeeds, with
every byte different from the backup. -/
def StageEnv.unregistered (geo : Geometry) (b : Region) : StageEnv where
  pageInfo := 0
  erase := .sound (some fun k => b (geo.lastPage + k) + 1)
  acquired := 0
  requested := 0
  trailer := fun _ => 0
  swapTypeA := .none
  swapTypeB := .none

/-- Nothing fails before the staging; `left` is what the erase of `slot1` leaves. -/
def RestoreEnv.sound (left : Option Region) (stage : StageEnv) : RestoreEnv where
  arena := true
  slot1Opened := 0
  sizeOpened := 0
  header := ⟨0, 0⟩
  tlvInfo := ⟨0, 0⟩
  erase := .sound left
  copy := fun _ _ => .sound
  reopened := 0
  magic := 0
  stage := fun _ => stage

abbrev RestoreEnv.unregistered (geo : Geometry) (b : Region) : RestoreEnv :=
  .sound (some b) (.unregistered geo b)

/-- A board with the backup in its store. -/
def World.backedUp (b : Region) : World :=
  { World.blank fun _ => b with backend := true, captured := true }

/-- `slot1` reads as the backup throughout. -/
structure Mirrored (geo : Geometry) (b : Region) (w : World) : Prop where
  store : w.content .factory = b
  slot : AgreeBelow (w.content .slot1) b (geo.size .slot1)

theorem Mirrored.put (h : Mirrored geo b w) {buf : Region}
    (hbuf : AgreeBelow buf (window b off) len) : Mirrored geo b (w.put .slot1 off len buf) := by
  refine ⟨(World.content_put_ne (by decide) ..).trans h.store, fun i hi => ?_⟩
  rw [World.content_put, patch]
  by_cases hrange : off ≤ i ∧ i < off + len
  · rw [if_pos hrange, hbuf (i - off) (by omega), window, Nat.add_sub_cancel' hrange.1]
  · rw [if_neg hrange]
    exact h.slot i hi

theorem ensures_noted_ok {R : World → Prop} {what : RestoreStep} {m : Prog World Status}
    (hR : ∀ w steps, R w → R { w with steps := steps })
    (hm : m.Ensures (fun _ => True) (outcome R Never) s) :
    (noted what m).Ensures (fun _ => True) (outcome R Never) s := by
  refine hm.bind fun rc t ht => ?_
  by_cases hrc : rc = 0
  · exact (ensures_move (P := fun _ => R) trivial (hR t _ (ht.1 hrc))).bind fun _ u hu =>
      ensures_pure ⟨fun _ => hu, fun h => h hrc⟩
  · exact (ht.2 hrc).elim

theorem ensures_streamImageToSlot1_ok (hs : Mirrored geo b s) (hstore : total ≤ geo.size .factory)
    (hslot : total ≤ geo.size .slot1) :
    (streamImageToSlot1 geo (fun _ _ => .sound) total).Ensures (fun _ => True)
      (outcome (Mirrored geo b) Never) s := by
  refine ensures_forChunks (I := fun _ => Mirrored geo b) geo.chunkSize_pos
    (fun off t hoff ht => ensures_noted_ok (fun _ _ h => ⟨h.store, h.slot⟩) ?_) hs
  refine ensures_retry_succ (M := Never) ?_ fun _ h => h.elim
  have hread : off + min geo.chunkSize (total - off) ≤ geo.size .factory := by omega
  have hwrite : off + min geo.chunkSize (total - off) ≤ geo.size .slot1 := by omega
  refine (ensures_flashBackendRead hread).bind fun chunk u hu => ?_
  obtain ⟨rfl, rfl⟩ := hu
  refine (ensures_areaWrite hwrite).onSuccess fun v hv => ?_
  subst hv
  refine (ensures_verifyReadback_ok hwrite ?_).outcome_mono (fun _ => id) (fun x hx => ?_)
    fun _ => id
  · rw [World.content_put]
    exact agreeBelow_window_patch.symm
  · subst hx
    refine ht.put fun i _ => ?_
    rw [← ht.store]
    rfl

theorem ensures_parseTlvTotal_ok (hsize : SizeOk geo (s.content .factory) total) :
    (parseTlvTotal geo ⟨0, 0⟩ (tlvOffset (s.content .factory)) (geo.size .factory)).Ensures C
      (fun got t => t = s ∧ got = (0, total)) s := by
  refine (ensures_flashBackendRead hsize.tlvInfo).bind fun info u hu => ?_
  obtain ⟨rfl, rfl⟩ := hu
  have hmagic : rdLe16 (window (u.content .factory) (tlvOffset (u.content .factory))) 0 =
      imageTlvInfoMagic := by
    rw [rdLe16_window, Nat.add_zero]
    exact hsize.tlvMagic
  have htotal := (total_mod (u.content .factory)).trans hsize.total_eq.symm
  rw [if_neg (by simp), if_neg (not_not_intro hmagic)]
  refine Ensures.ite (fun h => ?_) fun _ => ensures_pure ⟨rfl, congrArg (Prod.mk 0) htotal⟩
  rw [htotal] at h
  exact absurd h (not_or.mpr ⟨hsize.total_ne, Nat.not_lt.mpr hsize.total_le⟩)

theorem ensures_factoryBackupImageSize_ok (hs : s.content .factory = b)
    (hsize : SizeOk geo b total) :
    (factoryBackupImageSize geo ⟨0, 0⟩ ⟨0, 0⟩ (geo.size .factory)).Ensures C
      (fun got t => t = s ∧ got = (0, total)) s := by
  subst hs
  refine (ensures_flashBackendRead ((Nat.zero_add 32).symm ▸ hsize.header)).bind fun hdr t ht => ?_
  obtain ⟨rfl, rfl⟩ := ht
  simp only [rdLe32_window_zero, rdLe16_window_zero]
  rw [if_neg (by simp), if_neg (not_not_intro hsize.magic)]
  exact Ensures.ite (fun h => absurd h (Nat.not_lt.mpr hsize.tlvOff)) fun _ =>
    ensures_parseTlvTotal_ok hsize

theorem ensures_copyBackendToSlot1_ok (hs : s.content .factory = b) (h : Accepted geo b) :
    (copyBackendToSlot1 geo (.unregistered geo b)).Ensures (fun _ => True)
      (outcome (Mirrored geo b) Never) s := by
  let R : World → Prop := fun t => t.content .factory = b
  have hR : ∀ w steps, R w → R { w with steps := steps } := fun _ _ => id
  refine (ensures_noted_ok hR (ensures_pure (outcome_zero.mpr hs))).onSuccess fun t ht => ?_
  refine (ensures_pure (Q := fun size t => size = (0, geo.size .factory) ∧ R t)
    ⟨rfl, ht⟩).bind fun size u hu => ?_
  obtain ⟨rfl, hu⟩ := hu
  refine (ensures_move (P := fun _ => R) trivial (hR u _ hu)).bind fun _ v hv => ?_
  rw [if_neg (by simp)]
  refine (ensures_factoryBackupImageSize_ok hv h.1).bind fun copySize x hx => ?_
  obtain ⟨rfl, rfl⟩ := hx
  refine (ensures_move (P := fun _ => R) trivial (hR x _ hv)).bind fun _ y hy => ?_
  rw [if_neg (by simp), if_neg (Nat.not_lt.mpr h.2)]
  refine (ensures_noted_ok (R := Mirrored geo b) (fun _ _ h => ⟨h.store, h.slot⟩) ?_).onSuccess
    fun z hz => ensures_streamImageToSlot1_ok hz h.1.total_le h.2
  refine (ensures_areaWrite (Nat.le_of_eq (Nat.zero_add _))).outcome_mono (fun _ => id)
    (fun z hz => ?_)
    fun _ => id
  rw [hz]
  refine ⟨(World.content_put_ne (by decide) ..).trans hy, fun i hi => ?_⟩
  rw [World.content_put, patch, if_pos ⟨Nat.zero_le i, by omega⟩]
  rfl

/-! ## The staging that hands over too much -/

/-- A request was made for something else than the backup. -/
def Mishanded (geo : Geometry) (b : Region) (w : World) : Prop :=
  ∃ r ∈ w.requests, r.slot1 geo.lastPage ≠ b geo.lastPage

theorem succ_ne (x : UInt8) : x + 1 ≠ x := by
  intro h
  have hlt := x.toNat_lt
  have hsucc := congrArg UInt8.toNat h
  rw [UInt8.toNat_add, UInt8.toNat_one] at hsucc
  omega

theorem ensures_stageAttempt_unregistered (i : ℕ) :
    (stageAttempt geo (.unregistered geo b) i).Ensures (fun _ => True)
      (outcome Never fun t => 0 < i ∨ Mishanded geo b s → Mishanded geo b t) s := by
  let R : World → Prop := fun t => (0 < i → t.content .slot1 geo.lastPage ≠ b geo.lastPage) ∧
    (Mishanded geo b s → Mishanded geo b t)
  refine Ensures.bind (R := fun _ => R) ?_ fun _ t ht => ?_
  · refine Ensures.ite (fun _ => ?_) fun hi => ensures_pure ⟨fun h => absurd h hi, id⟩
    have hlast := geo.lastPage_lt
    have hpage : geo.lastPage + (geo.size .slot1 - geo.lastPage) ≤ geo.size .slot1 := by omega
    refine (Ensures.onSuccess (G := R) (M := fun t => t = s) (B := Never)
      (ensures_pure (outcome_zero.mpr rfl)) fun t ht => ?_).mono (fun _ => id) fun rc t ht => ?_
    · subst ht
      refine (ensures_areaWrite hpage).outcome_mono (fun _ => id) (fun u hu => ?_) fun _ => id
      rw [hu]
      refine ⟨fun _ => ?_, id⟩
      rw [World.content_put, patch, if_pos ⟨Nat.le_refl _, by omega⟩, Nat.sub_self]
      exact succ_ne _
    · exact outcome_never ht
  · refine Ensures.bind (R := fun _ u => 0 < i ∨ Mishanded geo b s → Mishanded geo b u) ?_
      fun rc u hu => ensures_pure ⟨fun h => ?_, fun _ => hu⟩
    · refine (Ensures.onSuccess (G := fun u => 0 < i ∨ Mishanded geo b s → Mishanded geo b u)
        (M := fun u => u = t) (B := Never) (ensures_pure (outcome_zero.mpr rfl))
        fun u hu => ?_).mono (fun _ => id) fun rc u hu => ?_
      · subst hu
        refine (ensures_move (P := fun _ v => 0 < i ∨ Mishanded geo b s → Mishanded geo b v) trivial
          fun h => ?_).bind fun _ v hv => (ensures_move (P := fun _ v =>
            0 < i ∨ Mishanded geo b s → Mishanded geo b v) trivial hv).bind
          fun _ x hx => ensures_pure (outcome_zero.mpr hx)
        rcases h with h | h
        · exact ⟨_, List.mem_append_right _ List.mem_cons_self, ht.1 h⟩
        · obtain ⟨r, hr, hne⟩ := ht.2 h
          exact ⟨r, List.mem_append_left _ hr, hne⟩
      · exact outcome_never hu
    · rw [if_neg (by simp [StageEnv.unregistered])] at h
      exact absurd h (by decide)

theorem ensures_stagePendingSwap_unregistered :
    (stagePendingSwap geo fun _ => .unregistered geo b).Ensures (fun _ => True)
      (outcome Never (Mishanded geo b)) s := by
  refine ensures_retry_succ (M := fun _ => True) ((ensures_stageAttempt_unregistered 0).outcome_mono
    (fun _ => id) (fun _ => id) fun _ _ => trivial) fun t _ => ?_
  refine ensures_retry_succ ((ensures_stageAttempt_unregistered 1).outcome_mono
    (fun _ => id) (fun _ => id) fun _ h => h (.inl Nat.one_pos)) fun u hu => ?_
  exact ensures_retry (fun k v hv => (ensures_stageAttempt_unregistered k).outcome_mono
    (fun _ => id) (fun _ => id) fun _ h => h (.inr hv)) _ _ u hu

theorem ensures_verifyAndStageSlot1_unregistered (hs : Mirrored geo b s) (h : Accepted geo b) :
    (verifyAndStageSlot1 geo (.unregistered geo b)).Ensures (fun _ => True)
      (outcome Never (Mishanded geo b)) s := by
  refine Ensures.onSuccess (M := Mirrored geo b) ((ensures_noted_ok (fun _ _ h => ⟨h.store, h.slot⟩)
    (ensures_pure (outcome_zero.mpr hs))).outcome_mono (fun _ => id) (fun _ => id)
    fun _ => False.elim) fun t ht => ?_
  refine (ensures_areaRead ((Nat.zero_add 4).symm ▸ geo.magic_fits)).bind fun magic u hu => ?_
  obtain ⟨rfl, rfl⟩ := hu
  refine (ensures_move (P := fun _ _ => True) trivial trivial).bind fun _ v _ => ?_
  have hmagic : rdLe32 (window (u.content .slot1) 0) 0 = imageHeaderMagic := by
    rw [rdLe32_window_zero, rdLe32_congr (ht.slot.mono geo.magic_fits)]
    exact h.1.magic
  rw [if_neg (by simp), if_neg (not_not_intro hmagic)]
  exact ensures_stagePendingSwap_unregistered

/-- The restore of a backup that passes, by which the first request does not register. -/
theorem ensures_restore_unregistered (h : Accepted geo b) :
    (factoryImageRestoreToSlot1 geo (.unregistered geo b)).Ensures (fun _ => True)
      (outcome Never (Mishanded geo b)) (.backedUp b) := by
  refine (ensures_move (P := fun _ t => t = World.backedUp b) trivial rfl).bind fun _ t ht => ?_
  subst ht
  refine (ensures_look (Q := fun w t => w = World.backedUp b ∧ t = World.backedUp b)
    ⟨rfl, rfl⟩).bind fun w t ht => ?_
  obtain ⟨rfl, rfl⟩ := ht
  rw [if_neg (by simp [World.backedUp]), if_neg (by simp [World.backedUp]),
    if_neg (by simp [RestoreEnv.sound])]
  have hcopy := ensures_copyBackendToSlot1_ok (s := .backedUp b) rfl h
  have hstage : ((copyBackendToSlot1 geo (.unregistered geo b)).onSuccess
      (verifyAndStageSlot1 geo (.unregistered geo b))).Ensures (fun _ => True)
      (outcome Never (Mishanded geo b)) (.backedUp b) :=
    (hcopy.outcome_mono (fun _ => id) (fun _ => id) fun _ => False.elim).onSuccess
      fun u hu => ensures_verifyAndStageSlot1_unregistered hu h
  exact hstage.onSuccess fun _ => False.elim

/-- **The restores of a backup are sound exactly if its image, where it passes for one, ends before
MCUboot's trailer.** -/
theorem restoreSound_iff (geo : Geometry) (b : Region) :
    RestoreSound geo b ↔ EndsBeforeTrailer geo b := by
  constructor
  · intro h haccepted
    by_contra hlong
    obtain ⟨-, hfinal⟩ := ensures_restore_unregistered haccepted
    have hmis : Mishanded geo b (factoryImageRestoreToSlot1 geo (.unregistered geo b)
        (.backedUp b)).state := by
      by_contra hgood
      exact hgood (hfinal.2 fun h0 => hfinal.1 h0)
    obtain ⟨r, hr, hne⟩ := hmis
    exact hne ((h (.unregistered geo b) (.backedUp b) rfl r hr).copied _ (Nat.not_le.mp hlong))
  · intro hends e w hb
    have hF : RestoreFrame fun _ => True := ⟨fun _ _ _ _ => id, fun _ _ _ => id, fun _ => id⟩
    obtain ⟨-, hfinal⟩ := ensures_restore hF (e := e) trivial hb
    exact (outcome_self.mp hfinal).requests hends

/-- The request registers at once. -/
def StageEnv.registered : StageEnv where
  pageInfo := 0
  erase := .sound none
  acquired := 0
  requested := 0
  trailer := fun _ => 255
  swapTypeA := .test
  swapTypeB := .test

/-- A header of 32 bytes and an image of 2^32 - 16: the TLV area is looked for at byte 16. -/
def wrappedBackup : Region := fun i =>
  [0x3d, 0xb8, 0xf3, 0x96, 0, 0, 0, 0, 32, 0, 0, 0, 240, 255, 255, 255, 7, 105, 16, 0].getD i 0

/-- No image of that length fits, and yet a restore in which nothing fails requests the swap. -/
theorem wrappedBackup_handedOver : ¬ RestoreSound smallBoard wrappedBackup := by
  intro h
  have hlong : ¬ imageTotal wrappedBackup ≤ smallBoard.size .slot1 := by decide +kernel
  have hmade : (factoryImageRestoreToSlot1 smallBoard (.sound none .registered)
      (.backedUp wrappedBackup)).state.requests.length = 1 := by decide +kernel
  obtain ⟨r, hr⟩ := List.exists_mem_of_length_pos (hmade ▸ Nat.one_pos)
  exact hlong (h (.sound none .registered) (.backedUp wrappedBackup) rfl r hr).slot

end DiveCANHead.Factory
