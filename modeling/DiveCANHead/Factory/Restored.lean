import DiveCANHead.Factory.Image

/-!
# What a restore hands to MCUboot

The image in the store is as long as its header and its TLV area say; `restoreSound_iff` says for
which backups no restore, whatever the flash answers, requests the swap of anything but that image.
-/

namespace DiveCANHead.Factory

open DiveCANHead.Lib DiveCANHead.Lib.Prog

/-! ## The length of a backup -/

/-- Where `factory_backup_image_size` looks for the TLV area. -/
def tlvOffset (b : Region) : ℕ :=
  (rdLe16 b imageHeaderHdrSizeOffset + rdLe32 b imageHeaderImgSizeOffset +
    rdLe16 b imageHeaderProtTlvOffset) % wordSize

def tlvTotal (b : Region) : ℕ := rdLe16 b (tlvOffset b + imageTlvInfoTotOffset)

/-- The length of the image: header, image, protected and unprotected TLVs. -/
def imageTotal (b : Region) : ℕ :=
  rdLe16 b imageHeaderHdrSizeOffset + rdLe32 b imageHeaderImgSizeOffset +
    rdLe16 b imageHeaderProtTlvOffset + tlvTotal b

/-- The checks of `factory_backup_image_size`. -/
structure SizeOk (geo : Geometry) (b : Region) (total : ℕ) : Prop where
  header : 32 ≤ geo.size .factory
  magic : rdLe32 b 0 = imageHeaderMagic
  tlvOff : (tlvOffset b + imageTlvInfoSize) % wordSize ≤ geo.size .factory
  tlvInfo : tlvOffset b + imageTlvInfoSize ≤ geo.size .factory
  tlvMagic : rdLe16 b (tlvOffset b) = imageTlvInfoMagic
  total_eq : total = imageTotal b % wordSize
  total_ne : total ≠ 0
  total_le : total ≤ geo.size .factory

/-- The backup passes for an image that fits `slot1`. -/
def Accepted (geo : Geometry) (b : Region) : Prop :=
  SizeOk geo b (imageTotal b % wordSize) ∧ imageTotal b % wordSize ≤ geo.size .slot1

/-- `slot1` holds the image, and no step failed. -/
structure GoodRequest (geo : Geometry) (b : Region) (r : UpgradeRequest) : Prop where
  steps : ∀ step ∈ r.steps, step.2 = 0
  slot : imageTotal b ≤ geo.size .slot1
  store : imageTotal b ≤ geo.size .factory
  copied : AgreeBelow r.slot1 b (imageTotal b)

/-- No restore of the backup requests the swap of anything but the image. -/
def RestoreSound (geo : Geometry) (b : Region) : Prop :=
  ∀ (e : RestoreEnv) (w : World), w.content .factory = b →
    ∀ r ∈ (factoryImageRestoreToSlot1 geo e w).state.requests, GoodRequest geo b r

variable {geo : Geometry} {b : Region} {s t w : World} {C : World → Prop}

theorem rdLe16_window (p : Region) (off i : ℕ) : rdLe16 (window p off) i = rdLe16 p (off + i) := rfl

/-- The sum that the code compares. -/
theorem total_mod (b : Region) :
    (tlvOffset b + rdLe16 (window b (tlvOffset b)) imageTlvInfoTotOffset) % wordSize =
      imageTotal b % wordSize := by
  rw [imageTotal, tlvTotal, rdLe16_window]
  generalize rdLe16 b (tlvOffset b + imageTlvInfoTotOffset) = tot
  rw [tlvOffset, Nat.mod_add_mod]

theorem rdLe16_window_zero (p : Region) (off : ℕ) : rdLe16 (window p 0) off = rdLe16 p off := by
  rw [rdLe16_window, Nat.zero_add]

theorem rdLe32_window_zero (p : Region) (off : ℕ) : rdLe32 (window p 0) off = rdLe32 p off := by
  simp only [rdLe32, rdLe16_window_zero]

/-- Two buffers with the same first four bytes. -/
theorem rdLe32_congr {p q : Region} (h : AgreeBelow p q 4) : rdLe32 p 0 = rdLe32 q 0 := by
  simp only [rdLe32, rdLe16, Nat.zero_add, Nat.reduceAdd, h 0 (by decide), h 1 (by decide),
    h 2 (by decide), h 3 (by decide)]

theorem ensures_parseTlvTotal {e : Readout}
    (hmagic : rdLe32 (s.content .factory) 0 = imageHeaderMagic) (hheader : 32 ≤ geo.size .factory)
    (hoff : (tlvOffset (s.content .factory) + imageTlvInfoSize) % wordSize ≤ geo.size .factory) :
    (parseTlvTotal geo e (tlvOffset (s.content .factory)) (geo.size .factory)).Ensures C
      (fun got t => t = s ∧ (got.1 = 0 → SizeOk geo (s.content .factory) got.2)) s := by
  refine ((reads_backend s).mono (fun _ h => h.elim) fun _ _ => id).bind fun got t ht => ?_
  obtain ⟨rfl, hgot⟩ := ht
  refine Ensures.ite (fun h => ensures_pure ⟨rfl, fun h0 => absurd h0 h⟩) fun hrc => ?_
  obtain ⟨hinfo, hbytes⟩ := hgot (not_not.mp hrc)
  rw [hbytes]
  refine Ensures.ite (fun _ => ensures_pure ⟨rfl, fun h => (by cases h)⟩) fun hm => ?_
  refine Ensures.ite (fun _ => ensures_pure ⟨rfl, fun h => (by cases h)⟩) fun htotal => ?_
  rw [not_not, rdLe16_window, Nat.add_zero] at hm
  rw [not_or, Nat.not_lt] at htotal
  exact ensures_pure ⟨rfl, fun _ => ⟨hheader, hmagic, hoff, hinfo, hm, total_mod _, htotal.1,
    htotal.2⟩⟩

theorem ensures_factoryBackupImageSize {header tlvInfo : Readout} :
    (factoryBackupImageSize geo header tlvInfo (geo.size .factory)).Ensures C
      (fun got t => t = s ∧ (got.1 = 0 → SizeOk geo (s.content .factory) got.2)) s := by
  refine ((reads_backend s).mono (fun _ h => h.elim) fun _ _ => id).bind fun got t ht => ?_
  obtain ⟨rfl, hgot⟩ := ht
  refine Ensures.ite (fun h => ensures_pure ⟨rfl, fun h0 => absurd h0 h⟩) fun hrc => ?_
  obtain ⟨hheader, hbytes⟩ := hgot (not_not.mp hrc)
  rw [hbytes]
  simp only [rdLe32_window_zero, rdLe16_window_zero]
  refine Ensures.ite (fun _ => ensures_pure ⟨rfl, fun h => (by cases h)⟩) fun hm => ?_
  refine Ensures.ite (fun _ => ensures_pure ⟨rfl, fun h => (by cases h)⟩) fun hoff => ?_
  exact ensures_parseTlvTotal (not_not.mp hm) hheader (Nat.not_lt.mp hoff)

/-! ## A restore -/

/-- What no step of a restore touches. -/
structure RestoreFrame (F : World → Prop) : Prop where
  put : ∀ w off len buf, F w → F (w.put .slot1 off len buf)
  record : ∀ w steps requests, F w → F { w with steps := steps, requests := requests }
  reset : ∀ w, F w → F w.reset

/-- The store still holds the backup, and no step has failed. -/
structure Restoring (F : World → Prop) (b : Region) (w : World) : Prop where
  frame : F w
  store : w.content .factory = b
  steps : ∀ step ∈ w.steps, step.2 = 0

/-- Before the staging. -/
structure Preparing (F : World → Prop) (b : Region) (w : World) : Prop extends
    Restoring F b w where
  requests : w.requests = []

/-- The restore has ended without a request. -/
structure Halted (F : World → Prop) (w : World) : Prop where
  frame : F w
  requests : w.requests = []

/-- `slot1` holds the image, below MCUboot's trailer. -/
structure Staging (geo : Geometry) (F : World → Prop) (b : Region) (w : World) : Prop extends
    Restoring F b w where
  accepted : Accepted geo b
  copied : imageTotal b ≤ geo.lastPage → AgreeBelow (w.content .slot1) b (imageTotal b)
  requests : imageTotal b ≤ geo.lastPage → ∀ r ∈ w.requests, GoodRequest geo b r

/-- The condition on the backup: if it passes, its image ends before the trailer. -/
def EndsBeforeTrailer (geo : Geometry) (b : Region) : Prop :=
  Accepted geo b → imageTotal b ≤ geo.lastPage

structure Restored (geo : Geometry) (F : World → Prop) (b : Region) (w : World) : Prop where
  frame : F w
  requests : EndsBeforeTrailer geo b → ∀ r ∈ w.requests, GoodRequest geo b r

section Walk

variable {F : World → Prop}

theorem Preparing.halted (h : Preparing F b w) : Halted F w := ⟨h.frame, h.requests⟩

theorem Halted.restored (h : Halted F w) : Restored geo F b w :=
  ⟨h.frame, fun _ _ hr => absurd (h.requests ▸ hr) List.not_mem_nil⟩

theorem Staging.restored (h : Staging geo F b w) : Restored geo F b w :=
  ⟨h.frame, fun hends => h.requests (hends h.accepted)⟩

theorem Preparing.put (hF : RestoreFrame F) (h : Preparing F b w) (off len : ℕ) (buf : Region) :
    Preparing F b (w.put .slot1 off len buf) :=
  ⟨⟨hF.put w off len buf h.frame, (World.content_put_ne (by decide) ..).trans h.store, h.steps⟩,
    h.requests⟩

theorem total_eq (hends : imageTotal b ≤ geo.lastPage) :
    imageTotal b % wordSize = imageTotal b := by
  have := geo.lastPage_lt
  have := geo.addressable .slot1
  have := geo.chunkSize_pos
  exact Nat.mod_eq_of_lt (by omega)

/-- The outcome of a step that leaves `P` of the flash, if it succeeds. -/
abbrev Prepares (F : World → Prop) (b : Region) (P : (Area → Region) → Prop) :
    Status → World → Prop :=
  outcome (fun t => Preparing F b t ∧ P t.content) (Halted F)

variable {P : (Area → Region) → Prop} {what : RestoreStep} {m : Prog World Status}

/-- The note of a step that succeeded changes nothing; after one that failed there is no request. -/
theorem ensures_note (hF : RestoreFrame F) {rc : Status} (h : Preparing F b s) :
    (note what rc).Ensures F
      (fun _ t => Halted F t ∧ (rc = 0 → Preparing F b t) ∧ t.content = s.content) s := by
  have hframe := hF.record s (s.steps ++ [(what, rc)]) s.requests h.frame
  refine ensures_move hframe ⟨⟨hframe, h.requests⟩, fun hrc => ⟨⟨hframe, h.store, ?_⟩, h.requests⟩,
    rfl⟩
  intro step hstep
  rcases List.mem_append.mp hstep with hstep | hstep
  · exact h.steps step hstep
  · rw [List.mem_singleton.mp hstep]
    exact hrc

theorem ensures_noted (hF : RestoreFrame F)
    (hm : m.Ensures F (outcome (fun t => Preparing F b t ∧ P t.content) (Preparing F b)) s) :
    (noted what m).Ensures F (Prepares F b P) s := by
  refine hm.bind fun rc t ht => ?_
  have hprep : Preparing F b t := by
    by_cases hrc : rc = 0
    · exact (ht.1 hrc).1
    · exact ht.2 hrc
  refine (ensures_note hF hprep).bind fun _ u hu => ?_
  obtain ⟨hhalted, hok, hcontent⟩ := hu
  exact ensures_pure ⟨fun hrc => ⟨hok hrc, hcontent ▸ (ht.1 hrc).2⟩, fun _ => hhalted⟩

/-- The chunks of a copy into `slot1`. -/
theorem ensures_streamImageToSlot1 (hF : RestoreFrame F) {e : ℕ → ℕ → CopyEnv} {total : ℕ}
    (hs : Preparing F b s) :
    (streamImageToSlot1 geo e total).Ensures F
      (Prepares F b fun content => AgreeBelow (content .slot1) b total) s := by
  let I : ℕ → World → Prop := fun off t =>
    Preparing F b t ∧ AgreeBelow (t.content .slot1) b off
  refine ensures_forChunks (I := I) geo.chunkSize_pos (fun off t _ ht => ?_) ⟨hs, agreeBelow_zero⟩
  have hput : ∀ w len buf, I off w → I off (w.put .slot1 off len buf) := by
    intro w len buf hw
    refine ⟨hw.1.put hF off len buf, ?_⟩
    rw [World.content_put]
    exact hw.2.patch (Nat.le_refl _)
  have hne : Area.factory ≠ Area.slot1 := by decide
  refine ensures_noted
    (P := fun content => AgreeBelow (content .slot1) b (off + min geo.chunkSize (total - off))) hF
    ((ensures_retry (fun k u hu => ensures_copyAttempt (I := I off) hne reads_backend
      (fun _ => writes_area) (fun _ _ => ensures_verifyReadback fun _ _ => reads_area)
      (fun w => hput w _) hu) _ _ t ht).outcome_mono (fun _ h => h.1.frame) (fun u hu => ?_)
      fun _ h => h.1)
  obtain ⟨hu, hagree⟩ := hu
  rw [hu.1.store] at hagree
  exact ⟨hu.1, hu.2.append hagree⟩

/-- A copy that succeeds has the image in `slot1`. -/
theorem ensures_copyBackendToSlot1 (hF : RestoreFrame F) {e : RestoreEnv}
    (hs : Preparing F b s) :
    (copyBackendToSlot1 geo e).Ensures F (Prepares F b fun content =>
      Accepted geo b ∧ AgreeBelow (content .slot1) b (imageTotal b % wordSize)) s := by
  have hopen : (noted .openSlot1 (pure e.slot1Opened)).Ensures F
      (outcome (Preparing F b) (Halted F)) s :=
    (ensures_noted (P := fun _ => True) hF (ensures_status ⟨hs, trivial⟩ hs)).outcome_mono
      (fun _ => id) (fun _ h => h.1) fun _ => id
  refine hopen.onSuccess fun t ht => ?_
  refine (ensures_pure (Q := fun size t => size.2 = geo.size .factory ∧ Preparing F b t)
    ⟨rfl, ht⟩).bind fun size u hu => ?_
  refine (ensures_note hF hu.2).bind fun _ v hv => ?_
  refine Ensures.ite (fun hrc => ensures_pure ((outcome_ne hrc).mpr hv.1)) fun hrc => ?_
  have hv := hv.2.1 (not_not.mp hrc)
  rw [hu.1]
  refine ensures_factoryBackupImageSize.bind fun copySize x hx => ?_
  obtain ⟨rfl, hsize⟩ := hx
  rw [hv.store] at hsize
  refine (ensures_note hF hv).bind fun _ y hy => ?_
  refine Ensures.ite (fun hrc => ensures_pure ((outcome_ne hrc).mpr hy.1)) fun hrc => ?_
  have hsize := hsize (not_not.mp hrc)
  have hy' := hy.2.1 (not_not.mp hrc)
  refine Ensures.ite (fun _ => ensures_pure ((outcome_ne (by decide)).mpr hy.1)) fun hfits => ?_
  have htotal := hsize.total_eq
  rw [htotal] at hsize hfits ⊢
  have herase : (noted .eraseSlot1 (areaErase geo .slot1 e.erase 0 (geo.size .slot1))).Ensures F
      (outcome (Preparing F b) (Halted F)) y :=
    (ensures_noted (P := fun _ => True) hF ((writes_area (Preparing F b)
      (fun w buf hw => hw.put hF _ _ buf) y hy').mono (fun _ h => h.frame)
      fun _ _ h => ⟨fun _ => ⟨h, trivial⟩, fun _ => h⟩)).outcome_mono
      (fun _ => id) (fun _ h => h.1) fun _ => id
  refine herase.onSuccess fun z hz => ?_
  exact (ensures_streamImageToSlot1 hF hz).outcome_mono (fun _ => id)
    (fun _ h => ⟨h.1, ⟨hsize, Nat.not_lt.mp hfits⟩, h.2⟩) fun _ => id

/-! ## The staging -/

/-- The trailer is rewritten, above the image. -/
theorem Staging.trailer (hF : RestoreFrame F) (h : Staging geo F b w) (buf : Region) :
    Staging geo F b (w.put .slot1 geo.lastPage (geo.size .slot1 - geo.lastPage) buf) where
  frame := hF.put w _ _ buf h.frame
  store := (World.content_put_ne (by decide) ..).trans h.store
  steps := h.steps
  accepted := h.accepted
  copied hends := by
    rw [World.content_put]
    exact (h.copied hends).patch hends
  requests := h.requests

/-- A request is made. -/
theorem Staging.requested (hF : RestoreFrame F) (h : Staging geo F b w) :
    Staging geo F b { w with requests := w.requests ++ [⟨w.content .slot1, w.steps⟩] } where
  frame := hF.record w w.steps _ h.frame
  store := h.store
  steps := h.steps
  accepted := h.accepted
  copied := h.copied
  requests hends r hr := by
    rcases List.mem_append.mp hr with hr | hr
    · exact h.requests hends r hr
    · have hlast := geo.lastPage_lt
      have hstore := h.accepted.1.total_le
      rw [total_eq hends] at hstore
      rw [List.mem_singleton.mp hr]
      exact ⟨h.steps, by omega, hstore, h.copied hends⟩

theorem ensures_stageAttempt (hF : RestoreFrame F) {e : StageEnv} {i : ℕ}
    (hs : Staging geo F b s) :
    (stageAttempt geo e i).Ensures F (outcome (Staging geo F b) (Staging geo F b)) s := by
  refine Ensures.bind (R := fun _ => Staging geo F b) ?_ fun _ t ht => ?_
  · refine Ensures.ite (fun _ => ?_) fun _ => ensures_pure hs
    refine (Ensures.onSuccess (M := Staging geo F b) (ensures_status hs hs) fun t ht =>
      (writes_area (Staging geo F b) (fun w buf hw => hw.trailer hF buf) t ht).mono
        (fun _ h => h.frame) fun _ _ h => ⟨fun _ => h, fun _ => h⟩).mono (fun _ => id)
      fun _ _ => outcome_self.mp
  · refine Ensures.bind (R := fun _ => Staging geo F b) ?_ fun _ u hu => ensures_status hu hu
    refine (Ensures.onSuccess (M := Staging geo F b) (B := Staging geo F b)
      (G := Staging geo F b) (ensures_status ht ht) fun u hu => ?_).mono (fun _ => id)
      fun _ _ => outcome_self.mp
    have hreq := hu.requested hF
    refine (ensures_move (P := fun _ => Staging geo F b) hreq.frame hreq).bind fun _ v hv => ?_
    have htr := hv.trailer hF e.trailer
    exact (ensures_move (P := fun _ => Staging geo F b) htr.frame htr).bind fun _ x hx =>
      ensures_status hx hx

theorem ensures_verifyAndStageSlot1 (hF : RestoreFrame F) {e : RestoreEnv}
    (hs : Preparing F b s) (haccepted : Accepted geo b)
    (hcopied : AgreeBelow (s.content .slot1) b (imageTotal b % wordSize)) :
    (verifyAndStageSlot1 geo e).Ensures F (outcome (Restored geo F b) (Restored geo F b)) s := by
  let P : (Area → Region) → Prop := fun content =>
    AgreeBelow (content .slot1) b (imageTotal b % wordSize)
  refine ((ensures_noted (P := P) hF (ensures_status ⟨hs, hcopied⟩ hs)).outcome_mono (fun _ => id)
    (fun _ => id) fun _ h => h.restored).onSuccess fun t ht => ?_
  refine ((reads_area t).mono (fun _ h => h.elim) fun _ _ => id).bind fun magic u hu => ?_
  obtain ⟨rfl, -⟩ := hu
  refine (ensures_note hF ht.1).bind fun _ v hv => ?_
  refine Ensures.ite (fun _ => ensures_status hv.1.restored hv.1.restored) fun hrc => ?_
  have hprep := hv.2.1 (not_not.mp hrc)
  refine Ensures.ite (fun _ => ensures_status hv.1.restored hv.1.restored) fun _ => ?_
  have hstaging : Staging geo F b v := ⟨hprep.toRestoring, haccepted, fun hends => by
    rw [hv.2.2, ← total_eq hends]
    exact ht.2, fun _ r hr => absurd (hprep.requests ▸ hr) List.not_mem_nil⟩
  exact (ensures_retry (fun k w hw => ensures_stageAttempt hF hw) _ _ v hstaging).outcome_mono
    (fun _ => id) (fun _ h => h.restored) fun _ h => h.restored

/-- Every restore keeps the frame, and hands over nothing but the image where that ends before the
trailer. -/
theorem ensures_restore (hF : RestoreFrame F) {e : RestoreEnv} (hs : F s)
    (hb : s.content .factory = b) :
    (factoryImageRestoreToSlot1 geo e).Ensures F
      (outcome (Restored geo F b) (Restored geo F b)) s := by
  have hbegun := hF.record s [] [] hs
  refine (ensures_move (P := fun _ => Preparing F b) hbegun
    ⟨⟨hbegun, hb, fun _ h => absurd h List.not_mem_nil⟩, rfl⟩).bind fun _ t ht => ?_
  have hstay : Restored geo F b t := ht.halted.restored
  refine (ensures_look (Q := fun _ => Preparing F b) ht).bind fun _ u hu => ?_
  have hstay : Restored geo F b u := hu.halted.restored
  refine Ensures.ite (fun _ => ensures_status hstay hstay) fun _ => ?_
  refine Ensures.ite (fun _ => ensures_status hstay hstay) fun _ => ?_
  refine Ensures.ite (fun _ => ensures_status hstay hstay) fun _ => ?_
  refine Ensures.onSuccess (M := Restored geo F b) (Ensures.onSuccess
    ((ensures_copyBackendToSlot1 hF hu).outcome_mono (fun _ => id) (fun _ => id)
      fun _ h => h.restored) fun v hv => ensures_verifyAndStageSlot1 hF hv.1 hv.2.1 hv.2.2)
    fun v hv => ?_
  have hreset : Restored geo F b v.reset := ⟨hF.reset v hv.frame, hv.requests⟩
  exact (ensures_move (P := fun _ => Restored geo F b) hreset.frame hreset).bind fun _ w hw =>
    ensures_status hw hw

end Walk

end DiveCANHead.Factory
