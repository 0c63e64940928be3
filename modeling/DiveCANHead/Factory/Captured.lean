import DiveCANHead.Factory.RestoreSound
import DiveCANHead.Lib.Runs

/-!
# The captured flag stands for a verified copy

Runs of boots, captures, restores and power cuts, with every state on the way observed. A capture
clears no flag, so the flag outlives the copy where an erase begins while it is set; in every other
run the flag, in RAM or in the settings, stands for a copy that was verified throughout.
-/

namespace DiveCANHead.Factory

open DiveCANHead.Lib DiveCANHead.Lib.Prog

/-! ## Runs -/

inductive Job where
  | init (e : LoadResult)
  | capture (e : CaptureEnv)
  | forceCapture (e : CaptureEnv)
  | restore (e : RestoreEnv)

def Job.run (geo : Geometry) : Job → Prog World Status
  | .init e => factoryImageInit e
  | .capture e => captureWorkHandler geo e
  | .forceCapture e => forceCaptureWorkHandler geo e
  | .restore e => factoryImageRestoreToSlot1 geo e

/-- `powerLoss` cuts a job short after some of its steps. MCUboot may exchange the slots at every
boot, and a download or the confirmation of an image rewrites them at any time. -/
inductive Event where
  | work (job : Job)
  | powerLoss (job : Job) (after : ℕ) (slot0 slot1 : Region)
  | boot (slot0 slot1 : Region)
  | rewrite (slot0 slot1 : Region)

def World.withSlots (w : World) (slot0 slot1 : Region) : World :=
  { w with content := fun a =>
      match a with
      | .slot0 => slot0
      | .slot1 => slot1
      | .factory => w.content .factory }

/-- The states passed through, the one left last. -/
def observed (geo : Geometry) (w : World) : Event → List World
  | .work job => (job.run geo w).seen ++ [(job.run geo w).state]
  | .powerLoss job after slot0 slot1 =>
    (job.run geo w).seen.take after ++
      [(((job.run geo w).seen.take after).getLastD w).reset.withSlots slot0 slot1]
  | .boot slot0 slot1 => [w.reset.withSlots slot0 slot1]
  | .rewrite slot0 slot1 => [w.withSlots slot0 slot1]

def factoryStep (geo : Geometry) (w : World) (e : Event) : Option World :=
  (observed geo w e).getLast?

/-! ## What the flag claims -/

/-- The flag is set, or will be at the next boot. -/
def World.claims (w : World) : Prop := w.captured = true ∨ w.stored = some true

instance (w : World) : Decidable w.claims := inferInstanceAs (Decidable (_ ∨ _))

/-- The store holds all of an image that was copied and verified. -/
def World.holdsCopy (geo : Geometry) (w : World) : Prop :=
  ∃ image ∈ w.copied, AgreeBelow (w.content .factory) image (geo.size .slot0)

instance (geo : Geometry) (w : World) : Decidable (w.holdsCopy geo) :=
  inferInstanceAs (Decidable (∃ image ∈ w.copied, _))

def CapturedSound (geo : Geometry) (w : World) (e : Event) (_ : World) : Prop :=
  ∀ u ∈ observed geo w e, u.claims → u.holdsCopy geo

/-- No erase of the store has begun while the flag or its entry was set. -/
def ErasesUnclaimed (geo : Geometry) (w : World) (e : Event) (_ : World) : Prop :=
  ∀ u ∈ observed geo w e, u.erasedBackup = false

instance (geo : Geometry) (w : World) (e : Event) (t : World) :
    Decidable (CapturedSound geo w e t) :=
  inferInstanceAs (Decidable (∀ u ∈ observed geo w e, u.claims → u.holdsCopy geo))

instance (geo : Geometry) (w : World) (e : Event) (t : World) :
    Decidable (ErasesUnclaimed geo w e t) :=
  inferInstanceAs (Decidable (∀ u ∈ observed geo w e, _))

/-! ## A capture -/

variable {geo : Geometry} {s t w : World}

/-- The invariant of every observed state. -/
def FlagInv (geo : Geometry) (w : World) : Prop :=
  w.erasedBackup = false → w.claims → w.holdsCopy geo

/-- The store is being rewritten: nothing claims that it holds a copy. -/
def Unclaimed (w : World) : Prop := w.erasedBackup = false → ¬ w.claims

theorem Unclaimed.flagInv (h : Unclaimed w) : FlagInv geo w := fun he hc => absurd hc (h he)

theorem World.holdsCopy.flagInv (h : w.holdsCopy geo) : FlagInv geo w := fun _ _ => h

/-- A boot, or a load of the flag, claims nothing new. -/
theorem FlagInv.of_claims (hi : FlagInv geo s) (hc : t.claims → s.claims)
    (he : t.erasedBackup = s.erasedBackup) (hcopied : t.copied = s.copied)
    (hstore : t.content .factory = s.content .factory) : FlagInv geo t := by
  intro h hclaims
  obtain ⟨image, hmem, hagree⟩ := hi (he ▸ h) (hc hclaims)
  exact ⟨image, hcopied ▸ hmem, hstore ▸ hagree⟩

theorem Unclaimed.put (h : Unclaimed w) (a : Area) (off len : ℕ) (buf : Region) :
    Unclaimed (w.put a off len buf) := h

theorem flagInv_load (hi : FlagInv geo s) : FlagInv geo (factoryFlagSettingsSet s) := by
  unfold factoryFlagSettingsSet
  split
  · rename_i v hv
    refine hi.of_claims (fun hc => ?_) rfl rfl rfl
    rcases hc with hc | hc
    · exact .inr (hv.trans (congrArg some hc))
    · exact .inr hc
  · exact hi

theorem ensures_init {e : LoadResult} (hi : FlagInv geo s) :
    (flashBackendInit e).Ensures (FlagInv geo) (outcome (FlagInv geo) (FlagInv geo)) s := by
  have hdone : ∀ t, FlagInv geo t →
      (do move fun w => { w with initialised := true }
          pure 0 : Prog World Status).Ensures (FlagInv geo)
        (outcome (FlagInv geo) (FlagInv geo)) t := by
    intro t ht
    have hinit : FlagInv geo { t with initialised := true } := ht.of_claims id rfl rfl rfl
    exact (ensures_move (P := fun _ => FlagInv geo) hinit hinit).bind fun _ u hu =>
      ensures_status hu hu
  refine (ensures_look (Q := fun _ => FlagInv geo) hi).bind fun initialised t ht => ?_
  refine Ensures.ite (fun _ => ensures_status ht ht) fun _ => Ensures.ite (fun _ => ?_) fun _ => ?_
  · have hload := flagInv_load ht
    exact (ensures_move (P := fun _ => FlagInv geo) hload hload).bind fun _ u hu => hdone u hu
  · exact hdone t ht

theorem ensures_erase {e : Command} (hi : FlagInv geo s) :
    (flashBackendErase geo e).Ensures (FlagInv geo) (outcome Unclaimed (FlagInv geo)) s := by
  refine Ensures.onSuccess (M := FlagInv geo) (ensures_status hi hi) fun t ht => ?_
  have hbegun : Unclaimed
      { t with erasedBackup := t.erasedBackup || t.captured || t.stored.getD false } := by
    intro he hc
    simp only [Bool.or_eq_false_iff] at he
    rcases hc with hc | hc
    · exact Bool.noConfusion (he.1.2.symm.trans hc)
    · have hs : t.stored = some true := hc
      simp [hs] at he
  refine (ensures_move (P := fun _ => Unclaimed) hbegun.flagInv hbegun).bind fun _ u hu => ?_
  refine (writes_area Unclaimed (fun w buf hw => hw.put _ _ _ buf) u hu).mono
    (fun _ => Unclaimed.flagInv) fun rc v hv => ⟨fun _ => hv, fun _ => hv.flagInv⟩

/-- A copy that succeeds has every byte of `slot0` in the store. -/
theorem ensures_copySlot0 {e : ℕ → ℕ → CopyEnv} {size : ℕ} (hs : Unclaimed s) :
    (copySlot0ToBackend geo e size).Ensures Unclaimed
      (outcome (fun t => Unclaimed t ∧ AgreeBelow (t.content .factory) (t.content .slot0)
        (min (geo.size .slot0) size)) Unclaimed) s := by
  let I : ℕ → World → Prop := fun off t =>
    Unclaimed t ∧ AgreeBelow (t.content .factory) (t.content .slot0) off
  refine ensures_forChunks (I := I) geo.chunkSize_pos (fun off t _ ht => ?_) ⟨hs, agreeBelow_zero⟩
  have hput : ∀ w len buf, I off w → I off (w.put .factory off len buf) := by
    intro w len buf hw
    refine ⟨hw.1.put _ _ _ buf, ?_⟩
    rw [World.content_put, World.content_put_ne (by decide)]
    exact hw.2.patch (Nat.le_refl _)
  have hne : Area.slot0 ≠ Area.factory := by decide
  refine (ensures_retry (fun k u hu => ensures_copyAttempt (I := I off) hne reads_area
    (fun _ => writes_backend) (fun _ _ => ensures_verifyReadback fun _ _ => reads_backend)
    (fun w => hput w _) hu) _ _ t ht).outcome_mono (fun _ h => h.1) (fun u hu => ?_) fun _ h => h.1
  exact ⟨hu.1.1, hu.1.2.append hu.2⟩

theorem ensures_mark {e : SaveResult} (hs : s.holdsCopy geo) :
    (flashBackendMarkCaptured e true).Ensures (FlagInv geo)
      (outcome (FlagInv geo) (FlagInv geo)) s := by
  have hsaved : World.holdsCopy geo
      { s with stored := if e.taken then some true else s.stored } := hs
  refine (ensures_move (P := fun _ => World.holdsCopy geo) hsaved.flagInv hsaved).bind
    fun _ t ht => Ensures.ite (fun _ => ?_) fun _ => ensures_status ht.flagInv ht.flagInv
  have hmarked : World.holdsCopy geo { t with captured := true } := ht
  exact (ensures_move (P := fun _ => World.holdsCopy geo) hmarked.flagInv hmarked).bind
    fun _ u hu => ensures_status hu.flagInv hu.flagInv

theorem ensures_captureCopyAndBless {e : CaptureEnv} {size : ℕ} (hi : FlagInv geo s) :
    (captureCopyAndBless geo e size).Ensures (FlagInv geo)
      (outcome (FlagInv geo) (FlagInv geo)) s := by
  refine Ensures.ite (fun _ => ensures_status hi hi) fun hsize => ?_
  refine (ensures_erase hi).onSuccess fun t ht => ?_
  refine ((ensures_copySlot0 ht).outcome_mono (fun _ => Unclaimed.flagInv) (fun _ => id)
    fun _ => Unclaimed.flagInv).onSuccess fun u hu => ?_
  rw [Nat.min_eq_left (Nat.not_lt.mp hsize)] at hu
  have hcopied : World.holdsCopy geo { u with copied := u.content .slot0 :: u.copied } :=
    ⟨_, List.mem_cons_self, hu.2⟩
  refine (ensures_move (P := fun _ => World.holdsCopy geo) hcopied.flagInv hcopied).bind
    fun _ v hv => ?_
  exact Ensures.onSuccess (M := World.holdsCopy geo) (ensures_status hv hv.flagInv)
    fun _ => ensures_mark

theorem ensures_doCapture {e : CaptureEnv} (hi : FlagInv geo s) :
    (doCapture geo e).Ensures (FlagInv geo) (outcome (FlagInv geo) (FlagInv geo)) s := by
  refine (ensures_look (Q := fun _ => FlagInv geo) hi).bind fun _ t ht => ?_
  refine Ensures.ite (fun _ => ensures_status ht ht) fun _ => ?_
  refine Ensures.ite (fun _ => ensures_status ht ht) fun _ => ?_
  refine (ensures_init ht).onSuccess fun u hu => ?_
  refine (ensures_pure (Q := fun _ => FlagInv geo) hu).bind fun size v hv => ?_
  refine Ensures.ite (fun _ => ?_) fun _ => ensures_status hv hv
  exact Ensures.onSuccess (M := FlagInv geo) (ensures_status hv hv)
    fun _ => ensures_captureCopyAndBless

/-! ## Runs of jobs -/

theorem restoreFrame_flagInv : RestoreFrame (FlagInv geo) where
  put w _ _ _ hi := hi.of_claims id rfl rfl (World.content_put_ne (by decide) w ..)
  record _ _ _ hi := hi.of_claims id rfl rfl rfl
  reset _ hi := hi.of_claims (fun hc => hc.resolve_left Bool.false_ne_true |> .inr) rfl rfl rfl

theorem ensures_job {job : Job} (hi : FlagInv geo s) :
    (job.run geo).Ensures (FlagInv geo) (fun _ => FlagInv geo) s := by
  cases job with
  | init e =>
    have hset : FlagInv geo { s with backend := true } := hi.of_claims id rfl rfl rfl
    exact (ensures_move (P := fun _ => FlagInv geo) hset hset).bind fun _ t ht =>
      (ensures_init ht).mono (fun _ => id) fun _ _ => outcome_self.mp
  | capture e =>
    refine (ensures_look (Q := fun _ => FlagInv geo) hi).bind fun _ t ht => ?_
    exact Ensures.ite (fun _ => (ensures_doCapture ht).mono (fun _ => id) fun _ _ =>
      outcome_self.mp) fun _ => ensures_pure ht
  | forceCapture e =>
    refine (ensures_look (Q := fun _ => FlagInv geo) hi).bind fun _ t ht => ?_
    exact Ensures.ite (fun _ => (ensures_doCapture ht).mono (fun _ => id) fun _ _ =>
      outcome_self.mp) fun _ => ensures_pure ht
  | restore e =>
    exact (ensures_restore restoreFrame_flagInv hi rfl).mono (fun _ => id) fun _ _ h =>
      (outcome_self.mp h).frame

theorem FlagInv.reset (hi : FlagInv geo w) : FlagInv geo w.reset :=
  restoreFrame_flagInv.reset w hi

theorem FlagInv.withSlots (hi : FlagInv geo w) (slot0 slot1 : Region) :
    FlagInv geo (w.withSlots slot0 slot1) :=
  hi.of_claims id rfl rfl rfl

/-- Every state on the way keeps the invariant, wherever the power fails. -/
theorem flagInv_observed (hi : FlagInv geo w) (e : Event) :
    ∀ u ∈ observed geo w e, FlagInv geo u := by
  intro u hu
  cases e with
  | work job =>
    rcases List.mem_append.mp hu with hu | hu
    · exact (ensures_job hi).1 u hu
    · exact List.mem_singleton.mp hu ▸ (ensures_job hi).2
  | powerLoss job after slot0 slot1 =>
    have hpassed : ∀ v ∈ (job.run geo w).seen.take after, FlagInv geo v :=
      fun v hv => (ensures_job hi).1 v (List.mem_of_mem_take hv)
    rcases List.mem_append.mp hu with hu | hu
    · exact hpassed u hu
    · rw [List.mem_singleton.mp hu]
      refine FlagInv.withSlots (FlagInv.reset ?_) slot0 slot1
      rw [List.getLastD_eq_getLast?]
      cases hlast : ((job.run geo w).seen.take after).getLast? with
      | none => exact hi
      | some v => exact hpassed v (List.mem_of_getLast? hlast)
  | boot slot0 slot1 => exact List.mem_singleton.mp hu ▸ hi.reset.withSlots slot0 slot1
  | rewrite slot0 slot1 => exact List.mem_singleton.mp hu ▸ hi.withSlots slot0 slot1

/-- **In every run in which no erase begins while the flag or its entry is set, the flag stands for
a verified copy in every state.** -/
theorem captured_sound (geo : Geometry) (content : Area → Region) (es : List Event)
    (h : Steps (factoryStep geo) (ErasesUnclaimed geo) (.blank content) es) :
    Steps (factoryStep geo) (CapturedSound geo) (.blank content) es := by
  have hstart : FlagInv geo (.blank content) := fun _ hc => by rcases hc with hc | hc <;> cases hc
  have hkeep : ∀ {s e t}, FlagInv geo s → ErasesUnclaimed geo s e s →
      factoryStep geo s e = some t → FlagInv geo t ∧ CapturedSound geo s e t :=
    fun hi hclean hstep => ⟨flagInv_observed hi _ _ (List.mem_of_getLast? hstep),
      fun u hu hc => flagInv_observed hi _ u hu (hclean u hu) hc⟩
  exact Steps.of_inv hkeep hstart h

/-- Nothing fails. -/
def CaptureEnv.sound : CaptureEnv where
  arena := true
  load := ⟨0, true⟩
  sizeOpened := 0
  slot0Opened := 0
  erase := .sound none
  copy := fun _ _ => .sound
  save := ⟨0, true⟩

/-- A first capture is cut short, and made up for after the next boot. -/
theorem captured_sound_cutShort :
    Steps (factoryStep smallBoard) (ErasesUnclaimed smallBoard) (.blank fun _ _ => 1)
      [.work (.init ⟨0, true⟩), .powerLoss (.capture .sound) 5 (fun _ => 2) fun _ => 1,
        .work (.init ⟨0, true⟩), .work (.capture .sound), .boot (fun _ => 3) fun _ => 2,
        .work (.init ⟨0, true⟩)] ∧
    Steps (factoryStep smallBoard) (CapturedSound smallBoard) (.blank fun _ _ => 1)
      [.work (.init ⟨0, true⟩), .powerLoss (.capture .sound) 5 (fun _ => 2) fun _ => 1,
        .work (.init ⟨0, true⟩), .work (.capture .sound), .boot (fun _ => 3) fun _ => 2,
        .work (.init ⟨0, true⟩)] :=
  ⟨by decide +kernel, captured_sound smallBoard _ _ (by decide +kernel)⟩

/-- A forced capture is cut short after its erase: the next boot loads a flag that stands for
nothing. -/
theorem forcedCapture_unsound :
    ¬ Steps (factoryStep smallBoard) (CapturedSound smallBoard) (.blank fun _ _ => 1)
      [.work (.init ⟨0, true⟩), .work (.capture .sound),
        .powerLoss (.forceCapture .sound) 3 (fun _ => 1) fun _ => 1, .work (.init ⟨0, true⟩)] := by
  decide +kernel

end DiveCANHead.Factory
