import DiveCANHead.Calibration.Machine

/-!
# Rollback of a failed calibration

The backup is taken from the cache and written to NVS, so a failed calibration gives back what was
there before exactly when the cache, NVS and the drivers agreed to begin with.
-/

namespace DiveCANHead.Calibration

open DiveCANHead.Cells

/-- Every restore write succeeds. -/
def CalEnv.Restores (env : CalEnv) (b : CalBuild) : Prop :=
  ∀ i, i < b.cellCount → (env.restores i).Complete b.cellCount

/-- What a calibration request must leave as it was. -/
structure RollsBack (b : CalBuild) (env : CalEnv) (req : CalRequest) (h : CalHead) : Prop where
  restored : (runCalibrationSm b env req h).2 ≠ .ok → env.Restores b → ∀ i, i < b.cellCount →
    (runCalibrationSm b env req h).1.store.nvs i = h.store.nvs i ∧
      (runCalibrationSm b env req h).1.store.cache i = h.store.cache i ∧
      ((runCalibrationSm b env req h).1.drivers i).calCoeff = (h.drivers i).calCoeff
  kept : ∀ w ∈ (runCalibrationSm b env req h).1.store.writes, w ∈ h.store.writes ∨
    ∀ coeff, h.store.nvs w.cell = some coeff → (b.cellType w.cell).Valid coeff →
      (b.cellType w.cell).Valid w.coeff

/-- NVS has the cached coefficient of every cell, and the drivers have loaded it. -/
structure Coherent (b : CalBuild) (h : CalHead) : Prop where
  persisted : ∀ i, i < b.cellCount → h.store.nvs i = some (h.store.cache i)
  inForce : ∀ i, i < b.cellCount →
    ((b.cellType i).loadCal (some (h.store.cache i)) (h.drivers i)).calCoeff =
      (h.drivers i).calCoeff

/-! ## Writes -/

/-- A write that puts no invalid coefficient over a valid one that NVS had before. -/
def KeepsValid (b : CalBuild) (before : CalStore) (w : CalWrite) : Prop :=
  w ∈ before.writes ∨
    ∀ coeff, before.nvs w.cell = some coeff → (b.cellType w.cell).Valid coeff →
      (b.cellType w.cell).Valid w.coeff

/-- An error sentinel is not saved, and any other coefficient is. -/
theorem calValidateAndSave_cases (o : SaveOutcome) (cell : ℕ) (coeff : ℚ) (s : CalStore) :
    coeff < 0 ∧ (calValidateAndSave o cell coeff s).1 = s ∧
        (calValidateAndSave o cell coeff s).2 ≠ .ok ∨
      ¬ coeff < 0 ∧ (calValidateAndSave o cell coeff s).1 =
        (calibrationStoreSave o cell coeff s).1 := by
  simp only [calValidateAndSave]
  split
  · next hneg =>
    refine .inl ⟨hneg, rfl, ?_⟩
    unfold calClassifyCoeffError
    split <;> exact CalResult.noConfusion
  · next hneg =>
    refine .inr ⟨hneg, ?_⟩
    split
    · next heq => rw [heq]
    · next heq =>
      rw [heq]
      dsimp only
      split <;> rfl

section Writes

variable {b : CalBuild} {env : CalEnv} {before : CalStore}

theorem calValidateAndSave_writes (o : SaveOutcome) (cell : ℕ) (q : Option ℚ) {s : CalStore}
    (hs : ∀ w ∈ s.writes, KeepsValid b before w) :
    ∀ w ∈ (calValidateAndSave o cell ((b.cellType cell).coefficient q) s).1.writes,
      KeepsValid b before w := by
  rcases calValidateAndSave_cases o cell ((b.cellType cell).coefficient q) s with
    ⟨-, heq, -⟩ | ⟨hneg, heq⟩
  · rw [heq]
    exact hs
  · rw [heq, calibrationStoreSave_writes]
    intro w hw
    rcases List.mem_cons.mp hw with rfl | hw
    · exact .inr fun _ _ _ => CellType.coefficient_valid hneg
    · exact hs w hw

theorem calibrateCell_writes (cell : ℕ) {s : CalStore}
    (hs : ∀ w ∈ s.writes, KeepsValid b before w) :
    ∀ w ∈ (calibrateCell b env cell s).1.writes, KeepsValid b before w := by
  unfold calibrateCell
  split
  · exact hs
  · exact calValidateAndSave_writes _ cell _ hs

theorem calibrateCells_writes (cells : List ℕ) {s : CalStore}
    (hs : ∀ w ∈ s.writes, KeepsValid b before w) :
    ∀ w ∈ (calibrateCells b env cells s).1.writes, KeepsValid b before w := by
  have hfold : ∀ (cells : List ℕ) (p : CalStore × CalResult),
      (∀ w ∈ p.1.writes, KeepsValid b before w) →
        ∀ w ∈ (cells.foldl (fun p cell =>
          ((calibrateCell b env cell p.1).1,
            if (calibrateCell b env cell p.1).2 = .ok then p.2
            else (calibrateCell b env cell p.1).2)) p).1.writes, KeepsValid b before w := by
    intro cells
    induction cells with
    | nil => exact fun _ hp => hp
    | cons cell cells ih => exact fun p hp => ih _ (calibrateCell_writes cell hp)
  exact hfold cells _ hs

theorem calValidatingRequest_writes (req : CalRequest) {s : CalStore}
    (hs : ∀ w ∈ s.writes, KeepsValid b before w) :
    ∀ w ∈ (calValidatingRequest b env req s).1.writes, KeepsValid b before w := by
  have habsolute : ∀ w ∈ (calAbsolute b env req s).1.writes, KeepsValid b before w := by
    unfold calAbsolute
    split
    · exact hs
    · exact calibrateCells_writes _ hs
  have hdigital : ∀ w ∈ (calDigitalReference b env s).1.writes, KeepsValid b before w := by
    unfold calDigitalReference
    split
    · exact hs
    dsimp only
    split
    · exact hs
    split
    · exact hs
    · exact calibrateCells_writes _ hs
  unfold calValidatingRequest
  split
  · exact hs
  unfold calExecuting
  split
  · exact hdigital
  split
  · exact habsolute
  split
  · exact habsolute
  split
  · exact habsolute
  split
  · exact hs
  · exact hs

theorem calRestoring_writes {previousCals : ℕ → ℚ} (cells : List ℕ) {s : CalStore}
    (hprev : ∀ i ∈ cells, KeepsValid b before ⟨i, previousCals i⟩)
    (hs : ∀ w ∈ s.writes, KeepsValid b before w) :
    ∀ w ∈ (calRestoring env previousCals cells s).writes, KeepsValid b before w := by
  induction cells generalizing s with
  | nil => exact hs
  | cons cell cells ih =>
    refine ih (fun i hi => hprev i (List.mem_cons_of_mem _ hi)) ?_
    rw [calibrationStoreSave_writes]
    intro w hw
    rcases List.mem_cons.mp hw with rfl | hw
    · exact hprev cell List.mem_cons_self
    · exact hs w hw

end Writes

@[simp]
theorem driversLoadCal_writes (b : CalBuild) (loads : ℕ → FirstLoad) (cells : List ℕ)
    (h : CalHead) : (driversLoadCal b loads cells h).store.writes = h.store.writes := by
  induction cells generalizing h with
  | nil => rfl
  | cons cell cells ih =>
    exact (ih (driverLoadCal b (loads cell) cell h)).trans
      (calibrationLoadCoefficients_writes _ _)

theorem runCalibrationSm_kept {b : CalBuild} {env : CalEnv} {req : CalRequest} {h : CalHead}
    (hprev : ∀ i ∈ b.cells, KeepsValid b h.store ⟨i, calBackingUp h.store i⟩) :
    ∀ w ∈ (runCalibrationSm b env req h).1.store.writes, KeepsValid b h.store w := by
  have hforward : ∀ w ∈ (calValidatingRequest b env req h.store).1.writes,
      KeepsValid b h.store w :=
    calValidatingRequest_writes req fun w hw => .inl hw
  simp only [runCalibrationSm]
  split
  all_goals
    try rw [driversLoadCal_writes]
    dsimp only
    split
    · exact hforward
    · exact calRestoring_writes b.cells hprev hforward

/-! ## What the restore leaves -/

/-- NVS and the cache hold this coefficient for the cell. -/
def CalStore.At (s : CalStore) (i : ℕ) (coeff : ℚ) : Prop :=
  s.nvs i = some coeff ∧ s.cache i = coeff

section Store

variable {s : CalStore} {i : ℕ} {coeff : ℚ}

theorem CalStore.At.loadSubtree (h : s.At i coeff) (o : LoadOutcome) :
    (loadSubtree o s).At i coeff :=
  ⟨h.1, loadSubtree_agrees o h.1 h.2⟩

theorem CalStore.At.loadCoefficients (h : s.At i coeff) (o : FirstLoad) :
    (calibrationLoadCoefficients o s).At i coeff :=
  ⟨(congrFun (calibrationLoadCoefficients_nvs o s) i).trans h.1,
    calibrationLoadCoefficients_agrees o h.1 h.2⟩

/-- A save of another cell, or of the same coefficient, leaves a cell as it is. -/
theorem CalStore.At.save (h : s.At i coeff) (o : SaveOutcome) {cell : ℕ} {new : ℚ}
    (hsame : cell = i → new = coeff) : (calibrationStoreSave o cell new s).1.At i coeff := by
  have hupdate : Function.update s.nvs cell (some new) i = some coeff := by
    by_cases hcell : i = cell
    · rw [hcell, Function.update_self, hsame hcell.symm]
    · rw [Function.update_of_ne hcell]
      exact h.1
  have hstored : ∀ {t : CalStore}, t.At i coeff →
      (if o.ok then (DiveCANHead.Calibration.loadSubtree o.load t, o.load.ok)
        else (t, false)).1.At i coeff := by
    intro t ht
    split
    · exact ht.loadSubtree o.load
    · exact ht
  unfold calibrationStoreSave
  refine hstored ?_
  split
  · exact ⟨hupdate, h.2⟩
  · exact h

/-- A save that succeeds leaves its cell with the coefficient it was given. -/
theorem CalStore.At.saved {o : SaveOutcome} {cells : ℕ} (ho : o.Complete cells) (hi : i < cells)
    (s : CalStore) : (calibrationStoreSave o i coeff s).1.At i coeff := by
  have hnvs : Function.update s.nvs i (some coeff) i = some coeff := Function.update_self _ _ _
  rw [calibrationStoreSave_complete ho]
  exact ⟨hnvs, loadSubtree_cache (ho.load.reached i hi) hnvs⟩

/-- A coefficient that is no error is saved with success if the flash works: it reads back. -/
theorem calValidateAndSave_complete {o : SaveOutcome} {cells : ℕ} (ho : o.Complete cells)
    (hi : i < cells) (hcells : cells ≤ cellMaxCount) (hneg : ¬ coeff < 0) (s : CalStore) :
    calValidateAndSave o i coeff s = ((calibrationStoreSave o i coeff s).1, .ok) ∧
      calibrationStoreLoad (calibrationStoreSave o i coeff s).1 i = some coeff := by
  have hat : (calibrationStoreSave o i coeff s).1.At i coeff := CalStore.At.saved ho hi s
  have hload : calibrationStoreLoad (calibrationStoreSave o i coeff s).1 i = some coeff := by
    rw [calibrationStoreLoad, if_pos (Nat.lt_of_lt_of_le hi hcells), hat.2]
  have hsave : calibrationStoreSave o i coeff s = ((calibrationStoreSave o i coeff s).1, true) := by
    refine Prod.ext rfl ?_
    simp only [calibrationStoreSave, ho.ok, ho.load.ok, if_true]
  refine ⟨?_, hload⟩
  rw [calValidateAndSave, if_neg hneg, hsave]
  simp only [hload, sub_self, abs_zero]
  rw [if_neg (by decide +kernel)]

end Store

/-- NVS and the cache hold these coefficients for the first `k` cells. -/
def CalStore.Holds (s : CalStore) (coeffs : ℕ → ℚ) (k : ℕ) : Prop :=
  ∀ i, i < k → s.nvs i = some (coeffs i) ∧ s.cache i = coeffs i

theorem calibrationStoreSave_holds {o : SaveOutcome} {cells k : ℕ} {coeffs : ℕ → ℚ}
    {s : CalStore} (ho : o.Complete cells) (hk : k < cells) (hs : s.Holds coeffs k) :
    (calibrationStoreSave o k (coeffs k) s).1.Holds coeffs (k + 1) := by
  intro i hi
  rcases Nat.lt_succ_iff_lt_or_eq.mp hi with hlt | rfl
  · exact CalStore.At.save (hs i hlt) o fun hsame => hsame ▸ rfl
  · exact CalStore.At.saved ho hk s

theorem calRestoring_holds {b : CalBuild} {env : CalEnv} (henv : env.Restores b)
    (previousCals : ℕ → ℚ) (s : CalStore) :
    (calRestoring env previousCals b.cells s).Holds previousCals b.cellCount := by
  have hrange : ∀ k, k ≤ b.cellCount →
      (calRestoring env previousCals (List.range k) s).Holds previousCals k := by
    intro k
    induction k with
    | zero => exact fun _ i hi => absurd hi (Nat.not_lt_zero i)
    | succ k ih =>
      intro hk
      rw [calRestoring, List.range_succ, List.foldl_append]
      exact calibrationStoreSave_holds (henv k hk) hk (ih (Nat.le_of_succ_le hk))
  exact hrange b.cellCount (Nat.le_refl _)

theorem calibrationLoadCoefficients_holds {coeffs : ℕ → ℚ} {k : ℕ} {s : CalStore} (o : FirstLoad)
    (hs : s.Holds coeffs k) : (calibrationLoadCoefficients o s).Holds coeffs k :=
  fun i hi => CalStore.At.loadCoefficients (hs i hi) o

/-- Each driver loads what the cache has after its own call of the first load; what those calls
keep holds of the store it finds. -/
theorem driversLoadCal_loads {b : CalBuild} {loads : ℕ → FirstLoad} {P : CalStore → Prop}
    {h : CalHead} (hkeep : ∀ k s, P s → P (calibrationLoadCoefficients (loads k) s))
    (hs : P h.store) : P (driversLoadCal b loads b.cells h).store ∧
      ∀ i, i < b.cellCount → ∃ s, P s ∧ (driversLoadCal b loads b.cells h).drivers i =
        (b.cellType i).loadCal (some ((calibrationLoadCoefficients (loads i) s).cache i))
          (h.drivers i) := by
  have hrange : ∀ k, k ≤ b.cellCount → P (driversLoadCal b loads (List.range k) h).store ∧
      (∀ i, i < k → ∃ s, P s ∧ (driversLoadCal b loads (List.range k) h).drivers i =
        (b.cellType i).loadCal (some ((calibrationLoadCoefficients (loads i) s).cache i))
          (h.drivers i)) ∧
      ∀ i, k ≤ i → (driversLoadCal b loads (List.range k) h).drivers i = h.drivers i := by
    intro k
    induction k with
    | zero => exact fun _ => ⟨hs, fun i hi => absurd hi (Nat.not_lt_zero i), fun _ _ => rfl⟩
    | succ k ih =>
      intro hk
      obtain ⟨hstore, hloaded, hrest⟩ := ih (Nat.le_of_succ_le hk)
      rw [driversLoadCal, List.range_succ, List.foldl_append]
      generalize hmid : (List.range k).foldl
        (fun h cell => driverLoadCal b (loads cell) cell h) h = mid
      rw [driversLoadCal, hmid] at hstore hloaded hrest
      have hother : ∀ i, i ≠ k → (driverLoadCal b (loads k) k mid).drivers i = mid.drivers i :=
        fun i hik => Function.update_of_ne hik _ _
      refine ⟨hkeep k _ hstore, fun i hi => ?_, fun i hi => ?_⟩
      · by_cases hik : i = k
        · subst hik
          refine ⟨mid.store, hstore, ?_⟩
          have hload : calibrationStoreLoad (calibrationLoadCoefficients (loads i) mid.store) i =
              some ((calibrationLoadCoefficients (loads i) mid.store).cache i) := by
            rw [calibrationStoreLoad, if_pos (Nat.lt_of_lt_of_le hk b.fits)]
          exact (Function.update_self _ _ _).trans (by rw [hload, hrest i (Nat.le_refl i)])
        · obtain ⟨s, hP, hdriver⟩ := hloaded i (by omega)
          exact ⟨s, hP, (hother i hik).trans hdriver⟩
      · exact (hother i (by omega)).trans (hrest i (by omega))
  obtain ⟨hstore, hloaded, -⟩ := hrange b.cellCount (Nat.le_refl _)
  exact ⟨hstore, hloaded⟩

/-- The drivers that load find the coefficients the store holds. -/
theorem driversLoadCal_holds {b : CalBuild} {coeffs : ℕ → ℚ} {h : CalHead}
    (loads : ℕ → FirstLoad) (hs : h.store.Holds coeffs b.cellCount) :
    (driversLoadCal b loads b.cells h).store.Holds coeffs b.cellCount ∧
      ∀ i, i < b.cellCount → (driversLoadCal b loads b.cells h).drivers i =
        (b.cellType i).loadCal (some (coeffs i)) (h.drivers i) := by
  have hloads := @driversLoadCal_loads b loads (fun s => s.Holds coeffs b.cellCount) h
    (fun k _ => calibrationLoadCoefficients_holds (loads k))
  obtain ⟨hstore, hdrivers⟩ := hloads hs
  refine ⟨hstore, fun i hi => ?_⟩
  obtain ⟨s, hholds, hdriver⟩ := hdrivers i hi
  rw [hdriver, (calibrationLoadCoefficients_holds (loads i) hholds i hi).2]

/-- A failed calibration whose restore writes succeed leaves the backup everywhere. -/
theorem runCalibrationSm_restored {b : CalBuild} {env : CalEnv} {req : CalRequest} {h : CalHead}
    (hfail : (runCalibrationSm b env req h).2 ≠ .ok) (henv : env.Restores b) :
    (runCalibrationSm b env req h).1.store.Holds (calBackingUp h.store) b.cellCount ∧
      ∀ i, i < b.cellCount → (runCalibrationSm b env req h).1.drivers i =
        if env.published then
          (b.cellType i).loadCal (some (calBackingUp h.store i)) (h.drivers i)
        else h.drivers i := by
  have hresult : (runCalibrationSm b env req h).2 = (calValidatingRequest b env req h.store).2 :=
    rfl
  rw [hresult] at hfail
  have hholds := calRestoring_holds henv (calBackingUp h.store)
    (calValidatingRequest b env req h.store).1
  simp only [runCalibrationSm, if_neg hfail]
  cases env.published with
  | false => exact ⟨hholds, fun _ _ => rfl⟩
  | true => exact driversLoadCal_holds env.loads hholds

theorem calBackingUp_eq {b : CalBuild} (s : CalStore) {i : ℕ} (hi : i < b.cellCount) :
    calBackingUp s i = s.cache i := by
  rw [calBackingUp, calibrationStoreLoad, if_pos (Nat.lt_of_lt_of_le hi b.fits)]
  rfl

theorem Coherent.rollsBack {b : CalBuild} {h : CalHead} (hc : Coherent b h) (env : CalEnv)
    (req : CalRequest) : RollsBack b env req h := by
  constructor
  · intro hfail henv i hi
    obtain ⟨hstore, hdrivers⟩ := runCalibrationSm_restored hfail henv
    obtain ⟨hnvs, hcache⟩ := hstore i hi
    rw [hdrivers i hi, hnvs, hcache, calBackingUp_eq h.store hi, hc.persisted i hi]
    refine ⟨rfl, rfl, ?_⟩
    split
    · exact hc.inForce i hi
    · rfl
  · refine runCalibrationSm_kept fun i hi => .inr fun coeff hcoeff hvalid => ?_
    have hlt : i < b.cellCount := List.mem_range.mp hi
    dsimp only at hcoeff hvalid ⊢
    rw [hc.persisted i hlt] at hcoeff
    rw [calBackingUp_eq h.store hlt, Option.some.inj hcoeff]
    exact hvalid

/-! ## Where it does not roll back -/

def LoadOutcome.good : LoadOutcome := ⟨true, fun _ => true⟩

/-- No cell answers, and every call into the flash succeeds. -/
def CalEnv.good : CalEnv where
  samples := fun _ => .timeout
  reference := none
  saves := fun _ => ⟨true, true, .good⟩
  restores := fun _ => ⟨true, true, .good⟩
  published := true
  loads := fun _ => ⟨true, .good⟩

theorem CalEnv.good_restores (b : CalBuild) : CalEnv.good.Restores b :=
  fun _ _ => ⟨rfl, rfl, rfl, fun _ _ => rfl⟩

/-- An absolute calibration with pure oxygen at three bar: the target is out of range. -/
def overTarget : CalRequest := ⟨1, 100, 3000⟩

theorem overTarget_rejected (b : CalBuild) (env : CalEnv) (h : CalHead) :
    (runCalibrationSm b env overTarget h).2 = .rejected := rfl

/-- A store that is loaded before the drivers load theirs need not be loaded again. -/
theorem driversLoadCal_loaded {b : CalBuild} {loads : ℕ → FirstLoad} {h : CalHead} (cells : List ℕ)
    (hl : (calibrationLoadCoefficients (loads 0) h.store).loaded = true) :
    driversLoadCal b loads (0 :: cells) h =
      driversLoadCal b loads (0 :: cells)
        { h with store := calibrationLoadCoefficients (loads 0) h.store } := by
  have hagain : calibrationLoadCoefficients (loads 0)
      (calibrationLoadCoefficients (loads 0) h.store) =
      calibrationLoadCoefficients (loads 0) h.store := by
    rw [calibrationLoadCoefficients, if_pos hl]
  have hfirst : driverLoadCal b (loads 0) 0 h = driverLoadCal b (loads 0) 0
      { h with store := calibrationLoadCoefficients (loads 0) h.store } := by
    simp only [driverLoadCal, hagain]
  rw [driversLoadCal, driversLoadCal, List.foldl_cons, List.foldl_cons, hfirst]

/-- A boot whose first load is complete, with a coefficient for every cell, is coherent. -/
theorem coherent_boot {b : CalBuild} {loads : ℕ → FirstLoad} {nvs : ℕ → Option ℚ}
    (coeffs : ℕ → ℚ) (hnvs : ∀ i, i < b.cellCount → nvs i = some (coeffs i))
    (hinit : (loads 0).initOk = true) (hload : (loads 0).load.Complete b.cellCount) :
    Coherent b (bootHead b loads nvs) := by
  cases hn : b.cellCount with
  | zero => exact ⟨fun i hi => absurd hi (by omega), fun i hi => absurd hi (by omega)⟩
  | succ n =>
    have hcells : b.cells = 0 :: (List.range n).map Nat.succ := by
      rw [CalBuild.cells, hn, List.range_succ_eq_map]
    have hholds : (bootHead b loads nvs).store.Holds coeffs b.cellCount ∧
        ∀ i, i < b.cellCount → (bootHead b loads nvs).drivers i =
          (b.cellType i).loadCal (some (coeffs i)) (b.cellType i).initDriver := by
      have hstore : ∀ s : CalStore, s.loaded = false →
          calibrationLoadCoefficients (loads 0) s =
            { loadSubtree (loads 0).load s with loaded := true } := by
        intro s hs
        simp only [calibrationLoadCoefficients, hs, hinit, hload.ok, if_true]
        rfl
      rw [bootHead, hcells, driversLoadCal_loaded _ (by rw [hstore _ rfl]), ← hcells]
      refine driversLoadCal_holds loads ?_
      dsimp only
      rw [hstore _ rfl]
      intro i hi
      exact ⟨hnvs i hi, loadSubtree_cache (hload.reached i hi) (hnvs i hi)⟩
    obtain ⟨hstore, hdrivers⟩ := hholds
    constructor
    · intro i hi
      rw [(hstore i hi).1, (hstore i hi).2]
    · intro i hi
      rw [(hstore i hi).2, hdrivers i hi, CellType.loadCal_loadCal]

/-- One analog cell. -/
def oneAnalog : CalBuild where
  cellCount := 1
  cellType := fun _ => .analog
  flushSolenoids := false
  fits := Nat.le_of_ble_eq_true rfl

/-- A boot with a valid coefficient in NVS that cannot be loaded. -/
def unloadedBoot : CalHead :=
  bootHead oneAnalog (fun _ => ⟨true, ⟨false, fun _ => false⟩⟩) fun _ => some 0.02

end DiveCANHead.Calibration
