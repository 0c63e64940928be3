import DiveCANHead.Calibration.Rollback

/-!
# Which cells a calibration changes

A calibration against the digital reference is for the analog cells, and so, by its name and its
comments, is the analog absolute one; but that one goes over every cell. Apart from that a cell that
is not calibrated keeps its coefficient where NVS, the cache and the driver agree on it: a failure
writes the cached coefficients of all cells back, and every response makes every driver load.
-/

namespace DiveCANHead.Calibration

/-! ## The frame of a method -/

/-- `CAL_DIGITAL_REFERENCE`. -/
def methodDigitalReference : UInt8 := 0

/-- `CAL_ANALOG_ABSOLUTE`. -/
def methodAnalogAbsolute : UInt8 := 1

/-- `CAL_TOTAL_ABSOLUTE`. -/
def methodTotalAbsolute : UInt8 := 2

/-- `CAL_CHECK`. -/
def methodCheck : UInt8 := 4

/-- The cells an absolute method is for. -/
def CalBuild.documentedCells (b : CalBuild) (method : UInt8) : List ℕ :=
  if method = methodAnalogAbsolute then b.cells.filter fun i => b.cellType i = .analog else b.cells

/-- The coefficient a cell is to get. -/
def newCoeff (b : CalBuild) (env : CalEnv) (cell : ℕ) : ℚ :=
  match env.samples cell with
  | .timeout => calCoeffErrMath
  | .value q => (b.cellType cell).coefficient q

/-- The cell has the coefficient it had, in NVS and in force. -/
structure Untouched (h h' : CalHead) (i : ℕ) : Prop where
  nvs : h'.store.nvs i = h.store.nvs i
  inForce : (h'.drivers i).calCoeff = (h.drivers i).calCoeff

/-- Each method changes the cells it is for: a digital cell keeps its coefficient under the methods
for analog cells, a check changes none, and an absolute calibration that succeeds writes each of its
cells once and no other. -/
structure MethodFrame (b : CalBuild) (env : CalEnv) (req : CalRequest) (h : CalHead) : Prop where
  digital : req.method = methodDigitalReference ∨ req.method = methodAnalogAbsolute →
    ∀ i, i < b.cellCount → b.cellType i ≠ .analog →
      Untouched h (runCalibrationSm b env req h).1 i
  check : req.method = methodCheck → ∀ i, i < b.cellCount →
    Untouched h (runCalibrationSm b env req h).1 i
  written : req.method = methodAnalogAbsolute ∨ req.method = methodTotalAbsolute →
    (runCalibrationSm b env req h).2 = .ok →
      (runCalibrationSm b env req h).1.store.writes =
        ((b.documentedCells req.method).map fun i => ⟨i, newCoeff b env i⟩).reverse ++
          h.store.writes
  inForce : req.method = methodAnalogAbsolute ∨ req.method = methodTotalAbsolute →
    (runCalibrationSm b env req h).2 = .ok → env.published = true →
      (∀ i, i < b.cellCount → (env.saves i).Complete b.cellCount) →
        ∀ i ∈ b.documentedCells req.method,
          (runCalibrationSm b env req h).1.store.nvs i = some (newCoeff b env i) ∧
            (runCalibrationSm b env req h).1.drivers i =
              (b.cellType i).loadCal (some (newCoeff b env i)) (h.drivers i)

/-! ## One cell -/

section At

variable {s : CalStore} {i : ℕ} {coeff : ℚ}

theorem CalStore.At.calibrateCell (h : s.At i coeff) (b : CalBuild) (env : CalEnv) {cell : ℕ}
    (hcell : cell ≠ i) : (calibrateCell b env cell s).1.At i coeff := by
  unfold DiveCANHead.Calibration.calibrateCell
  split
  · exact h
  · next q _ =>
    rcases calValidateAndSave_cases (env.saves cell) cell ((b.cellType cell).coefficient q) s
      with ⟨-, heq, -⟩ | ⟨-, heq⟩
    · rw [heq]
      exact h
    · rw [heq]
      exact h.save _ fun hsame => absurd hsame hcell

theorem CalStore.At.restoring (h : s.At i coeff) (env : CalEnv) {previousCals : ℕ → ℚ}
    (hprev : previousCals i = coeff) (cells : List ℕ) :
    (calRestoring env previousCals cells s).At i coeff := by
  induction cells generalizing s with
  | nil => exact h
  | cons cell cells ih => exact ih (h.save _ fun hsame => hsame ▸ hprev)

theorem CalStore.At.calibrateCells (h : s.At i coeff) (b : CalBuild) (env : CalEnv)
    (cells : List ℕ) (hcells : i ∉ cells) : (calibrateCells b env cells s).1.At i coeff := by
  have hfold : ∀ (cells : List ℕ) (p : CalStore × CalResult), i ∉ cells → p.1.At i coeff →
      (cells.foldl (fun p cell =>
        ((DiveCANHead.Calibration.calibrateCell b env cell p.1).1,
          if (DiveCANHead.Calibration.calibrateCell b env cell p.1).2 = .ok then p.2
          else (DiveCANHead.Calibration.calibrateCell b env cell p.1).2)) p).1.At i coeff := by
    intro cells
    induction cells with
    | nil => exact fun _ _ hp => hp
    | cons cell cells ih =>
      intro p hnot hp
      exact ih _ (fun hin => hnot (List.mem_cons_of_mem _ hin))
        (hp.calibrateCell b env fun heq => hnot (heq ▸ List.mem_cons_self))
  exact hfold cells _ hcells h

end At

/-! ## A calibration that succeeds -/

section Success

variable {b : CalBuild} {env : CalEnv}

/-- A cell whose calibration succeeds is saved with its new coefficient. -/
theorem calibrateCell_ok {cell : ℕ} {s : CalStore} (hok : (calibrateCell b env cell s).2 = .ok) :
    (calibrateCell b env cell s).1 =
      (calibrationStoreSave (env.saves cell) cell (newCoeff b env cell) s).1 := by
  unfold calibrateCell newCoeff at *
  cases hsample : env.samples cell with
  | timeout =>
    rw [hsample] at hok
    exact CalResult.noConfusion hok
  | value q =>
    rw [hsample] at hok
    dsimp only at hok ⊢
    rcases calValidateAndSave_cases (env.saves cell) cell ((b.cellType cell).coefficient q) s
      with ⟨-, -, hnot⟩ | ⟨-, heq⟩
    · exact absurd hok hnot
    · exact heq

/-- Cells that are all calibrated with success are written one after the other, each once. -/
theorem calibrateCells_ok {s : CalStore} (cells : List ℕ)
    (hok : (calibrateCells b env cells s).2 = .ok) :
    (calibrateCells b env cells s).1.writes =
        (cells.map fun i => ⟨i, newCoeff b env i⟩).reverse ++ s.writes ∧
      ((∀ i ∈ cells, (env.saves i).Complete b.cellCount ∧ i < b.cellCount) →
        ∀ i ∈ cells, (calibrateCells b env cells s).1.At i (newCoeff b env i)) := by
  induction cells using List.reverseRecOn with
  | nil => exact ⟨rfl, fun _ i hi => absurd hi List.not_mem_nil⟩
  | append_singleton cells cell ih =>
    unfold calibrateCells at hok ih ⊢
    rw [List.foldl_append] at hok ⊢
    generalize hmid : cells.foldl (fun p cell =>
      ((calibrateCell b env cell p.1).1,
        if (calibrateCell b env cell p.1).2 = .ok then p.2
        else (calibrateCell b env cell p.1).2)) (s, .ok) = mid at *
    simp only [List.foldl_cons, List.foldl_nil] at hok ⊢
    have hcell : (calibrateCell b env cell mid.1).2 = .ok := by
      by_contra hnot
      rw [if_neg hnot] at hok
      exact hnot hok
    rw [if_pos hcell] at hok
    obtain ⟨hwrites, hat⟩ := ih hok
    rw [calibrateCell_ok hcell]
    constructor
    · rw [calibrationStoreSave_writes, hwrites, List.map_append, List.reverse_append]
      rfl
    · intro hcomplete i hi
      rcases List.mem_append.mp hi with hi | hi
      · exact (hat (fun j hj => hcomplete j (List.mem_append_left _ hj)) i hi).save _
          fun hsame => hsame ▸ rfl
      · obtain rfl : i = cell := List.mem_singleton.mp hi
        obtain ⟨hsave, hlt⟩ := hcomplete i (List.mem_append_right _ hi)
        exact CalStore.At.saved hsave hlt mid.1

end Success

/-! ## Where the frame holds -/

/-- NVS has the cached coefficient of the cell, and the driver uses it. -/
structure CoherentAt (b : CalBuild) (h : CalHead) (i : ℕ) : Prop where
  persisted : h.store.nvs i = some (h.store.cache i)
  inForce : ((b.cellType i).loadCal (some (h.store.cache i)) (h.drivers i)).calCoeff =
    (h.drivers i).calCoeff

/-- Loading again, from the cache or for the first time from NVS, gives the driver what it uses. -/
structure ReloadKeeps (b : CalBuild) (h : CalHead) (i : ℕ) : Prop where
  cached : ((b.cellType i).loadCal (some (h.store.cache i)) (h.drivers i)).calCoeff =
    (h.drivers i).calCoeff
  persisted : h.store.loaded = false → ∀ coeff, h.store.nvs i = some coeff →
    ((b.cellType i).loadCal (some coeff) (h.drivers i)).calCoeff = (h.drivers i).calCoeff

/-- A store after loads: NVS is as it was, and a cache entry is too unless nothing had been loaded
before. -/
structure Reloaded (before s : CalStore) (i : ℕ) : Prop where
  nvs : s.nvs i = before.nvs i
  cache : s.cache i = before.cache i ∨ before.loaded = false ∧ before.nvs i = some (s.cache i)
  loaded : s.loaded = false → before.loaded = false

theorem Reloaded.loadSubtree {before s : CalStore} {i : ℕ} (hs : Reloaded before s i)
    (hl : s.loaded = false) (o : LoadOutcome) : Reloaded before (loadSubtree o s) i := by
  refine ⟨hs.nvs, ?_, hs.loaded⟩
  show (if o.reached i then (s.nvs i).getD (s.cache i) else s.cache i) = _ ∨ _ ∧ _ = some
    (if o.reached i then (s.nvs i).getD (s.cache i) else s.cache i)
  split
  · cases hnvs : s.nvs i with
    | none => exact hs.cache
    | some coeff => exact .inr ⟨hs.loaded hl, hs.nvs.symm.trans hnvs⟩
  · exact hs.cache

theorem Reloaded.loadCoefficients {before s : CalStore} {i : ℕ} (hs : Reloaded before s i)
    (o : FirstLoad) : Reloaded before (calibrationLoadCoefficients o s) i := by
  unfold calibrationLoadCoefficients
  split
  · exact hs
  · next hl =>
    have hload := hs.loadSubtree (Bool.eq_false_iff.mpr hl) o.load
    split
    · dsimp only
      split
      · exact ⟨hload.nvs, hload.cache, fun hf => absurd hf.symm Bool.false_ne_true⟩
      · exact hload
    · exact hs

/-- A request for an absolute calibration that gets as far as the cells. -/
def CalRequest.Reaches (req : CalRequest) : Prop :=
  req.fo2 ≤ calFo2Max ∧ (calComputeTargetPpo2 req.fo2 req.pressureMbar).isSome

/-- What the frame of a method takes: the cells it must keep agree on their coefficient, and an
analog absolute calibration that reaches the cells finds no digital one. -/
structure FrameCondition (b : CalBuild) (req : CalRequest) (h : CalHead) : Prop where
  digital : req.method = methodDigitalReference ∨ req.method = methodAnalogAbsolute →
    ∀ i, i < b.cellCount → b.cellType i ≠ .analog → CoherentAt b h i
  absolute : req.method = methodAnalogAbsolute → req.Reaches →
    ∀ i, i < b.cellCount → b.cellType i = .analog
  checked : req.method = methodCheck → req.fo2 ≤ calFo2Max → b.flushSolenoids = true →
    ∀ i, i < b.cellCount → ReloadKeeps b h i
  rejected : req.method = methodCheck → (calFo2Max < req.fo2 ∨ b.flushSolenoids = false) →
    ∀ i, i < b.cellCount → CoherentAt b h i

section Runs

variable {b : CalBuild} {env : CalEnv} {req : CalRequest} {h : CalHead} {i : ℕ} {coeff : ℚ}

/-- A cell that has the same coefficient in NVS and the cache when the drivers load keeps it, and
its driver is given it. -/
theorem CalStore.At.driversLoadCal (hs : h.store.At i coeff) (loads : ℕ → FirstLoad)
    (hi : i < b.cellCount) : (driversLoadCal b loads b.cells h).store.At i coeff ∧
      (driversLoadCal b loads b.cells h).drivers i =
        (b.cellType i).loadCal (some coeff) (h.drivers i) := by
  have hloads := @driversLoadCal_loads b loads (fun s => s.At i coeff) h
    fun k _ hs => hs.loadCoefficients (loads k)
  obtain ⟨hstore, hdrivers⟩ := hloads hs
  obtain ⟨s, hs, hdriver⟩ := hdrivers i hi
  exact ⟨hstore, by rw [hdriver, (hs.loadCoefficients (loads i)).2]⟩

/-- What a request leaves of a cell whose coefficient the calibration itself did not change. -/
theorem CoherentAt.untouched (hc : CoherentAt b h i) (hi : i < b.cellCount)
    (hkeep : (calValidatingRequest b env req h.store).1.At i (h.store.cache i)) :
    Untouched h (runCalibrationSm b env req h).1 i := by
  have hstore : ∀ s : CalStore, s.At i (h.store.cache i) →
      Untouched h (if env.published then driversLoadCal b env.loads b.cells { h with store := s }
        else { h with store := s }) i := by
    intro s hs
    cases env.published with
    | false => exact ⟨hs.1.trans hc.persisted.symm, rfl⟩
    | true =>
      have hs' : ({ h with store := s } : CalHead).store.At i (h.store.cache i) := hs
      obtain ⟨hat, hdriver⟩ := hs'.driversLoadCal env.loads hi
      exact ⟨hat.1.trans hc.persisted.symm,
        (congrArg CellDriver.calCoeff hdriver).trans hc.inForce⟩
  refine hstore _ ?_
  split
  · exact hkeep
  · exact hkeep.restoring env (calBackingUp_eq h.store hi) b.cells

theorem CoherentAt.at (hc : CoherentAt b h i) : h.store.At i (h.store.cache i) :=
  ⟨hc.persisted, rfl⟩

instance CalRequest.instDecidableReaches (req : CalRequest) : Decidable req.Reaches :=
  inferInstanceAs (Decidable (_ ∧ _))

/-- The absolute methods either go over every cell or reject the request. -/
theorem calValidatingRequest_absolute
    (hm : req.method = methodAnalogAbsolute ∨ req.method = methodTotalAbsolute) (s : CalStore) :
    calValidatingRequest b env req s =
      if req.Reaches then calibrateCells b env b.cells s else (s, .rejected) := by
  have hexec : calExecuting b env req s = calAbsolute b env req s := by
    rcases hm with hm | hm <;> rw [calExecuting, hm] <;> rfl
  rw [calValidatingRequest, hexec, calAbsolute]
  by_cases hfo2 : calFo2Max < req.fo2
  · rw [if_pos hfo2, if_neg fun hr => absurd hr.1 (UInt8.not_le.mpr hfo2)]
  · rw [if_neg hfo2]
    have hle := UInt8.not_lt.mp hfo2
    cases htarget : calComputeTargetPpo2 req.fo2 req.pressureMbar with
    | none =>
      rw [if_neg fun hr => by have := hr.2; rw [htarget] at this; exact absurd this (by decide)]
    | some target => rw [if_pos ⟨hle, by rw [htarget]; rfl⟩]

/-- A cell that is not analog is kept by the digital reference, and by an analog absolute
calibration that does not reach it. -/
theorem calValidatingRequest_digital (hi : i < b.cellCount) (hdigital : b.cellType i ≠ .analog)
    (hm : req.method = methodDigitalReference ∨ req.method = methodAnalogAbsolute)
    (habs : req.method = methodAnalogAbsolute → req.Reaches →
      ∀ i, i < b.cellCount → b.cellType i = .analog) {s : CalStore} (hs : s.At i coeff) :
    (calValidatingRequest b env req s).1.At i coeff := by
  rcases hm with hm | hm
  · rw [calValidatingRequest]
    split
    · exact hs
    have hexec : calExecuting b env req s = calDigitalReference b env s := by
      rw [calExecuting, hm]
      rfl
    rw [hexec, calDigitalReference]
    split
    · exact hs
    dsimp only
    split
    · exact hs
    split
    · exact hs
    · refine hs.calibrateCells b env _ fun hin => hdigital ?_
      exact of_decide_eq_true (List.mem_filter.mp hin).2
  · rw [calValidatingRequest_absolute (.inl hm), if_neg fun hr => hdigital (habs hm hr i hi)]
    exact hs

/-- A check saves nothing, whether or not the build can make it. -/
theorem calValidatingRequest_check (hm : req.method = methodCheck) (s : CalStore) :
    calValidatingRequest b env req s =
      (s, if req.fo2 ≤ calFo2Max ∧ b.flushSolenoids = true then .ok else .rejected) := by
  have hexec : calExecuting b env req s =
      (s, if b.flushSolenoids = true then .ok else .rejected) := by
    rw [calExecuting, hm]
    cases b.flushSolenoids <;> rfl
  rw [calValidatingRequest, hexec]
  by_cases hfo2 : calFo2Max < req.fo2
  · rw [if_pos hfo2, if_neg fun hboth => absurd hboth.1 (UInt8.not_le.mpr hfo2)]
  · simp only [if_neg hfo2, UInt8.not_lt.mp hfo2, true_and]

end Runs

/-! ## Both directions -/

/-- A coefficient in the middle of the envelope. -/
def CellType.typicalCoeff : CellType → ℚ
  | .analog => 0.02
  | .diveO2 => 1000000
  | .o2s => 1

/-- Every cell gives a coefficient in the envelope, and every call into the flash succeeds. -/
def CalEnv.typical (b : CalBuild) : CalEnv :=
  { CalEnv.good with samples := fun i => .value (some (b.cellType i).typicalCoeff) }

theorem CellType.coefficient_typical (t : CellType) :
    t.coefficient (some t.typicalCoeff) = t.typicalCoeff ∧ ¬ t.typicalCoeff < 0 := by
  cases t <;> decide +kernel

theorem calibrateCell_typical (b : CalBuild) {cell : ℕ} (hcell : cell < b.cellCount)
    (s : CalStore) : (calibrateCell b (.typical b) cell s).2 = .ok := by
  obtain ⟨hcoeff, hpos⟩ := (b.cellType cell).coefficient_typical
  have hsaves : ((CalEnv.typical b).saves cell).Complete b.cellCount :=
    ⟨rfl, rfl, rfl, fun _ _ => rfl⟩
  have hcal : calibrateCell b (.typical b) cell s =
      calValidateAndSave ((CalEnv.typical b).saves cell) cell
        ((b.cellType cell).coefficient (some (b.cellType cell).typicalCoeff)) s := rfl
  rw [hcal, hcoeff, (calValidateAndSave_complete hsaves hcell b.fits hpos s).1]

theorem calibrateCells_typical (b : CalBuild) (s : CalStore) :
    (calibrateCells b (.typical b) b.cells s).2 = .ok := by
  have hfold : ∀ (cells : List ℕ) (p : CalStore × CalResult), (∀ i ∈ cells, i < b.cellCount) →
      p.2 = .ok → (cells.foldl (fun p cell =>
        ((calibrateCell b (.typical b) cell p.1).1,
          if (calibrateCell b (.typical b) cell p.1).2 = .ok then p.2
          else (calibrateCell b (.typical b) cell p.1).2)) p).2 = .ok := by
    intro cells
    induction cells with
    | nil => exact fun _ _ hp => hp
    | cons cell cells ih =>
      intro p hlt hp
      refine ih _ (fun i hi => hlt i (List.mem_cons_of_mem _ hi)) ?_
      exact (if_pos (calibrateCell_typical b (hlt cell List.mem_cons_self) p.1)).trans hp
  exact hfold b.cells _ (fun i hi => List.mem_range.mp hi) rfl

section Directions

variable {b : CalBuild} {req : CalRequest} {h : CalHead}

/-- A request that fails although the flash does not writes the cached coefficients back. -/
theorem CoherentAt.of_untouched {i : ℕ} (hi : i < b.cellCount)
    (hfail : (runCalibrationSm b .good req h).2 ≠ .ok)
    (hsame : Untouched h (runCalibrationSm b .good req h).1 i) : CoherentAt b h i := by
  obtain ⟨hstore, hdrivers⟩ := runCalibrationSm_restored hfail (CalEnv.good_restores b)
  have hback := calBackingUp_eq h.store hi
  constructor
  · rw [← hsame.nvs, (hstore i hi).1, hback]
  · rw [← hsame.inForce, hdrivers i hi, hback]
    rfl

/-- A check that is made leaves NVS, and the drivers load. -/
theorem runCalibrationSm_check {env : CalEnv} (hm : req.method = methodCheck)
    (hfo2 : req.fo2 ≤ calFo2Max) (hflush : b.flushSolenoids = true) :
    (runCalibrationSm b env req h).1 =
      if env.published then driversLoadCal b env.loads b.cells h else h := by
  have hvalid : calValidatingRequest b env req h.store = (h.store, .ok) := by
    rw [calValidatingRequest_check hm, if_pos ⟨hfo2, hflush⟩]
  rw [runCalibrationSm, hvalid]
  rfl

theorem ReloadKeeps.untouched {env : CalEnv} (hm : req.method = methodCheck)
    (hfo2 : req.fo2 ≤ calFo2Max) (hflush : b.flushSolenoids = true) {i : ℕ}
    (hi : i < b.cellCount) (hr : ReloadKeeps b h i) :
    Untouched h (runCalibrationSm b env req h).1 i := by
  rw [runCalibrationSm_check hm hfo2 hflush]
  cases env.published with
  | false => exact ⟨rfl, rfl⟩
  | true =>
    have hstart : Reloaded h.store h.store i := ⟨rfl, .inl rfl, id⟩
    obtain ⟨hstore, hdrivers⟩ := driversLoadCal_loads (P := fun s => Reloaded h.store s i)
      (fun k _ hs => hs.loadCoefficients (env.loads k)) hstart
    obtain ⟨s, hs, hdriver⟩ := hdrivers i hi
    refine ⟨hstore.nvs, (congrArg CellDriver.calCoeff hdriver).trans ?_⟩
    rcases (hs.loadCoefficients (env.loads i)).cache with hcache | ⟨hl, hnvs⟩
    · rw [hcache]
      exact hr.cached
    · exact hr.persisted hl _ hnvs

/-- A check whose drivers keep their coefficients whatever the loads do. -/
theorem ReloadKeeps.of_untouched (hm : req.method = methodCheck) (hfo2 : req.fo2 ≤ calFo2Max)
    (hflush : b.flushSolenoids = true) {i : ℕ} (hi : i < b.cellCount)
    (hsame : ∀ env, Untouched h (runCalibrationSm b env req h).1 i) : ReloadKeeps b h i := by
  have hforce : ∀ (env : CalEnv) (P : CalStore → Prop) (coeff : ℚ), env.published = true →
      (∀ k s, P s → P (calibrationLoadCoefficients (env.loads k) s)) → P h.store →
      (∀ s, P s → (calibrationLoadCoefficients (env.loads i) s).cache i = coeff) →
      ((b.cellType i).loadCal (some coeff) (h.drivers i)).calCoeff = (h.drivers i).calCoeff := by
    intro env P coeff hpub hkeep hstart hcache
    have hrun := (hsame env).inForce
    rw [runCalibrationSm_check hm hfo2 hflush, hpub, if_pos rfl] at hrun
    obtain ⟨s, hs, hdriver⟩ := (driversLoadCal_loads hkeep hstart).2 i hi
    rw [hdriver, hcache s hs] at hrun
    exact hrun
  constructor
  · -- no load succeeds
    refine hforce { CalEnv.good with loads := fun _ => ⟨false, .good⟩ } (· = h.store) _ rfl
      ?_ rfl ?_
    · rintro k s rfl
      unfold calibrationLoadCoefficients
      split <;> rfl
    · rintro s rfl
      unfold calibrationLoadCoefficients
      split <;> rfl
  · -- every load succeeds
    intro hl coeff hnvs
    have hload : ∀ s : CalStore, s.nvs i = some coeff ∧ (s.loaded = true → s.cache i = coeff) →
        (calibrationLoadCoefficients (CalEnv.good.loads i) s).cache i = coeff := by
      rintro s ⟨hn, hc⟩
      by_cases hs : s.loaded = true
      · rw [calibrationLoadCoefficients, if_pos hs]
        exact hc hs
      · rw [calibrationLoadCoefficients, if_neg hs]
        have hcache : (loadSubtree .good s).cache i = coeff := loadSubtree_cache rfl hn
        exact hcache
    refine hforce .good (fun s => s.nvs i = some coeff ∧ (s.loaded = true → s.cache i = coeff))
      coeff rfl (fun k s hs => ⟨?_, fun _ => hload s hs⟩)
      ⟨hnvs, fun hf => absurd (hl.symm.trans hf) Bool.false_ne_true⟩ hload
    rw [calibrationLoadCoefficients_nvs]
    exact hs.1

/-- An absolute calibration that succeeds has reached the cells. -/
theorem runCalibrationSm_absolute {env : CalEnv}
    (hm : req.method = methodAnalogAbsolute ∨ req.method = methodTotalAbsolute)
    (hok : (runCalibrationSm b env req h).2 = .ok) :
    req.Reaches ∧ (calibrateCells b env b.cells h.store).2 = .ok ∧
      (runCalibrationSm b env req h).1 =
        if env.published then driversLoadCal b env.loads b.cells
          { h with store := (calibrateCells b env b.cells h.store).1 }
        else { h with store := (calibrateCells b env b.cells h.store).1 } := by
  have hvalid : calValidatingRequest b env req h.store = _ :=
    calValidatingRequest_absolute hm h.store
  have hresult : (calValidatingRequest b env req h.store).2 = .ok := hok
  by_cases hr : req.Reaches
  · rw [if_pos hr] at hvalid
    rw [hvalid] at hresult
    refine ⟨hr, hresult, ?_⟩
    simp only [runCalibrationSm, hvalid, hresult, if_true]
  · rw [hvalid, if_neg hr] at hresult
    exact CalResult.noConfusion hresult

/-- A successful absolute calibration writes every cell once, and with complete saves each cell's
new coefficient is in NVS and given to its driver. -/
theorem absolute_written {env : CalEnv}
    (hm : req.method = methodAnalogAbsolute ∨ req.method = methodTotalAbsolute)
    (hok : (runCalibrationSm b env req h).2 = .ok) :
    (runCalibrationSm b env req h).1.store.writes =
        (b.cells.map fun i => ⟨i, newCoeff b env i⟩).reverse ++ h.store.writes ∧
      (env.published = true → (∀ i, i < b.cellCount → (env.saves i).Complete b.cellCount) →
        ∀ i ∈ b.cells, (runCalibrationSm b env req h).1.store.nvs i = some (newCoeff b env i) ∧
          (runCalibrationSm b env req h).1.drivers i =
            (b.cellType i).loadCal (some (newCoeff b env i)) (h.drivers i)) := by
  obtain ⟨-, hcells, heq⟩ := runCalibrationSm_absolute hm hok
  obtain ⟨hwrites, hat⟩ := calibrateCells_ok b.cells hcells
  rw [heq]
  constructor
  · split
    · exact (driversLoadCal_writes b env.loads b.cells _).trans hwrites
    · exact hwrites
  · intro hpub hcomplete i hi
    have hlt : ∀ j ∈ b.cells, j < b.cellCount := fun j hj => List.mem_range.mp hj
    have hstored : ({ h with store := (calibrateCells b env b.cells h.store).1 } : CalHead).store.At
        i (newCoeff b env i) :=
      hat (fun j hj => ⟨hcomplete j (hlt j hj), hlt j hj⟩) i hi
    obtain ⟨hloaded, hdriver⟩ := hstored.driversLoadCal env.loads (hlt i hi)
    rw [if_pos hpub]
    exact ⟨hloaded.1, hdriver⟩

/-- If an analog absolute calibration writes the analog cells only, there are no others. -/
theorem analog_of_written (hm : req.method = methodAnalogAbsolute) (hr : req.Reaches)
    (hf : MethodFrame b (.typical b) req h) : ∀ i, i < b.cellCount → b.cellType i = .analog := by
  have hok : (runCalibrationSm b (.typical b) req h).2 = .ok := by
    have hvalid : calValidatingRequest b (.typical b) req h.store = _ :=
      calValidatingRequest_absolute (.inl hm) h.store
    rw [if_pos hr] at hvalid
    show (calValidatingRequest b (.typical b) req h.store).2 = .ok
    rw [hvalid]
    exact calibrateCells_typical b h.store
  have hwritten := (hf.written (.inl hm) hok).symm.trans (absolute_written (.inl hm) hok).1
  have hmap := List.reverse_injective (List.append_cancel_right hwritten)
  have hcells := congrArg (List.map CalWrite.cell) hmap
  simp only [List.map_map, Function.comp_def, List.map_id'] at hcells
  intro i hi
  have hmem : i ∈ b.documentedCells req.method := hcells ▸ List.mem_range.mpr hi
  rw [CalBuild.documentedCells, if_pos hm] at hmem
  exact of_decide_eq_true (List.mem_filter.mp hmem).2

theorem FrameCondition.documentedCells (hc : FrameCondition b req h) (hr : req.Reaches) :
    b.documentedCells req.method = b.cells := by
  unfold CalBuild.documentedCells
  split
  · next hm =>
    refine List.filter_eq_self.mpr fun i hi => decide_eq_true ?_
    exact hc.absolute hm hr i (List.mem_range.mp hi)
  · rfl

theorem FrameCondition.methodFrame (hc : FrameCondition b req h) (env : CalEnv) :
    MethodFrame b env req h where
  digital := by
    intro hm i hi hdigital
    have hcell := hc.digital hm i hi hdigital
    exact hcell.untouched hi (calValidatingRequest_digital hi hdigital hm hc.absolute hcell.at)
  check := by
    intro hm i hi
    by_cases hmade : req.fo2 ≤ calFo2Max ∧ b.flushSolenoids = true
    · exact (hc.checked hm hmade.1 hmade.2 i hi).untouched hm hmade.1 hmade.2 hi
    · have hcell : CoherentAt b h i := by
        refine hc.rejected hm ?_ i hi
        rcases not_and_or.mp hmade with hfo2 | hflush
        · exact .inl (UInt8.not_le.mp hfo2)
        · exact .inr (Bool.eq_false_iff.mpr hflush)
      refine hcell.untouched hi ?_
      rw [calValidatingRequest_check hm]
      exact hcell.at
  written := by
    intro hm hok
    rw [hc.documentedCells (runCalibrationSm_absolute hm hok).1]
    exact (absolute_written hm hok).1
  inForce := by
    intro hm hok hpub hcomplete
    rw [hc.documentedCells (runCalibrationSm_absolute hm hok).1]
    exact (absolute_written hm hok).2 hpub hcomplete

/-- Without a reading of the reference cell the digital reference is rejected. -/
theorem calDigitalReference_rejected (hm : req.method = methodDigitalReference) (s : CalStore) :
    calValidatingRequest b .good req s = (s, .rejected) := by
  have hexec : calExecuting b .good req s = calDigitalReference b .good s := by
    rw [calExecuting, hm]
    rfl
  have href : referenceReading b .good = none := ite_self _
  rw [calValidatingRequest, hexec, calDigitalReference, href]
  exact ite_self _

theorem FrameCondition.of_methodFrame (hall : ∀ env, MethodFrame b env req h) :
    FrameCondition b req h where
  digital := by
    intro hm i hi hdigital
    refine .of_untouched hi ?_ ((hall .good).digital hm i hi hdigital)
    show (calValidatingRequest b .good req h.store).2 ≠ .ok
    rcases hm with hm | hm
    · rw [calDigitalReference_rejected hm]
      exact CalResult.noConfusion
    · rw [calValidatingRequest_absolute (.inl hm), if_neg fun hr => hdigital
        (analog_of_written hm hr (hall (.typical b)) i hi)]
      exact CalResult.noConfusion
  absolute := fun hm hr => analog_of_written hm hr (hall (.typical b))
  checked := fun hm hfo2 hflush i hi =>
    .of_untouched hm hfo2 hflush hi fun env => (hall env).check hm i hi
  rejected := by
    intro hm hrej i hi
    refine .of_untouched hi ?_ ((hall .good).check hm i hi)
    show (calValidatingRequest b .good req h.store).2 ≠ .ok
    rw [calValidatingRequest_check hm, if_neg]
    · exact CalResult.noConfusion
    · rintro ⟨hfo2, hflush⟩
      rcases hrej with hlt | hno
      · exact absurd hfo2 (UInt8.not_le.mpr hlt)
      · exact Bool.false_ne_true (hno.symm.trans hflush)

/-- Whatever the cells read and whatever the saves do, a method changes the cells it is for, if and
only if the cells it must keep agree on their coefficient and an analog absolute calibration does
not reach a digital one. -/
theorem methodFrame_iff (b : CalBuild) (req : CalRequest) (h : CalHead) :
    (∀ env, MethodFrame b env req h) ↔ FrameCondition b req h :=
  ⟨.of_methodFrame, fun hc env => hc.methodFrame env⟩

end Directions

/-- One DiveO2 cell. -/
def oneDiveO2 : CalBuild where
  cellCount := 1
  cellType := fun _ => .diveO2
  flushSolenoids := false
  fits := oneAnalog.fits

/-- A boot with the default coefficient in NVS. -/
def defaultBoot : CalHead :=
  bootHead oneDiveO2 (fun _ => ⟨true, .good⟩) fun _ => some 1000000

/-- The cell gives a coefficient above the default. -/
def CalEnv.higher : CalEnv := { CalEnv.good with samples := fun _ => .value (some 1050000) }

/-- An analog absolute calibration in air at one bar. -/
def analogInAir : CalRequest := ⟨1, 21, 1013⟩

/-- The analog absolute calibration gives the digital cell another coefficient. -/
theorem analogInAir_recalibrates :
    ¬ MethodFrame oneDiveO2 .higher analogInAir defaultBoot ∧
      CoherentAt oneDiveO2 defaultBoot 0 ∧
      (runCalibrationSm oneDiveO2 .higher analogInAir defaultBoot).2 = .ok ∧
      ((runCalibrationSm oneDiveO2 .higher analogInAir defaultBoot).1.drivers 0).calCoeff =
        1050000 := by
  have hafter : (runCalibrationSm oneDiveO2 .higher analogInAir defaultBoot).1.store.nvs 0 =
      some 1050000 := by decide +kernel
  have hbefore : defaultBoot.store.nvs 0 = some 1000000 := by decide +kernel
  refine ⟨fun hf => ?_, ⟨by decide +kernel, by decide +kernel⟩, by decide +kernel,
    by decide +kernel⟩
  have hsame := (hf.digital (.inr rfl) 0 Nat.zero_lt_one CellType.noConfusion).nvs
  rw [hafter, hbefore] at hsame
  exact absurd (Option.some.inj hsame) (by norm_num)

end DiveCANHead.Calibration
