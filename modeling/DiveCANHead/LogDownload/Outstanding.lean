import DiveCANHead.LogDownload.Selection

/-!
# Selecting the whole ring over an outstanding selector

While the whole ring is selected only with no other selector outstanding, every
stream is the one promised. No less will do: from every state that such runs reach, a
request that breaks this can be followed by a wrong stream (`outstanding_unsound`). An
unfinished walk replaces the range when it is published, and a result that was not
collected yet is collected for the wrong range.
-/

namespace DiveCANHead.LogDownload

open DiveCANHead.FlashLog DiveCANHead.Lib

/-! ## What a walk finds -/

theorem sectorRange_begin (first : ℕ) (endSector : Option ℕ) :
    (sectorRange first endSector).begin.sector ≠ none := nofun

/-- A range that begins in a sector. -/
def Located (o : Option FlashLogRange) : Prop := ∀ r, o = some r → r.begin.sector ≠ none

theorem resolveId_located (f : Fcb) (key stop : FlashLogIndexEntry → Bool)
    (isMarker : Entry → Bool) : Located (resolveId f key stop isMarker) := by
  intro r h
  rw [resolveId_eq] at h
  obtain ⟨first, -, rfl⟩ := Option.map_eq_some_iff.mp h
  exact sectorRange_begin _ _

theorem latestRange_located (best : Option (FlashLogIndexEntry × ℕ)) :
    Located (latestRange best) := by
  intro r h
  obtain ⟨b, -, rfl⟩ := Option.map_eq_some_iff.mp h
  exact sectorRange_begin _ _

theorem resolveOn_begin {v : FlashView} {stream : FlashLogDest} {impl : Fcb → Option FlashLogRange}
    (himpl : ∀ f, Located (impl f)) {r : LogRange} (h : resolveOn v stream impl = .ok r) :
    r.range.begin.sector ≠ none := by
  unfold resolveOn at h
  split at h
  · split at h
    · cases h
    · split at h
      · next hr =>
        cases h
        exact himpl _ _ hr
      · cases h
  · cases h

/-- The range of a resolver begins in a sector. -/
theorem callResolver_begin {v : FlashView} {q : ResolveRequest} {r : LogRange}
    (h : callResolver v q = .ok r) : r.range.begin.sector ≠ none := by
  unfold callResolver at h
  split at h
  · cases h
  split at h
  · exact resolveOn_begin (fun f => latestRange_located _) h
  split at h
  · exact resolveOn_begin (fun f => latestRange_located _) h
  split at h
  · exact resolveOn_begin (fun f => resolveId_located _ _ _ _) h
  split at h
  · exact resolveOn_begin (fun f => resolveId_located _ _ _ _) h
  · cases h

theorem resolveRetrying_begin {q : ResolveRequest} {tries : ℕ} {views : ℕ → FlashView}
    {r : LogRange} (h : resolveRetrying q tries views = .ok r) : r.range.begin.sector ≠ none := by
  induction tries generalizing views with
  | zero => cases h
  | succ tries ih =>
    unfold resolveRetrying at h
    split at h
    · exact ih h
    · exact callResolver_begin h

/-! ## A log where a selector finds something -/

/-- A marker whose payload starts with `id`. -/
def markerEntry (type : UInt8) (id : List UInt8) : Entry where
  data := type :: List.replicate 11 0 ++ id ++ List.replicate 36 0
  header := by simp [flEntryHdrSize]

def bootMarkerOf (q : ResolveRequest) : Entry :=
  markerEntry flTypeBootMarker [q.param 1, q.param 2, q.param 3, q.param 4]

def diveStartOf (q : ResolveRequest) : Entry :=
  markerEntry flTypeDiveStart [q.param 1, q.param 2]

/-- One sector with the boot and the dive that a selector asks for. -/
def markersOf (q : ResolveRequest) : Fcb where
  sectors := [[bootMarkerOf q, diveStartOf q]]
  oldest := 0
  active := 0
  oldest_lt := Nat.zero_lt_one
  active_lt := Nat.zero_lt_one
  unused i hi hout := by
    obtain rfl : i = 0 := Nat.lt_one_iff.mp hi
    exact absurd (show 0 ∈ ringSlots 1 0 0 by decide) hout

def foundRow (q : ResolveRequest) : FlashLogIndexEntry where
  firstBootId := q.bootId
  firstDiveId := q.diveId
  hasBoot := true
  hasDiveStart := true

theorem buildIndex_markersOf (q : ResolveRequest) : buildIndex (markersOf q) = [foundRow q] := by
  have hsectors : (markersOf q).sectors = [[bootMarkerOf q, diveStartOf q]] := rfl
  rw [buildIndex_single hsectors]
  unfold sectorRow foundRow
  have hboot : [bootMarkerOf q, diveStartOf q].filter Entry.isBoot = [bootMarkerOf q] := rfl
  have hdive : [bootMarkerOf q, diveStartOf q].filter Entry.isDive = [diveStartOf q] := rfl
  rw [hboot, hdive, List.map_singleton, List.map_singleton, firstValid_singleton,
    firstValid_singleton]
  rfl

theorem resolveId_markersOf {q : ResolveRequest} {key stop : FlashLogIndexEntry → Bool}
    (isMarker : Entry → Bool) (hkey : key (foundRow q) = true) :
    ∃ r, resolveId (markersOf q) key stop isMarker = some r := by
  have hbegin : beginSector (markersOf q) key isMarker = some 0 := by
    rw [beginSector, buildIndex_markersOf, List.findIdx?_cons, if_pos hkey]
    rfl
  rw [resolveId_eq, hbegin]
  exact ⟨_, rfl⟩

theorem resolveOn_found {impl : Fcb → Option FlashLogRange} {f : Fcb} (stream : FlashLogDest)
    (h : ∃ r, impl f = some r) : ∃ r, resolveOn { fcb := fun _ => f } stream impl = .ok r := by
  obtain ⟨r, hr⟩ := h
  unfold resolveOn
  simp only [if_true, hr]
  exact ⟨_, rfl⟩

/-- Every selector for the worker finds something in that log. -/
theorem callResolver_found {q : ResolveRequest} (h : Indexed q) :
    ∃ r, callResolver { fcb := fun _ => markersOf q } q = .ok r := by
  obtain ⟨stream, hstream⟩ := Option.isSome_iff_exists.mp h.stream
  have hlatest : ∀ {kind newer}, kind (foundRow q) = true →
      ∃ r, latestRange (scanLatest kind newer 0 none (buildIndex (markersOf q))) = some r := by
    intro kind newer hkind
    rw [buildIndex_markersOf]
    unfold scanLatest
    rw [if_pos hkind]
    exact ⟨_, rfl⟩
  have hboot : ∃ r, resolveBootId (markersOf q) q.bootId = some r :=
    resolveId_markersOf _ (beq_self_eq_true _)
  have hdive : ∃ r, resolveDiveId (markersOf q) q.diveId = some r :=
    resolveId_markersOf _ (by simp [diveKey, foundRow])
  unfold callResolver
  simp only [hstream]
  rcases h.rid with hrid | hrid | hrid | hrid
  · rw [hrid, if_neg (by decide), if_neg (by decide), if_pos rfl]
    exact resolveOn_found stream hboot
  · rw [hrid, if_neg (by decide), if_neg (by decide), if_neg (by decide), if_pos rfl]
    exact resolveOn_found stream hdive
  · rw [hrid, if_pos rfl]
    exact resolveOn_found stream (hlatest rfl)
  · rw [hrid, if_neg (by decide), if_pos rfl]
    exact resolveOn_found stream (hlatest rfl)

theorem workerResolve_found {q : ResolveRequest} (h : Indexed q) :
    ∃ views r, workerResolve q views = .ok r ∧ r.range.begin.sector ≠ none := by
  obtain ⟨r, hr⟩ := callResolver_found h
  refine ⟨fun _ => { fcb := fun _ => markersOf q }, r, ?_, callResolver_begin hr⟩
  unfold workerResolve flResolveMaxTries resolveRetrying
  rw [hr]

/-! ## The worker is always on its way -/

/-- A selector in flight is one for the worker, and until it is resolved the worker is
signalled, awake, or resolving it. -/
structure Signalled (sm : LogDownloadSM) (worker : Worker) : Prop where
  indexed : sm.resolveActive = true → Indexed sm.resolveRequest
  signal : sm.resolveActive = true → sm.resolveDone = false →
    sm.resolveSem = true ∨ worker = .woken ∨ worker = .walking sm.resolveRequest

namespace Signalled

variable {sm : LogDownloadSM} {worker : Worker}

theorem selector {rid : UInt16} {data : List UInt8} {res : Handled} (h : Signalled sm worker)
    (hstep : SelectorStep sm rid data res) : Signalled res.2 worker := by
  cases hstep with
  | refused nrc => exact h
  | all hrid hlen hstream => exact ⟨h.indexed, h.signal⟩
  | kicked hindexed => exact ⟨fun _ => hindexed, fun _ _ => .inl rfl⟩
  | failed nrc => exact ⟨nofun, nofun⟩
  | collected hrid hrequest hdone hrc => exact ⟨nofun, nofun⟩

theorem routine (h : Signalled sm worker) (env : Surroundings) (request : List UInt8) :
    Signalled (handleRoutine env sm request).2 worker := by
  rcases handleRoutine_cases env sm request with ⟨nrc, hr⟩ | ⟨-, -, hr⟩ | ⟨-, -, hs⟩
  · rw [hr]
    exact h
  · rw [hr]
    exact ⟨h.indexed, h.signal⟩
  · have hstop : Signalled (stopStreaming .idle sm) worker := ⟨h.indexed, h.signal⟩
    exact hstop.selector hs

theorem leave (h : Signalled sm worker) : Signalled (leaveStream sm) worker :=
  ⟨h.indexed, h.signal⟩

theorem snapshot (h : Signalled sm worker) : Signalled sm (snapshot sm) := by
  refine ⟨h.indexed, fun hactive hdone => .inr (.inr ?_)⟩
  unfold LogDownload.snapshot
  rw [if_pos ⟨hactive, hdone⟩]

/-- A result that is not taken leaves the signal of the selector in flight. -/
theorem publish {q : ResolveRequest} (h : Signalled sm (.walking q)) (outcome : Outcome) :
    Signalled (publish sm q outcome) .waiting := by
  unfold LogDownload.publish
  split
  · exact ⟨h.indexed, nofun⟩
  · next hother =>
    refine ⟨h.indexed, fun hactive hdone => .inl ?_⟩
    rcases h.signal hactive hdone with hsem | hwoken | hwalking
    · exact hsem
    · cases hwoken
    · cases hwalking
      exact absurd ⟨hactive, hdone, rfl⟩ hother

theorem step {y y' : System} {e : Event} (h : Signalled y.sm y.worker)
    (hstep : y.step e = some y') : Signalled y'.sm y'.worker := by
  cases System.step_of hstep with
  | routine env request => exact h.routine env request
  | transferExit => exact h.leave
  | stalled idleMs => exact h.leave
  | quiet idleMs => exact h
  | wake hworker hsem => exact ⟨h.indexed, fun _ _ => .inr (.inl rfl)⟩
  | snapshot hworker => exact h.snapshot
  | publish hworker views =>
    rw [hworker] at h
    exact h.publish _

end Signalled

/-! ## An unfinished walk -/

/-- Things can go wrong without another selection of the whole ring. -/
def GoesWrong (w : Observed) : Prop :=
  ∃ es, (∀ e ∈ es, ¬ ChoosesAll e) ∧ ¬ Steps Observed.step Sound w es

theorem GoesWrong.now {w w' : Observed} {e : Event} (he : ¬ ChoosesAll e)
    (hstep : w.step e = some w') (h : ¬ Sound w e w') : GoesWrong w := by
  refine ⟨[e], fun x hx => List.mem_singleton.mp hx ▸ he, ?_⟩
  rw [steps_cons_some hstep]
  exact fun hsound => h hsound.1

theorem GoesWrong.later {w w' : Observed} {e : Event} (he : ¬ ChoosesAll e)
    (hstep : w.step e = some w') (h : GoesWrong w') : GoesWrong w := by
  obtain ⟨es, hes, hwrong⟩ := h
  refine ⟨e :: es, fun x hx => ?_, not_steps_cons hstep hwrong⟩
  rcases List.mem_cons.mp hx with rfl | hx
  · exact he
  · exact hes x hx

/-- A selection that a walk still under way is about to replace. -/
structure Exposed (w : Observed) : Prop where
  signalled : Signalled w.sm w.system.worker
  chosen : w.sm.state ≠ .idle
  active : w.sm.resolveActive = true
  unfinished : w.sm.resolveDone = false
  whole : w.sm.range.range.begin.sector = none

namespace Exposed

variable {w : Observed}

/-- The walk for the selector in flight ends. -/
theorem walking (h : Exposed w) (hworker : w.system.worker = .walking w.sm.resolveRequest) :
    GoesWrong w := by
  obtain ⟨views, r, hr, hbegin⟩ := workerResolve_found (h.signalled.indexed h.active)
  have hpublish : publish w.sm w.sm.resolveRequest (.ok r) =
      { w.sm with range := r, resolveRc := none, resolveDone := true } := by
    unfold publish
    rw [if_pos ⟨h.active, h.unfinished, rfl⟩]
    rfl
  have hstep : w.step (.publish views) = some
      { w with
        system := ⟨publish w.sm w.sm.resolveRequest (.ok r), .waiting⟩
        walks := w.walksAfter views } := by
    simp only [Observed.step, System.step, hworker, hr]
    rfl
  rw [hpublish] at hstep
  refine GoesWrong.now id hstep ?_
  intro hsound
  refine hbegin ?_
  rw [← h.whole, ← hsound.1 h.chosen]
  rfl

theorem woken (h : Exposed w) (hworker : w.system.worker = .woken) :
    GoesWrong w := by
  have hsnapshot : snapshot w.sm = .walking w.sm.resolveRequest := by
    unfold snapshot
    rw [if_pos ⟨h.active, h.unfinished⟩]
  have hstep : w.step .snapshot =
      some { w with system := { w.system with worker := .walking w.sm.resolveRequest } } := by
    simp only [Observed.step, System.step, hworker]
    rw [← hsnapshot]
    rfl
  have hnext : Exposed { w with
      system := { w.system with worker := .walking w.sm.resolveRequest } } :=
    ⟨hsnapshot ▸ h.signalled.snapshot, h.chosen, h.active, h.unfinished, h.whole⟩
  exact (hnext.walking rfl).later id hstep

theorem waiting (h : Exposed w) (hworker : w.system.worker = .waiting) :
    GoesWrong w := by
  have hsem : w.sm.resolveSem = true := by
    rcases h.signalled.signal h.active h.unfinished with hsem | hwoken | hwalking
    · exact hsem
    · rw [hworker] at hwoken
      cases hwoken
    · rw [hworker] at hwalking
      cases hwalking
  have hstep : w.step .wake =
      some { w with system := ⟨{ w.sm with resolveSem := false }, .woken⟩ } := by
    have hwake : w.system.worker = .waiting ∧ w.system.sm.resolveSem = true := ⟨hworker, hsem⟩
    simp only [Observed.step, System.step, if_pos hwake]
    rfl
  have hnext : Exposed { w with system := ⟨{ w.sm with resolveSem := false }, .woken⟩ } :=
    ⟨⟨h.signalled.indexed, fun _ _ => .inr (.inl rfl)⟩, h.chosen, h.active, h.unfinished, h.whole⟩
  exact (hnext.woken rfl).later id hstep

/-- The walk for another selector ends, and its result is not taken. -/
theorem walking_other (h : Exposed w) {q : ResolveRequest} (hworker : w.system.worker = .walking q)
    (hq : q ≠ w.sm.resolveRequest) : GoesWrong w := by
  have hkept : ∀ outcome, publish w.sm q outcome = w.sm := by
    intro outcome
    unfold publish
    rw [if_neg fun hsame => hq hsame.2.2.symm]
  let views : ℕ → FlashView := fun _ => { fcb := fun _ => markersOf q }
  have hstep : w.step (.publish views) =
      some { w with system := ⟨w.sm, .waiting⟩, walks := w.walksAfter views } := by
    simp only [Observed.step, System.step, hworker]
    rw [← hkept (workerResolve q views)]
    rfl
  have hsignalled : Signalled w.sm (.walking q) := hworker ▸ h.signalled
  have hwaiting := hsignalled.publish (.error .noent)
  rw [hkept] at hwaiting
  have hnext : Exposed { w with system := ⟨w.sm, .waiting⟩, walks := w.walksAfter views } :=
    ⟨hwaiting, h.chosen, h.active, h.unfinished, h.whole⟩
  exact (hnext.waiting rfl).later id hstep

/-- The worker finishes what it is at, and then the selector in flight. -/
theorem unsound (h : Exposed w) : GoesWrong w := by
  cases hworker : w.system.worker with
  | waiting => exact h.waiting hworker
  | woken => exact h.woken hworker
  | walking q =>
    by_cases hq : q = w.sm.resolveRequest
    · rw [hq] at hworker
      exact h.walking hworker
    · exact h.walking_other hworker hq

end Exposed

/-! ## A result that was not collected -/

theorem requestRid_indexed {q : ResolveRequest} (h : Indexed q) (data : List UInt8) :
    requestRid (startRequest q.rid data) = q.rid := by
  show ((q.rid >>> 8).toUInt8.toUInt16 <<< 8) ||| q.rid.toUInt8.toUInt16 = q.rid
  rcases h.rid with hrid | hrid | hrid | hrid
  all_goals
    rw [hrid]
    decide

theorem resolveSelector_indexed {env : Surroundings} (henv : env.bootMarkerFlushed = true)
    (sm : LogDownloadSM) {q : ResolveRequest} (h : Indexed q) :
    resolveSelector env sm q.rid q.params = asyncSelector sm q.rid q.params := by
  obtain ⟨stream, hstream⟩ := Option.isSome_iff_exists.mp h.stream
  have hbyte : FlashLogDest.ofByte (q.params.getD 0 0) = some stream := hstream
  have hlen := h.length
  unfold resolveSelector
  simp only [hbyte, henv, Bool.true_eq_false, if_false]
  rcases h.rid with hrid | hrid | hrid | hrid
  · rw [hrid] at hlen ⊢
    have hmin : ¬ q.params.length < logSelectBootMinLen := not_lt.mpr hlen
    have hpos : ¬ q.params.length < 1 := fun hlt => hmin (hlt.trans (by decide))
    rw [if_neg hpos, if_neg (by decide), if_pos rfl, if_neg hmin]
  · rw [hrid] at hlen ⊢
    have hmin : ¬ q.params.length < logSelectDiveMinLen := not_lt.mpr hlen
    have hpos : ¬ q.params.length < 1 := fun hlt => hmin (hlt.trans (by decide))
    rw [if_neg hpos, if_neg (by decide), if_neg (by decide), if_pos rfl, if_neg hmin]
  · rw [hrid] at hlen ⊢
    have hpos : ¬ q.params.length < 1 := not_lt.mpr hlen
    rw [if_neg hpos, if_neg (by decide), if_neg (by decide), if_neg (by decide), if_pos (by decide)]
  · rw [hrid] at hlen ⊢
    have hpos : ¬ q.params.length < 1 := not_lt.mpr hlen
    rw [if_neg hpos, if_neg (by decide), if_neg (by decide), if_neg (by decide), if_pos (by decide)]

/-- A selector for the worker goes to the handshake. -/
theorem handleRoutine_indexed {env : Surroundings} (henv : env.bootMarkerFlushed = true)
    (sm : LogDownloadSM) {q : ResolveRequest} (h : Indexed q) :
    handleRoutine env sm (startRequest q.rid q.params) =
      asyncSelector (stopStreaming .idle sm) q.rid q.params := by
  have hselects : q.rid ≠ ridBeginStream ∧ ridSelectByRange ≤ q.rid ∧ q.rid ≤ ridSelectAll := by
    rcases h.rid with hrid | hrid | hrid | hrid
    all_goals
      rw [hrid]
      decide
  have hlen : ¬ (startRequest q.rid q.params).length < routineControlMinReqLen := by
    simp [startRequest, routineControlMinReqLen]
  rw [← resolveSelector_indexed henv _ h]
  unfold handleRoutine startRoutine
  rw [if_neg hlen, requestRid_indexed h, if_neg hselects.1, if_pos hselects.2]
  rfl

/-- The last poll of a selector. -/
theorem asyncSelector_collect {sm : LogDownloadSM} (hactive : sm.resolveActive = true)
    (hdone : sm.resolveDone = true) (hrc : sm.resolveRc = none) :
    asyncSelector sm sm.resolveRequest.rid sm.resolveRequest.params = (none,
      { sm with
        resolveActive := false, resolveDone := false, state := .selected, headerSent := false,
        nextSeq := 1 }) := by
  unfold asyncSelector
  rw [ResolveRequest.ofData_params]
  simp only [hactive, hdone, hrc, and_self, if_true, finishSelector]

theorem handleRoutine_begin {sm : LogDownloadSM} (hstate : sm.state = .selected) :
    handleRoutine {} sm (startRequest ridBeginStream []) = (none,
      { sm with state := .streaming, reader := LogReader.open sm.range, headerSent := false }) := by
  show beginStream {} sm = _
  unfold beginStream
  rw [hstate]
  rfl

/-- The selector whose result was not collected is polled again, and the stream begins. -/
theorem uncollected_unsound {w : Observed} (hindexed : Indexed w.sm.resolveRequest)
    (hactive : w.sm.resolveActive = true) (hdone : w.sm.resolveDone = true)
    (hrc : w.sm.resolveRc = none) (hwhole : w.sm.range.range.begin.sector = none) {r : LogRange}
    (hwalk : lastWalk w.walks w.sm.resolveRequest = some r) (hr : r.range.begin.sector ≠ none) :
    GoesWrong w := by
  have hrid := requestRid_indexed hindexed w.sm.resolveRequest.params
  have hnot : w.sm.resolveRequest.rid ≠ ridBeginStream ∧
      w.sm.resolveRequest.rid ≠ ridSelectAll := by
    rcases hindexed.rid with h | h | h | h
    all_goals
      rw [h]
      decide
  set poll := startRequest w.sm.resolveRequest.rid w.sm.resolveRequest.params with hpoll
  set sm : LogDownloadSM :=
    { stopStreaming .idle w.sm with
      resolveActive := false, resolveDone := false, state := .selected, headerSent := false,
      nextSeq := 1 } with hsm
  have hhandled : handleRoutine {} w.sm poll = (none, sm) :=
    (handleRoutine_indexed rfl w.sm hindexed).trans (asyncSelector_collect hactive hdone hrc)
  have hselected : (w.selectedAfter poll none).bind Prod.snd = some r := by
    rw [selectedAfter_promised w none (hrid ▸ hnot.1), if_pos rfl, hrid]
    show resolvedFor w.walks
      (ResolveRequest.ofData w.sm.resolveRequest.rid w.sm.resolveRequest.params) = _
    rw [ResolveRequest.ofData_params, resolvedFor_walked w.walks hnot.2, hwalk]
  have hstep : w.step (.routine {} poll) = some
      { w with
        system := { w.system with sm := (handleRoutine {} w.sm poll).2 }
        selected := w.selectedAfter poll (handleRoutine {} w.sm poll).1 } := rfl
  rw [hhandled] at hstep
  have hbegin : handleRoutine {} sm (startRequest ridBeginStream []) = (none,
      { sm with state := .streaming, reader := LogReader.open w.sm.range, headerSent := false }) :=
    handleRoutine_begin rfl
  have hpolls : ¬ ChoosesAll (.routine {} poll) := fun hall => hnot.2 (hrid ▸ hall.2.1)
  have hbegins : ¬ ChoosesAll (.routine {} (startRequest ridBeginStream [])) := by decide
  refine GoesWrong.later hpolls hstep (GoesWrong.now hbegins (Option.map_some ..) ?_)
  intro hsound
  have hreader : some (handleRoutine {} sm (startRequest ridBeginStream [])).2.reader =
      ((w.selectedAfter poll none).bind Prod.snd).map LogReader.open :=
    hsound (congrArg Prod.fst hbegin) (by decide)
  rw [hbegin, hselected] at hreader
  have hrange : w.sm.range.range = r.range :=
    congrArg (fun x : LogReader => x.cursor.range) (Option.some.inj hreader)
  exact hr (hrange ▸ hwhole)

/-! ## The condition cannot be less -/

/-- What holds in every state that a run of clean steps reaches. -/
structure Reached (w : Observed) : Prop where
  inv : w.Inv
  signalled : Signalled w.sm w.system.worker
  located : ∀ x ∈ w.walks, ∀ r, x.outcome = .ok r → r.range.begin.sector ≠ none

theorem reached_start : Reached {} := ⟨inv_start, ⟨nofun, nofun⟩, nofun⟩

theorem reached_step {w w' : Observed} {e : Event} (h : Reached w) (hclean : Clean w e)
    (hstep : w.step e = some w') : Reached w' := by
  have hinv := (inv_step h.inv hclean hstep).1
  obtain ⟨y, hy, rfl⟩ := Option.map_eq_some_iff.mp hstep
  have hsignalled := h.signalled.step hy
  cases System.step_of hy with
  | routine env request => exact ⟨hinv, hsignalled, h.located⟩
  | transferExit => exact ⟨hinv, hsignalled, h.located⟩
  | stalled idleMs => exact ⟨hinv, hsignalled, h.located⟩
  | quiet idleMs => exact ⟨hinv, hsignalled, h.located⟩
  | wake hworker hsem => exact ⟨hinv, hsignalled, h.located⟩
  | snapshot hworker => exact ⟨hinv, hsignalled, h.located⟩
  | @publish q hworker views =>
    refine ⟨hinv, hsignalled, ?_⟩
    have hwalks : w.walksAfter views = ⟨q, workerResolve q views⟩ :: w.walks := by
      unfold Observed.walksAfter
      rw [hworker]
    show ∀ x ∈ w.walksAfter views, _
    rw [hwalks]
    intro x hx r hr
    rcases List.mem_cons.mp hx with rfl | hx
    · exact resolveRetrying_begin hr
    · exact h.located x hx r hr

theorem Reached.lastWalk_begin {w : Observed} (h : Reached w) {q : ResolveRequest} {r : LogRange}
    (hr : lastWalk w.walks q = some r) : r.range.begin.sector ≠ none := by
  obtain ⟨x, hx, hok⟩ := Option.bind_eq_some_iff.mp hr
  refine h.located x (List.mem_of_find?_eq_some hx) r ?_
  cases hout : x.outcome with
  | error e =>
    rw [hout] at hok
    cases hok
  | ok r' =>
    rw [hout] at hok
    cases hok
    rfl

theorem handleRoutine_all (env : Surroundings) (sm : LogDownloadSM) {request : List UInt8}
    (h : SelectsAll request) : ∃ stream, handleRoutine env sm request = (none,
      { stopStreaming .idle sm with
        range := ⟨stream, resolveAll⟩, state := .selected, headerSent := false,
        nextSeq := 1 }) := by
  obtain ⟨hstart, hrid, hlen, hsome⟩ := h
  obtain ⟨stream, hstream⟩ := Option.isSome_iff_exists.mp hsome
  refine ⟨stream, ?_⟩
  unfold handleRoutine startRoutine resolveSelector
  rw [if_neg (not_lt.mpr hstart.1), if_neg (not_not.mpr hstart.2), hrid, if_neg (by decide),
    if_pos (by decide), if_neg (not_lt.mpr hlen), hstream]
  rfl

/-- Wherever a run of clean steps leads, selecting the whole ring over an outstanding
selector can end in a wrong stream. -/
theorem outstanding_unsound {w : Observed} {before : List Event}
    (hclean : Steps Observed.step (fun w e _ => Clean w e) {} before)
    (hreach : exec Observed.step {} before = some w) (env : Surroundings) {request : List UInt8}
    (hall : SelectsAll request) (houtstanding : ¬ Settled w.sm) :
    ∃ w', w.step (.routine env request) = some w' ∧ GoesWrong w' := by
  have hreached : Reached w := Steps.inv_exec reached_step reached_start hclean hreach
  obtain ⟨hactive, hpending⟩ := Classical.not_imp.mp houtstanding
  obtain ⟨stream, hhandled⟩ := handleRoutine_all env w.sm hall
  set sm : LogDownloadSM :=
    { stopStreaming .idle w.sm with
      range := ⟨stream, resolveAll⟩, state := .selected, headerSent := false, nextSeq := 1 }
  set next : Observed :=
    { w with system := { w.system with sm := sm }, selected := w.selectedAfter request none }
  have hstep : w.step (.routine env request) = some next := by
    show some { w with
      system := { w.system with sm := (handleRoutine env w.sm request).2 }
      selected := w.selectedAfter request (handleRoutine env w.sm request).1 } = _
    rw [hhandled]
  have hsignalled : Signalled next.sm next.system.worker :=
    ⟨hreached.signalled.indexed, hreached.signalled.signal⟩
  refine ⟨next, hstep, ?_⟩
  cases hdone : w.sm.resolveDone with
  | false => exact Exposed.unsound ⟨hsignalled, nofun, hactive, hdone, rfl⟩
  | true =>
    have hrc : w.sm.resolveRc = none := by
      by_contra hne
      exact hpending ⟨hdone, hne⟩
    have hwalk := hreached.inv.published hdone hrc
    exact uncollected_unsound (hsignalled.indexed hactive) hactive hdone hrc rfl hwalk
      (hreached.lastWalk_begin hwalk)

end DiveCANHead.LogDownload
