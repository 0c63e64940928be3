import DiveCANHead.LogDownload.Machine
import DiveCANHead.Lib.Runs

/-!
# Which range is streamed

`Observed` keeps, next to the two threads, the walks the worker has finished and the
selector that was last answered positively, with the range resolved for it at that
time. A stream begins on that range in every run in which the whole ring is selected
only while no other selector is outstanding (`selection_sound`). Selecting the whole
ring does not withdraw the selector in flight, and its late result replaces the
range (`selection_unsound`).
-/

namespace DiveCANHead.LogDownload

open DiveCANHead.FlashLog DiveCANHead.Lib

/-! ## What a client is promised -/

/-- A walk of the worker that has come to its end. -/
structure Walk where
  request : ResolveRequest
  outcome : Outcome

/-- Both threads with the finished walks, newest first, and the selector that was
last answered positively, with the range resolved for it. -/
structure Observed where
  system : System := {}
  walks : List Walk := []
  selected : Option (ResolveRequest × Option LogRange) := none

/-- The range that the last finished walk for a request has found. -/
def lastWalk (walks : List Walk) (q : ResolveRequest) : Option LogRange :=
  (walks.find? fun x => decide (x.request = q)).bind fun x => x.outcome.toOption

/-- The range resolved for a request: the whole ring of its stream, or what the last
walk for it has found. -/
def resolvedFor (walks : List Walk) (q : ResolveRequest) : Option LogRange :=
  if q.rid = ridSelectAll then
    (FlashLogDest.ofByte (q.param 0)).map fun stream => ⟨stream, resolveAll⟩
  else lastWalk walks q

theorem resolvedFor_all (walks : List Walk) {rid : UInt16} {data : List UInt8}
    {stream : FlashLogDest} (hrid : rid = ridSelectAll)
    (hstream : FlashLogDest.ofByte (data.getD 0 0) = some stream) :
    resolvedFor walks (ResolveRequest.ofData rid data) = some ⟨stream, resolveAll⟩ := by
  have hall : (ResolveRequest.ofData rid data).rid = ridSelectAll := hrid
  rw [resolvedFor, if_pos hall, ResolveRequest.param_ofData, hstream]
  rfl

theorem resolvedFor_walked (walks : List Walk) {q : ResolveRequest} (h : q.rid ≠ ridSelectAll) :
    resolvedFor walks q = lastWalk walks q := if_neg h

namespace Observed

variable (w : Observed)

def sm : LogDownloadSM := w.system.sm

/-- The range resolved for the selector last answered positively. -/
def promised : Option LogRange := w.selected.bind Prod.snd

/-- The selector last answered positively, after this response. -/
def selectedAfter (request : List UInt8) (response : Option Nrc) :
    Option (ResolveRequest × Option LogRange) :=
  if response = none ∧ requestRid request ≠ ridBeginStream then
    let q := ResolveRequest.ofData (requestRid request) (requestData request)
    some (q, resolvedFor w.walks q)
  else w.selected

def walksAfter (views : ℕ → FlashView) : List Walk :=
  match w.system.worker with
  | .walking q => ⟨q, workerResolve q views⟩ :: w.walks
  | .waiting | .woken => w.walks

def step (e : Event) : Option Observed :=
  (w.system.step e).map fun system =>
    match e with
    | .routine env request =>
      { w with
        system := system, selected := w.selectedAfter request (handleRoutine env w.sm request).1 }
    | .publish views => { w with system := system, walks := w.walksAfter views }
    | .transferExit | .poll _ | .wake | .snapshot => { w with system := system }

end Observed

/-- A stream begins on the range resolved for the selector last answered positively,
and no result that the worker publishes after that answer replaces the range. -/
def Sound (w : Observed) (e : Event) (w' : Observed) : Prop :=
  match e with
  | .routine env request =>
    (handleRoutine env w.sm request).1 = none → requestRid request = ridBeginStream →
      some w'.sm.reader = w.promised.map LogReader.open
  | .publish _ => (w.sm.state ≠ .idle → w'.sm.range = w.sm.range) ∧ w'.sm.reader = w.sm.reader
  | .transferExit | .poll _ | .wake | .snapshot => True

instance (w : Observed) (e : Event) (w' : Observed) : Decidable (Sound w e w') := by
  unfold Sound
  cases e <;> infer_instance

/-! ## The condition -/

/-- No selector is outstanding, or its result is a failure. -/
def Settled (sm : LogDownloadSM) : Prop :=
  sm.resolveActive = true → sm.resolveDone = true ∧ sm.resolveRc ≠ none

instance (sm : LogDownloadSM) : Decidable (Settled sm) := inferInstanceAs (Decidable (_ → _))

/-- A request that selects the whole ring of a stream. -/
def SelectsAll (request : List UInt8) : Prop :=
  Starts request ∧ requestRid request = ridSelectAll ∧ 1 ≤ (requestData request).length ∧
    (FlashLogDest.ofByte ((requestData request).getD 0 0)).isSome = true

instance (request : List UInt8) : Decidable (SelectsAll request) :=
  inferInstanceAs (Decidable (_ ∧ _ ∧ _ ∧ _))

def ChoosesAll (e : Event) : Prop :=
  match e with
  | .routine _ request => SelectsAll request
  | .transferExit | .poll _ | .wake | .snapshot | .publish _ => False

instance (e : Event) : Decidable (ChoosesAll e) := by
  unfold ChoosesAll
  cases e <;> infer_instance

/-- The whole ring is selected only while no other selector is outstanding. -/
def Clean (w : Observed) (e : Event) : Prop := ChoosesAll e → Settled w.sm

instance (w : Observed) (e : Event) : Decidable (Clean w e) := inferInstanceAs (Decidable (_ → _))

/-! ## The invariant -/

theorem publish_reader (sm : LogDownloadSM) (q : ResolveRequest) (outcome : Outcome) :
    (publish sm q outcome).reader = sm.reader := by
  unfold publish
  split
  · rfl
  · rfl

/-- The handshake agrees with the history. -/
structure Tracked (sm : LogDownloadSM) (worker : Worker) (walks : List Walk)
    (promised : Option LogRange) : Prop where
  /-- A published result is still to be collected, and no walk is under way. -/
  pending : sm.resolveDone = true → sm.resolveActive = true ∧ ∀ q, worker ≠ .walking q
  /-- A published range was found for the request in flight. -/
  published : sm.resolveDone = true → sm.resolveRc = none →
    lastWalk walks sm.resolveRequest = some sm.range
  settled : sm.state ≠ .idle → Settled sm
  selected : sm.state = .selected → promised = some sm.range

namespace Tracked

variable {sm : LogDownloadSM} {worker worker' : Worker} {walks : List Walk}
  {promised : Option LogRange}

/-- Leaving the selection for the idle state, whatever is promised then. -/
theorem stop (h : Tracked sm worker walks promised) (promised' : Option LogRange) :
    Tracked (stopStreaming .idle sm) worker walks promised' :=
  ⟨h.pending, h.published, fun hne => absurd rfl hne, nofun⟩

theorem leave (h : Tracked sm worker walks promised) :
    Tracked (leaveStream sm) worker walks promised :=
  ⟨h.pending, h.published, fun hne => absurd rfl hne, nofun⟩

/-- The worker moves on without a walk. -/
theorem move (h : Tracked sm worker walks promised)
    (hw : sm.resolveDone = true → ∀ q, worker' ≠ .walking q) :
    Tracked sm worker' walks promised :=
  ⟨fun hd => ⟨(h.pending hd).1, hw hd⟩, h.published, h.settled, h.selected⟩

theorem snapshot (h : Tracked sm worker walks promised) :
    Tracked sm (snapshot sm) walks promised := by
  refine h.move fun hd q => ?_
  unfold LogDownload.snapshot
  rw [if_neg (by simp [hd])]
  nofun

/-- A walk under way has no result yet. -/
theorem not_done {q : ResolveRequest} (h : Tracked sm (.walking q) walks promised) :
    sm.resolveDone = false := by
  by_contra hd
  exact (h.pending (Bool.not_eq_false _ ▸ hd)).2 q rfl

/-- The worker publishes only in the idle state. -/
theorem idle {q : ResolveRequest} (h : Tracked sm (.walking q) walks promised)
    (hactive : sm.resolveActive = true) : sm.state = .idle := by
  by_contra hne
  exact absurd (h.settled hne hactive).1 (by simp [h.not_done])

theorem kept {q : ResolveRequest} (h : Tracked sm (.walking q) walks promised)
    (outcome : Outcome) (hne : sm.state ≠ .idle) :
    (LogDownload.publish sm q outcome).range = sm.range := by
  unfold LogDownload.publish
  rw [if_neg fun hsame => hne (h.idle hsame.1)]

theorem publish {q : ResolveRequest} (h : Tracked sm (.walking q) walks promised)
    (outcome : Outcome) :
    Tracked (publish sm q outcome) .waiting (⟨q, outcome⟩ :: walks) promised := by
  unfold LogDownload.publish
  split
  · next hsame =>
    have hidle : sm.state = .idle := h.idle hsame.1
    refine ⟨fun _ => ⟨hsame.1, nofun⟩, fun _ hrc => ?_, fun hne => absurd hidle hne, ?_⟩
    · rw [hsame.2.2]
      cases outcome with
      | error e => cases hrc
      | ok r => simp [lastWalk, Except.toOption, Outcome.range]
    · intro hstate
      rw [hidle] at hstate
      cases hstate
  · exact ⟨by simp [h.not_done], by simp [h.not_done], h.settled, h.selected⟩

/-- What a selector request leaves, and what it promises when it is answered
positively. -/
theorem selector {rid : UInt16} {data : List UInt8} {res : Handled}
    (h : Tracked sm worker walks promised) (hidle : sm.state = .idle)
    (hclean : rid = ridSelectAll → 1 ≤ data.length →
      (FlashLogDest.ofByte (data.getD 0 0)).isSome = true → Settled sm)
    (hstep : SelectorStep sm rid data res) :
    Tracked res.2 worker walks
      (if res.1 = none then resolvedFor walks (ResolveRequest.ofData rid data) else promised) := by
  cases hstep with
  | refused nrc => exact h
  | kicked hindexed => exact ⟨nofun, nofun, fun hne => absurd hidle hne, h.selected⟩
  | failed nrc => exact ⟨nofun, nofun, fun _ => nofun, h.selected⟩
  | collected hrid hrequest hdone hrc =>
    refine ⟨nofun, nofun, fun _ => nofun, fun _ => ?_⟩
    have hwalked : (ResolveRequest.ofData rid data).rid ≠ ridSelectAll := hrid
    rw [if_pos rfl, resolvedFor_walked walks hwalked, ← hrequest]
    exact h.published hdone hrc
  | all hrid hlen hstream =>
    have hsettled : Settled sm := hclean hrid hlen (by rw [hstream]; rfl)
    refine ⟨h.pending, fun hdone hrc => ?_, fun _ => hsettled, fun _ => ?_⟩
    · exact absurd hrc (hsettled (h.pending hdone).1).2
    · rw [if_pos rfl, resolvedFor_all walks hrid hstream]

end Tracked

/-- The invariant of both threads. -/
def Observed.Inv (w : Observed) : Prop := Tracked w.sm w.system.worker w.walks w.promised

theorem inv_start : ({} : Observed).Inv := ⟨nofun, nofun, fun h => absurd rfl h, nofun⟩

/-- What is promised after a selector's response. -/
theorem selectedAfter_promised (w : Observed) {request : List UInt8} (response : Option Nrc)
    (h : requestRid request ≠ ridBeginStream) :
    (w.selectedAfter request response).bind Prod.snd =
      if response = none then
        resolvedFor w.walks (ResolveRequest.ofData (requestRid request) (requestData request))
      else w.promised := by
  unfold Observed.selectedAfter
  by_cases hr : response = none
  · rw [if_pos ⟨hr, h⟩, if_pos hr]
    rfl
  · rw [if_neg (fun hyes => hr hyes.1), if_neg hr]
    rfl

theorem inv_routine {w w' : Observed} {env : Surroundings} {request : List UInt8} (h : w.Inv)
    (hclean : Clean w (.routine env request)) (hstep : w.step (.routine env request) = some w') :
    w'.Inv ∧ Sound w (.routine env request) w' := by
  cases Option.some.inj hstep
  show Tracked (handleRoutine env w.sm request).2 w.system.worker w.walks
      ((w.selectedAfter request (handleRoutine env w.sm request).1).bind Prod.snd) ∧
    ((handleRoutine env w.sm request).1 = none → requestRid request = ridBeginStream →
      some (handleRoutine env w.sm request).2.reader = w.promised.map LogReader.open)
  rcases handleRoutine_cases env w.sm request with
    ⟨nrc, hr⟩ | ⟨hrid, hstate, hr⟩ | ⟨hrid, hstart, hs⟩
  · rw [hr]
    exact ⟨h, nofun⟩
  · have hkept : w.selectedAfter request none = w.selected := if_neg fun hyes => hyes.2 hrid
    rw [hr, hkept]
    refine ⟨⟨h.pending, h.published, fun _ => h.settled (by simp [hstate]), nofun⟩, fun _ _ => ?_⟩
    rw [h.selected hstate]
    rfl
  · have hsettled : requestRid request = ridSelectAll → 1 ≤ (requestData request).length →
        (FlashLogDest.ofByte ((requestData request).getD 0 0)).isSome = true →
          Settled (stopStreaming .idle w.sm) :=
      fun hall hlen hstream => hclean ⟨hstart, hall, hlen, hstream⟩
    rw [selectedAfter_promised w _ hrid]
    exact ⟨(h.stop w.promised).selector rfl hsettled hs, fun _ hbegin => absurd hbegin hrid⟩

theorem inv_step {w w' : Observed} {e : Event} (h : w.Inv) (hclean : Clean w e)
    (hstep : w.step e = some w') : w'.Inv ∧ Sound w e w' := by
  obtain ⟨y, hy, rfl⟩ := Option.map_eq_some_iff.mp hstep
  cases System.step_of hy with
  | routine env request => exact inv_routine h hclean hstep
  | transferExit => exact ⟨h.leave, trivial⟩
  | stalled idleMs => exact ⟨h.leave, trivial⟩
  | quiet idleMs => exact ⟨h, trivial⟩
  | wake hworker hsem =>
    exact ⟨⟨fun hd => ⟨(h.pending hd).1, nofun⟩, h.published, h.settled, h.selected⟩, trivial⟩
  | snapshot hworker => exact ⟨h.snapshot, trivial⟩
  | @publish q hworker views =>
    have htracked : Tracked w.sm (.walking q) w.walks w.promised := hworker ▸ h
    have hwalks : w.walksAfter views = ⟨q, workerResolve q views⟩ :: w.walks := by
      unfold Observed.walksAfter
      rw [hworker]
    have hnext := htracked.publish (workerResolve q views)
    rw [← hwalks] at hnext
    exact ⟨hnext, htracked.kept _, publish_reader _ _ _⟩

/-- If the whole ring is only selected while no other selector is outstanding, every
stream begins on the range resolved for the selector last answered positively. -/
theorem selection_sound {es : List Event}
    (hclean : Steps Observed.step (fun w e _ => Clean w e) {} es) :
    Steps Observed.step Sound {} es :=
  Steps.of_inv inv_step inv_start hclean

/-! ## A selector that was not withdrawn -/

/-- The request that starts a routine. -/
def startRequest (rid : UInt16) (data : List UInt8) : List UInt8 :=
  [0, 0x31, routineSubfuncStart, (rid >>> 8).toUInt8, rid.toUInt8] ++ data

/-- The marker of a first boot, with its other fields zero. -/
def firstBoot : Entry where
  data := flTypeBootMarker :: List.replicate 51 0
  header := by simp [flEntryHdrSize]

/-- Both logs hold one boot marker. -/
def oneBoot : FlashView where
  fcb _ :=
    { sectors := [[firstBoot]]
      oldest := 0
      active := 0
      oldest_lt := by decide
      active_lt := by decide
      unused := by decide }

/-- The latest boot of the text log is asked for, then all telemetry is selected, and
the worker finishes before the stream begins. -/
def abandonedSelector : List Event :=
  [.routine {} (startRequest ridSelectLatestBoot [1]), .wake, .snapshot,
    .routine {} (startRequest ridSelectAll [0]), .publish fun _ => oneBoot,
    .routine {} (startRequest ridBeginStream [])]

/-- All telemetry is promised, and the latest boot of the text log is streamed. -/
theorem selection_unsound : ¬ Steps Observed.step Sound {} abandonedSelector ∧
    (exec Observed.step {} abandonedSelector).map (fun w => (w.promised, w.sm.reader)) =
      some (some ⟨.telemetry, resolveAll⟩, LogReader.open ⟨.text, sectorRange 0 none⟩) := by
  decide +kernel

/-- The selector is polled to its end, then all telemetry is selected. -/
def collectedSelector : List Event :=
  [.routine {} (startRequest ridSelectLatestBoot [1]), .wake, .snapshot, .publish fun _ => oneBoot,
    .routine {} (startRequest ridSelectLatestBoot [1]), .routine {} (startRequest ridSelectAll [0]),
    .routine {} (startRequest ridBeginStream [])]

theorem selection_sound_collected : Steps Observed.step Sound {} collectedSelector :=
  selection_sound (by decide +kernel)

end DiveCANHead.LogDownload
