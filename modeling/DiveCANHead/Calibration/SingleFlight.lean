import DiveCANHead.Calibration.Guard

/-!
# Single flight of calibrations

The UDS trigger looks at the flag and does not take it, so its calibration runs with the flag
clear. `Undisturbed` says that nothing is decided on meanwhile; exactly then every step is a
`SingleFlight` step.
-/

namespace DiveCANHead.Calibration

open DiveCANHead.Lib

/-- The request the receive thread has let through and not yet handed on. -/
def RxThread.holding : RxThread → List Ticket
  | .publishing t | .releasing t | .clearing t => [t]
  | .idle | .acquiring _ | .checking _ => []

def CalThread.holding : CalThread → List Ticket
  | .waiting => []
  | .suppressing t | .running t | .restoring t | .releasing t | .clearing t => [t]

/-- The requests between the decision to let them through and the end of their calibration. -/
def CalGuard.inFlight (s : CalGuard) : List Ticket := s.cal.holding ++ s.queue ++ s.rx.holding

/-- The request the receive thread may still add to the accepted ones. -/
def RxThread.undecided : RxThread → List Ticket
  | .acquiring t | .checking t | .publishing t => [t]
  | .idle | .releasing _ | .clearing _ => []

def CalThread.unexecuted : CalThread → List Ticket
  | .suppressing t | .running t => [t]
  | .waiting | .restoring _ | .releasing _ | .clearing _ => []

/-- The queued requests and the one being executed. -/
def CalGuard.unexecuted (s : CalGuard) : List Ticket := s.cal.unexecuted ++ s.queue

/-- The request this step lets through or refuses. -/
def CalGuard.deciding (s : CalGuard) : GuardEvent → Option Ticket
  | .rx _ =>
    match s.rx with
    | .acquiring t | .checking t => some t
    | .idle | .publishing _ | .releasing _ | .clearing _ => none
  | .canFrame _ | .udsWrite _ _ _ | .cal => none

/-- The request whose flag this step clears, as the last act of its end. -/
def CalGuard.ending (s : CalGuard) : GuardEvent → Option Ticket
  | .rx _ =>
    match s.rx with
    | .clearing t => some t
    | .idle | .acquiring _ | .checking _ | .publishing _ | .releasing _ => none
  | .cal =>
    match s.cal with
    | .clearing t => some t
    | .waiting | .suppressing _ | .running _ | .restoring _ | .releasing _ => none
  | .canFrame _ | .udsWrite _ _ _ => none

/-- What single flight asks of a step. -/
structure SingleFlight (s : CalGuard) (e : GuardEvent) (t : CalGuard) : Prop where
  one : t.inFlight.length ≤ 1
  once : t.accepted = t.executed ++ t.unexecuted
  distinct : (t.accepted.map Ticket.number).Nodup
  admitted : ∀ u, s.deciding e = some u → s.inFlight = [] → t.rx = .publishing u
  refused : ∀ u, s.deciding e = some u → s.inFlight ≠ [] →
    t.rx = .idle ∧ t.queue = s.queue ∧ t.accepted = s.accepted ∧ t.flag = s.flag
  owned : s.flag = true → t.flag = false →
    ∃ u, s.ending e = some u ∧ s.holder = some u.number

/-- A request is decided on while no UDS request is pending or running, and a UDS request that was
let through is published. -/
structure Undisturbed (s : CalGuard) (e : GuardEvent) : Prop where
  alone : ∀ u, s.deciding e = some u → ∀ v ∈ s.inFlight, v.source ≠ .uds
  published : e = .rx false → ∀ u, s.rx = .publishing u → u.source ≠ .uds

/-- Whether the flag is as the request in flight leaves it. -/
def CalGuard.OwnedBy (s : CalGuard) (u : Ticket) : Prop :=
  match u.source with
  | .canFrame => s.flag = true ∧ s.holder = some u.number
  | .uds => s.flag = false ∧ s.holder = none

structure GuardInv (s : CalGuard) : Prop where
  once : s.accepted = s.executed ++ s.unexecuted
  distinct : ((s.accepted ++ s.rx.undecided).map Ticket.number).Nodup
  numbered : ∀ u ∈ s.accepted ++ s.rx.undecided, u.number < s.arrivals
  flight : (s.inFlight = [] ∧ s.flag = false ∧ s.holder = none) ∨
    ∃ u, s.inFlight = [u] ∧ s.OwnedBy u
  acquiring : ∀ u, s.rx = .acquiring u → u.source = .canFrame
  checking : ∀ u, s.rx = .checking u → u.source = .uds
  unpublished : ∀ u, s.rx = .releasing u ∨ s.rx = .clearing u → u.source = .canFrame
  clearing : ∀ u, s.cal = .clearing u → u.source = .canFrame

theorem guardInv_init : GuardInv .init :=
  ⟨rfl, List.nodup_nil, by simp [CalGuard.init, RxThread.undecided], .inl ⟨rfl, rfl, rfl⟩,
    by simp [CalGuard.init], by simp [CalGuard.init], by simp [CalGuard.init],
    by simp [CalGuard.init]⟩

/-! ## Where the one request in flight is -/

theorem GuardInv.at_rx {s : CalGuard} {u : Ticket} (hi : GuardInv s) (h : s.rx.holding = [u]) :
    s.cal.holding = [] ∧ s.queue = [] ∧ s.OwnedBy u := by
  have hin : s.inFlight = s.cal.holding ++ s.queue ++ [u] := by rw [CalGuard.inFlight, h]
  rcases hi.flight with ⟨hnone, -⟩ | ⟨v, hv, hown⟩
  · rw [hin] at hnone
    simp at hnone
  · have hlast : (s.cal.holding ++ s.queue) ++ [u] = [] ++ [v] := hin ▸ hv
    obtain ⟨hbefore, huv⟩ := List.append_inj' hlast rfl
    obtain ⟨hcal, hqueue⟩ := List.append_eq_nil_iff.mp hbefore
    cases huv
    exact ⟨hcal, hqueue, hown⟩

theorem GuardInv.at_cal {s : CalGuard} {u : Ticket} (hi : GuardInv s) (h : s.cal.holding = [u]) :
    s.queue = [] ∧ s.rx.holding = [] ∧ s.OwnedBy u := by
  have hin : s.inFlight = u :: (s.queue ++ s.rx.holding) := by rw [CalGuard.inFlight, h]; rfl
  rcases hi.flight with ⟨hnone, -⟩ | ⟨v, hv, hown⟩
  · rw [hin] at hnone
    cases hnone
  · rw [hin] at hv
    obtain ⟨rfl, hrest⟩ := List.cons.inj hv
    obtain ⟨hqueue, hrx⟩ := List.append_eq_nil_iff.mp hrest
    exact ⟨hqueue, hrx, hown⟩

theorem GuardInv.at_queue {s : CalGuard} {u : Ticket} {rest : List Ticket} (hi : GuardInv s)
    (hc : s.cal.holding = []) (h : s.queue = u :: rest) :
    rest = [] ∧ s.rx.holding = [] ∧ s.OwnedBy u := by
  have hin : s.inFlight = u :: (rest ++ s.rx.holding) := by rw [CalGuard.inFlight, hc, h]; rfl
  rcases hi.flight with ⟨hnone, -⟩ | ⟨v, hv, hown⟩
  · rw [hin] at hnone
    cases hnone
  · rw [hin] at hv
    obtain ⟨rfl, htail⟩ := List.cons.inj hv
    obtain ⟨hrest, hrx⟩ := List.append_eq_nil_iff.mp htail
    exact ⟨hrest, hrx, hown⟩

/-- A request from the CAL frame has the flag for as long as it is in flight. -/
theorem CalGuard.OwnedBy.canFrame {s : CalGuard} {u : Ticket} (h : s.OwnedBy u)
    (hu : u.source = .canFrame) : s.flag = true ∧ s.holder = some u.number := by
  rw [CalGuard.OwnedBy, hu] at h
  exact h

/-- With the flag clear, nothing is in flight but a UDS request. -/
theorem GuardInv.idle {s : CalGuard} (hi : GuardInv s) (hf : s.flag = false)
    (huds : ∀ v ∈ s.inFlight, v.source ≠ .uds) : s.inFlight = [] ∧ s.holder = none := by
  rcases hi.flight with ⟨hnone, -, hholder⟩ | ⟨v, hv, hown⟩
  · exact ⟨hnone, hholder⟩
  · cases hsrc : v.source with
    | uds => exact absurd hsrc (huds v (by rw [hv]; exact List.mem_singleton_self v))
    | canFrame =>
      have hflag := (hown.canFrame hsrc).1
      rw [hf] at hflag
      cases hflag

/-- With the flag set, something is in flight. -/
theorem GuardInv.busy {s : CalGuard} (hi : GuardInv s) (hf : s.flag = true) : s.inFlight ≠ [] := by
  intro hnone
  rcases hi.flight with ⟨-, hclear, -⟩ | ⟨v, hv, -⟩
  · rw [hf] at hclear
    cases hclear
  · rw [hv] at hnone
    cases hnone

theorem CalGuard.idle_parts {s : CalGuard} (h : s.inFlight = []) :
    s.cal = .waiting ∧ s.queue = [] ∧ s.rx.holding = [] := by
  obtain ⟨hbefore, hrx⟩ := List.append_eq_nil_iff.mp h
  obtain ⟨hcal, hqueue⟩ := List.append_eq_nil_iff.mp hbefore
  refine ⟨?_, hqueue, hrx⟩
  cases hs : s.cal with
  | waiting => rfl
  | suppressing | running | restoring | releasing | clearing => rw [hs] at hcal; cases hcal

/-! ## One step -/

/-- The histories, whatever arrives: only a lost publication is accepted and not executed. -/
theorem GuardInv.history {s t : CalGuard} {e : GuardEvent} (hi : GuardInv s)
    (hu : Undisturbed s e) (h : GuardStep s e t) :
    t.accepted = t.executed ++ t.unexecuted := by
  have honce := hi.once
  simp only [CalGuard.unexecuted] at honce ⊢
  cases h with
  | answered | frame | trigger | refused | acquired | checked | unpublished | givingUp | givenUp
  | rxCleared => exact honce
  | queued => simp only [honce, List.append_assoc]
  | lost _ hpub hsrc => exact absurd hsrc (hu.published rfl _ hpub)
  | taken hc hq => simpa [hc, hq, CalThread.unexecuted] using honce
  | begun hc | ran hc | restored hc | releasing hc | released hc | calCleared hc =>
    simpa [hc, CalThread.unexecuted] using honce

/-- Every number is given out once. -/
theorem GuardInv.numbers {s t : CalGuard} {e : GuardEvent} (hi : GuardInv s)
    (h : GuardStep s e t) :
    ((t.accepted ++ t.rx.undecided).map Ticket.number).Nodup ∧
      ∀ u ∈ t.accepted ++ t.rx.undecided, u.number < t.arrivals := by
  have hd := hi.distinct
  have hn := hi.numbered
  have hold : (s.accepted.map Ticket.number).Nodup ∧ ∀ u ∈ s.accepted, u.number < s.arrivals := by
    rw [List.map_append] at hd
    exact ⟨hd.of_append_left, fun u hu => hn u (List.mem_append_left _ hu)⟩
  have hnew : ∀ u : Ticket, u.number = s.arrivals →
      ((s.accepted ++ [u]).map Ticket.number).Nodup ∧
        ∀ v ∈ s.accepted ++ [u], v.number < s.arrivals + 1 := by
    intro u hu
    constructor
    · rw [List.map_append, List.nodup_append]
      refine ⟨hold.1, List.nodup_singleton _, ?_⟩
      intro n hmem m hm
      obtain ⟨v, hv, rfl⟩ := List.mem_map.mp hmem
      have hlt := hold.2 v hv
      simp only [List.map_cons, List.map_nil, List.mem_singleton] at hm
      omega
    · intro v hv
      rcases List.mem_append.mp hv with hv | hv
      · exact Nat.lt_succ_of_lt (hold.2 v hv)
      · rw [List.mem_singleton.mp hv, hu]
        exact Nat.lt_succ_self _
  cases h with
  | answered | taken | begun | ran | restored | releasing | released | calCleared =>
    exact ⟨hd, hn⟩
  | frame => exact hnew _ rfl
  | trigger => exact hnew _ rfl
  | refused | unpublished | givingUp | givenUp | rxCleared =>
    simpa [RxThread.undecided] using hold
  | acquired hrx | checked hrx | queued _ hrx | lost _ hrx =>
    rw [hrx] at hd hn
    simpa [RxThread.undecided] using And.intro hd hn

/-- What is in flight, and who has the flag. -/
theorem GuardInv.flies {s t : CalGuard} {e : GuardEvent} (hi : GuardInv s)
    (hu : Undisturbed s e) (h : GuardStep s e t) :
    (t.inFlight = [] ∧ t.flag = false ∧ t.holder = none) ∨
      ∃ u, t.inFlight = [u] ∧ t.OwnedBy u := by
  have hfl := hi.flight
  cases h with
  | answered => exact hfl
  | frame hrx | trigger hrx =>
    simpa [CalGuard.inFlight, CalGuard.OwnedBy, hrx, RxThread.holding] using hfl
  | refused _ hrx =>
    rcases hrx with hrx | hrx <;>
      simpa [CalGuard.inFlight, CalGuard.OwnedBy, hrx, RxThread.holding] using hfl
  | @acquired p u hrx hf =>
    have hdec : s.deciding (.rx p) = some u := by simp [CalGuard.deciding, hrx]
    obtain ⟨hcal, hqueue, -⟩ := CalGuard.idle_parts (hi.idle hf (hu.alone u hdec)).1
    refine .inr ⟨u, ?_, ?_⟩
    · simp [CalGuard.inFlight, hcal, hqueue, CalThread.holding, RxThread.holding]
    · simp [CalGuard.OwnedBy, hi.acquiring u hrx]
  | @checked p u hrx hf =>
    have hdec : s.deciding (.rx p) = some u := by simp [CalGuard.deciding, hrx]
    obtain ⟨hnone, hholder⟩ := hi.idle hf (hu.alone u hdec)
    obtain ⟨hcal, hqueue, -⟩ := CalGuard.idle_parts hnone
    refine .inr ⟨u, ?_, ?_⟩
    · simp [CalGuard.inFlight, hcal, hqueue, CalThread.holding, RxThread.holding]
    · simp [CalGuard.OwnedBy, hi.checking u hrx, hf, hholder]
  | @queued replies u hrx =>
    obtain ⟨hcal, hqueue, hown⟩ := hi.at_rx (u := u) (by rw [hrx]; rfl)
    exact .inr ⟨u, by simp [CalGuard.inFlight, hcal, hqueue, RxThread.holding], hown⟩
  | lost _ hrx hsrc => exact absurd hsrc (hu.published rfl _ hrx)
  | unpublished hrx _ | givingUp hrx _ =>
    simpa [CalGuard.inFlight, CalGuard.OwnedBy, hrx, RxThread.holding] using hfl
  | @givenUp p u hrx hf =>
    obtain ⟨-, -, hown⟩ := hi.at_rx (u := u) (by rw [hrx]; rfl)
    have hset := (hown.canFrame (hi.unpublished u (.inl hrx))).1
    rw [hf] at hset
    cases hset
  | @rxCleared p u hrx =>
    obtain ⟨hcal, hqueue, -⟩ := hi.at_rx (u := u) (by rw [hrx]; rfl)
    exact .inl ⟨by simp [CalGuard.inFlight, hcal, hqueue, RxThread.holding], rfl, rfl⟩
  | @taken u queue hc hq =>
    obtain ⟨hrest, hrx, hown⟩ := hi.at_queue (by rw [hc]; rfl) hq
    exact .inr ⟨u, by simp [CalGuard.inFlight, hrest, hrx, CalThread.holding], hown⟩
  | begun hc | ran hc | restored hc | releasing hc _ =>
    simpa [CalGuard.inFlight, CalGuard.OwnedBy, hc, CalThread.holding] using hfl
  | @released u hc hf =>
    obtain ⟨hqueue, hrx, hown⟩ := hi.at_cal (u := u) (by rw [hc]; rfl)
    refine .inl ⟨by simp [CalGuard.inFlight, hqueue, hrx, CalThread.holding], hf, ?_⟩
    cases hsrc : u.source with
    | canFrame =>
      have hset := (hown.canFrame hsrc).1
      rw [hf] at hset
      cases hset
    | uds =>
      rw [CalGuard.OwnedBy, hsrc] at hown
      exact hown.2
  | @calCleared u hc =>
    obtain ⟨hqueue, hrx, -⟩ := hi.at_cal (u := u) (by rw [hc]; rfl)
    exact .inl ⟨by simp [CalGuard.inFlight, hqueue, hrx, CalThread.holding], rfl, rfl⟩

theorem GuardInv.step {s t : CalGuard} {e : GuardEvent} (hi : GuardInv s)
    (hu : Undisturbed s e) (h : GuardStep s e t) : GuardInv t := by
  obtain ⟨hdistinct, hnumbered⟩ := hi.numbers h
  refine ⟨hi.history hu h, hdistinct, hnumbered, hi.flies hu h, ?_, ?_, ?_, ?_⟩
  · cases h with
    | answered | taken | begun | ran | restored | releasing | released | calCleared =>
      exact hi.acquiring
    | frame =>
      rintro u ⟨⟩
      rfl
    | trigger | refused | acquired | checked | queued | lost | unpublished | givingUp | givenUp
    | rxCleared => simp
  · cases h with
    | answered | taken | begun | ran | restored | releasing | released | calCleared =>
      exact hi.checking
    | trigger =>
      rintro u ⟨⟩
      rfl
    | frame | refused | acquired | checked | queued | lost | unpublished | givingUp | givenUp
    | rxCleared => simp
  · cases h with
    | answered | taken | begun | ran | restored | releasing | released | calCleared =>
      exact hi.unpublished
    | @unpublished u hrx hsrc =>
      rintro v (⟨⟨⟩⟩ | ⟨⟨⟩⟩)
      exact hsrc
    | @givingUp p u hrx =>
      rintro v (⟨⟨⟩⟩ | ⟨⟨⟩⟩)
      exact hi.unpublished u (.inl hrx)
    | frame | trigger | refused | acquired | checked | queued | lost | givenUp | rxCleared => simp
  · cases h with
    | answered | frame | trigger | refused | acquired | checked | queued | lost | unpublished
    | givingUp | givenUp | rxCleared => exact hi.clearing
    | taken | begun | ran | restored | released | calCleared => simp
    | @releasing u hc hf =>
      rintro v ⟨⟩
      obtain ⟨-, -, hown⟩ := hi.at_cal (u := u) (by rw [hc]; rfl)
      cases hsrc : u.source with
      | canFrame => rfl
      | uds =>
        rw [CalGuard.OwnedBy, hsrc, hf] at hown
        cases hown.1

/-- While the flag is set a decision is a refusal. -/
theorem GuardStep.refuses {s t : CalGuard} {e : GuardEvent} {u : Ticket} (h : GuardStep s e t)
    (hd : s.deciding e = some u) (hf : s.flag = true) :
    t.rx = .idle ∧ t.queue = s.queue ∧ t.accepted = s.accepted ∧ t.flag = s.flag := by
  cases h with
  | refused => exact ⟨rfl, rfl, rfl, rfl⟩
  | acquired _ hclear | checked _ hclear =>
    rw [hf] at hclear
    cases hclear
  | answered _ _ he => cases e <;> simp_all [CalGuard.deciding]
  | queued _ h | lost _ h | unpublished h | givingUp h | givenUp h | rxCleared h =>
    simp [CalGuard.deciding, h] at hd
  | frame | trigger | taken | begun | ran | restored | releasing | released | calCleared =>
    cases hd

/-- While it is clear a decision lets the request through. -/
theorem GuardStep.admits {s t : CalGuard} {e : GuardEvent} {u : Ticket} (h : GuardStep s e t)
    (hd : s.deciding e = some u) (hf : s.flag = false) : t.rx = .publishing u := by
  cases h with
  | refused _ _ hset =>
    rw [hf] at hset
    cases hset
  | acquired hrx | checked hrx =>
    simp only [CalGuard.deciding, hrx, Option.some.injEq] at hd
    rw [hd]
  | answered _ _ he => cases e <;> simp_all [CalGuard.deciding]
  | queued _ h | lost _ h | unpublished h | givingUp h | givenUp h | rxCleared h =>
    simp [CalGuard.deciding, h] at hd
  | frame | trigger | taken | begun | ran | restored | releasing | released | calCleared =>
    cases hd

/-- The flag is cleared at the end of the request that set it. -/
theorem GuardInv.releases {s t : CalGuard} {e : GuardEvent} (hi : GuardInv s)
    (h : GuardStep s e t) (hset : s.flag = true) (hclear : t.flag = false) :
    ∃ u, s.ending e = some u ∧ s.holder = some u.number := by
  cases h with
  | @rxCleared p u hrx =>
    obtain ⟨-, -, hown⟩ := hi.at_rx (u := u) (by rw [hrx]; rfl)
    have hholder := (hown.canFrame (hi.unpublished u (.inr hrx))).2
    exact ⟨u, by simp [CalGuard.ending, hrx], hholder⟩
  | @calCleared u hc =>
    obtain ⟨-, -, hown⟩ := hi.at_cal (u := u) (by rw [hc]; rfl)
    have hholder := (hown.canFrame (hi.clearing u hc)).2
    exact ⟨u, by simp [CalGuard.ending, hc], hholder⟩
  | acquired => cases hclear
  | answered | frame | trigger | refused | checked | queued | lost | unpublished | givingUp
  | givenUp | taken | begun | ran | restored | releasing | released =>
    rw [show s.flag = false from hclear] at hset
    cases hset

theorem GuardInv.singleFlight {s t : CalGuard} {e : GuardEvent} (hi : GuardInv s)
    (hu : Undisturbed s e) (h : GuardStep s e t) : SingleFlight s e t := by
  have ht := hi.step hu h
  refine ⟨?_, ht.once, ?_, ?_, ?_, hi.releases h⟩
  · rcases ht.flight with ⟨hnone, -⟩ | ⟨u, hone, -⟩
    · rw [hnone]
      exact Nat.zero_le _
    · rw [hone]
      exact Nat.le_refl _
  · have hall := ht.distinct
    rw [List.map_append] at hall
    exact hall.of_append_left
  · intro u hd hnone
    rcases hi.flight with ⟨-, hf, -⟩ | ⟨v, hv, -⟩
    · exact h.admits hd hf
    · rw [hnone] at hv
      cases hv
  · intro u hd hbusy
    cases hf : s.flag with
    | true => simpa [hf] using h.refuses hd hf
    | false => exact absurd (hi.idle hf (hu.alone u hd)).1 hbusy

/-- A request decided on under a UDS request is let through; an accepted UDS request whose
publication fails is never executed. -/
theorem GuardInv.undisturbed {s t : CalGuard} {e : GuardEvent} (hi : GuardInv s)
    (h : GuardStep s e t) (hs : SingleFlight s e t) : Undisturbed s e := by
  refine ⟨?_, ?_⟩
  · intro u hd v hv huds
    have hbusy : s.inFlight ≠ [] := List.ne_nil_of_mem hv
    have hf : s.flag = false := by
      rcases hi.flight with ⟨hnone, -⟩ | ⟨w, hw, hown⟩
      · exact absurd hnone hbusy
      · rw [hw] at hv
        rw [List.mem_singleton.mp hv] at huds
        rw [CalGuard.OwnedBy, huds] at hown
        exact hown.1
    have hidle := (hs.refused u hd hbusy).1
    rw [h.admits hd hf] at hidle
    cases hidle
  · rintro rfl u hrx huds
    have honce := hs.once
    cases h with
    | lost _ hpub =>
      rw [hrx] at hpub
      cases hpub
      have hbefore := congrArg List.length hi.once
      have hafter := congrArg List.length honce
      simp only [CalGuard.unexecuted, List.length_append, List.length_singleton] at hbefore hafter
      omega
    | unpublished hpub hsrc =>
      rw [hrx] at hpub
      cases hpub
      rw [huds] at hsrc
      cases hsrc
    | answered _ hidle _ _ =>
      rw [hrx] at hidle
      cases hidle
    | refused _ h _ => simp [hrx] at h
    | acquired h _ | checked h _ | givingUp h _ | givenUp h _ | rxCleared h => simp [hrx] at h

/-! ## Runs -/

/-- From the start, the runs with single flight are those that no UDS request disturbs. -/
theorem singleFlight_iff {s : CalGuard} (hi : GuardInv s) (es : List GuardEvent) :
    Steps guardStep SingleFlight s es ↔ Steps guardStep (fun s e _ => Undisturbed s e) s es := by
  refine Steps.iff_of_inv ?_ hi
  intro s e t hi h
  have hstep := guardStep_cases h
  exact ⟨⟨hi.undisturbed hstep, fun hu => hi.singleFlight hu hstep⟩, fun hu => hi.step hu hstep⟩

/-- The steps the calibration thread has left. -/
def CalThread.stepsLeft : CalThread → ℕ
  | .waiting => 0
  | .clearing _ => 1
  | .releasing _ => 2
  | .restoring _ => 3
  | .running _ => 4
  | .suppressing _ => 5

def CalGuard.stepsLeft (s : CalGuard) : ℕ := 6 * s.queue.length + s.cal.stepsLeft

theorem undisturbed_cal (s : CalGuard) : Undisturbed s .cal := by
  constructor
  · intro u hd
    cases hd
  · intro he
    cases he

/-- While a request is handed on and not ended, the calibration thread can take a step. -/
theorem GuardInv.calStep_progress {s : CalGuard} (hi : GuardInv s) (hrx : s.rx = .idle)
    (hbusy : s.inFlight ≠ []) :
    ∃ t, calStep s = some t ∧ GuardInv t ∧ t.rx = .idle ∧ t.accepted = s.accepted ∧
      t.stepsLeft < s.stepsLeft := by
  have hmoves : ∃ t, calStep s = some t := by
    cases hc : s.cal with
    | waiting =>
      cases hq : s.queue with
      | nil => exact absurd (by simp [CalGuard.inFlight, hc, hq, hrx]; exact ⟨rfl, rfl⟩) hbusy
      | cons u queue => exact ⟨_, by simp only [calStep, hc, hq]; rfl⟩
    | suppressing | running | restoring | releasing | clearing =>
      exact ⟨_, by simp only [calStep, hc]; rfl⟩
  obtain ⟨t, ht⟩ := hmoves
  have hstep := calStep_cases ht
  refine ⟨t, ht, hi.step (undisturbed_cal s) hstep, ?_⟩
  cases hstep with
  | answered _ _ _ he => exact absurd rfl he
  | taken hc hq =>
    refine ⟨hrx, rfl, ?_⟩
    simp only [CalGuard.stepsLeft, CalThread.stepsLeft, hc, hq, List.length_cons]
    omega
  | begun hc | ran hc | restored hc | releasing hc _ | released hc _ | calCleared hc =>
    exact ⟨hrx, rfl, by simp [CalGuard.stepsLeft, CalThread.stepsLeft, hc]⟩

/-- Left to itself, the calibration thread executes what was accepted and ends it. -/
theorem GuardInv.drains {s : CalGuard} (hi : GuardInv s) (hrx : s.rx = .idle) :
    ∃ k t, exec guardStep s (List.replicate k .cal) = some t ∧ t.inFlight = [] ∧
      t.executed = s.accepted := by
  induction hn : s.stepsLeft using Nat.strongRecOn generalizing s with
  | ind n ih =>
    by_cases hnone : s.inFlight = []
    · obtain ⟨hcal, hqueue, -⟩ := CalGuard.idle_parts hnone
      have honce := hi.once
      simp only [CalGuard.unexecuted, hcal, hqueue, CalThread.unexecuted, List.append_nil] at honce
      exact ⟨0, s, rfl, hnone, honce.symm⟩
    · obtain ⟨u, hu, hiu, hrxu, hacc, hlt⟩ := hi.calStep_progress hrx hnone
      obtain ⟨k, t, ht, hend, hdone⟩ := ih u.stepsLeft (hn ▸ hlt) hiu hrxu rfl
      refine ⟨k + 1, t, ?_, hend, hdone.trans hacc⟩
      rw [List.replicate_succ, exec, show guardStep s .cal = some u from hu]
      exact ht

/-- The runs with single flight are those that no UDS request disturbs; where such a run leaves the
receive thread idle, everything accepted is executed, once. -/
theorem calibration_singleFlight (es : List GuardEvent) :
    (Steps guardStep SingleFlight .init es ↔
      Steps guardStep (fun s e _ => Undisturbed s e) .init es) ∧
    ∀ s, Steps guardStep (fun s e _ => Undisturbed s e) .init es →
      exec guardStep .init es = some s → s.rx = .idle →
        ∃ k t, exec guardStep s (List.replicate k .cal) = some t ∧ t.inFlight = [] ∧
          t.executed = s.accepted := by
  refine ⟨singleFlight_iff guardInv_init es, ?_⟩
  intro s hclean hs hrx
  have hi : GuardInv s :=
    Steps.inv_exec (fun hi hu h => hi.step hu (guardStep_cases h)) guardInv_init hclean hs
  exact hi.drains hrx

/-- The UDS DID asks for a calibration at 21 % and, while it runs, a CAL frame for one at 100 %. -/
def frameUnderTrigger : List GuardEvent :=
  [.udsWrite 1 1013 (.ofBytes [0x00, 0x2E, 0xF2, 0x41, 21]), .rx true, .rx true, .cal, .cal,
    .canFrame ⟨1, 100, 1013⟩, .rx true, .rx true, .cal, .cal, .cal, .cal]

/-- The frame's request is queued behind the other, whose end gives its flag away. -/
theorem frameUnderTrigger_overlaps :
    ¬ Steps guardStep SingleFlight .init frameUnderTrigger ∧
      (exec guardStep .init (frameUnderTrigger.take 8)).map
        (fun s => (s.inFlight.map Ticket.number, s.holder)) = some ([0, 1], some 1) ∧
      (exec guardStep .init frameUnderTrigger).map
        (fun s => (s.inFlight.map Ticket.number, s.flag)) = some ([1], false) := by
  refine ⟨fun h => ?_, by decide +kernel, by decide +kernel⟩
  have hone : Steps guardStep (fun _ _ t => t.inFlight.length ≤ 1) .init frameUnderTrigger :=
    h.mono fun hs => hs.one
  revert hone
  decide +kernel

end DiveCANHead.Calibration
