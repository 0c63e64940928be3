import DiveCANHead.Watchdog.Heartbeat

/-!
# When the watchdog is fed

The flag of the long operations is shared: the end of one clears it for all. As long as no two
of them overlap, and no slot is kicked before it is registered, a check feeds only if every
registered slot was kicked since the previous one or an operation is in progress, and always if
one is.
-/

namespace DiveCANHead.Watchdog

open DiveCANHead.Lib

/-- A step keeps the flag set for the operations in progress. The end of a check after the first
feeds only if all slots that it found registered were kicked since the previous check began, or
an operation was in progress when it read the flag, and it feeds in that case. -/
structure FeedSound (s : Heartbeats) (e : HeartbeatEvent) (t : Heartbeats) : Prop where
  protects : t.inProgress ≠ [] → t.longOp = true
  fed : ∀ c, e = .conclude → s.feeder = .scanning c → s.checks ≠ 0 → t.feeds ≠ s.feeds →
    c.opRunning = true ∨ ∀ i < heartbeatCount, c.mask i = true → s.kickedBefore i = true
  feeds : ∀ c, e = .conclude → s.feeder = .scanning c → c.opRunning = true →
    t.feeds = s.feeds + 1

/-- An operation ends when no other is in progress, and a slot is new when it is registered. -/
def Orderly (s : Heartbeats) : HeartbeatEvent → Prop
  | .endOp op => s.inProgress.erase op = []
  | .register id => s.registeredMask id = false → s.counters id = 0
  | .kick _ | .beginOp _ | .readMask | .readFlag | .readSlot | .conclude => True

instance decidableOrderly (s : Heartbeats) : ∀ e, Decidable (Orderly s e)
  | .endOp op => inferInstanceAs (Decidable (s.inProgress.erase op = []))
  | .register _ => inferInstanceAs (Decidable (_ → _))
  | .kick _ | .beginOp _ | .readMask | .readFlag | .readSlot | .conclude => isTrue trivial

/-! ## Counters and snapshots -/

/-- The registered ones of these slots that were not kicked have the counter of their snapshot. -/
def Matches (s : Heartbeats) (kicked : ℕ → Bool) (slots : ℕ → Prop) : Prop :=
  ∀ i, slots i → s.registeredMask i = true → kicked i = false → s.counters i = s.last i

/-- What holds of the slots while a check goes over them: those ahead of it were last read by the
previous check, those behind it, and those registered since it began, by this one. -/
structure Scanning (s : Heartbeats) (mask : ℕ → Bool) (next : ℕ) : Prop where
  registered : ∀ i, mask i = true → s.registeredMask i = true
  ahead : Matches s s.kickedBefore fun i => next ≤ i
  behind : Matches s s.kicked fun i => i < next ∨ mask i = false

/-- The verdict so far. -/
structure Verdict (s : Heartbeats) (c : Scan) : Prop where
  next_le : c.next ≤ heartbeatCount
  flag : c.longOp = c.opRunning
  suppressed : c.longOp = true → c.alive = true
  alive : c.alive = true →
    c.longOp = true ∨ ∀ i < c.next, c.mask i = true → s.kickedBefore i = true

/-- The invariant where the feeder is. -/
def FeederPc.Holds (s : Heartbeats) : FeederPc → Prop
  | .asleep => Matches s s.kicked fun _ => True
  | .masked mask => Scanning s mask 0
  | .scanning c => Scanning s c.mask c.next ∧ Verdict s c

structure HeartbeatInv (s : Heartbeats) : Prop where
  flag : s.longOp = !s.inProgress.isEmpty
  slots : ∀ i, s.registeredMask i = true → i < heartbeatCount
  unread : ∀ i, s.registeredMask i = false → s.last i = 0
  feeder : s.feeder.Holds s

variable {s t : Heartbeats}

theorem Matches.kick {kicked : ℕ → Bool} {slots : ℕ → Prop} (h : Matches s kicked slots) (id : ℕ) :
    ∀ i, slots i → s.registeredMask i = true → Function.update kicked id true i = false →
      Function.update s.counters id (s.counters id + 1) i = s.last i := by
  intro i hi hregistered hkicked
  by_cases hid : i = id
  · subst hid
    rw [Function.update_self] at hkicked
    cases hkicked
  · rw [Function.update_of_ne hid] at hkicked ⊢
    exact h i hi hregistered hkicked

/-- A new slot has no kicks and no snapshot. -/
theorem Matches.register {kicked : ℕ → Bool} {slots : ℕ → Prop} (h : Matches s kicked slots)
    (hunread : ∀ i, s.registeredMask i = false → s.last i = 0) {id : ℕ}
    (hnew : s.registeredMask id = false → s.counters id = 0) :
    ∀ i, slots i → Function.update s.registeredMask id true i = true → kicked i = false →
      s.counters i = s.last i := by
  intro i hi hregistered hkicked
  by_cases hid : i = id
  · subst hid
    cases hbefore : s.registeredMask i with
    | true => exact h i hi hbefore hkicked
    | false => rw [hnew hbefore, hunread i hbefore]
  · rw [Function.update_of_ne hid] at hregistered
    exact h i hi hregistered hkicked

/-! ## The other threads -/

/-- Steps of other threads that leave the mask of the check alone keep what it has seen. -/
theorem Verdict.mono {c : Scan} (h : Verdict s c)
    (hkicked : ∀ i, s.kickedBefore i = true → t.kickedBefore i = true) : Verdict t c where
  next_le := h.next_le
  flag := h.flag
  suppressed := h.suppressed
  alive := fun ha => (h.alive ha).imp_right fun hall i hi hmask => hkicked i (hall i hi hmask)

theorem HeartbeatInv.kick (h : HeartbeatInv s) (id : ℕ) : HeartbeatInv (s.kick id) := by
  unfold Heartbeats.kick
  split
  · refine { h with feeder := ?_ }
    have hfeeder := h.feeder
    have hmore : ∀ i, s.kickedBefore i = true →
        Function.update s.kickedBefore id true i = true := by
      intro i hi
      by_cases hid : i = id
      · rw [hid, Function.update_self]
      · rwa [Function.update_of_ne hid]
    cases hpc : s.feeder with
    | asleep =>
      rw [hpc] at hfeeder
      exact hfeeder.kick id
    | masked mask =>
      rw [hpc] at hfeeder
      exact ⟨hfeeder.registered, hfeeder.ahead.kick id, hfeeder.behind.kick id⟩
    | scanning c =>
      rw [hpc] at hfeeder
      obtain ⟨hscan, hverdict⟩ := hfeeder
      exact ⟨⟨hscan.registered, hscan.ahead.kick id, hscan.behind.kick id⟩,
        hverdict.mono hmore⟩
  · exact h

theorem HeartbeatInv.register (h : HeartbeatInv s) {id : ℕ}
    (hnew : s.registeredMask id = false → s.counters id = 0) :
    HeartbeatInv (s.register id) := by
  unfold Heartbeats.register
  split
  · next hid =>
    have hmask : ∀ i, s.registeredMask i = true →
        Function.update s.registeredMask id true i = true := by
      intro i hi
      by_cases hi' : i = id
      · rw [hi', Function.update_self]
      · rwa [Function.update_of_ne hi']
    refine ⟨h.flag, fun i hi => ?_, fun i hi => ?_, ?_⟩
    · by_cases hi' : i = id
      · rwa [hi']
      · have hold : Function.update s.registeredMask id true i = true := hi
        rw [Function.update_of_ne hi'] at hold
        exact h.slots i hold
    · refine h.unread i (Bool.eq_false_iff.mpr fun hold => ?_)
      exact Bool.false_ne_true (hi.symm.trans (hmask i hold))
    · have hfeeder := h.feeder
      cases hpc : s.feeder with
      | asleep =>
        rw [hpc] at hfeeder
        exact hfeeder.register h.unread hnew
      | masked mask =>
        rw [hpc] at hfeeder
        exact ⟨fun i hi => hmask i (hfeeder.registered i hi),
          hfeeder.ahead.register h.unread hnew, hfeeder.behind.register h.unread hnew⟩
      | scanning c =>
        rw [hpc] at hfeeder
        obtain ⟨hscan, hverdict⟩ := hfeeder
        exact ⟨⟨fun i hi => hmask i (hscan.registered i hi),
          hscan.ahead.register h.unread hnew, hscan.behind.register h.unread hnew⟩,
          hverdict.mono fun _ hi => hi⟩
  · exact h

/-- An operation begins or ends; the check has read the flag or has not. -/
theorem HeartbeatInv.setLongOp (h : HeartbeatInv s) {longOp : Bool} {inProgress : List LongOp}
    (hflag : longOp = !inProgress.isEmpty) :
    HeartbeatInv { s with longOp := longOp, inProgress := inProgress } := by
  refine { h with flag := hflag, feeder := ?_ }
  have hfeeder := h.feeder
  cases hpc : s.feeder with
  | asleep =>
    rw [hpc] at hfeeder
    exact hfeeder
  | masked mask =>
    rw [hpc] at hfeeder
    exact ⟨hfeeder.registered, hfeeder.ahead, hfeeder.behind⟩
  | scanning c =>
    rw [hpc] at hfeeder
    obtain ⟨hscan, hverdict⟩ := hfeeder
    exact ⟨⟨hscan.registered, hscan.ahead, hscan.behind⟩, hverdict.mono fun _ hi => hi⟩

/-! ## The feeder -/

theorem HeartbeatInv.readMask (h : HeartbeatInv s) (hstep : s.readMask = some t) :
    HeartbeatInv t := by
  unfold Heartbeats.readMask at hstep
  have hfeeder := h.feeder
  split at hstep
  · next hpc =>
    rw [hpc] at hfeeder
    rw [← Option.some.inj hstep]
    refine { h with feeder := ⟨fun i hi => hi, fun i _ => hfeeder i trivial, fun i hi hmask => ?_⟩ }
    rcases hi with hi | hi
    · exact absurd hi (Nat.not_lt_zero i)
    · exact absurd (hi.symm.trans hmask) Bool.false_ne_true
  · cases hstep

theorem HeartbeatInv.readFlag (h : HeartbeatInv s) (hstep : s.readFlag = some t) :
    HeartbeatInv t := by
  unfold Heartbeats.readFlag at hstep
  have hfeeder := h.feeder
  split at hstep
  · next mask hpc =>
    rw [hpc] at hfeeder
    rw [← Option.some.inj hstep]
    refine { h with feeder := ⟨⟨hfeeder.registered, hfeeder.ahead, hfeeder.behind⟩, ?_⟩ }
    exact ⟨Nat.zero_le _, h.flag, fun _ => rfl,
      fun _ => .inr fun i hi => absurd hi (Nat.not_lt_zero i)⟩
  · cases hstep

/-- The slot that is read has the snapshot of this check. -/
theorem Scanning.read {mask : ℕ → Bool} {next : ℕ} (h : Scanning s mask next)
    {feeder : FeederPc} :
    Scanning
      { s with feeder := feeder, last := Function.update s.last next (s.counters next) }
      mask (next + 1) where
  registered := h.registered
  ahead := fun i hi hregistered hkicked => by
    have hne : i ≠ next := by omega
    dsimp only
    rw [Function.update_of_ne hne]
    exact h.ahead i (by omega) hregistered hkicked
  behind := fun i hi hregistered hkicked => by
    dsimp only
    by_cases hne : i = next
    · rw [hne, Function.update_self]
    · rw [Function.update_of_ne hne]
      exact h.behind i (hi.imp_left fun hlt => by omega) hregistered hkicked

/-- A slot that was not registered is passed over. -/
theorem Scanning.skip {mask : ℕ → Bool} {next : ℕ} (h : Scanning s mask next)
    (hmask : mask next = false) {feeder : FeederPc} :
    Scanning { s with feeder := feeder } mask (next + 1) where
  registered := h.registered
  ahead := fun i hi => h.ahead i (Nat.le_of_succ_le hi)
  behind := fun i hi => by
    refine h.behind i ?_
    rcases hi with hi | hi
    · rcases Nat.lt_succ_iff_lt_or_eq.mp hi with hlt | rfl
      · exact .inl hlt
      · exact .inr hmask
    · exact .inr hi

theorem Verdict.read {c : Scan} (h : Verdict s c) (hmore : c.next < heartbeatCount)
    (hkicked : s.counters c.next ≠ s.last c.next → s.kickedBefore c.next = true)
    {feeder : FeederPc} {last : ℕ → UInt32} :
    Verdict { s with feeder := feeder, last := last }
      { c with
        alive := if s.counters c.next = s.last c.next ∧ c.longOp = false then false else c.alive
        next := c.next + 1 } where
  next_le := hmore
  flag := h.flag
  suppressed := fun hop => by
    have hgoes : ¬(s.counters c.next = s.last c.next ∧ c.longOp = false) := fun hstalled =>
      Bool.false_ne_true (hstalled.2.symm.trans hop)
    dsimp only
    rw [if_neg hgoes]
    exact h.suppressed hop
  alive := fun halive => by
    dsimp only at halive ⊢
    split at halive
    · cases halive
    · next hgoes =>
      rcases h.alive halive with hop | hall
      · exact .inl hop
      · cases hop : c.longOp with
        | true => exact .inl rfl
        | false =>
          refine .inr fun i hi hmask => ?_
          rcases Nat.lt_succ_iff_lt_or_eq.mp hi with hlt | rfl
          · exact hall i hlt hmask
          · exact hkicked fun hsame => hgoes ⟨hsame, hop⟩

theorem Verdict.skip {c : Scan} (h : Verdict s c) (hmore : c.next < heartbeatCount)
    (hmask : c.mask c.next = false) {feeder : FeederPc} :
    Verdict { s with feeder := feeder } { c with next := c.next + 1 } where
  next_le := hmore
  flag := h.flag
  suppressed := h.suppressed
  alive := fun halive => (h.alive halive).imp_right fun hall i hi hi' => by
    rcases Nat.lt_succ_iff_lt_or_eq.mp hi with hlt | rfl
    · exact hall i hlt hi'
    · exact absurd (hmask.symm.trans hi') Bool.false_ne_true

/-- A slot is read: its snapshot is that of this check from now on. -/
theorem HeartbeatInv.readSlot (h : HeartbeatInv s) (hstep : s.readSlot = some t) :
    HeartbeatInv t := by
  unfold Heartbeats.readSlot at hstep
  have hfeeder := h.feeder
  split at hstep
  · next c hpc =>
    rw [hpc] at hfeeder
    obtain ⟨hscan, hverdict⟩ := hfeeder
    split at hstep
    · next hmore =>
      split at hstep
      · next hmask =>
        rw [← Option.some.inj hstep]
        refine ⟨h.flag, h.slots, fun i hi => ?_, hscan.read, hverdict.read hmore fun hcounter => ?_⟩
        · have hne : i ≠ c.next := by
            rintro rfl
            exact absurd (hi.symm.trans (hscan.registered _ hmask)) Bool.false_ne_true
          dsimp only
          rw [Function.update_of_ne hne]
          exact h.unread i hi
        · by_contra hkicked
          rw [Bool.not_eq_true] at hkicked
          exact hcounter
            (hscan.ahead c.next (Nat.le_refl _) (hscan.registered _ hmask) hkicked)
      · next hmask =>
        rw [Bool.not_eq_true] at hmask
        rw [← Option.some.inj hstep]
        exact { h with feeder := ⟨hscan.skip hmask, hverdict.skip hmore hmask⟩ }
    · cases hstep
  · cases hstep

/-- All slots are behind a check that is over. -/
theorem HeartbeatInv.conclude (h : HeartbeatInv s) (hstep : s.conclude = some t) :
    HeartbeatInv t := by
  unfold Heartbeats.conclude at hstep
  have hfeeder := h.feeder
  split at hstep
  · next c hpc =>
    rw [hpc] at hfeeder
    obtain ⟨hscan, -⟩ := hfeeder
    split at hstep
    · cases hstep
    · next hdone =>
      rw [← Option.some.inj hstep]
      refine { h with feeder := fun i _ hregistered hkicked => ?_ }
      have hslot := h.slots i hregistered
      exact hscan.behind i (.inl (by omega)) hregistered hkicked
  · cases hstep

/-- What the end of a check does. -/
theorem HeartbeatInv.fed (h : HeartbeatInv s) (hstep : s.conclude = some t) {c : Scan}
    (hpc : s.feeder = .scanning c) :
    (s.checks ≠ 0 → t.feeds ≠ s.feeds →
      c.opRunning = true ∨ ∀ i < heartbeatCount, c.mask i = true → s.kickedBefore i = true) ∧
      (c.opRunning = true → t.feeds = s.feeds + 1) := by
  have hfeeder := h.feeder
  rw [hpc] at hfeeder
  obtain ⟨-, hverdict⟩ := hfeeder
  unfold Heartbeats.conclude at hstep
  rw [hpc] at hstep
  dsimp only at hstep
  split at hstep
  · cases hstep
  · next hdone =>
    have hlast : c.next = heartbeatCount :=
      Nat.le_antisymm hverdict.next_le (Nat.le_of_not_lt hdone)
    rw [← Option.some.inj hstep]
    refine ⟨fun hchecks hfed => ?_, fun hop => ?_⟩
    · have halive : c.alive = true := by
        by_contra hdead
        exact hfed (if_neg fun h => h.elim hchecks hdead)
      rw [← hverdict.flag, ← hlast]
      exact hverdict.alive halive
    · exact if_pos (.inr (hverdict.suppressed (hverdict.flag.trans hop)))

/-! ## Runs -/

theorem HeartbeatInv.step (h : HeartbeatInv s) {e : HeartbeatEvent} (hclean : Orderly s e)
    (hstep : heartbeatStep s e = some t) : HeartbeatInv t := by
  cases e with
  | register id => exact Option.some.inj hstep ▸ h.register hclean
  | kick id => exact Option.some.inj hstep ▸ h.kick id
  | beginOp op =>
    rw [← Option.some.inj hstep]
    exact h.setLongOp rfl
  | endOp op =>
    change s.endOp op = some t at hstep
    unfold Heartbeats.endOp at hstep
    split at hstep
    · rw [← Option.some.inj hstep]
      have hnone : s.inProgress.erase op = [] := hclean
      exact h.setLongOp (by rw [hnone]; rfl)
    · cases hstep
  | readMask => exact h.readMask hstep
  | readFlag => exact h.readFlag hstep
  | readSlot => exact h.readSlot hstep
  | conclude => exact h.conclude hstep

theorem HeartbeatInv.feedSound (h : HeartbeatInv s) {e : HeartbeatEvent} (hclean : Orderly s e)
    (hstep : heartbeatStep s e = some t) : FeedSound s e t where
  protects := fun hop => by
    rw [(h.step hclean hstep).flag, Bool.not_eq_true', List.isEmpty_eq_false_iff]
    exact hop
  fed := by
    rintro c rfl hpc
    exact (h.fed hstep hpc).1
  feeds := by
    rintro c rfl hpc
    exact (h.fed hstep hpc).2

theorem heartbeatInv_init : HeartbeatInv {} :=
  ⟨rfl, fun _ h => absurd h Bool.false_ne_true, fun _ _ => rfl, fun _ _ _ _ => rfl⟩

/-- In a run in which no operation ends while another is in progress and no slot is kicked before
it is registered, the feeder is sound. -/
theorem feedSound_of_orderly (es : List HeartbeatEvent)
    (h : Steps heartbeatStep (fun s e _ => Orderly s e) {} es) :
    Steps heartbeatStep FeedSound {} es := by
  have hkeep : ∀ {s e t}, HeartbeatInv s → Orderly s e → heartbeatStep s e = some t →
      HeartbeatInv t ∧ FeedSound s e t :=
    fun hinv hclean hstep => ⟨hinv.step hclean hstep, hinv.feedSound hclean hstep⟩
  exact Steps.of_inv hkeep heartbeatInv_init h

/-- A whole check. -/
def checking : List HeartbeatEvent :=
  [.readMask, .readFlag] ++ List.replicate heartbeatCount .readSlot ++ [.conclude]

theorem feedSound_twoChecks :
    Steps heartbeatStep (fun s e _ => Orderly s e) {}
        ([.register 7, .kick 7] ++ checking ++ [.beginOp .flush] ++ checking ++ [.endOp .flush]) ∧
      Steps heartbeatStep FeedSound {}
        ([.register 7, .kick 7] ++ checking ++ [.beginOp .flush] ++ checking ++
          [.endOp .flush]) := by
  have hclean : Steps heartbeatStep (fun s e _ => Orderly s e) {}
      ([.register 7, .kick 7] ++ checking ++ [.beginOp .flush] ++ checking ++
        [.endOp .flush]) := by
    decide +kernel
  exact ⟨hclean, feedSound_of_orderly _ hclean⟩

/-- A flush ends during a capture: the capture has no protection left. -/
theorem flushInCapture_unprotected :
    ¬Steps heartbeatStep FeedSound {} [.beginOp .capture, .beginOp .flush, .endOp .flush] := by
  intro h
  have hflag : Steps heartbeatStep (fun _ _ t => t.inProgress ≠ [] → t.longOp = true) {}
      [.beginOp .capture, .beginOp .flush, .endOp .flush] := h.mono FeedSound.protects
  exact absurd hflag (by decide)

end DiveCANHead.Watchdog
