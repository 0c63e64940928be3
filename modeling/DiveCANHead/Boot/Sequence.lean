import Mathlib.Data.List.Range
import DiveCANHead.Boot.History
import DiveCANHead.Lib.Columns

/-!
# The numbers of the boots

What the flash loads after any sequence of boots, crashes and resets. While every number is taken
by one boot the rings are the newest records and the numbers rise; a number taken again shows as
soon as a crash record carries it.
-/

namespace DiveCANHead.Boot

open DiveCANHead.Lib

/-- What happens to the Head: `boot_history_init` runs, the fatal handler records a crash and
reboots, or it restarts, with the noinit RAM kept or lost. -/
inductive BootEvent where
  | init (b : Startup)
  | crash (info : CrashInfo)
  | reset (kept : Bool)

/-- A restart with that much found in the noinit RAM: the module state starts afresh. -/
def History.restart (h : History) (noinit : Option CrashInfo) : History :=
  { flash := h.flash, noinit := noinit, lastCrash := noinit }

/-- One event. -/
def historyStep (h : History) : BootEvent → Option History
  | .init b => some (bootHistoryInit h b).2
  | .crash info => some (h.restart (some info))
  | .reset kept => some (h.restart (if kept then h.noinit else none))

/-- The number the next boot takes. -/
def Flash.next (f : Flash) : ℕ := f.loadRebootStore.nextSequence

/-- The rings a boot loads are right: the newest of the records saved, in order and at most as many
as the ring is deep; the numbers of the records saved rise; and of all the boots exactly the one
that recovered a crash took the number its record carries. -/
structure Right (f : Flash) : Prop where
  reboots_newest : f.loadRebootStore.ring.contents = f.savedReboots.rtake bootHistoryDepth
  crashes_newest :
    f.loadCrashStore.ring.contents = (f.savedCrashes.map Prod.snd).rtake bootHistoryDepth
  reboots_le : f.loadRebootStore.ring.contents.length ≤ bootHistoryDepth
  crashes_le : f.loadCrashStore.ring.contents.length ≤ bootHistoryDepth
  reboots_rise : (f.savedReboots.map (·.rebootSequence)).Pairwise (· < ·)
  crashes_rise : (f.savedCrashes.map (·.2.rebootSequence)).Pairwise (· < ·)
  crash_boot : ∀ c ∈ f.savedCrashes, ∀ i, f.taken[i]? = some c.2.rebootSequence ↔ i = c.1

/-- This run of `boot_history_init` records: it is the boot's first and the settings are there. -/
def Records (h : History) (b : Startup) : Prop := h.initialized = false ∧ b.settingsRc = 0

/-- It saves a crash record. -/
def SavesCrash (h : History) (b : Startup) : Prop := h.lastCrash.isSome ∧ b.crashesRc = 0

instance (h : History) (b : Startup) : Decidable (Records h b) :=
  inferInstanceAs (Decidable (_ ∧ _))

instance (h : History) (b : Startup) : Decidable (SavesCrash h b) :=
  inferInstanceAs (Decidable (_ ∧ _))

/-- An earlier boot took the number too: its save of the reboot ring failed, or the counter has been
all the way round. -/
def Retaken (f : Flash) : Prop := f.next ∈ f.taken

/-- The 32-bit counter has been all the way round. -/
def Wrapped (f : Flash) : Prop := f.next = 1 ∧ 0 < f.loadRebootStore.ring.count

/-- No crash record is saved under a number taken twice, by the boot that takes it again or by one
before it, and after the last number no reboot record is. -/
def CleanBoot (h : History) : BootEvent → Prop
  | .init b => Records h b →
    (Retaken h.flash → ¬SavesCrash h b ∧
      ∀ c ∈ h.flash.savedCrashes, c.2.rebootSequence ≠ h.flash.next) ∧
    (Wrapped h.flash → b.rebootsRc ≠ 0)
  | _ => True

/-! ### What one boot does -/

theorem allocateRebootSequence_ne_zero (store : RebootHistoryStore) :
    (allocateRebootSequence store).2.nextSequence ≠ 0 := by
  simp only [allocateRebootSequence]
  split <;> omega

theorem resetRebootStore_valid : resetRebootStore.Valid := by decide

theorem resetCrashStore_valid : resetCrashStore.Valid := by decide

theorem loadRebootStore_valid (f : Flash) : f.loadRebootStore.Valid := by
  unfold Flash.loadRebootStore
  split
  · split
    · assumption
    · exact resetRebootStore_valid
  · exact resetRebootStore_valid

theorem loadCrashStore_valid (f : Flash) : f.loadCrashStore.Valid := by
  unfold Flash.loadCrashStore
  split
  · split
    · assumption
    · exact resetCrashStore_valid
  · exact resetCrashStore_valid

theorem loadRebootStore_some {f : Flash} {store : RebootHistoryStore} (hs : f.reboots = some store)
    (hv : store.Valid) : f.loadRebootStore = store := by
  simp only [Flash.loadRebootStore, hs, if_pos hv]

theorem loadCrashStore_some {f : Flash} {store : CrashHistoryStore} (hs : f.crashes = some store)
    (hv : store.Valid) : f.loadCrashStore = store := by
  simp only [Flash.loadCrashStore, hs, if_pos hv]

/-- A record appended to a valid store leaves it valid. -/
theorem CrashHistoryStore.Valid.append {store : CrashHistoryStore} (h : store.Valid)
    (record : BootCrashRecord) : { store with ring := store.ring.append record }.Valid := by
  refine ⟨h.1, h.2.1, ?_⟩
  rw [Rolling.count_append h.2.2]
  exact Nat.min_le_right _ _

theorem RebootHistoryStore.Valid.append {store : RebootHistoryStore} (h : store.Valid)
    (record : BootRebootRecord) :
    { (allocateRebootSequence store).2 with ring := store.ring.append record }.Valid := by
  refine ⟨h.1, h.2.1, ?_, allocateRebootSequence_ne_zero store⟩
  rw [Rolling.count_append h.2.2.1]
  exact Nat.min_le_right _ _

/-- What a boot that records does: the noinit RAM keeps a crash no record of which is saved. -/
structure Booted (h : History) (b : Startup) (t : History) : Prop where
  taken : t.flash.taken = h.flash.taken ++ [h.flash.next]
  reboot_saved : b.rebootsRc = 0 → ∃ cause,
    t.flash.savedReboots = h.flash.savedReboots ++ [⟨h.flash.next, cause⟩] ∧
    t.flash.loadRebootStore = { (allocateRebootSequence h.flash.loadRebootStore).2 with
      ring := h.flash.loadRebootStore.ring.append ⟨h.flash.next, cause⟩ }
  reboot_failed : b.rebootsRc ≠ 0 →
    t.flash.savedReboots = h.flash.savedReboots ∧
    t.flash.loadRebootStore = h.flash.loadRebootStore
  crash_saved : SavesCrash h b → ∃ record : BootCrashRecord, record.rebootSequence = h.flash.next ∧
    t.flash.savedCrashes = h.flash.savedCrashes ++ [(h.flash.taken.length, record)] ∧
    t.flash.loadCrashStore.ring = h.flash.loadCrashStore.ring.append record ∧ t.noinit = none
  crash_none : ¬SavesCrash h b →
    t.flash.savedCrashes = h.flash.savedCrashes ∧
    t.flash.loadCrashStore = h.flash.loadCrashStore ∧ t.noinit = h.noinit

/-- What `boot_history_init` latches of the reset cause. -/
def Startup.latched (b : Startup) : ℕ := if b.causeRc ≠ 0 then 0 else b.cause

/-- A boot that records saves the reboot ring, then the crash ring. -/
theorem bootHistoryInit_records {h : History} {b : Startup} (hr : Records h b) :
    ∃ h₁ h₂ : History,
      h₁ = (recordReboot { h with initialized := true, resetCause := b.latched }
        (allocateRebootSequence h.flash.loadRebootStore).2 h.flash.next b.rebootsRc).2 ∧
      h₂ = (recordCrash h₁ h₁.flash.loadCrashStore h.flash.next b.crashesRc).2 ∧
      (bootHistoryInit h b).2 =
        { h₂ with flash := { h₂.flash with taken := h₂.flash.taken ++ [h.flash.next] } } := by
  refine ⟨_, _, rfl, rfl, ?_⟩
  rw [bootHistoryInit, if_neg (by simp [hr.1])]
  by_cases hc : b.causeRc ≠ 0
  · simp only [if_pos hc, if_pos hr.2, Startup.latched, Flash.next]
    rfl
  · simp only [if_neg hc, if_pos hr.2, Startup.latched, Flash.next]
    rfl

/-- What `record_reboot` changes. -/
theorem recordReboot_spec {h h' : History} {rc : ℤ}
    (h₁ : h' = (recordReboot h (allocateRebootSequence h.flash.loadRebootStore).2
      h.flash.next rc).2) :
    (h'.flash.loadCrashStore = h.flash.loadCrashStore ∧
      h'.flash.savedCrashes = h.flash.savedCrashes ∧ h'.flash.taken = h.flash.taken ∧
      h'.lastCrash = h.lastCrash ∧ h'.noinit = h.noinit) ∧
    (rc = 0 →
      h'.flash.savedReboots = h.flash.savedReboots ++ [⟨h.flash.next, h.resetCause⟩] ∧
      h'.flash.loadRebootStore = { (allocateRebootSequence h.flash.loadRebootStore).2 with
        ring := h.flash.loadRebootStore.ring.append ⟨h.flash.next, h.resetCause⟩ }) ∧
    (rc ≠ 0 → h'.flash.savedReboots = h.flash.savedReboots ∧
      h'.flash.loadRebootStore = h.flash.loadRebootStore) := by
  subst h₁
  by_cases hrc : rc = 0
  · rw [recordReboot, if_pos hrc]
    refine ⟨⟨rfl, rfl, rfl, rfl, rfl⟩, fun _ => ⟨rfl, ?_⟩, fun hne => absurd hrc hne⟩
    exact loadRebootStore_some rfl ((loadRebootStore_valid h.flash).append _)
  · rw [recordReboot, if_neg hrc]
    exact ⟨⟨rfl, rfl, rfl, rfl, rfl⟩, fun h0 => absurd h0 hrc, fun _ => ⟨rfl, rfl⟩⟩

/-- What `record_crash` changes. -/
theorem recordCrash_spec {h h' : History} {q : ℕ} {rc : ℤ}
    (h₁ : h' = (recordCrash h h.flash.loadCrashStore q rc).2) :
    (h'.flash.loadRebootStore = h.flash.loadRebootStore ∧
      h'.flash.savedReboots = h.flash.savedReboots ∧ h'.flash.taken = h.flash.taken) ∧
    (h.lastCrash.isSome ∧ rc = 0 → ∃ record : BootCrashRecord, record.rebootSequence = q ∧
      h'.flash.savedCrashes = h.flash.savedCrashes ++ [(h.flash.taken.length, record)] ∧
      h'.flash.loadCrashStore.ring = h.flash.loadCrashStore.ring.append record ∧
      h'.noinit = none) ∧
    (¬(h.lastCrash.isSome ∧ rc = 0) → h'.flash.savedCrashes = h.flash.savedCrashes ∧
      h'.flash.loadCrashStore = h.flash.loadCrashStore ∧ h'.noinit = h.noinit) := by
  subst h₁
  cases hl : h.lastCrash with
  | none =>
    rw [recordCrash, hl]
    exact ⟨⟨rfl, rfl, rfl⟩, fun hs => (Bool.false_ne_true hs.1).elim, fun _ => ⟨rfl, rfl, rfl⟩⟩
  | some crash =>
    rw [recordCrash, hl]
    dsimp only
    by_cases hrc : rc = 0
    · rw [if_pos hrc]
      refine ⟨⟨rfl, rfl, rfl⟩, fun _ => ⟨_, rfl, rfl, ?_, rfl⟩, fun hn => absurd ⟨rfl, hrc⟩ hn⟩
      exact congrArg CrashHistoryStore.ring
        (loadCrashStore_some rfl ((loadCrashStore_valid h.flash).append _))
    · rw [if_neg hrc]
      exact ⟨⟨rfl, rfl, rfl⟩, fun hs => absurd hs.2 hrc, fun _ => ⟨rfl, rfl, rfl⟩⟩

theorem bootHistoryInit_booted {h : History} {b : Startup} (hr : Records h b) :
    Booted h b (bootHistoryInit h b).2 := by
  obtain ⟨h₁, h₂, hh₁, hh₂, heq⟩ := bootHistoryInit_records hr
  obtain ⟨⟨hstore, hsaved, htaken, hlast, hnoinit⟩, hok, hfail⟩ :=
    recordReboot_spec (h := { h with initialized := true, resetCause := b.latched }) hh₁
  obtain ⟨⟨hstore', hsaved', htaken'⟩, hok', hfail'⟩ := recordCrash_spec hh₂
  rw [heq]
  refine ⟨?_, fun h0 => ⟨b.latched, ?_⟩, fun h0 => ?_, fun hs => ?_, fun hs => ?_⟩
  · show h₂.flash.taken ++ _ = _
    rw [htaken', htaken]
  · show h₂.flash.savedReboots = _ ∧ h₂.flash.loadRebootStore = _
    rw [hstore', hsaved']
    exact hok h0
  · show h₂.flash.savedReboots = _ ∧ h₂.flash.loadRebootStore = _
    rw [hstore', hsaved']
    exact hfail h0
  · rw [← hsaved, ← hstore, ← htaken]
    exact hok' ⟨hlast.symm ▸ hs.1, hs.2⟩
  · rw [← hsaved, ← hstore, ← hnoinit]
    exact hfail' fun hn => hs ⟨hlast ▸ hn.1, hn.2⟩

/-- Any other run of `boot_history_init` leaves the flash and the noinit RAM alone. -/
theorem bootHistoryInit_of_not_records {h : History} {b : Startup} (hr : ¬Records h b) :
    (bootHistoryInit h b).2.flash = h.flash ∧ (bootHistoryInit h b).2.noinit = h.noinit := by
  unfold bootHistoryInit
  split
  · exact ⟨rfl, rfl⟩
  · rename_i hi
    have hset : b.settingsRc ≠ 0 := fun hs => hr ⟨Bool.eq_false_iff.mpr hi, hs⟩
    simp only [if_neg hset]
    split <;> exact ⟨rfl, rfl⟩

/-! ### The numbers along a run -/

/-- While every boot is clean: the records saved carry the numbers from 1 on without a gap, the
counter stands behind them, and every number up to there has been taken. -/
structure Inv (f : Flash) : Prop where
  right : Right f
  numbers : f.savedReboots.map (·.rebootSequence) = List.range' 1 f.savedReboots.length
  le_max : f.savedReboots.length ≤ maxSequence
  next_eq : f.next =
    if f.savedReboots.length = maxSequence then 1 else f.savedReboots.length + 1
  taken_le : ∀ q ∈ f.taken, q ≤ f.savedReboots.length + 1
  numbers_taken : ∀ q, 1 ≤ q → q ≤ f.savedReboots.length → q ∈ f.taken

theorem inv_empty : Inv {} where
  right :=
    { reboots_newest := rfl
      crashes_newest := rfl
      reboots_le := by decide
      crashes_le := by decide
      reboots_rise := List.Pairwise.nil
      crashes_rise := List.Pairwise.nil
      crash_boot := fun _ hc => absurd hc List.not_mem_nil }
  numbers := rfl
  le_max := by decide
  next_eq := rfl
  taken_le := fun _ hq => absurd hq List.not_mem_nil
  numbers_taken := fun q h1 h2 => by
    have : q ≤ 0 := h2
    omega

/-- The counter has been all the way round when the last of the numbers is saved. -/
theorem Inv.wrapped_iff {f : Flash} (hi : Inv f) :
    Wrapped f ↔ f.savedReboots.length = maxSequence := by
  have hcount : f.loadRebootStore.ring.count = min f.savedReboots.length bootHistoryDepth := by
    rw [← Rolling.length_contents (loadRebootStore_valid f).2.2.1, hi.right.reboots_newest,
      List.rtake, List.length_drop]
    omega
  have hnext := hi.next_eq
  rw [Wrapped, hcount]
  constructor
  · rintro ⟨h1, h2⟩
    by_contra hne
    rw [if_neg hne] at hnext
    omega
  · intro hk
    rw [if_pos hk] at hnext
    rw [hk]
    exact ⟨hnext, by decide⟩

theorem Inv.retaken_of_wrapped {f : Flash} (hi : Inv f) (hw : Wrapped f) : Retaken f := by
  have hk := hi.wrapped_iff.mp hw
  rw [Retaken, hw.1]
  exact hi.numbers_taken 1 le_rfl (by rw [hk]; decide)

theorem Inv.next_of_not_wrapped {f : Flash} (hi : Inv f) (hw : ¬Wrapped f) :
    f.next = f.savedReboots.length + 1 ∧ f.savedReboots.length < maxSequence := by
  have hk := mt hi.wrapped_iff.mpr hw
  exact ⟨hi.next_eq.trans (if_neg hk), Nat.lt_of_le_of_ne hi.le_max hk⟩

/-- A number a crash record carries was taken. -/
theorem Right.crash_taken {f : Flash} (hr : Right f) {c : ℕ × BootCrashRecord}
    (hc : c ∈ f.savedCrashes) : c.2.rebootSequence ∈ f.taken :=
  List.mem_of_getElem? ((hr.crash_boot c hc c.1).mpr rfl)

/-- The records of the reboot ring stay right: a boot whose save goes through appends the number
after the last. -/
theorem Booted.reboots {h : History} {b : Startup} {t : History} (hi : Inv h.flash)
    (hb : Booted h b t) (hw : Wrapped h.flash → b.rebootsRc ≠ 0) :
    t.flash.loadRebootStore.ring.contents = t.flash.savedReboots.rtake bootHistoryDepth ∧
    t.flash.savedReboots.map (·.rebootSequence) = List.range' 1 t.flash.savedReboots.length ∧
    t.flash.savedReboots.length ≤ maxSequence ∧
    t.flash.next = (if t.flash.savedReboots.length = maxSequence then 1
      else t.flash.savedReboots.length + 1) ∧
    (t.flash.savedReboots.length = h.flash.savedReboots.length ∨
      t.flash.savedReboots.length = h.flash.savedReboots.length + 1 ∧
        h.flash.next = h.flash.savedReboots.length + 1) := by
  by_cases h0 : b.rebootsRc = 0
  · obtain ⟨cause, hsaved, hstore⟩ := hb.reboot_saved h0
    obtain ⟨hnext, hlt⟩ := hi.next_of_not_wrapped fun hw' => hw hw' h0
    have hlen : t.flash.savedReboots.length = h.flash.savedReboots.length + 1 := by
      rw [hsaved, List.length_append, List.length_singleton]
    refine ⟨?_, ?_, hlen ▸ hlt, ?_, .inr ⟨hlen, hnext⟩⟩
    · rw [hstore, hsaved]
      show (h.flash.loadRebootStore.ring.append _).contents = _
      rw [Rolling.contents_append (loadRebootStore_valid h.flash).2.2.1, hi.right.reboots_newest,
        rtake_append_rtake]
    · rw [hlen, hsaved, List.map_append, hi.numbers, List.range'_1_concat, Nat.add_comm 1]
      exact congrArg (List.range' 1 _ ++ [·]) hnext
    · rw [Flash.next, hstore, hlen]
      have hn : h.flash.loadRebootStore.nextSequence = h.flash.savedReboots.length + 1 := hnext
      simp only [allocateRebootSequence, hn]
      unfold maxSequence at *
      split <;> split <;> omega
  · obtain ⟨hsaved, hstore⟩ := hb.reboot_failed h0
    rw [Flash.next, hstore, hsaved]
    exact ⟨hi.right.reboots_newest, hi.numbers, hi.le_max, hi.next_eq, .inl rfl⟩

/-- So do those of the crash ring, where no number taken twice is on a crash record. -/
theorem Booted.crashes {h : History} {b : Startup} {t : History} (hi : Inv h.flash)
    (hb : Booted h b t) (hc : Retaken h.flash → ¬SavesCrash h b ∧
      ∀ c ∈ h.flash.savedCrashes, c.2.rebootSequence ≠ h.flash.next) :
    t.flash.loadCrashStore.ring.contents =
      (t.flash.savedCrashes.map Prod.snd).rtake bootHistoryDepth ∧
    (t.flash.savedCrashes.map (·.2.rebootSequence)).Pairwise (· < ·) ∧
    ∀ c ∈ t.flash.savedCrashes, ∀ i, t.flash.taken[i]? = some c.2.rebootSequence ↔ i = c.1 := by
  have hr := hi.right
  -- no earlier crash record carries the number this boot takes
  have hother : ∀ c ∈ h.flash.savedCrashes, c.2.rebootSequence ≠ h.flash.next := fun c hmem heq =>
    (hc (show _ ∈ _ from heq ▸ hr.crash_taken hmem)).2 c hmem heq
  have hold : ∀ c ∈ h.flash.savedCrashes, ∀ i,
      t.flash.taken[i]? = some c.2.rebootSequence ↔ i = c.1 := by
    intro c hmem i
    rw [hb.taken, getElem?_concat_eq_some, hr.crash_boot c hmem]
    exact or_iff_left fun he => hother c hmem he.2.symm
  by_cases hs : SavesCrash h b
  · have hnot : ¬Retaken h.flash := fun hre => (hc hre).1 hs
    obtain ⟨record, hq, hsaved, hstore, -⟩ := hb.crash_saved hs
    rw [hstore, hsaved]
    refine ⟨?_, ?_, fun c hmem => ?_⟩
    · rw [Rolling.contents_append (loadCrashStore_valid h.flash).2.2, hr.crashes_newest,
        rtake_append_rtake, List.map_append]
      rfl
    · rw [List.map_append, List.pairwise_append]
      refine ⟨hr.crashes_rise, List.pairwise_singleton _ _, fun q hcarried q' hq' => ?_⟩
      obtain ⟨c, hmem, rfl⟩ := List.mem_map.mp hcarried
      obtain rfl : q' = h.flash.next := (List.mem_singleton.mp hq').trans hq
      have hle := hi.taken_le _ (hr.crash_taken hmem)
      have hne := hother c hmem
      have hnext := (hi.next_of_not_wrapped fun hw => hnot (hi.retaken_of_wrapped hw)).1
      omega
    · rcases List.mem_append.mp hmem with hmem | hmem
      · exact hold c hmem
      · obtain rfl := List.mem_singleton.mp hmem
        intro i
        rw [hb.taken, getElem?_concat_eq_some, hq]
        refine ⟨fun hor => (hor.resolve_left fun hget => hnot (List.mem_of_getElem? hget)).1,
          fun hlen => .inr ⟨hlen, rfl⟩⟩
  · obtain ⟨hsaved, hstore, -⟩ := hb.crash_none hs
    rw [hstore, hsaved]
    exact ⟨hr.crashes_newest, hr.crashes_rise, hold⟩

/-- A clean boot keeps the invariant. -/
theorem Booted.inv {h : History} {b : Startup} {t : History} (hi : Inv h.flash)
    (hb : Booted h b t) (hc : Retaken h.flash → ¬SavesCrash h b ∧
      ∀ c ∈ h.flash.savedCrashes, c.2.rebootSequence ≠ h.flash.next)
    (hw : Wrapped h.flash → b.rebootsRc ≠ 0) : Inv t.flash := by
  obtain ⟨hnewest, hnumbers, hmax, hnext, hlen⟩ := hb.reboots hi hw
  obtain ⟨hcnewest, hcrise, hcboot⟩ := hb.crashes hi hc
  have hnextle : h.flash.next ≤ h.flash.savedReboots.length + 1 := by
    rw [hi.next_eq]
    split <;> omega
  refine ⟨⟨hnewest, hcnewest, ?_, ?_, ?_, hcrise, hcboot⟩, hnumbers, hmax, hnext, ?_, ?_⟩
  · rw [Rolling.length_contents (loadRebootStore_valid t.flash).2.2.1]
    exact (loadRebootStore_valid t.flash).2.2.1
  · rw [Rolling.length_contents (loadCrashStore_valid t.flash).2.2]
    exact (loadCrashStore_valid t.flash).2.2
  · rw [hnumbers]
    exact List.pairwise_lt_range'
  · intro q hq
    rw [hb.taken, List.mem_append, List.mem_singleton] at hq
    rcases hq with hq | rfl
    · have := hi.taken_le q hq
      omega
    · omega
  · intro q h1 hle
    rw [hb.taken, List.mem_append, List.mem_singleton]
    rcases hlen with hlen | ⟨hlen, hn⟩
    · exact .inl (hi.numbers_taken q h1 (hlen ▸ hle))
    · by_cases hq : q ≤ h.flash.savedReboots.length
      · exact .inl (hi.numbers_taken q h1 hq)
      · exact .inr (by omega)

/-- A boot that leaves the rings right was clean. -/
theorem Booted.clean {h : History} {b : Startup} {t : History} (hi : Inv h.flash)
    (hb : Booted h b t) (hr : Right t.flash) :
    (Retaken h.flash → ¬SavesCrash h b ∧
      ∀ c ∈ h.flash.savedCrashes, c.2.rebootSequence ≠ h.flash.next) ∧
    (Wrapped h.flash → b.rebootsRc ≠ 0) := by
  have hlast : t.flash.taken[h.flash.taken.length]? = some h.flash.next := by
    rw [hb.taken, getElem?_concat_eq_some]
    exact .inr ⟨rfl, rfl⟩
  refine ⟨fun hre => ⟨fun hs => ?_, fun c hmem heq => ?_⟩, fun hw h0 => ?_⟩
  · -- the earlier boot with the number is not the one the new record belongs to
    obtain ⟨record, hq, hsaved, -⟩ := hb.crash_saved hs
    obtain ⟨i, hi', hget⟩ := List.mem_iff_getElem.mp hre
    have hmem : (h.flash.taken.length, record) ∈ t.flash.savedCrashes :=
      hsaved ▸ List.mem_concat_self
    have heq : i = h.flash.taken.length := (hr.crash_boot _ hmem i).mp (by
      rw [hb.taken, getElem?_concat_eq_some, hq]
      exact .inl (List.getElem?_eq_some_iff.mpr ⟨hi', hget⟩))
    omega
  · -- this boot is not the one the earlier record belongs to
    have hmem' : c ∈ t.flash.savedCrashes := by
      by_cases hs : SavesCrash h b
      · obtain ⟨record, -, hsaved, -⟩ := hb.crash_saved hs
        exact hsaved ▸ List.mem_append_left _ hmem
      · exact (hb.crash_none hs).1 ▸ hmem
    have hboot : h.flash.taken.length = c.1 :=
      (hr.crash_boot c hmem' _).mp (hlast.trans (congrArg some heq.symm))
    obtain ⟨hlt, -⟩ := List.getElem?_eq_some_iff.mp ((hi.right.crash_boot c hmem c.1).mpr rfl)
    omega
  · -- the number 1 comes after the last of the numbers
    obtain ⟨cause, hsaved, -⟩ := hb.reboot_saved h0
    have hrise := hr.reboots_rise
    rw [hsaved, List.map_append, hi.numbers, hi.wrapped_iff.mp hw, List.pairwise_append] at hrise
    have hlt := hrise.2.2 1 (List.mem_range'_1.mpr ⟨le_rfl, by decide⟩) h.flash.next
      (List.mem_singleton.mpr rfl)
    rw [hw.1] at hlt
    exact Nat.lt_irrefl 1 hlt

/-- The rings a boot loads are right throughout exactly the runs of clean boots. -/
theorem histories_right_iff (es : List BootEvent) :
    Steps historyStep (fun _ _ t => Right t.flash) {} es ↔
      Steps historyStep (fun h e _ => CleanBoot h e) {} es := by
  have hsame : ∀ {h t : History} {e : BootEvent}, Inv h.flash → t.flash = h.flash →
      CleanBoot h e → (Right t.flash ↔ CleanBoot h e) ∧ (CleanBoot h e → Inv t.flash) :=
    fun hi ht hc => ⟨iff_of_true (ht ▸ hi.right) hc, fun _ => ht ▸ hi⟩
  have hstep : ∀ {h : History} {e : BootEvent} {t : History}, Inv h.flash →
      historyStep h e = some t →
      (Right t.flash ↔ CleanBoot h e) ∧ (CleanBoot h e → Inv t.flash) := by
    intro h e t hi ht
    cases e with
    | crash info => exact hsame hi (Option.some.inj ht ▸ rfl) trivial
    | reset kept => exact hsame hi (Option.some.inj ht ▸ rfl) trivial
    | init b =>
      obtain rfl := Option.some.inj ht
      by_cases hr : Records h b
      · have hb := bootHistoryInit_booted hr
        exact ⟨⟨fun hright _ => hb.clean hi hright,
            fun hc => (hb.inv hi (hc hr).1 (hc hr).2).right⟩,
          fun hc => hb.inv hi (hc hr).1 (hc hr).2⟩
      · exact hsame hi (bootHistoryInit_of_not_records hr).1 fun hr' => absurd hr' hr
  exact Steps.iff_of_inv hstep inv_empty

/-- A crash recovered twice, where the first of the boots fails to save the reboot ring. -/
def crashedTwice : List BootEvent :=
  [.crash ⟨2, 0, 0, 0, 0, 0, 0, 0, 0⟩, .init { rebootsRc := -28 },
    .crash ⟨2, 0, 0, 0, 0, 0, 0, 0, 0⟩]

/-- Both crash records carry the number 1. -/
theorem crashedTwice_reuses :
    ¬Steps historyStep (fun _ _ t => Right t.flash) {} (crashedTwice ++ [.init {}]) := by
  intro h
  have hrise := (h.last rfl rfl).crashes_rise
  revert hrise
  decide

/-! ### What a boot answers -/

/-- What the readers give: the newest records first, as many as there is room for. -/
theorem Right.getCrashes {f : Flash} (hr : Right f) (capacity : ℕ) :
    bootHistoryGetCrashes f capacity =
      ((f.savedCrashes.map Prod.snd).reverse.take bootHistoryDepth).take capacity := by
  rw [bootHistoryGetCrashes, hr.crashes_newest, List.rtake_eq_reverse_take_reverse,
    List.reverse_reverse]

theorem Right.getReboots {f : Flash} (hr : Right f) (capacity : ℕ) :
    bootHistoryGetReboots f capacity =
      (f.savedReboots.reverse.take bootHistoryDepth).take capacity := by
  rw [bootHistoryGetReboots, hr.reboots_newest, List.rtake_eq_reverse_take_reverse,
    List.reverse_reverse]

/-- The noinit RAM keeps its crash for the next boot until a record of it is saved. -/
theorem bootHistoryInit_noinit (h : History) (b : Startup) :
    (bootHistoryInit h b).2.noinit =
      if Records h b ∧ SavesCrash h b then none else h.noinit := by
  by_cases hr : Records h b
  · have hb := bootHistoryInit_booted hr
    by_cases hs : SavesCrash h b
    · obtain ⟨-, -, -, -, hnone⟩ := hb.crash_saved hs
      rw [if_pos ⟨hr, hs⟩, hnone]
    · rw [if_neg fun hn => hs hn.2, (hb.crash_none hs).2.2]
  · rw [if_neg fun hn => hr hn.1, (bootHistoryInit_of_not_records hr).2]

theorem firstError_eq_zero {result rc : ℤ} : firstError result rc = 0 ↔ result = 0 ∧ rc = 0 := by
  rw [firstError]
  split
  · rename_i h
    exact (and_iff_right h).symm
  · rename_i h
    exact iff_of_false h fun hn => h hn.1

theorem recordCrash_result (h : History) (store : CrashHistoryStore) (q : ℕ) (rc : ℤ) :
    (recordCrash h store q rc).1 = 0 ↔ (h.lastCrash.isSome → rc = 0) := by
  rw [recordCrash]
  cases h.lastCrash <;> simp

/-- The first run of a boot reports the first of its errors, a later one none. -/
theorem bootHistoryInit_result (h : History) (b : Startup) :
    (bootHistoryInit h b).1 = 0 ↔ h.initialized = true ∨
      b.settingsRc = 0 ∧ (if b.causeRc ≠ 0 then b.causeRc else b.clearRc) = 0 ∧
        b.rebootsRc = 0 ∧ (h.lastCrash.isSome → b.crashesRc = 0) := by
  have hreboot : ∀ (g : History) (store : RebootHistoryStore) (q : ℕ),
      (recordReboot g store q b.rebootsRc).1 = b.rebootsRc ∧
      (recordReboot g store q b.rebootsRc).2.lastCrash = g.lastCrash := by
    intro g store q
    rw [recordReboot]
    split <;> exact ⟨rfl, rfl⟩
  unfold bootHistoryInit
  split
  · simp [*]
  · rename_i hi
    by_cases hs : b.settingsRc = 0 <;> by_cases hc : b.causeRc ≠ 0 <;>
      simp [hs, hc, hi, firstError_eq_zero, recordCrash_result, hreboot, and_assoc]

end DiveCANHead.Boot
