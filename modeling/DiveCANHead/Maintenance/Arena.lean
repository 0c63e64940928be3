import Mathlib.Algebra.Order.Ring.Nat
import Mathlib.Data.List.Chain
import Mathlib.Logic.Basic
import DiveCANHead.Lib.Runs

/-!
# The maintenance arena (`maintenance_arena.c`)

One scratch region shared by claim and release. The owner word is an optional
owner (`none` is `MAINT_ARENA_FREE`), `generation` is a `uint32_t`, and the
histogram keeps its pause depth with the calls that moved it. A tenant writes
the scratch only while it holds it.
-/

namespace DiveCANHead.Maintenance

open DiveCANHead.Lib

/-- `MaintArenaOwner_t`, without `MAINT_ARENA_FREE`. -/
inductive MaintArenaOwner where
  | ota
  | factory
  | logIndex
  | logStream
  | flash
  | autotune
  deriving DecidableEq, Repr

/-- The calls the arena makes to the error histogram. -/
inductive HoldCall where
  | pause
  | resume
  deriving DecidableEq, Repr

/-- `save_pause_depth`, with the calls so far, the newest first. -/
structure ErrorHistogram where
  savePauseDepth : ℕ
  calls : List HoldCall
  deriving DecidableEq, Repr

def errorHistogramPause (h : ErrorHistogram) : ErrorHistogram where
  savePauseDepth := h.savePauseDepth + 1
  calls := .pause :: h.calls

/-- A mismatched resume does not underflow. -/
def errorHistogramResume (h : ErrorHistogram) : ErrorHistogram where
  savePauseDepth := if 0 < h.savePauseDepth then h.savePauseDepth - 1 else h.savePauseDepth
  calls := .resume :: h.calls

/-- `arena_state` with the scratch bytes and the histogram it holds. -/
structure Arena where
  owner : Option MaintArenaOwner
  contentOwner : Option MaintArenaOwner
  generation : UInt32
  logIndexBuilding : Bool
  histogram : ErrorHistogram
  scratch : List UInt8
  deriving DecidableEq, Repr

def ownerWritesScratch : MaintArenaOwner → Bool
  | .ota | .factory | .logIndex | .autotune => true
  | .logStream | .flash => false

/-- Whether the log-index cache may be taken over by `owner`. -/
def evictable (arena : Arena) (owner : MaintArenaOwner) : Bool :=
  arena.owner = some .logIndex && .logIndex ≠ owner && !arena.logIndexBuilding

/-- Whether a claim by `owner` is granted. -/
def grants (arena : Arena) (owner : MaintArenaOwner) : Bool :=
  arena.owner = none || arena.owner = some owner || evictable arena owner

/-- Whether a granted claim by `owner` moves the content owner. -/
def movesContent (arena : Arena) (owner : MaintArenaOwner) : Bool :=
  ownerWritesScratch owner && some owner ≠ arena.contentOwner

/-- The arena once `owner` is granted it: the transition out of free owns the histogram hold. -/
def handOver (arena : Arena) (owner : MaintArenaOwner) : Arena :=
  { arena with
    owner := some owner
    histogram :=
      if arena.owner = none then errorHistogramPause arena.histogram else arena.histogram
    generation :=
      if movesContent arena owner then arena.generation + 1 else arena.generation
    contentOwner := if movesContent arena owner then some owner else arena.contentOwner }

/-- `maint_arena_claim`, and whether it returned the arena. -/
def maintArenaClaim (arena : Arena) : Option MaintArenaOwner → Arena × Bool
  | none => (arena, false)
  | some owner => if grants arena owner then (handOver arena owner, true) else (arena, false)

def maintArenaRelease (arena : Arena) (owner : Option MaintArenaOwner) : Arena :=
  if owner = arena.owner then
    { arena with owner := none, histogram := errorHistogramResume arena.histogram }
  else arena

def maintArenaSetIndexBuilding (arena : Arena) (building : Bool) : Arena :=
  { arena with logIndexBuilding := building }

def maintArenaGeneration (arena : Arena) : UInt32 := arena.generation

def Arena.init : Arena where
  owner := none
  contentOwner := none
  generation := 0
  logIndexBuilding := false
  histogram := ⟨0, []⟩
  scratch := []

theorem maintArenaClaim_granted {s : Arena} {o : MaintArenaOwner} (h : grants s o = true) :
    maintArenaClaim s (some o) = (handOver s o, true) := by
  simp [maintArenaClaim, h]

theorem maintArenaClaim_denied {s : Arena} {o : MaintArenaOwner} (h : grants s o = false) :
    maintArenaClaim s (some o) = (s, false) := by
  simp [maintArenaClaim, h]

/-! ## Calls by the owners -/

inductive ArenaEvent where
  | claim (owner : MaintArenaOwner)
  | release (owner : MaintArenaOwner)
  | setIndexBuilding (building : Bool)
  | write (owner : MaintArenaOwner) (bytes : List UInt8)
  deriving DecidableEq, Repr

/-- One call. Only the scratch-writing owner that holds the arena writes it. -/
def arenaStep (arena : Arena) : ArenaEvent → Option Arena
  | .claim owner => some (maintArenaClaim arena (some owner)).1
  | .release owner => some (maintArenaRelease arena (some owner))
  | .setIndexBuilding building => some (maintArenaSetIndexBuilding arena building)
  | .write owner bytes =>
    if arena.owner = some owner ∧ ownerWritesScratch owner = true then
      some { arena with scratch := bytes }
    else none

/-- What one call does. -/
inductive ArenaStep (s : Arena) : ArenaEvent → Arena → Prop where
  | denied {o : MaintArenaOwner} (h : grants s o = false) : ArenaStep s (.claim o) s
  | granted {o : MaintArenaOwner} (h : grants s o = true) : ArenaStep s (.claim o) (handOver s o)
  | released {o : MaintArenaOwner} (h : s.owner = some o) :
      ArenaStep s (.release o)
        { s with owner := none, histogram := errorHistogramResume s.histogram }
  | notHeld {o : MaintArenaOwner} (h : s.owner ≠ some o) : ArenaStep s (.release o) s
  | building (b : Bool) : ArenaStep s (.setIndexBuilding b) { s with logIndexBuilding := b }
  | wrote {o : MaintArenaOwner} (bytes : List UInt8) (h : s.owner = some o)
      (hw : ownerWritesScratch o = true) : ArenaStep s (.write o bytes) { s with scratch := bytes }

theorem arenaStep_cases {s t : Arena} {e : ArenaEvent} (h : arenaStep s e = some t) :
    ArenaStep s e t := by
  cases e with
  | claim o =>
    cases hg : grants s o with
    | false =>
      rw [arenaStep, maintArenaClaim_denied hg] at h
      exact Option.some.inj h ▸ .denied hg
    | true =>
      rw [arenaStep, maintArenaClaim_granted hg] at h
      exact Option.some.inj h ▸ .granted hg
  | release o =>
    simp only [arenaStep, maintArenaRelease, Option.some.injEq] at h
    split at h
    · rename_i ho
      exact h ▸ .released ho.symm
    · rename_i ho
      exact h ▸ .notHeld fun h => ho h.symm
  | setIndexBuilding b => exact Option.some.inj h ▸ .building b
  | write o bytes =>
    simp only [arenaStep] at h
    split at h
    · rename_i hw
      exact Option.some.inj h ▸ .wrote bytes hw.1 hw.2
    · cases h

/-- What the calls so far keep: the histogram is held while the arena is, and whoever holds it
and writes it owns its content. -/
structure ArenaInv (arena : Arena) : Prop where
  depth : arena.histogram.savePauseDepth = if arena.owner = none then 0 else 1
  newest : arena.histogram.calls.head? = some .pause ↔ arena.owner ≠ none
  alternate : arena.histogram.calls.IsChain (· ≠ ·)
  content : ∀ o, arena.owner = some o → ownerWritesScratch o = true → arena.contentOwner = some o

theorem arenaInv_init : ArenaInv Arena.init :=
  ⟨rfl, by simp [Arena.init], by simp [Arena.init], by simp [Arena.init]⟩

theorem handOver_content {s : Arena} {o : MaintArenaOwner} (h : ownerWritesScratch o = true) :
    (handOver s o).contentOwner = some o := by
  simp only [handOver, movesContent, h, Bool.true_and]
  split
  · rfl
  · simp_all

theorem arenaInv_step {s t : Arena} {e : ArenaEvent} (hi : ArenaInv s)
    (h : arenaStep s e = some t) : ArenaInv t := by
  cases arenaStep_cases h with
  | denied | notHeld => exact hi
  | building => exact ⟨hi.depth, hi.newest, hi.alternate, hi.content⟩
  | wrote => exact ⟨hi.depth, hi.newest, hi.alternate, hi.content⟩
  | @granted o =>
    refine ⟨?_, ?_, ?_, ?_⟩
    · cases ho : s.owner with
      | none => simp [handOver, ho, errorHistogramPause, hi.depth]
      | some => simp [handOver, ho, hi.depth]
    · cases ho : s.owner with
      | none => simp [handOver, ho, errorHistogramPause]
      | some => simp [handOver, ho, hi.newest]
    · cases ho : s.owner with
      | none =>
        have hnew : s.histogram.calls.head? ≠ some .pause := fun h => hi.newest.mp h ho
        simp only [handOver, ho, if_true, errorHistogramPause]
        refine List.IsChain.cons hi.alternate ?_
        intro c hc heq
        exact hnew (heq ▸ hc)
      | some => simp [handOver, ho, hi.alternate]
    · intro o' ho' hw
      cases ho'
      exact handOver_content hw
  | @released o ho =>
    have hdepth : s.histogram.savePauseDepth = 1 := by rw [hi.depth, ho]; rfl
    have hnew : s.histogram.calls.head? = some .pause := hi.newest.mpr (by simp [ho])
    refine ⟨?_, ?_, ?_, ?_⟩
    · simp [errorHistogramResume, hdepth]
    · simp [errorHistogramResume]
    · refine List.IsChain.cons hi.alternate ?_
      intro c hc heq
      rw [hnew] at hc
      cases hc
      cases heq
    · intro o' ho'
      cases ho'

/-! ## Exclusion -/

/-- An exclusive owner that holds the arena keeps it through every call but its own release. -/
theorem arenaStep_exclusive {s t : Arena} {e : ArenaEvent} {o : MaintArenaOwner}
    (ho : o ≠ .logIndex) (hs : s.owner = some o) (he : e ≠ .release o)
    (h : arenaStep s e = some t) :
    t.owner = some o ∧ ∀ o', e = .claim o' → o' ≠ o → grants s o' = false := by
  have hdeny : ∀ o', o' ≠ o → grants s o' = false := by
    intro o' hne
    simp [grants, evictable, hs, hne.symm, ho]
  refine ⟨?_, fun o' _ hne => hdeny o' hne⟩
  cases arenaStep_cases h with
  | denied | notHeld => exact hs
  | building | wrote => exact hs
  | @granted o' hg =>
    by_cases hne : o' = o
    · rw [hne]; rfl
    · rw [hdeny o' hne] at hg
      cases hg
  | @released o' ho' =>
    rw [hs] at ho'
    exact absurd (by rw [Option.some.inj ho']) he

/-- While the index is being built no other owner is granted the arena it holds. -/
theorem grants_building {s : Arena} (hb : s.logIndexBuilding = true)
    (hs : s.owner = some .logIndex) {o : MaintArenaOwner} (ho : o ≠ .logIndex) :
    grants s o = false := by
  simp [grants, evictable, hs, hb, ho.symm]

/-! ## The cached index -/

/-- How many calls of a run move the content owner. -/
def contentMoves : Arena → List ArenaEvent → ℕ
  | _, [] => 0
  | s, e :: es =>
    match arenaStep s e with
    | some t => (if t.contentOwner = s.contentOwner then 0 else 1) + contentMoves t es
    | none => 0

theorem contentMoves_cons {s t : Arena} {e : ArenaEvent} {es : List ArenaEvent}
    (h : arenaStep s e = some t) :
    contentMoves s (e :: es) =
      (if t.contentOwner = s.contentOwner then 0 else 1) + contentMoves t es := by
  rw [contentMoves, h]

/-- Every move of the content owner is counted, modulo the word size. -/
theorem arenaStep_generation {s t : Arena} {e : ArenaEvent} (h : arenaStep s e = some t) :
    t.generation.toNat =
      (s.generation.toNat + if t.contentOwner = s.contentOwner then 0 else 1) % 2 ^ 32 := by
  cases arenaStep_cases h with
  | denied | notHeld | building | wrote | released => simp
  | @granted o hg =>
    simp only [handOver]
    split
    · rename_i hm
      have hne : some o ≠ s.contentOwner := by
        simp only [movesContent, Bool.and_eq_true, decide_eq_true_eq] at hm
        exact hm.2
      rw [if_neg hne, UInt32.toNat_add]
      rfl
    · simp

theorem exec_generation {s t : Arena} {es : List ArenaEvent}
    (h : exec arenaStep s es = some t) :
    t.generation.toNat = (s.generation.toNat + contentMoves s es) % 2 ^ 32 := by
  induction es generalizing s with
  | nil =>
    have hlt := s.generation.toNat_lt
    rw [← Option.some.inj h, contentMoves, Nat.add_zero, Nat.mod_eq_of_lt hlt]
  | cons e es ih =>
    obtain ⟨u, hu, ht⟩ := Option.bind_eq_some_iff.mp h
    rw [ih ht, arenaStep_generation hu, contentMoves_cons hu, Nat.mod_add_mod, Nat.add_assoc]

/-- No step of a run grants the arena to, or is a write by, another scratch-writing owner. -/
def Untouched : Arena → List ArenaEvent → Prop :=
  Steps arenaStep fun s e _ =>
    (∀ o, e = .claim o → o ≠ .logIndex → ownerWritesScratch o = true → grants s o = false) ∧
      ∀ o bytes, e = .write o bytes → o = .logIndex

/-- While the log index owns the content and no call moves it, its cache is left alone. -/
theorem untouched_of_contentMoves {s t : Arena} {es : List ArenaEvent} (hi : ArenaInv s)
    (hc : s.contentOwner = some .logIndex) (h : exec arenaStep s es = some t)
    (hm : contentMoves s es = 0) : Untouched s es ∧ t.contentOwner = some .logIndex := by
  induction es generalizing s with
  | nil => exact ⟨trivial, Option.some.inj h ▸ hc⟩
  | cons e es ih =>
    obtain ⟨u, hu, ht⟩ := Option.bind_eq_some_iff.mp h
    rw [contentMoves_cons hu] at hm
    have hsame : u.contentOwner = s.contentOwner := by
      by_contra hne
      rw [if_neg hne] at hm
      omega
    obtain ⟨hun, hct⟩ := ih (arenaInv_step hi hu) (hsame.trans hc) ht (by omega)
    refine ⟨(steps_cons_some hu).mpr ⟨⟨?_, ?_⟩, hun⟩, hct⟩
    · rintro o rfl ho hw
      cases arenaStep_cases hu with
      | denied hg => exact hg
      | granted hg =>
        rw [handOver_content hw, hc] at hsame
        exact absurd (Option.some.inj hsame) ho
    · rintro o bytes rfl
      cases arenaStep_cases hu with
      | wrote _ ho hw =>
        have := hi.content o ho hw
        rw [hc] at this
        exact (Option.some.inj this).symm

/-- Equal generations at two granted index claims leave the cache alone, unless the counter went
all the way round between them. -/
theorem untouched_of_generation {s t : Arena} {es : List ArenaEvent} (hi : ArenaInv s)
    (hc : s.contentOwner = some .logIndex)
    (h : exec arenaStep s (es ++ [.claim .logIndex]) = some t)
    (hgen : t.generation = s.generation)
    (hm : contentMoves s (es ++ [.claim .logIndex]) < 2 ^ 32) :
    Untouched s (es ++ [.claim .logIndex]) := by
  have hround := exec_generation h
  have hlt := s.generation.toNat_lt
  rw [hgen] at hround
  exact (untouched_of_contentMoves hi hc h (by omega)).1

theorem exec_arenaInv {t : Arena} {es : List ArenaEvent}
    (h : exec arenaStep Arena.init es = some t) : ArenaInv t :=
  exec_inv arenaInv_step arenaInv_init h

/-- What the arena promises its tenants, from any state a run of calls reaches. -/
theorem maintArena_coherent {before : List ArenaEvent} {s : Arena}
    (hs : exec arenaStep Arena.init before = some s) :
    (∀ o after, o ≠ .logIndex → grants s o = true → ArenaEvent.release o ∉ after →
      Steps arenaStep
        (fun u e t => (u.owner = some o ∧ t.owner = some o) ∧
          ∀ o', e = .claim o' → o' ≠ o → grants u o' = false)
        (maintArenaClaim s (some o)).1 after) ∧
    (s.logIndexBuilding = true → s.owner = some .logIndex →
      ∀ o, o ≠ .logIndex → grants s o = false) ∧
    (∀ between u, grants s .logIndex = true →
      let first := (maintArenaClaim s (some .logIndex)).1
      exec arenaStep first between = some u → grants u .logIndex = true →
      let second := (maintArenaClaim u (some .logIndex)).1
      maintArenaGeneration second = maintArenaGeneration first →
      contentMoves first (between ++ [.claim .logIndex]) < 2 ^ 32 → Untouched first between) ∧
    ((s.histogram.savePauseDepth ≠ 0 ↔ s.owner ≠ none) ∧
      s.histogram.calls.IsChain (· ≠ ·)) := by
  have hi := exec_arenaInv hs
  refine ⟨?_, fun hb hown o ho => grants_building hb hown ho, ?_, ?_, hi.alternate⟩
  · intro o after hne hg hafter
    have hstart : (maintArenaClaim s (some o)).1.owner = some o := by
      rw [maintArenaClaim_granted hg]
      rfl
    have hkeep : ∀ {u e t}, u.owner = some o → e ≠ .release o → arenaStep u e = some t →
        t.owner = some o ∧ (u.owner = some o ∧ t.owner = some o) ∧
          ∀ o', e = .claim o' → o' ≠ o → grants u o' = false := by
      intro u e t hu he hstep
      obtain ⟨ht, hdeny⟩ := arenaStep_exclusive hne hu he hstep
      exact ⟨ht, ⟨hu, ht⟩, hdeny⟩
    refine Steps.of_inv hkeep hstart (Steps.of_mem ?_)
    rintro e he rfl
    exact hafter he
  · intro between u hg first hrun _ second hgen hm
    have hfirst : arenaStep s (.claim .logIndex) = some first := rfl
    have hc : first.contentOwner = some .logIndex := by
      simp only [first, maintArenaClaim_granted hg]
      exact handOver_content rfl
    have hall : exec arenaStep first (between ++ [.claim .logIndex]) = some second := by
      rw [exec_append hrun]
      rfl
    exact (untouched_of_generation (arenaInv_step hi hfirst) hc hall hgen hm).left
  · rw [hi.depth]
    split <;> simp_all

/-- The arena while the log index is being built in it. -/
def indexBuilding : Arena :=
  maintArenaSetIndexBuilding (maintArenaClaim Arena.init (some .logIndex)).1 true

theorem indexBuilding_coherent :
    exec arenaStep Arena.init [.claim .logIndex, .setIndexBuilding true] = some indexBuilding ∧
      (∀ o, o ≠ .logIndex → grants indexBuilding o = false) ∧
      indexBuilding.histogram.savePauseDepth ≠ 0 := by
  have hrun : exec arenaStep Arena.init [.claim .logIndex, .setIndexBuilding true] =
      some indexBuilding := rfl
  obtain ⟨-, hbuilding, -, hheld, -⟩ := maintArena_coherent hrun
  exact ⟨hrun, hbuilding rfl rfl, hheld.mpr (by decide)⟩

/-- A round in which the ota evicts the log index, and the index takes the arena back. -/
def evictionRound : List ArenaEvent := [.claim .ota, .release .ota, .claim .logIndex]

/-- The index holds an unpinned arena with its own content in it. -/
structure IndexHolds (s : Arena) (generation : ℕ) : Prop where
  owner : s.owner = some .logIndex
  contentOwner : s.contentOwner = some .logIndex
  unpinned : s.logIndexBuilding = false
  generation_eq : s.generation.toNat = generation % 2 ^ 32

/-- An eviction round moves the generation on by two. -/
theorem exec_evictionRound {s : Arena} {g : ℕ} (h : IndexHolds s g) :
    ∃ t, exec arenaStep s evictionRound = some t ∧ IndexHolds t (g + 2) := by
  obtain ⟨ow, co, gen, bld, hist, scr⟩ := s
  obtain ⟨ho, hc, hb, hg⟩ := h
  simp only at ho hc hb hg
  subst ho hc hb
  refine ⟨_, rfl, rfl, rfl, rfl, ?_⟩
  show (gen + 1 + 1).toNat = _
  rw [UInt32.toNat_add, UInt32.toNat_add, hg]
  show ((g % 2 ^ 32 + 1) % 2 ^ 32 + 1) % 2 ^ 32 = _
  omega

theorem exec_evictionRounds {s : Arena} {g : ℕ} (h : IndexHolds s g) (n : ℕ) :
    ∃ t, exec arenaStep s (List.replicate n evictionRound).flatten = some t ∧
      IndexHolds t (g + 2 * n) := by
  induction n generalizing s g with
  | zero => exact ⟨s, rfl, h⟩
  | succ n ih =>
    obtain ⟨u, hu, hu'⟩ := exec_evictionRound h
    obtain ⟨t, ht, ht'⟩ := ih hu'
    refine ⟨t, ?_, ?_⟩
    · rw [List.replicate_succ, List.flatten_cons, exec_append hu, ht]
    · rwa [show g + 2 * (n + 1) = g + 2 + 2 * n by omega]

/-- After `2 ^ 31` eviction rounds the log index reads the generation it started from. -/
theorem generation_wraps :
    let first := (maintArenaClaim Arena.init (some .logIndex)).1
    ∃ between u, exec arenaStep first between = some u ∧ grants u .logIndex = true ∧
      maintArenaGeneration (maintArenaClaim u (some .logIndex)).1 = maintArenaGeneration first ∧
      ¬Untouched first between := by
  intro first
  have hfirst : IndexHolds first 1 := ⟨rfl, rfl, rfl, rfl⟩
  obtain ⟨u, hu, ho, hc, hb, hg⟩ := exec_evictionRounds hfirst (2 ^ 31)
  have hgrant : grants u .logIndex = true := by simp [grants, ho]
  refine ⟨_, u, hu, hgrant, ?_, ?_⟩
  · have hsame : maintArenaGeneration (maintArenaClaim u (some .logIndex)).1 = u.generation := by
      rw [maintArenaClaim_granted hgrant]
      simp [maintArenaGeneration, handOver, movesContent, hc]
    rw [hsame]
    exact UInt32.toNat_inj.mp (hg.trans rfl)
  · intro h
    have hclaim : arenaStep first (.claim .ota) = some (maintArenaClaim first (some .ota)).1 := rfl
    rw [show (2 : ℕ) ^ 31 = (2 ^ 31 - 1) + 1 from rfl, List.replicate_succ, List.flatten_cons] at h
    have := ((steps_cons_some hclaim).mp h).1.1 .ota rfl (by decide) rfl
    exact absurd this (by decide)

end DiveCANHead.Maintenance
