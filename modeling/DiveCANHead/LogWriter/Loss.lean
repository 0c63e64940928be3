import DiveCANHead.LogWriter.Stored

/-!
# What a flush loses (`fl_batch_flush`)

A flush clears the buffer and the drop counters whatever the flash answers. Nothing is lost
silently exactly if every entry that it writes is finished.
-/

namespace DiveCANHead.LogWriter

open DiveCANHead.Lib DiveCANHead.FlashLog DiveCANHead.LogDownload

/-! ## Reported drops -/

/-- The marker that reports drops. -/
def isDropMarker (e : LogRecord) : Bool :=
  e.type == flTypeDropMarker && e.flags == flEntryFlagDropPreceded

/-- The drops that the markers of these entries report. -/
def reportedIn (entries : List LogRecord) : ℕ :=
  ((entries.filter isDropMarker).map fun e => leNat (e.payload.take 4)).sum

def Ring.reported (r : Ring) : ℕ := reportedIn r.entries

/-- After the step every record that was staged for a ring is stored in it, staged, or `lost` and
counted, and no count is forgotten. -/
def NoSilentLoss (w w' : Writer) : Prop :=
  ∀ dest, ∃ lost : List LogRecord,
    ((w'.ring dest).stored ++ w'.pending dest ++ lost).Perm
      ((w.ring dest).stored ++ w.pending dest) ∧
    (w.ring dest).reported + (w.drops dest).toNat + lost.length ≤
      (w'.ring dest).reported + (w'.drops dest).toNat

theorem reportedIn_append (es es' : List LogRecord) :
    reportedIn (es ++ es') = reportedIn es + reportedIn es' := by
  rw [reportedIn, List.filter_append, List.map_append, List.sum_append]
  rfl

theorem reportedIn_cons (e : LogRecord) (es : List LogRecord) :
    reportedIn (e :: es) = reportedIn [e] + reportedIn es := reportedIn_append [e] es

theorem storedOf_cons (e : LogRecord) (es : List LogRecord) :
    storedOf (e :: es) = storedOf [e] ++ storedOf es := storedOf_append [e] es

/-! ## What an entry is worth -/

/-- The records in an entry and the drops that it reports. -/
def worth (e : LogRecord) : ℕ := (storedOf [e]).length + reportedIn [e]

theorem sum_worth (entries : List LogRecord) :
    (entries.map worth).sum = (storedOf entries).length + reportedIn entries := by
  induction entries with
  | nil => rfl
  | cons e entries ih =>
    rw [List.map_cons, List.sum_cons, ih, storedOf_cons e entries, reportedIn_cons e entries,
      List.length_append, worth]
    omega

/-- Leaving out an element of a list lowers a sum of positive numbers over it. -/
theorem sum_add_length_le {α : Type} {f : α → ℕ} {part all : List α} (hsub : part.Sublist all)
    (hpos : ∀ x ∈ all, 0 < f x) :
    (part.map f).sum + all.length ≤ (all.map f).sum + part.length := by
  induction hsub with
  | slnil => exact Nat.le_refl _
  | @cons part all x hsub ih =>
    have hx := hpos x List.mem_cons_self
    have hrest := ih fun y hy => hpos y (.tail _ hy)
    rw [List.map_cons, List.sum_cons, List.length_cons]
    omega
  | @cons_cons part all x hsub ih =>
    have hrest := ih fun y hy => hpos y (.tail _ hy)
    rw [List.map_cons, List.map_cons, List.sum_cons, List.sum_cons, List.length_cons,
      List.length_cons]
    omega

theorem reportedIn_dropMarker (count : UInt32) (lastType : UInt8) (now : UInt64) :
    reportedIn [Writer.dropMarker count lastType now] = count.toNat := by
  have hcount : (leBytes 4 count.toNat ++ [lastType]).take 4 = leBytes 4 count.toNat := rfl
  have hread : leNat (leBytes 4 count.toNat) = count.toNat := leNat_leBytes count.toNat_lt
  change leNat ((leBytes 4 count.toNat ++ [lastType]).take 4) + 0 = _
  rw [hcount, hread, Nat.add_zero]

theorem reportedIn_of_flags {entries : List LogRecord} (h : ∀ e ∈ entries, e.flags = 0) :
    reportedIn entries = 0 := by
  have hnone : entries.filter isDropMarker = [] := by
    refine List.filter_eq_nil_iff.mpr fun e he => ?_
    rw [isDropMarker, h e he]
    simp [flEntryFlagDropPreceded]
  rw [reportedIn, hnone]
  rfl

/-! ## The writes of a flush -/

theorem entry_of_mem_singlePlan {r : BatchRecord} {p : PlannedWrite}
    (h : p ∈ Writer.singlePlan r) : p.entry = r.entry := by
  rcases List.mem_append.mp h with h | h
  · obtain ⟨dest, -, rfl⟩ := List.mem_map.mp h
    rfl
  · split at h
    · rw [List.mem_singleton.mp h]
      rfl
    · exact absurd h List.not_mem_nil

section Planned

variable {w : Writer} {slots : List Slot}

theorem reportedIn_planned (hbatch : w.batch ≠ []) (now : FlashLogDest → UInt64)
    (dest : FlashLogDest) :
    reportedIn (((w.planned now).filter fun p => p.dest = dest).map PlannedWrite.entry) =
      (w.drops dest).toNat := by
  have hdrops : ∀ d, reportedIn (((w.dropPlan d (now d)).filter fun p => p.dest = dest).map
      PlannedWrite.entry) = if d = dest then (w.drops dest).toNat else 0 := by
    intro d
    unfold Writer.dropPlan
    split
    · next hzero => split <;> simp_all [reportedIn]
    · by_cases hd : d = dest
      · subst hd
        rw [if_pos rfl, List.filter_singleton, PlannedWrite.single]
        simpa using reportedIn_dropMarker (w.drops d) (w.lastDropType d) (now d)
      · rw [if_neg hd, List.filter_singleton, PlannedWrite.single]
        simp [hd, reportedIn]
  have hsingles : reportedIn (((((batchRecords w.batch).filter BatchRecord.isSingle).flatMap
      Writer.singlePlan).filter fun p => p.dest = dest).map PlannedWrite.entry) = 0 := by
    apply reportedIn_of_flags
    simp only [List.mem_map, List.mem_filter, List.mem_flatMap]
    rintro e ⟨p, ⟨⟨r, -, hp⟩, -⟩, rfl⟩
    exact congrArg LogRecord.flags (entry_of_mem_singlePlan hp)
  have hcontainer : reportedIn (((Writer.containerPlan ((batchRecords w.batch).filter
      BatchRecord.isTelemetryData)).filter fun p => p.dest = dest).map PlannedWrite.entry) = 0 := by
    apply reportedIn_of_flags
    simp only [List.mem_map, List.mem_filter]
    rintro e ⟨p, ⟨hp, -⟩, rfl⟩
    cases hsubs : (batchRecords w.batch).filter BatchRecord.isTelemetryData with
    | nil => exact absurd (hsubs ▸ hp) List.not_mem_nil
    | cons first rest =>
      rw [hsubs] at hp
      rw [List.mem_singleton.mp hp]
      rfl
  rw [Writer.planned, if_neg hbatch, Writer.flushPlan]
  simp only [List.filter_append, List.map_append, reportedIn_append, hdrops, hsingles, hcontainer]
  cases dest <;> simp

/-- Every write of a flush is worth something. -/
theorem worth_planned (hbatch : w.batch = slots.flatMap Slot.pack) (now : FlashLogDest → UInt64) :
    ∀ p ∈ w.planned now, 0 < worth p.entry := by
  have hproper : ∀ r ∈ batchRecords w.batch, r.Proper := by
    rw [hbatch, batchRecords_pack]
    intro r hr
    obtain ⟨s, -, rfl⟩ := List.mem_map.mp hr
    exact s.proper
  have hdrop : ∀ dest, ∀ p ∈ w.dropPlan dest (now dest), 0 < worth p.entry := by
    intro dest p hp
    unfold Writer.dropPlan at hp
    split at hp
    · exact absurd hp List.not_mem_nil
    · next hcount =>
      rw [List.mem_singleton.mp hp]
      have hreported := reportedIn_dropMarker (w.drops dest) (w.lastDropType dest) (now dest)
      have hpos : (w.drops dest).toNat ≠ 0 := fun h0 => hcount (UInt32.toNat_inj.mp h0)
      refine Nat.lt_of_lt_of_le (Nat.pos_of_ne_zero hpos) ?_
      rw [← hreported]
      exact Nat.le_add_left _ _
  intro p hp
  unfold Writer.planned at hp
  split at hp
  · exact absurd hp List.not_mem_nil
  simp only [Writer.flushPlan, List.mem_append, List.mem_flatMap, List.mem_filter] at hp
  rcases hp with ((hp | hp) | ⟨r, ⟨hr, -⟩, hp⟩) | hp
  · exact hdrop .telemetry p hp
  · exact hdrop .text p hp
  · have hstored : storedOf [r.entry] = [r.entry] := storedOf_single (hproper r hr).2.1
    rw [entry_of_mem_singlePlan hp, worth, hstored]
    exact Nat.le_add_right 1 _
  · cases hsubs : (batchRecords w.batch).filter BatchRecord.isTelemetryData with
    | nil => exact absurd (hsubs ▸ hp) List.not_mem_nil
    | cons first rest =>
      have hsubsProper : ∀ r ∈ first :: rest, r.Proper := fun r hr =>
        hproper r (List.mem_of_mem_filter (hsubs ▸ hr))
      rw [hsubs] at hp
      rw [List.mem_singleton.mp hp, worth, storedOf_container hsubsProper, List.length_map,
        List.length_cons]
      omega

/-- A flush stores all that is staged for a ring, in some order. -/
theorem storedBy_perm (records : List BatchRecord)
    (hown : ∀ r ∈ records, ∃ dest, r.dest = some dest) (dest : FlashLogDest) :
    (storedBy dest records).Perm ((records.filter (BatchRecord.isFor dest)).map
      BatchRecord.entry) := by
  apply List.Perm.map
  have hsplit := List.filter_append_perm BatchRecord.isSingle
    (records.filter (BatchRecord.isFor dest))
  rw [List.filter_filter, List.filter_filter] at hsplit
  have hdata : (records.filter fun r => !r.isSingle && r.isFor dest) =
      if dest = .telemetry then records.filter BatchRecord.isTelemetryData else [] := by
    split
    · next hdest =>
      subst hdest
      refine List.filter_congr fun r hr => ?_
      obtain ⟨own, hown⟩ := hown r hr
      rw [BatchRecord.isSingle, BatchRecord.isFor, BatchRecord.isTelemetryData, hown]
      cases own <;> cases isMarkerType r.type <;> rfl
    · next hdest =>
      refine List.filter_eq_nil_iff.mpr fun r hr => ?_
      rw [BatchRecord.isSingle, BatchRecord.isFor]
      cases dest with
      | telemetry => exact absurd rfl hdest
      | text => cases isMarkerType r.type <;> simp
  rw [hdata] at hsplit
  exact hsplit

end Planned

/-! ## The balance of a flush -/

theorem drops_batchFlush {w : Writer} (hbatch : w.batch ≠ []) (now : FlashLogDest → UInt64)
    (dest : FlashLogDest) : (w.batchFlush now).drops dest = 0 := by
  have hdrops := (Writer.perform_drops (w := { w with drops := fun _ => 0 })
    (w.flushPlan now (batchRecords w.batch))).1
  rw [Writer.batchFlush_eq hbatch]
  exact congrFun hdrops dest

theorem reported_batchFlush (w : Writer) (now : FlashLogDest → UInt64) (dest : FlashLogDest) :
    ((w.batchFlush now).ring dest).reported = (w.ring dest).reported +
      reportedIn (((landed (w.planned now) w.script).filter fun p => p.dest = dest).map
        PlannedWrite.entry) := by
  rw [Ring.reported, Writer.entries_batchFlush, reportedIn_append]
  rfl

/-- If nothing is lost silently, all writes for a ring are finished. -/
theorem landed_of_noSilentLoss {w : Writer} {slots : List Slot}
    (hbatch : w.batch = slots.flatMap Slot.pack) {now : FlashLogDest → UInt64}
    (h : NoSilentLoss w (w.batchFlush now)) (dest : FlashLogDest) :
    ((landed (w.planned now) w.script).filter fun p => p.dest = dest).length =
      ((w.planned now).filter fun p => p.dest = dest).length := by
  by_cases hempty : w.batch = []
  · rw [Writer.planned, if_pos hempty]
    rfl
  have hown : ∀ r ∈ slots.map Slot.record, ∃ d, r.dest = some d := by
    intro r hr
    obtain ⟨s, -, rfl⟩ := List.mem_map.mp hr
    exact ⟨s.dest, rfl⟩
  obtain ⟨lost, hperm, hcount⟩ := h dest
  have hlength := hperm.length_eq
  have hstaged := (storedBy_perm (slots.map Slot.record) hown dest).length_eq
  rw [← Writer.pending_eq _ hbatch, ← Writer.storedOf_planned hbatch now] at hstaged
  rw [reported_batchFlush, drops_batchFlush hempty, ← reportedIn_planned hempty now] at hcount
  rw [Ring.stored_eq, Writer.entries_batchFlush, storedOf_append, ← Ring.stored_eq,
    Writer.pending_of_empty (Writer.batch_batchFlush now)] at hlength
  simp only [List.length_append, List.length_nil, UInt32.toNat_zero] at hlength hcount
  -- the finished writes of this ring are worth as much as all of them
  have hpart := (landed_sublist (w.planned now) w.script).filter fun p => p.dest = dest
  have hworth := sum_add_length_le (f := fun p => worth (PlannedWrite.entry p)) hpart fun p hp =>
    worth_planned hbatch now p (List.mem_of_mem_filter hp)
  have hsum : ∀ l : List PlannedWrite, (l.map fun p => worth p.entry).sum =
      (storedOf (l.map PlannedWrite.entry)).length + reportedIn (l.map PlannedWrite.entry) := by
    intro l
    rw [← sum_worth, List.map_map]
    rfl
  rw [hsum, hsum] at hworth
  have hle := hpart.length_le
  omega

theorem noSilentLoss_of_landsAll {w : Writer} {slots : List Slot}
    (hbatch : w.batch = slots.flatMap Slot.pack) {now : FlashLogDest → UInt64}
    (h : landsAll (w.planned now) w.script = true) : NoSilentLoss w (w.batchFlush now) := by
  intro dest
  refine ⟨[], ?_, ?_⟩
  · have hown : ∀ r ∈ slots.map Slot.record, ∃ d, r.dest = some d := by
      intro r hr
      obtain ⟨s, -, rfl⟩ := List.mem_map.mp hr
      exact ⟨s.dest, rfl⟩
    rw [List.append_nil, Writer.pending_of_empty (Writer.batch_batchFlush now), List.append_nil,
      Writer.stored_batchFlush hbatch h, Writer.pending_eq _ hbatch]
    exact (storedBy_perm _ hown dest).append_left _
  · rw [List.length_nil, Nat.add_zero]
    by_cases hempty : w.batch = []
    · rw [Writer.batchFlush, if_pos hempty]
    · rw [reported_batchFlush, drops_batchFlush hempty, landed_of_landsAll h,
        reportedIn_planned hempty]
      exact Nat.le_refl _

/-- A flush of staged slots loses nothing silently exactly if the flash finishes every entry that
it writes. -/
theorem noSilentLoss_iff (w : Writer) (slots : List Slot) (now : FlashLogDest → UInt64)
    (h : slots.foldlM batchAppend [] = some w.batch) :
    NoSilentLoss w (w.batchFlush now) ↔ landsAll (w.planned now) w.script = true := by
  have hbatch : w.batch = slots.flatMap Slot.pack := batch_of_foldlM h
  refine ⟨fun hsafe => landsAll_of_length ?_, noSilentLoss_of_landsAll hbatch⟩
  have htelemetry := landed_of_noSilentLoss hbatch hsafe .telemetry
  have htext := landed_of_noSilentLoss hbatch hsafe .text
  have hrings : ∀ l : List PlannedWrite, l.length =
      (l.filter fun p => p.dest = .telemetry).length +
        (l.filter fun p => p.dest = .text).length := by
    intro l
    rw [List.length_eq_length_filter_add fun p : PlannedWrite => decide (p.dest = .telemetry)]
    congr 2
    refine List.filter_congr fun p _ => ?_
    cases p.dest <;> rfl
  rw [hrings, htelemetry, htext, ← hrings]

/-- A staged sample with a flash that answers as given. -/
def staged (script : List WriteOutcome) : Writer := { batch := sample.pack, script }

theorem noSilentLoss_sound :
    [sample].foldlM batchAppend [] = some (staged []).batch ∧
      landsAll ((staged []).planned fun _ => 0) [] = true ∧
      NoSilentLoss (staged []) ((staged []).batchFlush fun _ => 0) := by
  have hlands : landsAll ((staged []).planned fun _ => 0) [] = true :=
    landsAll_of_succeeds (fun _ ho => absurd ho List.not_mem_nil) _
  exact ⟨rfl, hlands, (noSilentLoss_iff (staged []) [sample] (fun _ => 0) rfl).mpr hlands⟩

/-- The flash cannot be acquired: the staged sample is gone. -/
theorem staged_lostOnAcquire :
    ¬ NoSilentLoss (staged [{ acquire := -16 }])
      ((staged [{ acquire := -16 }]).batchFlush fun _ => 0) := by
  intro h
  have hrecords : batchRecords sample.pack = [sample.record] := by
    have hpack := batchRecords_pack [sample]
    rwa [List.flatMap_singleton] at hpack
  have hplanned : (staged [{ acquire := -16 }]).planned (fun _ => 0) =
      Writer.containerPlan [sample.record] := by
    rw [Writer.planned, if_neg (by decide)]
    exact congrArg ((staged [{ acquire := -16 }]).flushPlan fun _ => 0) hrecords
  have hlanded := landed_of_noSilentLoss (List.flatMap_singleton Slot.pack sample).symm h .telemetry
  rw [hplanned] at hlanded
  exact absurd hlanded (by decide)

end DiveCANHead.LogWriter
