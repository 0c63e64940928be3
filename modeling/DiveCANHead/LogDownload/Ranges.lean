import DiveCANHead.Lib.Runs
import DiveCANHead.LogDownload.Machine

/-!
# The ranges of a selection (`uds_log_download.c`, `flash_log_reader.c`)

Whatever selectors arrive and however the resolve worker runs, the range in the state
machine is the whole ring or begins in a sector of the log. From there the reader goes
round to the active sector. A range says nothing of the content of the log, so what
was selected before an entry was appended can still be streamed after it.
-/

namespace DiveCANHead.LogDownload

open DiveCANHead.Lib DiveCANHead.FlashLog

variable {f : Fcb}

/-- A range as the selectors make it. -/
inductive SelectedFrom (f : Fcb) : FlashLogRange → Prop where
  | all : SelectedFrom f resolveAll
  | sectors {first : ℕ} (endSector : Option ℕ) (h : first < f.sectorCnt) :
      SelectedFrom f (sectorRange first endSector)

/-- From any sector, the walk goes round to the active one and serves no entry twice. -/
theorem walk_around {s : ℕ} (hs : s < f.sectorCnt) :
    ∃ es, Fcb.Walk f s 0 es ∧ es.length ≤ f.log.length := by
  have ha : f.active < f.sectorCnt := f.active_lt
  set n := (f.active + f.sectorCnt - s) % f.sectorCnt with hn
  have hlt : n < f.sectorCnt := Nat.mod_lt _ (Nat.zero_lt_of_lt hs)
  have hend : (s + n) % f.sectorCnt = f.active := by
    have hsum : s + (f.active + f.sectorCnt - s) = f.active + f.sectorCnt := by omega
    rw [hn, Nat.add_mod_mod, hsum, Nat.add_mod_right, Nat.mod_eq_of_lt ha]
  have hpath := Fcb.path_cycle hend hlt
  have hlen : (cycle f.sectorCnt s (n + 1)).length ≤ f.sectorCnt := by
    rw [length_cycle]
    exact hlt
  refine ⟨tagged f.sector (cycle f.sectorCnt s (n + 1)), ?_, ?_⟩
  · have hcycle := cycle_succ f.sectorCnt s n
    rw [Nat.mod_eq_of_lt hs] at hcycle
    rw [hcycle] at hpath hlen ⊢
    exact Fcb.walk_path hpath hlen 0
  · refine (length_tagged_le_of_mem (nodup_cycle hlt) (?_ : ∀ t ∈ _, _ → t ∈ f.ring)).trans_eq ?_
    · intro t _ hne
      by_contra hring
      exact hne (Fcb.sector_eq_nil hring)
    · rw [Fcb.log, ← map_snd_tagged, List.length_map]

theorem SelectedFrom.walk {range : FlashLogRange} (h : SelectedFrom f range) :
    ∃ es, f.Walk (range.begin.sector.getD f.oldest) range.begin.elemOff es ∧
      es.length ≤ f.log.length := by
  cases h with
  | all => exact walk_around f.oldest_lt
  | sectors _ hs => exact walk_around hs

theorem SelectedFrom.stop {range : FlashLogRange} (h : SelectedFrom f range) :
    range.stop.elemOff = 0 := by
  cases h <;> rfl

/-! ## What the selectors resolve to -/

theorem SelectedFrom.congr {g : Fcb} {range : FlashLogRange} (h : SelectedFrom f range)
    (hcnt : f.sectorCnt = g.sectorCnt) : SelectedFrom g range := by
  cases h with
  | all => exact .all
  | sectors endSector hs => exact .sectors endSector (hcnt ▸ hs)

theorem resolveId_selected {key stop : FlashLogIndexEntry → Bool} {isMarker : Entry → Bool}
    {range : FlashLogRange} (h : resolveId f key stop isMarker = some range) :
    SelectedFrom f range := by
  rw [resolveId_eq] at h
  obtain ⟨first, hfirst, rfl⟩ := Option.map_eq_some_iff.mp h
  refine .sectors _ ?_
  rcases Option.or_eq_some_iff.mp hfirst with hkeyed | ⟨-, hscan⟩
  · rw [← length_buildIndex f]
    exact (List.findIdx?_eq_some_iff_getElem.mp hkeyed).1
  · obtain ⟨p, hp, rfl⟩ := Option.map_eq_some_iff.mp hscan
    have hmem : p ∈ tagged f.sector f.ring := f.walk_eq ▸ List.mem_of_find?_eq_some hp
    exact f.lt_of_mem_ring (mem_tagged.mp hmem).1

/-- The loop keeps the index of a row. -/
theorem scanLatest_lt {kind : FlashLogIndexEntry → Bool}
    {newer : FlashLogIndexEntry → FlashLogIndexEntry → Bool} {i : ℕ}
    {best found : Option (FlashLogIndexEntry × ℕ)} {rows : List FlashLogIndexEntry}
    (hbest : ∀ b, best = some b → b.2 < i) (h : scanLatest kind newer i best rows = found) :
    ∀ b, found = some b → b.2 < i + rows.length := by
  induction rows generalizing i best with
  | nil =>
    cases best <;> exact h ▸ hbest
  | cons row rows ih =>
    have hnext : ∀ next, (∀ b, next = some b → b.2 < i + 1) →
        scanLatest kind newer (i + 1) next rows = found →
          ∀ b, found = some b → b.2 < i + (row :: rows).length := by
      intro next hlt hscan
      rw [List.length_cons, ← Nat.add_assoc, Nat.add_right_comm]
      exact ih hlt hscan
    cases best with
    | none =>
      refine hnext _ ?_ h
      intro b hb
      split at hb
      · cases hb
        exact Nat.lt_succ_self i
      · cases hb
    | some best =>
      refine hnext _ ?_ h
      intro b hb
      split at hb
      · cases hb
        exact Nat.lt_succ_self i
      · exact Nat.lt_succ_of_lt (hbest b hb)

theorem latest_selected {kind : FlashLogIndexEntry → Bool}
    {newer : FlashLogIndexEntry → FlashLogIndexEntry → Bool} {range : FlashLogRange}
    (h : latestRange (scanLatest kind newer 0 none (buildIndex f)) = some range) :
    SelectedFrom f range := by
  obtain ⟨b, hb, rfl⟩ := Option.map_eq_some_iff.mp h
  have hnone : ∀ b, (none : Option (FlashLogIndexEntry × ℕ)) = some b → b.2 < 0 := nofun
  have hlt := scanLatest_lt hnone rfl b hb
  rw [length_buildIndex, Nat.zero_add] at hlt
  exact .sectors none hlt

/-- A range that was resolved on one of the two logs. -/
def FromLog (log : FlashLogDest → Fcb) (r : LogRange) : Prop := SelectedFrom (log r.dest) r.range

theorem resolveOn_fromLog {v : FlashView} {stream : FlashLogDest}
    {impl : Fcb → Option FlashLogRange}
    (himpl : ∀ f range, impl f = some range → SelectedFrom f range) {r : LogRange}
    (h : resolveOn v stream impl = .ok r) : FromLog v.fcb r := by
  unfold resolveOn at h
  split at h
  · split at h
    · cases h
    · split at h
      · next hr =>
        cases h
        exact himpl _ _ hr
      · cases h
  · cases h

theorem callResolver_fromLog {v : FlashView} {q : ResolveRequest} {r : LogRange}
    (h : callResolver v q = .ok r) : FromLog v.fcb r := by
  unfold callResolver at h
  split at h
  · cases h
  split at h
  · exact resolveOn_fromLog (fun f range => latest_selected) h
  split at h
  · exact resolveOn_fromLog (fun f range => latest_selected) h
  split at h
  · exact resolveOn_fromLog (fun f range => resolveId_selected) h
  split at h
  · exact resolveOn_fromLog (fun f range => resolveId_selected) h
  · cases h

theorem resolveRetrying_fromLog {q : ResolveRequest} {tries : ℕ} {views : ℕ → FlashView}
    {r : LogRange} (h : resolveRetrying q tries views = .ok r) :
    ∃ k, FromLog (views k).fcb r := by
  induction tries generalizing views with
  | zero => cases h
  | succ tries ih =>
    unfold resolveRetrying at h
    split at h
    · obtain ⟨k, hk⟩ := ih h
      exact ⟨k + 1, hk⟩
    · exact ⟨0, callResolver_fromLog h⟩

/-! ## The range in the state machine -/

/-- Every log that the worker finds has the sectors of this one. -/
def SameSectors (log : FlashLogDest → Fcb) : Event → Prop
  | .publish views => ∀ k dest, ((views k).fcb dest).sectorCnt = (log dest).sectorCnt
  | .routine _ _ | .transferExit | .poll _ | .wake | .snapshot => True

variable {log : FlashLogDest → Fcb}

theorem handleRoutine_fromLog {env : Surroundings} {sm : LogDownloadSM} {request : List UInt8}
    (h : FromLog log sm.range) : FromLog log (handleRoutine env sm request).2.range := by
  rcases handleRoutine_cases env sm request with ⟨nrc, hrefused⟩ | ⟨-, -, hbegin⟩ | ⟨-, -, hstep⟩
  · rw [hrefused]
    exact h
  · rw [hbegin]
    exact h
  · generalize handleRoutine env sm request = res at hstep ⊢
    cases hstep with
    | all => exact SelectedFrom.all
    | refused | kicked | failed | collected => exact h

theorem publish_fromLog {sm : LogDownloadSM} {q : ResolveRequest} {views : ℕ → FlashView}
    (hviews : SameSectors log (.publish views)) (h : FromLog log sm.range) :
    FromLog log (publish sm q (workerResolve q views)).range := by
  unfold publish
  split
  · show FromLog log (workerResolve q views).range
    cases hresolve : workerResolve q views with
    | error e => exact SelectedFrom.all
    | ok r =>
      obtain ⟨k, hk⟩ := resolveRetrying_fromLog hresolve
      exact SelectedFrom.congr hk (hviews k r.dest)
  · exact h

theorem system_fromLog {y y' : System} {e : Event} (h : FromLog log y.sm.range)
    (he : SameSectors log e) (hstep : y.step e = some y') : FromLog log y'.sm.range := by
  cases System.step_of hstep with
  | routine env request => exact handleRoutine_fromLog h
  | publish hworker views => exact publish_fromLog he h
  | transferExit | stalled | quiet | wake | snapshot => exact h

/-- In every state that is reached, the range is one of the logs'. -/
theorem range_fromLog {es : List Event} {y : System}
    (hviews : Steps System.step (fun _ e _ => SameSectors log e) {} es)
    (hrun : exec System.step {} es = some y) : FromLog log y.sm.range := by
  have hstart : FromLog log ({} : System).sm.range := SelectedFrom.all
  exact Steps.inv_exec system_fromLog hstart hviews hrun

end DiveCANHead.LogDownload
