import DiveCANHead.LogClient.Parse
import DiveCANHead.LogClient.Resumed

/-!
# A download that is no longer disturbed

Head and client together: however the attempts before were cut off, one that gets the answers of the
head leaves the whole stream in the store, and the parser takes the entries of the range apart.
-/

namespace DiveCANHead.LogClient

open DiveCANHead.Lib DiveCANHead.FlashLog DiveCANHead.Uds DiveCANHead.LogDownload

/-- The turns that get these answers. -/
def answered (replies : List (List UInt8)) : List LadderEvent :=
  replies.map fun reply => .turn { response := some reply } none

theorem answered_append (replies more : List (List UInt8)) :
    answered (replies ++ more) = answered replies ++ answered more := List.map_append

theorem length_answered (replies : List (List UInt8)) :
    (answered replies).length = replies.length := List.length_map _

/-- An attempt that gets these answers and meets nothing else. -/
def undisturbed (block : ℕ) (replies : List (List UInt8)) : List LadderEvent :=
  .start true (.ok block) :: (answered replies ++ [.exit none, .finish true, .finish true])

/-- The limits of the download have room for a log. -/
structure LadderConfig.Allows (cfg : LadderConfig) (log : List UInt8) (block : ℕ) : Prop where
  bytes : (log.length : ℤ) ≤ cfg.maxBytes
  blocks : ∀ m, cfg.maxBlocks = some m → log.length / block < m

section

variable {cfg : LadderConfig} {log saved : List UInt8} {pcfg : PullConfig} {p q : Pull}
  {reply : List UInt8} {s : Ladder} {block k : ℕ}

/-- A turn that gets the next block goes on after a whole one, and is the last after a short
one. -/
theorem Follows.answered (h : Follows log saved pcfg p) (hsaved : saved <+: log)
    (hmagic : logDownloadMagic <+: log) (hblock : logDownloadMagic.length ≤ pcfg.negotiatedBlock)
    (hbytes : (log.length : ℤ) ≤ pcfg.maxBytes)
    (hblocks : ∀ m, pcfg.maxBlocks = some m → p.blocks.length < m)
    (hreply : reply.drop 2 = logBlock log pcfg.negotiatedBlock p.blocks.length)
    (hq : pullStep pcfg p { response := some reply } = some q) :
    ((p.blocks.length + 1) * pcfg.negotiatedBlock ≤ log.length →
      Follows log saved pcfg q ∧ q.blocks.length = p.blocks.length + 1) ∧
    (log.length < (p.blocks.length + 1) * pcfg.negotiatedBlock →
      q.status = .complete ∧ q.store = log) := by
  have hserved : Served log pcfg p { response := some reply } := fun resp hresp => by
    obtain rfl := Option.some.inj hresp
    exact hreply
  cases h.step hsaved hmagic hblock hserved hq with
  | goesOn hnext hone =>
    refine ⟨fun _ => ⟨hnext, hone⟩, fun hshort => ?_⟩
    have hwithin := hnext.within
    rw [hnext.sent, hone] at hwithin
    omega
  | whole hstatus hwhole hshort => exact ⟨fun hfull => by omega, fun _ => ⟨hstatus, hwhole⟩⟩
  | broken _ herr _ _ =>
    cases herr with
    | aborted haborted => cases haborted
    | transport hresp => cases hresp
    | unreadable hno => cases hno
    | unwritten happend => exact absurd rfl happend
    | blockLimit hlimit =>
      cases hmax : pcfg.maxBlocks with
      | none =>
        rw [hmax] at hlimit
        cases hlimit
      | some m =>
        rw [hmax] at hlimit
        have hle : m ≤ p.blocks.length := of_decide_eq_true hlimit
        have hlt := hblocks m hmax
        omega
    | byteLimit hlimit => omega

/-- The download is in the pull, behind `k` blocks of the log. -/
structure Ladder.Pulls (cfg : LadderConfig) (log : List UInt8) (block k attempt : ℕ) (s : Ladder) :
    Prop where
  attempt : s.attempt = attempt
  pulls : ∃ saved p, s.phase = .pulling (cfg.pull saved block) p ∧ saved <+: log ∧
    Follows log saved (cfg.pull saved block) p ∧ p.blocks.length = k

/-- One answered turn of the download. -/
theorem Ladder.Pulls.turn {attempt : ℕ} (h : s.Pulls cfg log block k attempt)
    (reply : List UInt8) (hmagic : logDownloadMagic <+: log)
    (hblock : logDownloadMagic.length ≤ block) (hallows : cfg.Allows log block)
    (hk : k ≤ log.length / block) (hreply : reply.drop 2 = logBlock log block k) :
    ∃ t, ladderStep cfg s (.turn { response := some reply } none) = some t ∧
      t.attempt = attempt ∧
      ((k + 1) * block ≤ log.length → t.Pulls cfg log block (k + 1) attempt) ∧
      (log.length < (k + 1) * block → t.phase = .exiting none ∧ t.store = log) := by
  obtain ⟨hattempt, saved, p, hphase, hsaved, hfollows, rfl⟩ := h
  have hblocks : ∀ m, (cfg.pull saved block).maxBlocks = some m → p.blocks.length < m :=
    fun m hm => hk.trans_lt (hallows.blocks m hm)
  obtain ⟨q, hq⟩ : ∃ q, pullStep (cfg.pull saved block) p { response := some reply } = some q := by
    unfold pullStep
    rw [if_neg (not_not.mpr hfollows.pulling), if_neg Bool.false_ne_true]
    split_ifs
    · exact ⟨_, rfl⟩
    · exact ⟨_, rfl⟩
  have hturn : ladderStep cfg s (.turn { response := some reply } none) =
      some { s with store := q.store, phase := q.phase (cfg.pull saved block) none } := by
    unfold ladderStep
    rw [hphase]
    exact congrArg (Option.map _) hq
  obtain ⟨hfull, hshort⟩ :=
    hfollows.answered hsaved hmagic hblock hallows.bytes hblocks hreply hq
  refine ⟨_, hturn, hattempt, fun hle => ?_, fun hlt => ?_⟩
  · obtain ⟨hnext, hone⟩ := hfull hle
    refine ⟨hattempt, saved, q, ?_, hsaved, hnext, hone⟩
    show q.phase (cfg.pull saved block) none = _
    rw [Pull.phase, hnext.pulling]
  · obtain ⟨hstatus, hwhole⟩ := hshort hlt
    refine ⟨?_, hwhole⟩
    show q.phase (cfg.pull saved block) none = _
    rw [Pull.phase, hstatus]

/-- The answers that carry the first `n` blocks of a log. -/
def logReplies (log : List UInt8) (block n : ℕ) : List (List UInt8) :=
  blockReplies 0 (blocks block n log)

theorem blockReplies_append (k : ℕ) (bodies : List (List UInt8)) (body : List UInt8) :
    blockReplies k (bodies ++ [body]) = blockReplies k bodies ++
      [(sidTransferData + responseSidOffset) :: wireSeq (k + bodies.length) :: body] := by
  induction bodies generalizing k with
  | nil => rfl
  | cons b bodies ih =>
    rw [List.cons_append, blockReplies, ih, blockReplies, List.cons_append, List.length_cons,
      Nat.add_assoc, Nat.add_comm 1]

theorem logReplies_succ (log : List UInt8) (block n : ℕ) :
    logReplies log block (n + 1) = logReplies log block n ++
      [(sidTransferData + responseSidOffset) :: wireSeq n :: logBlock log block n] := by
  rw [logReplies, blocks_succ, blockReplies_append, length_blocks, Nat.zero_add]
  rfl

/-- After whole blocks the download is still in the pull. -/
theorem Ladder.Pulls.whole {attempt : ℕ} (h : s.Pulls cfg log block 0 attempt)
    (hmagic : logDownloadMagic <+: log) (hblock : logDownloadMagic.length ≤ block)
    (hallows : cfg.Allows log block) {k : ℕ} (hk : k ≤ log.length / block) :
    ∃ t, exec (ladderStep cfg) s (answered (logReplies log block k)) = some t ∧
      t.Pulls cfg log block k attempt := by
  induction k with
  | zero => exact ⟨s, rfl, h⟩
  | succ k ih =>
    obtain ⟨t, ht, hpulls⟩ := ih (Nat.le_of_succ_le hk)
    have hfull : (k + 1) * block ≤ log.length :=
      (Nat.le_div_iff_mul_le (Nat.lt_of_lt_of_le (by decide) hblock)).mp hk
    obtain ⟨u, hu, -, hnext, -⟩ := hpulls.turn
      ((sidTransferData + responseSidOffset) :: wireSeq k :: logBlock log block k)
      hmagic hblock hallows (Nat.le_of_succ_le hk) rfl
    refine ⟨u, ?_, hnext hfull⟩
    rw [logReplies_succ, answered_append, exec_append ht]
    exact congrArg (fun o : Option Ladder => o.bind some) hu

theorem length_logReplies (log : List UInt8) (block n : ℕ) :
    (logReplies log block n).length = n := by
  induction n with
  | zero => rfl
  | succ n ih => rw [logReplies_succ, List.length_append, ih, List.length_singleton]

theorem take_logReplies (log : List UInt8) (block : ℕ) {k n : ℕ} (h : k ≤ n) :
    (logReplies log block n).take k = logReplies log block k := by
  induction n, h using Nat.le_induction with
  | base => rw [List.take_of_length_le (length_logReplies log block k).le]
  | succ n hle ih =>
    rw [logReplies_succ, List.take_append_of_le_length, ih]
    rw [length_logReplies]
    exact hle

/-- The pull begins. -/
theorem Ladder.Kept.begins (h : s.Kept cfg log) (hphase : s.phase = .ready) (block : ℕ) :
    ∃ t, ladderStep cfg s (.start true (.ok block)) = some t ∧
      t.Pulls cfg log block 0 s.attempt := by
  refine ⟨{ s with phase := .pulling (cfg.pull s.store block) (.start s.store) }, ?_, rfl,
    s.store, .start s.store, rfl, h.front, Follows.start h.front rfl, rfl⟩
  unfold ladderStep
  rw [hphase]

/-- The request of each turn has the number that the head counts. -/
theorem Ladder.Pulls.seq {attempt : ℕ} (h : s.Pulls cfg log block k attempt) :
    ∃ pcfg p, s.phase = .pulling pcfg p ∧ p.seq = wireSeq k := by
  obtain ⟨-, saved, p, hphase, -, hfollows, rfl⟩ := h
  exact ⟨_, p, hphase, hfollows.seq⟩

/-- An attempt that gets every block of the log leaves the log in the store. -/
theorem exec_undisturbed (h : s.Kept cfg log) (hphase : s.phase = .ready)
    (hmagic : logDownloadMagic <+: log) (hblock : logDownloadMagic.length ≤ block)
    (hallows : cfg.Allows log block) :
    ∃ t, exec (ladderStep cfg) s
        (undisturbed block (logReplies log block (log.length / block + 1))) = some t ∧
      t.phase = .done ∧ t.complete = true ∧ t.store = log ∧ t.attempt = s.attempt := by
  obtain ⟨r, hstart, hpulls⟩ := h.begins hphase block
  obtain ⟨t, ht, hbefore⟩ := hpulls.whole hmagic hblock hallows le_rfl
  have hlast : log.length < (log.length / block + 1) * block := by
    rw [Nat.succ_mul]
    exact Nat.lt_div_mul_add (Nat.lt_of_lt_of_le (by decide) hblock)
  obtain ⟨u, hu, hattempt, -, hwhole⟩ := hbefore.turn
    ((sidTransferData + responseSidOffset) :: wireSeq (log.length / block) ::
      logBlock log block (log.length / block)) hmagic hblock hallows le_rfl rfl
  obtain ⟨hexit, hstore⟩ := hwhole hlast
  have hends : exec (ladderStep cfg) u [.exit none, .finish true, .finish true] =
      some { u with phase := .done, complete := true } := by
    unfold exec ladderStep
    rw [hexit]
    rfl
  have hturns : exec (ladderStep cfg) r
      (answered (logReplies log block (log.length / block + 1))) = some u := by
    rw [logReplies_succ, answered_append, exec_append ht]
    exact congrArg (fun o : Option Ladder => o.bind some) hu
  refine ⟨{ u with phase := .done, complete := true }, ?_, rfl, rfl, hstore, hattempt⟩
  rw [undisturbed, exec, hstart]
  show exec (ladderStep cfg) _ (answered _ ++ _) = _
  rw [exec_append hturns, hends]

end

/-! ## Head and client -/

/-- The stream of a selection: the header, and the entries of the range. -/
def selectedStream (log : FlashLogDest → Fcb) (range : LogRange) : List UInt8 :=
  buildHeader range.dest ++ (rangeEntries (log range.dest) range.range).flatMap Entry.data

theorem logDownloadMagic_selectedStream (log : FlashLogDest → Fcb) (range : LogRange) :
    logDownloadMagic <+: selectedStream log range := ⟨_, rfl⟩

/-- The parser drops the header. -/
theorem parseLogStream_selectedStream (log : FlashLogDest → Fcb) (range : LogRange) :
    parseLogStream (selectedStream log range) =
      walk ((rangeEntries (log range.dest) range.range).flatMap Entry.data) := by
  have hheader : hasDclgHeader (selectedStream log range) = true := by
    show (decide (logDclgHeaderLen ≤ (selectedStream log range).length) && true) = true
    rw [Bool.and_true, decide_eq_true_eq, selectedStream, List.length_append]
    exact Nat.le_add_right _ _
  rw [parseLogStream, if_pos hheader]
  rfl

/-- However a download was cut off, if the head then opens the same selection once more and its
answers all arrive, it is done: the number of each request is the one that the head expects, the
store holds the whole stream of the selection, and the parser finds what the entries hold. -/
theorem download_completes {log : FlashLogDest → Fcb} {d : Download} {env : Surroundings}
    {now : UInt32} {begin q : Request} {es : List StreamEvent} {qs : List Request}
    {cfg : LadderConfig} {saved : List UInt8} {before : List LadderEvent} {s : Ladder}
    (hselected : d.sm.state = .selected) (hidle : d.sm.resolveActive = false)
    (hrange : SelectedFrom (log d.sm.range.dest) d.sm.range.range) (harena : env.arenaFree = true)
    (hbegin : IsBegin begin) (hes : requests es = q :: qs) (hq : IsDownload q)
    (hqs : ∀ i t, qs[i]? = some t → IsTransfer t i) (hprompt : Prompt now es)
    (hcount : qs.length = (selectedStream log d.sm.range).length / negotiatedBlock q + 1)
    (hsaved : saved <+: selectedStream log d.sm.range)
    (hbefore : Steps (ladderStep cfg) (fun s e _ => Steady (selectedStream log d.sm.range) s e)
      (.start saved false none none) before)
    (hs : exec (ladderStep cfg) (.start saved false none none) before = some s)
    (hready : s.phase = .ready)
    (hallows : cfg.Allows (selectedStream log d.sm.range) (negotiatedBlock q)) :
    ∃ replies t,
      answers log (logDownloadRoutine env now d begin).2 es =
        downloadGrant (negotiatedBlock q) :: replies ∧
      exec (ladderStep cfg) s (undisturbed (negotiatedBlock q) replies) = some t ∧
      (∀ i t, qs[i]? = some t → ∃ u pcfg p,
        exec (ladderStep cfg) s ((undisturbed (negotiatedBlock q) replies).take (i + 1)) = some u ∧
        u.phase = .pulling pcfg p ∧ p.seq = t.byte 2) ∧
      t.phase = .done ∧ t.complete = true ∧ t.attempt = s.attempt ∧
      t.store = selectedStream log d.sm.range ∧
      parseLogStream t.store =
        walk ((rangeEntries (log d.sm.range.dest) d.sm.range.range).flatMap Entry.data) := by
  have hmagic := logDownloadMagic_selectedStream log d.sm.range
  have hblock : logDownloadMagic.length ≤ negotiatedBlock q :=
    le_trans (by decide) (negotiatedBlock_range q).1
  have hkeep : ∀ {s e t}, s.Kept cfg (selectedStream log d.sm.range) →
      Steady (selectedStream log d.sm.range) s e → ladderStep cfg s e = some t →
      t.Kept cfg (selectedStream log d.sm.range) :=
    fun h hsteady ht => (h.step hmagic hsteady ht).1
  have hkept := Steps.inv_exec hkeep (Ladder.kept_start hsaved false none none) hbefore hs
  have hanswers : answers log (logDownloadRoutine env now d begin).2 es =
      downloadGrant (negotiatedBlock q) ::
        logReplies (selectedStream log d.sm.range) (negotiatedBlock q) qs.length := by
    rw [logDownloadRoutine_begin harena hselected hbegin]
    have hopen : Open log
        { d with
          sm := { d.sm with
            state := .streaming, reader := LogReader.open d.sm.range, headerSent := false }
          streamActivityMs := now } _ := ⟨rfl, hrange.delivers⟩
    obtain ⟨dest, -, hall, hdest⟩ := answers_open hopen hes hq hqs
    obtain rfl := hdest hidle
    exact hall hprompt
  obtain ⟨t, ht, hdone, hcomplete, hstore, hattempt⟩ :=
    exec_undisturbed hkept hready hmagic hblock hallows
  refine ⟨_, t, hanswers, by rw [hcount]; exact ht, fun i request hi => ?_, hdone, hcomplete,
    hattempt, hstore, by rw [hstore, parseLogStream_selectedStream]⟩
  have hlt : i < qs.length := (List.getElem?_eq_some_iff.mp hi).1
  have hle : i ≤ (selectedStream log d.sm.range).length / negotiatedBlock q := by omega
  obtain ⟨r, hstart, hpulls⟩ := hkept.begins hready (negotiatedBlock q)
  obtain ⟨u, hu, hfront⟩ := hpulls.whole hmagic hblock hallows hle
  obtain ⟨pcfg, p, hphase, hseq⟩ := hfront.seq
  refine ⟨u, pcfg, p, ?_, hphase, hseq.trans (hqs i request hi).seq.symm⟩
  have htake : (undisturbed (negotiatedBlock q) (logReplies (selectedStream log d.sm.range)
      (negotiatedBlock q) qs.length)).take (i + 1) = .start true (.ok (negotiatedBlock q)) ::
        answered (logReplies (selectedStream log d.sm.range) (negotiatedBlock q) i) := by
    have hreplies := take_logReplies (selectedStream log d.sm.range) (negotiatedBlock q) hlt.le
    have hlong : i ≤ (answered (logReplies (selectedStream log d.sm.range) (negotiatedBlock q)
        qs.length)).length := by
      rw [length_answered, length_logReplies]
      exact hlt.le
    rw [undisturbed, List.take_succ_cons, List.take_append_of_le_length hlong, answered,
      ← List.map_take, hreplies]
    rfl
  rw [htake, exec, hstart]
  exact hu

/-- An attempt that gets nothing, after which the download waits and is ready again. -/
def cutOff : List LadderEvent :=
  [.start true (.ok 32), .turn { response := none } none, .exit none, .finish true, .delay false]

theorem download_completes_text : ∃ replies t,
    answers shortLog (logDownloadRoutine {} 0 textSelected
      (.ofBytes [0, 0x31, 1, 0xF1, 0x05])).2 textTransfers = downloadGrant 32 :: replies ∧
    exec (ladderStep logRetryDefaults) ⟨.ready, [], false, 2⟩ (undisturbed 32 replies) = some t ∧
    t.phase = .done ∧ t.store = selectedStream shortLog textSelected.sm.range := by
  have hsteady : Steps (ladderStep logRetryDefaults)
      (fun s e _ => Steady (selectedStream shortLog textSelected.sm.range) s e)
      (.start [] false none none) cutOff :=
    ⟨show 4 ≤ 32 by decide, nofun, trivial, trivial, trivial, trivial⟩
  have hallows : logRetryDefaults.Allows (selectedStream shortLog textSelected.sm.range)
      (negotiatedBlock textDownload) := ⟨by decide, nofun⟩
  obtain ⟨replies, t, hanswers, ht, -, hdone, -, -, hstore, -⟩ :=
    @download_completes shortLog textSelected {} 0 (.ofBytes [0, 0x31, 1, 0xF1, 0x05]) textDownload
      textTransfers _ logRetryDefaults [] cutOff ⟨.ready, [], false, 2⟩ rfl rfl SelectedFrom.all rfl
      ⟨by decide, rfl, rfl⟩ rfl ⟨rfl, rfl, rfl, rfl⟩ isTransfer_textTransfers ⟨by decide, trivial⟩
      (by decide) List.nil_prefix hsteady rfl rfl hallows
  exact ⟨replies, t, hanswers, ht, hdone, hstore⟩

end DiveCANHead.LogClient
