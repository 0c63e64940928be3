import DiveCANHead.LogClient.Ladder
import DiveCANHead.LogClient.Spliced
import DiveCANHead.LogDownload.Transfer

/-!
# A log that has not changed is resumed

As long as the head sends the same log, no attempt takes it for another one: the store holds the
front of the log however the attempts are cut off, and all of it when one is complete. Each failure
of a pull has a cause of its own in the turn that failed.
-/

namespace DiveCANHead.LogClient

open DiveCANHead.Lib DiveCANHead.LogDownload

/-! ## Comparing what is the same -/

theorem firstDifference_eq_none {as bs : List UInt8} {offset : ℕ} (h : as <+: bs) :
    firstDifference offset as bs = none := by
  induction as generalizing bs offset with
  | nil => rfl
  | cons a as ih =>
    obtain ⟨tail, rfl⟩ := h
    rw [List.cons_append, firstDifference, if_pos rfl]
    exact ih (List.prefix_append as tail)

theorem fromMagic_of_prefix {body : List UInt8} (h : logDownloadMagic <+: body) :
    fromMagic body = some body := by
  cases body with
  | nil => exact absurd h (by decide)
  | cons b body => exact if_pos h

section

variable {saved store bytes : List UInt8} {readable : ℕ → ℕ → Bool} {offset : ℕ}
  {v : StorePrefixVerifier}

theorem readStore_cases (store : List UInt8) (readable : ℕ → ℕ → Bool) (offset length : ℕ) :
    readStore store readable offset length = .ok ((store.drop offset).take length) ∨
      readStore store readable offset length = .error .storeFailed ∧
        readable offset length = false := by
  unfold readStore
  cases h : readable offset length with
  | false => exact .inr ⟨rfl, rfl⟩
  | true => exact .inl rfl

/-- A window that has a byte of the store is loaded, or cannot be read. -/
theorem StorePrefixVerifier.load_inside (readable : ℕ → ℕ → Bool) (hlt : offset < saved.length) :
    (∃ w, v.load saved readable saved.length offset = .ok w) ∨
      v.load saved readable saved.length offset = .error .storeFailed ∧
        ∃ o l, readable o l = false := by
  have hstart : offset / windowBytes * windowBytes ≤ offset := Nat.div_mul_le_self _ _
  unfold StorePrefixVerifier.load
  dsimp only
  split_ifs with hsame
  · exact .inl ⟨v, rfl⟩
  · rcases readStore_cases saved readable (offset / windowBytes * windowBytes)
      (min windowBytes (saved.length - offset / windowBytes * windowBytes)) with
      hread | ⟨hread, hno⟩
    · rw [hread]
      have hlen : ((saved.drop (offset / windowBytes * windowBytes)).take
          (min windowBytes (saved.length - offset / windowBytes * windowBytes))).length =
          min windowBytes (saved.length - offset / windowBytes * windowBytes) := by
        rw [List.length_take, List.length_drop]
        omega
      exact .inl ⟨_, if_pos hlen⟩
    · rw [hread]
      exact .inr ⟨rfl, _, _, hno⟩

/-- There are bytes in what a window leaves behind a place inside it. -/
theorem window_pos {start width total : ℕ} (hle : start ≤ offset) (hlt : offset < start + width)
    (hinside : offset < total) :
    0 < min (min width (total - start) - (offset - start)) (total - offset) := by
  omega

/-- What stands in the store is verified, unless it cannot be read. -/
theorem StorePrefixVerifier.verify_same (readable : ℕ → ℕ → Bool)
    (hv : v.Coherent saved saved.length) (hbytes : bytes <+: saved.drop offset) :
    (∃ w, v.verify saved readable saved.length bytes offset = .ok w ∧
        w.Coherent saved saved.length) ∨
      v.verify saved readable saved.length bytes offset = .error .storeFailed ∧
        ∃ o l, readable o l = false := by
  induction hn : bytes.length using Nat.strong_induction_on generalizing v bytes offset with
  | _ n ih =>
    subst hn
    unfold StorePrefixVerifier.verify
    by_cases hnil : bytes = []
    · rw [dif_pos hnil]
      exact .inl ⟨v, rfl, hv⟩
    rw [dif_neg hnil]
    have hpos := List.length_pos_iff.mpr hnil
    have hfit := hbytes.length_le
    rw [List.length_drop] at hfit
    have hinside : offset < saved.length := by omega
    rcases load_inside (v := v) readable hinside with ⟨w, hload⟩ | ⟨hload, hno⟩
    · obtain ⟨hw, hstart⟩ := load_ok hv hload
      have hle : offset / windowBytes * windowBytes ≤ offset := Nat.div_mul_le_self _ _
      have hlt : offset < offset / windowBytes * windowBytes + windowBytes :=
        Nat.lt_div_mul_add (by decide)
      have hwindow : w.window.drop (offset - offset / windowBytes * windowBytes) =
          (saved.drop offset).take (min windowBytes
            (saved.length - offset / windowBytes * windowBytes) -
              (offset - offset / windowBytes * windowBytes)) := by
        rw [hw _ hstart, List.drop_take, List.drop_drop, Nat.add_sub_cancel' hle]
      rw [hload]
      dsimp only
      generalize hsaved : w.window.drop (offset - offset / windowBytes * windowBytes) = window
      rw [hsaved] at hwindow
      have hlen : window.length = min (min windowBytes
          (saved.length - offset / windowBytes * windowBytes) -
            (offset - offset / windowBytes * windowBytes)) (saved.length - offset) := by
        rw [hwindow, List.length_take, List.length_drop]
      have hsome : 0 < window.length := by
        rw [hlen]
        exact window_pos hle hlt hinside
      have hcount : 0 < min bytes.length window.length := Nat.lt_min.mpr ⟨hpos, hsome⟩
      have hshort := (Nat.min_le_right bytes.length window.length).trans
        (hlen.le.trans (Nat.min_le_left _ _))
      generalize min bytes.length window.length = count at hcount hshort
      have hsame : bytes.take count <+: window := by
        rw [hwindow, List.prefix_take_iff]
        exact ⟨(List.take_prefix count bytes).trans hbytes,
          (List.length_take_le _ _).trans hshort⟩
      rw [firstDifference_eq_none hsame, dif_pos hcount]
      dsimp only
      have hrest : bytes.drop count <+: saved.drop (offset + count) := by
        rw [← List.drop_drop]
        exact hbytes.drop count
      have hshorter : (bytes.drop count).length < bytes.length := by
        rw [List.length_drop]
        exact Nat.sub_lt hpos hcount
      exact ih _ hshorter hw hrest rfl
    · rw [hload]
      exact .inr ⟨rfl, hno⟩

/-- The first block of the same log starts at byte zero. -/
theorem prepareStoredReplay_same (readable : ℕ → ℕ → Bool) {body : List UInt8}
    (h : body.take (min saved.length body.length) = saved.take (min saved.length body.length)) :
    prepareStoredReplay saved readable saved.length body = .ok ⟨0, 0, 0⟩ ∨
      prepareStoredReplay saved readable saved.length body = .error .storeFailed ∧
        ∃ o l, readable o l = false := by
  unfold prepareStoredReplay
  dsimp only
  rcases readStore_cases saved readable 0 (min saved.length body.length) with hread | ⟨hread, hno⟩
  · have hexact : (saved.drop 0).take (min saved.length body.length) =
        body.take (min saved.length body.length) := by
      rw [List.drop_zero, h]
    rw [hread]
    exact .inl (if_pos hexact)
  · rw [hread]
    exact .inr ⟨rfl, _, _, hno⟩

end

/-! ## A turn of the pull -/

/-- Block `k` of a log. -/
def logBlock (log : List UInt8) (block k : ℕ) : List UInt8 := (log.drop (k * block)).take block

/-- Why a pull fails at a turn. -/
inductive Interrupted (log : List UInt8) (cfg : PullConfig) (p : Pull) (t : Turn) :
    PullError → Prop
  | aborted : t.aborted = true → Interrupted log cfg p t .aborted
  | transport : t.response = none → Interrupted log cfg p t .transport
  | unreadable {o l : ℕ} : t.readable o l = false → Interrupted log cfg p t .storeFailed
  | unwritten : t.append ≠ .ok → Interrupted log cfg p t .storeFailed
  | blockLimit : cfg.maxBlocks.any (· ≤ p.blocks.length) = true →
      Interrupted log cfg p t .blockLimit
  | byteLimit : cfg.maxBytes < log.length → Interrupted log cfg p t .byteLimit

/-- The pull is at the end of what was sent: it has compared the part of that which is saved, and
the store holds whatever is longer, the saved part or what was sent. The next block has the number
that the head gives it. -/
structure Follows (log saved : List UInt8) (cfg : PullConfig) (p : Pull) : Prop where
  pulling : p.status = .pulling
  resume : cfg.resumeBytes = saved.length
  store : p.store = log.take (max saved.length p.transferred)
  count : p.saved = p.store.length
  sent : p.transferred = p.blocks.length * cfg.negotiatedBlock
  within : p.transferred ≤ log.length
  replayed : p.replayStoredOffset = min p.transferred saved.length
  coherent : p.verifier.Coherent saved saved.length
  seq : p.seq = wireSeq p.blocks.length

/-- What a turn leaves. -/
inductive TurnEnd (log saved : List UInt8) (cfg : PullConfig) (p : Pull) (t : Turn) (q : Pull) :
    Prop
  | goesOn : Follows log saved cfg q → q.blocks.length = p.blocks.length + 1 →
      TurnEnd log saved cfg p t q
  | whole : q.status = .complete → q.store = log →
      log.length < (p.blocks.length + 1) * cfg.negotiatedBlock → TurnEnd log saved cfg p t q
  | broken {e : PullError} : q.status = .failed e → Interrupted log cfg p t e →
      p.store <+: q.store → q.store <+: log → TurnEnd log saved cfg p t q

section

variable {log saved : List UInt8} {cfg : PullConfig} {p q : Pull} {t : Turn}

theorem Follows.start (hsaved : saved <+: log) (hcfg : cfg.resumeBytes = saved.length) :
    Follows log saved cfg (.start saved) where
  pulling := rfl
  resume := hcfg
  store := by
    show saved = log.take (max saved.length 0)
    rw [Nat.max_zero]
    exact List.prefix_iff_eq_take.mp hsaved
  count := rfl
  sent := (Nat.zero_mul _).symm
  within := Nat.zero_le _
  replayed := (Nat.zero_min _).symm
  coherent := nofun
  seq := rfl

theorem Follows.store_prefix (h : Follows log saved cfg p) : p.store <+: log := by
  rw [h.store]
  exact List.take_prefix _ _

/-- A pull that stops where it is. -/
theorem Follows.stop {e : PullError} (h : Follows log saved cfg p) {q : Pull}
    (hstore : q.store = p.store) (he : Interrupted log cfg p t e) (hq : q.status = .failed e) :
    TurnEnd log saved cfg p t q :=
  .broken hq he (by rw [hstore]) (by rw [hstore]; exact h.store_prefix)

/-- The first block says that the overlap starts at byte zero. -/
theorem Follows.reconcile {body : List UInt8} {p' : Pull} (h : Follows log saved cfg p)
    (hsaved : saved <+: log) (hbody : body = (log.drop p.transferred).take cfg.negotiatedBlock)
    (hp' : p' = { p with blocks := p.blocks ++ [body] }) :
    (∃ from0, p'.reconcile cfg t body = .ok (0, { p' with reconciledFrom := from0 })) ∨
      p'.reconcile cfg t body = .error .storeFailed ∧ ∃ o l, t.readable o l = false := by
  subst hp'
  unfold Pull.reconcile
  by_cases hfirst : p.transferred = 0 ∧ cfg.resumeBytes > 0
  · have hstore : p.store = saved := by
      rw [h.store, hfirst.1, Nat.max_zero]
      exact (List.prefix_iff_eq_take.mp hsaved).symm
    have hreplay : p.replayStoredOffset = 0 := by
      rw [h.replayed, hfirst.1, Nat.zero_min]
    have hsame : body.take (min saved.length body.length) =
        saved.take (min saved.length body.length) := by
      have hlen : body.length = min cfg.negotiatedBlock log.length := by
        rw [hbody, hfirst.1, List.drop_zero, List.length_take]
      rw [hbody, hfirst.1, List.drop_zero, List.prefix_iff_eq_take.mp hsaved, List.take_take,
        List.take_take, List.length_take, List.length_take]
      congr 1
      omega
    rw [if_pos hfirst, h.resume, hstore]
    rcases prepareStoredReplay_same t.readable hsame with hok | ⟨herror, hno⟩
    · simp only [hok]
      exact .inl ⟨0, by rw [hreplay]⟩
    · simp only [herror]
      exact .inr ⟨trivial, hno⟩
  · rw [if_neg hfirst]
    exact .inl ⟨p.reconciledFrom, rfl⟩

/-- What overlaps is in the store. -/
theorem Follows.compare {body : List UInt8} (h : Follows log saved cfg p) (p' : Pull)
    (hsaved : saved <+: log) (hbody : body = (log.drop p.transferred).take cfg.negotiatedBlock)
    (hstore : p'.store = p.store) (hverifier : p'.verifier = p.verifier)
    (hreplay : p'.replayStoredOffset = p.replayStoredOffset) :
    (∃ v : StorePrefixVerifier, v.Coherent saved saved.length ∧
      p'.compare cfg t body 0 = .ok (min body.length (saved.length - p.transferred),
        { p' with
          verifier := v
          replayStoredOffset := min (p.transferred + body.length) saved.length })) ∨
      p'.compare cfg t body 0 = .error .storeFailed ∧ ∃ o l, t.readable o l = false := by
  have hfull := h.replayed
  unfold Pull.compare
  rw [hreplay, hfull, h.resume]
  by_cases hover : p.transferred < saved.length
  · have hmin : min p.transferred saved.length = p.transferred := by omega
    have hsame : p'.store = saved := by
      rw [hstore, h.store, Nat.max_eq_left hover.le]
      exact (List.prefix_iff_eq_take.mp hsaved).symm
    have hoverlap : body.take (min body.length (saved.length - p.transferred)) <+:
        saved.drop p.transferred := by
      rw [hbody, List.take_take]
      conv => rhs; rw [List.prefix_iff_eq_take.mp hsaved, List.drop_take]
      exact (List.take_prefix_take_left (by omega))
    rw [hmin, if_pos hover, List.drop_zero, Nat.sub_zero, hsame, hverifier]
    rcases StorePrefixVerifier.verify_same t.readable h.coherent hoverlap with
      ⟨v, hok, hv⟩ | ⟨herror, hno⟩
    · simp only [hok]
      refine .inl ⟨v, hv, ?_⟩
      rw [Nat.zero_add]
      congr 3
      omega
    · simp only [herror]
      exact .inr ⟨trivial, hno⟩
  · have hmin : ¬min p.transferred saved.length < saved.length := by omega
    rw [if_neg hmin]
    refine .inl ⟨p.verifier, h.coherent, ?_⟩
    have hnone : min body.length (saved.length - p.transferred) = 0 := by omega
    have hend : min (p.transferred + body.length) saved.length = p'.replayStoredOffset := by
      rw [hreplay, hfull]
      omega
    rw [hnone, hend, ← hverifier]

/-- What is longer, the saved part or what was sent, after another block. -/
theorem take_append_block (log : List UInt8) (a b n : ℕ) :
    log.take (max a b) ++ ((log.drop b).take n).drop (a - b) =
      log.take (max a (b + ((log.drop b).take n).length)) := by
  have hblock := List.prefix_iff_eq_take.mp (List.take_prefix n (log.drop b))
  generalize ((log.drop b).take n).length = sent at hblock ⊢
  have hreach : b + (a - b) = max a b := by omega
  have hend : max a b + (sent - (a - b)) = max a (b + sent) := by omega
  rw [hblock, List.drop_take, List.drop_drop, hreach, ← List.take_add, hend]

/-- The end of a turn that has kept its block: a short one is the last. -/
theorem Follows.close {body : List UInt8} (h : Follows log saved cfg p) (hsaved : saved <+: log)
    (hbody : body = (log.drop p.transferred).take cfg.negotiatedBlock)
    (hstatus : q.status = .pulling)
    (hstore : q.store = log.take (max saved.length (p.transferred + body.length)))
    (hcount : q.saved = q.store.length) (hsent : q.transferred = p.transferred)
    (hblocks : q.blocks = p.blocks ++ [body]) (hv : q.verifier.Coherent saved saved.length)
    (hreplay : q.replayStoredOffset = min (p.transferred + body.length) saved.length)
    (hseq : q.seq = p.seq) :
    TurnEnd log saved cfg p t (q.close cfg body body) := by
  have hlen : body.length = min cfg.negotiatedBlock (log.length - p.transferred) := by
    rw [hbody, List.length_take, List.length_drop]
  have hle := hsaved.length_le
  have hwithin := h.within
  have hresume := h.resume
  unfold Pull.close
  rw [if_pos hstatus]
  dsimp only
  by_cases hshort : body.length < cfg.negotiatedBlock
  · have hend : p.transferred + body.length = log.length := by omega
    have hboundary : ¬q.replayStoredOffset < cfg.resumeBytes := by omega
    rw [if_pos hshort, if_neg hboundary]
    refine .whole rfl ?_ ?_
    · show q.store = log
      rw [hstore, hend, Nat.max_eq_right hle, List.take_length]
    · rw [Nat.succ_mul, ← h.sent]
      omega
  · have hfull : body.length = cfg.negotiatedBlock := by omega
    have hone : q.blocks.length = p.blocks.length + 1 := by
      rw [hblocks, List.length_append, List.length_singleton]
    rw [if_neg hshort]
    refine .goesOn ⟨hstatus, hresume, ?_, hcount, ?_, ?_, ?_, hv, ?_⟩ hone
    · show q.store = log.take (max saved.length (q.transferred + body.length))
      rw [hsent, hstore]
    · show q.transferred + body.length = q.blocks.length * cfg.negotiatedBlock
      rw [hone, Nat.succ_mul, hsent, h.sent, hfull]
    · show q.transferred + body.length ≤ log.length
      omega
    · show q.replayStoredOffset = min (q.transferred + body.length) saved.length
      rw [hsent, hreplay]
    · show nextSeqAfter q.seq = wireSeq q.blocks.length
      rw [hone, hseq, h.seq, nextSeqAfter_wireSeq]

/-- What comes after the overlap is appended, unless the store fails or the log is too long. -/
theorem Follows.extend {body : List UInt8} (h : Follows log saved cfg p) (hsaved : saved <+: log)
    (hbody : body = (log.drop p.transferred).take cfg.negotiatedBlock)
    (hstatus : q.status = .pulling) (hstore : q.store = p.store) (hcount : q.saved = p.saved)
    (hsent : q.transferred = p.transferred) (hblocks : q.blocks = p.blocks ++ [body])
    (hv : q.verifier.Coherent saved saved.length)
    (hreplay : q.replayStoredOffset = min (p.transferred + body.length) saved.length)
    (hseq : q.seq = p.seq) :
    TurnEnd log saved cfg p t ((q.extend cfg t body
      (min body.length (saved.length - p.transferred))).close cfg body body) := by
  have hlong : q.store ++ body.drop (saved.length - p.transferred) =
      log.take (max saved.length (p.transferred + body.length)) := by
    have happend := take_append_block log saved.length p.transferred cfg.negotiatedBlock
    rwa [← hbody, ← h.store, ← hstore] at happend
  have hsize : q.saved = q.store.length := by rw [hcount, hstore, h.count]
  unfold Pull.extend
  dsimp only
  by_cases hmore : min body.length (saved.length - p.transferred) < body.length
  · have hoffset : min body.length (saved.length - p.transferred) =
        saved.length - p.transferred := by omega
    have hnew : q.saved + (body.drop (saved.length - p.transferred)).length =
        (log.take (max saved.length (p.transferred + body.length))).length := by
      rw [← hlong, List.length_append, hsize]
    have hfits := (List.take_prefix (max saved.length (p.transferred + body.length)) log).length_le
    have hgrown : p.store <+: log.take (max saved.length (p.transferred + body.length)) := by
      rw [← hlong, hstore]
      exact List.prefix_append _ _
    rw [if_pos hmore, hoffset]
    by_cases hlimit : cfg.maxBytes <
        (q.saved + (body.drop (saved.length - p.transferred)).length : ℕ)
    · have hbytes : cfg.maxBytes < log.length := by omega
      rw [if_pos hlimit, Pull.close, if_neg nofun]
      exact h.stop hstore (.byteLimit hbytes) rfl
    · rw [if_neg hlimit]
      cases happend : t.append with
      | ok =>
        refine h.close hsaved hbody hstatus hlong ?_ hsent hblocks hv hreplay hseq
        show q.saved + _ = (q.store ++ body.drop (saved.length - p.transferred)).length
        rw [List.length_append, hsize]
      | failed kept =>
        have hfailed : t.append ≠ .ok := by
          rw [happend]
          nofun
        rw [Pull.close, if_neg nofun]
        cases kept with
        | false => exact h.stop hstore (.unwritten hfailed) rfl
        | true =>
          refine .broken rfl (.unwritten hfailed) ?_ ?_
          · show p.store <+: q.store ++ body.drop (saved.length - p.transferred)
            rw [hlong]
            exact hgrown
          · show q.store ++ body.drop (saved.length - p.transferred) <+: log
            rw [hlong]
            exact List.take_prefix _ _
  · rw [if_neg hmore]
    refine h.close hsaved hbody hstatus ?_ hsize hsent hblocks hv hreplay hseq
    rw [← hlong, List.drop_eq_nil_of_le (by omega), List.append_nil]

/-- A turn that is sent the next block of the log. -/
theorem Follows.take {body : List UInt8} (h : Follows log saved cfg p) (hsaved : saved <+: log)
    (hmagic : logDownloadMagic <+: log) (hblock : logDownloadMagic.length ≤ cfg.negotiatedBlock)
    (hbody : body = (log.drop p.transferred).take cfg.negotiatedBlock) :
    TurnEnd log saved cfg p t ({ p with blocks := p.blocks ++ [body] }.take cfg t body) := by
  have hfirst : (if p.transferred = 0 ∧ body.length > 0 then firstStoredBody body else .ok body) =
      .ok body := by
    split_ifs with hzero
    · have hstart : logDownloadMagic <+: body := by
        rw [hbody, hzero.1, List.drop_zero, List.prefix_take_iff]
        exact ⟨hmagic, hblock⟩
      rw [firstStoredBody, fromMagic_of_prefix hstart]
    · rfl
  unfold Pull.take
  dsimp only
  rw [hfirst]
  dsimp only
  rcases h.reconcile (t := t) hsaved hbody rfl with ⟨from0, hok⟩ | ⟨herror, o, l, hno⟩
  · rw [hok]
    dsimp only
    rcases h.compare (t := t)
        { { p with blocks := p.blocks ++ [body] } with reconciledFrom := from0 }
        hsaved hbody rfl rfl rfl with ⟨v, hv, hok⟩ | ⟨herror, o, l, hno⟩
    · rw [hok]
      exact h.extend hsaved hbody h.pulling rfl rfl rfl rfl hv rfl rfl
    · rw [herror]
      exact h.stop rfl (.unreadable hno) rfl
  · rw [herror]
    exact h.stop rfl (.unreadable hno) rfl

/-- The turn gets the next block of the log, or nothing. -/
def Served (log : List UInt8) (cfg : PullConfig) (p : Pull) (t : Turn) : Prop :=
  ∀ resp, t.response = some resp →
    resp.drop 2 = logBlock log cfg.negotiatedBlock p.blocks.length

theorem Follows.step (h : Follows log saved cfg p) (hsaved : saved <+: log)
    (hmagic : logDownloadMagic <+: log) (hblock : logDownloadMagic.length ≤ cfg.negotiatedBlock)
    (hserved : Served log cfg p t) (ht : pullStep cfg p t = some q) :
    TurnEnd log saved cfg p t q := by
  unfold pullStep at ht
  rw [if_neg (not_not.mpr h.pulling)] at ht
  split_ifs at ht with haborted hlimit
  · obtain rfl := Option.some.inj ht
    exact h.stop rfl (.aborted haborted) rfl
  · obtain rfl := Option.some.inj ht
    exact h.stop rfl (.blockLimit hlimit) rfl
  · cases hresp : t.response with
    | none =>
      rw [hresp] at ht
      obtain rfl := Option.some.inj ht
      exact h.stop rfl (.transport hresp) rfl
    | some resp =>
      rw [hresp] at ht
      obtain rfl := Option.some.inj ht
      have hbody := hserved resp hresp
      rw [logBlock, ← h.sent] at hbody
      exact h.take hsaved hmagic hblock hbody

end

/-! ## Runs of a download -/

/-- The blocks are those of the log, and have room for its magic. -/
def Steady (log : List UInt8) (s : Ladder) (e : LadderEvent) : Prop :=
  match s.phase, e with
  | .ready, .start true (.ok block) => logDownloadMagic.length ≤ block
  | .pulling cfg p, .turn t _ => Served log cfg p t
  | _, _ => True

/-- What a download has at a step: the store holds the front of the log and never less than
before, is marked complete and shown only when it holds all of it, and a pull that fails has a cause
in its last turn. -/
structure Resumes (cfg : LadderConfig) (log : List UInt8) (s : Ladder) (e : LadderEvent)
    (t : Ladder) : Prop where
  front : t.store <+: log
  kept : s.store <+: t.store
  complete : t.complete = true → t.store = log
  done : t.phase = .done → t.store = log
  attempts : t.attempt ≤ cfg.maxAttempts
  cause : ∀ {pcfg p turn nrc err nrc'}, s.phase = .pulling pcfg p → e = .turn turn nrc →
    t.phase = .exiting (some (.pull err nrc')) → Interrupted log pcfg p turn err

/-- The phase fits the store. -/
def Ladder.Fits (cfg : LadderConfig) (log : List UInt8) (s : Ladder) : Prop :=
  match s.phase with
  | .pulling pcfg p => p.store = s.store ∧ logDownloadMagic.length ≤ pcfg.negotiatedBlock ∧
      pcfg.maxBlocks = cfg.maxBlocks ∧ pcfg.maxBytes = cfg.maxBytes ∧
      ∃ saved, saved <+: log ∧ Follows log saved pcfg p
  | .exiting none | .succeeding | .presenting | .done => s.store = log
  | .waiting _ => s.attempt < cfg.maxAttempts
  | _ => True

structure Ladder.Kept (cfg : LadderConfig) (log : List UInt8) (s : Ladder) : Prop where
  front : s.store <+: log
  attempts : s.attempt ≤ cfg.maxAttempts
  complete : s.complete = true → s.store = log ∨ ∃ e, s.phase = .failed e
  fits : s.Fits cfg log

section

variable {cfg : LadderConfig} {log : List UInt8} {s t : Ladder} {e : LadderEvent}

theorem Ladder.kept_start {saved : List UInt8} (hsaved : saved <+: log) (complete : Bool)
    (savedKey resumeKey : Option String) :
    (Ladder.start saved complete savedKey resumeKey).Kept cfg log := by
  unfold Ladder.start
  dsimp only
  split_ifs
  · exact ⟨hsaved, cfg.attempts, fun _ => .inr ⟨_, rfl⟩, trivial⟩
  · exact ⟨hsaved, cfg.attempts, nofun, trivial⟩

/-- A step outside a pull that leaves the store alone. -/
theorem Ladder.Kept.quiet (h : s.Kept cfg log)
    (hrest : (∀ pcfg p, s.phase ≠ .pulling pcfg p) ∧ ∀ err, s.phase ≠ .failed err)
    (hstore : t.store = s.store) (hcomplete : t.complete = true → s.complete = true ∨ t.store = log)
    (hattempts : t.attempt ≤ cfg.maxAttempts) (hfits : t.Fits cfg log)
    (hdone : t.phase = .done → t.store = log) : t.Kept cfg log ∧ Resumes cfg log s e t := by
  obtain ⟨hidle, hrunning⟩ := hrest
  have hfront : t.store <+: log := by
    rw [hstore]
    exact h.front
  have hwhole : t.complete = true → t.store = log := by
    intro ht
    rcases hcomplete ht with hs | hlog
    · rcases h.complete hs with hlog | ⟨err, hphase⟩
      · exact hstore.trans hlog
      · exact absurd hphase (hrunning err)
    · exact hlog
  refine ⟨⟨hfront, hattempts, fun ht => .inl (hwhole ht), hfits⟩, hfront, by rw [hstore], hwhole,
    hdone, hattempts, ?_⟩
  intro pcfg p _ _ _ _ hpulling
  exact absurd hpulling (hidle pcfg p)

/-- An attempt that goes wrong leaves the store as it was. -/
theorem Ladder.Kept.wrong (h : s.Kept cfg log)
    (hrest : (∀ pcfg p, s.phase ≠ .pulling pcfg p) ∧ ∀ err, s.phase ≠ .failed err)
    {phase : LadderPhase} (hwrong : ∃ err, phase = .failing err ∨ phase = .failed err) :
    Ladder.Kept cfg log { s with phase := phase } ∧
      Resumes cfg log s e { s with phase := phase } := by
  obtain ⟨err, rfl | rfl⟩ := hwrong
  · exact h.quiet hrest rfl .inl h.attempts trivial nofun
  · exact h.quiet hrest rfl .inl h.attempts trivial nofun

/-- A turn of the pull. -/
theorem Ladder.Kept.turn (hmagic : logDownloadMagic <+: log) {pcfg : PullConfig} {p q : Pull}
    {turn : Turn} {nrc : Option UInt8} (h : s.Kept cfg log) (hphase : s.phase = .pulling pcfg p)
    (hserved : Served log pcfg p turn) (hq : pullStep pcfg p turn = some q) :
    Ladder.Kept cfg log { s with store := q.store, phase := q.phase pcfg nrc } ∧
      Resumes cfg log s (.turn turn nrc)
        { s with store := q.store, phase := q.phase pcfg nrc } := by
  have hfits := h.fits
  rw [Ladder.Fits, hphase] at hfits
  obtain ⟨hstore, hblock, hblocks, hbytes, saved, hsaved, hfollows⟩ := hfits
  have hcause : ∀ {pcfg' p' turn' nrc₁}, s.phase = .pulling pcfg' p' →
      LadderEvent.turn turn nrc = .turn turn' nrc₁ → pcfg' = pcfg ∧ p' = p ∧ turn' = turn := by
    intro pcfg' p' turn' nrc₁ hphase' he
    rw [hphase] at hphase'
    cases hphase'
    cases he
    exact ⟨rfl, rfl, rfl⟩
  have hcomplete : s.complete = true → s.store <+: q.store → q.store <+: log → q.store = log := by
    intro hs hle hfront
    rcases h.complete hs with hlog | ⟨err, hfailed⟩
    · rw [hlog] at hle
      exact hfront.eq_of_length_le hle.length_le
    · rw [hphase] at hfailed
      cases hfailed
  cases hfollows.step hsaved hmagic hblock hserved hq with
  | goesOn hnext hone =>
    have hphase' : q.phase pcfg nrc = .pulling pcfg q := by rw [Pull.phase, hnext.pulling]
    have hle : s.store <+: q.store := by
      rw [← hstore, hfollows.store, hnext.store]
      apply List.take_prefix_take_left
      rw [hfollows.sent, hnext.sent, hone, Nat.succ_mul]
      omega
    have hfront := hnext.store_prefix
    have hwhole := fun hs => hcomplete hs hle hfront
    rw [hphase']
    refine ⟨⟨hfront, h.attempts, fun hs => .inl (hwhole hs), ?_⟩, hfront, hle, hwhole, nofun,
      h.attempts, ?_⟩
    · exact ⟨rfl, hblock, hblocks, hbytes, saved, hsaved, hnext⟩
    · exact fun _ _ hexit => nomatch hexit
  | whole hstatus hwhole _ =>
    have hphase' : q.phase pcfg nrc = .exiting none := by rw [Pull.phase, hstatus]
    have hfront : q.store <+: log := by rw [hwhole]
    have hle : s.store <+: q.store := by
      rw [hwhole]
      exact h.front
    rw [hphase']
    refine ⟨⟨hfront, h.attempts, fun _ => .inl hwhole, hwhole⟩, hfront, hle, fun _ => hwhole, nofun,
      h.attempts, ?_⟩
    exact fun _ _ hexit => nomatch hexit
  | @broken err hstatus herr hle hfront =>
    have hphase' : q.phase pcfg nrc = .exiting (some (.pull err nrc)) := by rw [Pull.phase, hstatus]
    have hle : s.store <+: q.store := hstore ▸ hle
    have hwhole := fun hs => hcomplete hs hle hfront
    rw [hphase']
    refine ⟨⟨hfront, h.attempts, fun hs => .inl (hwhole hs), trivial⟩, hfront, hle, hwhole, nofun,
      h.attempts, ?_⟩
    intro _ _ _ _ _ _ hphase'' he hexit
    obtain ⟨rfl, rfl, rfl⟩ := hcause hphase'' he
    cases hexit
    exact herr

/-- Each step keeps the front of the log. -/
theorem Ladder.Kept.step (hmagic : logDownloadMagic <+: log) (h : s.Kept cfg log)
    (hsteady : Steady log s e) (ht : ladderStep cfg s e = some t) :
    t.Kept cfg log ∧ Resumes cfg log s e t := by
  have hfits := h.fits
  unfold Ladder.Fits at hfits
  unfold Steady at hsteady
  unfold ladderStep at ht
  have hresting : ∀ {phase}, s.phase = phase →
      ((∀ pcfg p, phase ≠ .pulling pcfg p) ∧ ∀ err, phase ≠ .failed err) →
      (∀ pcfg p, s.phase ≠ .pulling pcfg p) ∧ ∀ err, s.phase ≠ .failed err :=
    fun hphase hrest => hphase ▸ hrest
  cases hphase : s.phase with
  | ready =>
    have hrest := hresting hphase (by simp)
    rw [hphase] at ht hsteady
    cases e with
    | start store prepared =>
      cases store with
      | false =>
        obtain rfl := Option.some.inj ht
        exact h.wrong hrest ⟨_, .inr rfl⟩
      | true =>
        cases prepared with
        | error nrc =>
          obtain rfl := Option.some.inj ht
          exact h.wrong hrest ⟨_, .inl rfl⟩
        | ok block =>
          obtain rfl := Option.some.inj ht
          refine h.quiet hrest rfl .inl h.attempts ?_ nofun
          exact ⟨rfl, hsteady, rfl, rfl, _, h.front, Follows.start h.front rfl⟩
    | _ => cases ht
  | pulling pcfg p =>
    rw [hphase] at ht hsteady
    cases e with
    | turn turn nrc =>
      obtain ⟨q, hq, rfl⟩ := Option.map_eq_some_iff.mp ht
      exact h.turn hmagic hphase hsteady hq
    | _ => cases ht
  | exiting error =>
    have hrest := hresting hphase (by simp)
    rw [hphase] at ht hfits
    cases e with
    | exit failed =>
      cases error with
      | none =>
        cases failed with
        | none =>
          obtain rfl := Option.some.inj ht
          exact h.quiet hrest rfl .inl h.attempts hfits nofun
        | some nrc =>
          obtain rfl := Option.some.inj ht
          exact h.wrong hrest ⟨_, .inl rfl⟩
      | some err =>
        obtain rfl := Option.some.inj ht
        exact h.wrong hrest ⟨_, .inl rfl⟩
    | _ => cases error <;> cases ht
  | succeeding =>
    have hrest := hresting hphase (by simp)
    rw [hphase] at ht hfits
    cases e with
    | finish ok =>
      cases ok with
      | false =>
        obtain rfl := Option.some.inj ht
        exact h.wrong hrest ⟨_, .inl rfl⟩
      | true =>
        obtain rfl := Option.some.inj ht
        exact h.quiet hrest rfl (fun _ => .inr hfits) h.attempts hfits nofun
    | _ => cases ht
  | presenting =>
    have hrest := hresting hphase (by simp)
    rw [hphase] at ht hfits
    cases e with
    | finish ok =>
      cases ok with
      | false =>
        obtain rfl := Option.some.inj ht
        exact h.wrong hrest ⟨_, .inl rfl⟩
      | true =>
        obtain rfl := Option.some.inj ht
        exact h.quiet hrest rfl .inl h.attempts hfits fun _ => hfits
    | _ => cases ht
  | failing err =>
    have hrest := hresting hphase (by simp)
    rw [hphase] at ht
    cases e with
    | finish ok =>
      cases ok with
      | false =>
        obtain rfl := Option.some.inj ht
        exact h.wrong hrest ⟨_, .inr rfl⟩
      | true =>
        dsimp only at ht
        split_ifs at ht with hretry
        · obtain rfl := Option.some.inj ht
          exact h.quiet hrest rfl nofun h.attempts hretry.1 nofun
        · obtain rfl := Option.some.inj ht
          exact h.quiet hrest rfl nofun h.attempts trivial nofun
    | _ => cases ht
  | waiting delayMs =>
    have hrest := hresting hphase (by simp)
    rw [hphase] at ht hfits
    cases e with
    | delay aborted =>
      cases aborted with
      | false =>
        obtain rfl := Option.some.inj ht
        exact h.quiet hrest rfl .inl hfits trivial nofun
      | true =>
        obtain rfl := Option.some.inj ht
        exact h.wrong hrest ⟨_, .inr rfl⟩
    | _ => cases ht
  | done | failed _ =>
    rw [hphase] at ht
    cases ht

end

/-- As long as the head sends the log that the store has the front of, no attempt refuses it: at
every step of a download the store holds the front of the log, whatever the attempts meet, and the
download ends with all of it or with a failure that has a cause. -/
theorem download_resumes (cfg : LadderConfig) {log saved : List UInt8} {es : List LadderEvent}
    (hmagic : logDownloadMagic <+: log) (hsaved : saved <+: log) (complete : Bool)
    (savedKey resumeKey : Option String)
    (hes : Steps (ladderStep cfg) (fun s e _ => Steady log s e)
      (.start saved complete savedKey resumeKey) es) :
    Steps (ladderStep cfg) (Resumes cfg log) (.start saved complete savedKey resumeKey) es := by
  have hstep : ∀ {s e t}, s.Kept cfg log → Steady log s e → ladderStep cfg s e = some t →
      t.Kept cfg log ∧ Resumes cfg log s e t := fun h hsteady ht => h.step hmagic hsteady ht
  exact Steps.of_inv hstep (Ladder.kept_start hsaved complete savedKey resumeKey) hes

/-- A header, and forty bytes of records. -/
def fortyBytes : List UInt8 := buildHeader .text ++ List.replicate 40 0x41

def blockTurn (k : ℕ) : LadderEvent :=
  .turn { response := some (0x76 :: wireSeq k :: logBlock fortyBytes 32 k) } none

/-- The first attempt is cut off at once, the second is not. -/
theorem download_resumes_fortyBytes : Steps (ladderStep logRetryDefaults)
    (Resumes logRetryDefaults fortyBytes) (.start [] false (some "all") none)
    [.start true (.ok 32), .turn { response := none } none, .exit (some none), .finish true,
      .delay false, .start true (.ok 32), blockTurn 0, blockTurn 1, .exit none, .finish true,
      .finish true] := by
  refine download_resumes logRetryDefaults ⟨_, rfl⟩ List.nil_prefix false (some "all") none ?_
  exact ⟨show 4 ≤ 32 by decide, nofun, trivial, trivial, trivial, show 4 ≤ 32 by decide,
    fun resp hresp => Option.some.inj hresp ▸ rfl, fun resp hresp => Option.some.inj hresp ▸ rfl,
    trivial, trivial, trivial, trivial⟩

end DiveCANHead.LogClient
