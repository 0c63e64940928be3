import DiveCANHead.IsoTp.Send
import DiveCANHead.Lib.Runs

/-!
# When an addressed transfer completes

After its First Frame an addressed transfer waits for Continue To Send frames.
`GrantLaw` is the promise about one of them: the sender reports completion, and
goes back to idle, exactly when the payload is exhausted. `grants_complete_iff`
gives the sequences of block sizes for which every grant keeps it: a payload
that ends exactly on a block boundary is reported as unfinished.
-/

namespace DiveCANHead.IsoTp

open DiveCANHead.Lib

/-- The Consecutive Frames of a whole payload. -/
def cfCount (length : ℕ) : ℕ :=
  (length - isotpFfDataWithPad + (isotpCfDataBytes - 1)) / isotpCfDataBytes

def blockSize (fc : DiveCANMessage) : ℕ := (fc.byte 1).toNat

/-- A Continue To Send; an idle sender ignores it. -/
def ctsStep (q : TxQueue) (fc : DiveCANMessage) : Option TxQueue :=
  if q.sm.state = .waitFc then some (smfRunState q .fcCts (some fc)) else some q

/-- The sender of a request in an idle machine, just after its First Frame. -/
def begin (q : TxQueue) (r : TxRequest) : TxQueue := startTransfer (makeCurrent q r)

/-- The loop's run on a Continue To Send, and what it reports. -/
def grantRun (q : TxQueue) (fc : DiveCANMessage) : Bool × CfRun :=
  sendConsecutiveFrames (granted q.sm fc) q.now

/-- The last payload byte has been put in a frame. -/
def exhausted (sm : TxSm) : Bool := sm.txBytesSent = sm.current.length

/-- Completion is reported, and idle reached, exactly at the end of the payload. -/
def GrantLaw (q : TxQueue) (fc : DiveCANMessage) (t : TxQueue) : Prop :=
  q.sm.state = .waitFc →
    ((grantRun q fc).1 = true ↔ exhausted (grantRun q fc).2.sm = true) ∧
      (t.sm.state = .idle ↔ exhausted (grantRun q fc).2.sm = true)

instance (q : TxQueue) (fc : DiveCANMessage) (t : TxQueue) : Decidable (GrantLaw q fc t) :=
  inferInstanceAs (Decidable (_ → _ ∧ _))

/-- No block boundary falls on the end of `n` frames: no run of limited blocks
adds up to them. -/
def NoExactBlock (n : ℕ) (blocks : List ℕ) : Prop :=
  ∀ pre, pre <+: blocks → (∀ b ∈ pre, b ≠ 0) → pre.sum ≠ n

/-! ## One grant -/

/-- A sender that waits and has frames to send. -/
structure Waiting (q : TxQueue) (n : ℕ) : Prop where
  state : q.sm.state = .waitFc
  sent_le : q.sm.txBytesSent ≤ q.sm.current.length
  left : framesLeft q.sm = n

theorem granted_size (sm : TxSm) (fc : DiveCANMessage) :
    (granted sm fc).txBlockSize = 0 ↔ blockSize fc = 0 := by
  rw [blockSize, ← UInt8.toNat_inj]
  rfl

theorem grantRun_spec {q : TxQueue} {n : ℕ} (h : Waiting q n) (fc : DiveCANMessage) :
    SendsBlock (granted q.sm fc) (grantRun q fc).2 := by
  refine sendConsecutiveFrames_spec q.now h.sent_le ?_
  by_cases h0 : (granted q.sm fc).txBlockSize = 0
  · exact .inl h0
  · exact .inr (Nat.pos_of_ne_zero fun hz => h0 ((granted_size q.sm fc).mpr hz))

/-- The frames a grant allows. -/
theorem quota_granted {q : TxQueue} {n : ℕ} (h : Waiting q n) (fc : DiveCANMessage) :
    quota (granted q.sm fc) = if blockSize fc = 0 then n else blockSize fc := by
  have hleft : framesLeft (granted q.sm fc) = n := h.left
  simp only [quota, hleft]
  by_cases h0 : blockSize fc = 0
  · rw [if_pos ((granted_size q.sm fc).mpr h0), if_pos h0]
  · rw [if_neg (mt (granted_size q.sm fc).mp h0), if_neg h0]
    exact Nat.sub_zero _

/-- The machine after a grant: idle when the loop reports the payload done. -/
theorem cts_sm {q : TxQueue} (h : q.sm.state = .waitFc) (fc : DiveCANMessage) :
    (smfRunState q .fcCts (some fc)).sm =
      if (grantRun q fc).1 then setState (grantRun q fc).2.sm .idle else (grantRun q fc).2.sm := by
  simp only [smfRunState, h]
  rfl

section Outcome

variable {q : TxQueue} {n : ℕ} (h : Waiting q n) (fc : DiveCANMessage)

include h

/-- The loop reports completion when the block is larger than what was left. -/
theorem grant_complete_iff :
    (grantRun q fc).1 = true ↔ blockSize fc = 0 ∨ n < blockSize fc := by
  have hwait := (grantRun_spec h fc).waiting
  have hleft : framesLeft (granted q.sm fc) = n := h.left
  rw [quota_granted h, hleft, ne_eq, granted_size] at hwait
  change (!(grantRun q fc).2.waitingForFC) = true ↔ _
  rw [Bool.not_eq_true', ← Bool.not_eq_true, hwait]
  split_ifs with h0 <;> simp [h0]

/-- The payload is exhausted when the block is at least what was left. -/
theorem grant_exhausted_iff :
    exhausted (grantRun q fc).2.sm = true ↔ blockSize fc = 0 ∨ n ≤ blockSize fc := by
  have hleft : framesLeft (granted q.sm fc) = n := h.left
  rw [exhausted, decide_eq_true_eq, (grantRun_spec h fc).exhausted_iff, quota_granted h, hleft]
  split_ifs with h0 <;> simp [h0]

theorem grant_idle_iff :
    (smfRunState q .fcCts (some fc)).sm.state = .idle ↔ (grantRun q fc).1 = true := by
  have hstate : (grantRun q fc).2.sm.state = .waitFc := (grantRun_spec h fc).state.trans h.state
  rw [cts_sm h.state]
  split_ifs with hd
  · simp [setState, hd]
  · simp [hstate, hd]

/-- A block that is no larger than what was left leaves the rest waiting. -/
theorem grant_waiting (hb : blockSize fc ≠ 0) (hle : blockSize fc ≤ n) :
    Waiting (smfRunState q .fcCts (some fc)) (n - blockSize fc) := by
  have hspec := grantRun_spec h fc
  have hleft : framesLeft (granted q.sm fc) = n := h.left
  have hdone : ¬ (grantRun q fc).1 = true := by
    rw [grant_complete_iff h]
    omega
  have hsm := cts_sm h.state fc
  rw [if_neg hdone] at hsm
  refine ⟨by rw [hsm]; exact hspec.state.trans h.state, ?_, ?_⟩
  · rw [hsm, hspec.current]
    exact hspec.sent_le
  · rw [hsm, hspec.left, quota_granted h, hleft, if_neg hb]

/-- A grant breaks the promise exactly when its block ends with the payload. -/
theorem grantLaw_iff :
    GrantLaw q fc (smfRunState q .fcCts (some fc)) ↔ n ≠ blockSize fc ∨ blockSize fc = 0 := by
  have hlaw : GrantLaw q fc (smfRunState q .fcCts (some fc)) ↔
      (blockSize fc = 0 ∨ n < blockSize fc ↔ blockSize fc = 0 ∨ n ≤ blockSize fc) := by
    simp only [GrantLaw, h.state, true_implies, grant_idle_iff h, grant_complete_iff h,
      grant_exhausted_iff h, and_self]
  rw [hlaw]
  omega

end Outcome

/-! ## Sequences of grants -/

theorem noExactBlock_cons_zero {n : ℕ} (hn : 0 < n) (blocks : List ℕ) :
    NoExactBlock n (0 :: blocks) := by
  rintro pre hpre hne rfl
  cases pre with
  | nil => exact absurd hn (lt_irrefl _)
  | cons b pre =>
    obtain ⟨rfl, -⟩ := List.cons_prefix_cons.mp hpre
    exact hne 0 List.mem_cons_self rfl

theorem noExactBlock_cons {n b : ℕ} (hn : 0 < n) (hb : b ≠ 0) (blocks : List ℕ) :
    NoExactBlock n (b :: blocks) ↔ n ≠ b ∧ (b < n → NoExactBlock (n - b) blocks) := by
  constructor
  · intro h
    refine ⟨fun hnb => ?_, fun hlt pre hpre hne hsum => ?_⟩
    · exact h [b] (List.cons_prefix_cons.mpr ⟨rfl, List.nil_prefix⟩) (by simpa using hb)
        (by simpa using hnb.symm)
    · refine h (b :: pre) (List.cons_prefix_cons.mpr ⟨rfl, hpre⟩) ?_ ?_
      · simpa [hb] using hne
      · rw [List.sum_cons, hsum]
        omega
  · rintro ⟨hnb, hrest⟩ pre hpre hne hsum
    cases pre with
    | nil => exact absurd hsum hn.ne
    | cons c pre =>
      obtain ⟨rfl, hpre'⟩ := List.cons_prefix_cons.mp hpre
      rw [List.sum_cons] at hsum
      have hpos : pre.sum ≠ 0 := fun h0 => hnb (by omega)
      refine hrest (by omega) pre hpre' (fun x hx => hne x (List.mem_cons_of_mem _ hx)) ?_
      omega

/-- An idle sender keeps the promise whatever arrives. -/
theorem steps_idle {q : TxQueue} (h : q.sm.state = .idle) (fcs : List DiveCANMessage) :
    Steps ctsStep GrantLaw q fcs := by
  induction fcs with
  | nil => trivial
  | cons fc fcs ih =>
    have hstep : ctsStep q fc = some q := by simp [ctsStep, h]
    rw [steps_cons_some hstep]
    exact ⟨fun hw => by simp [h] at hw, ih⟩

theorem steps_grantLaw_iff {q : TxQueue} {n : ℕ} (hn : 0 < n) (h : Waiting q n)
    (fcs : List DiveCANMessage) :
    Steps ctsStep GrantLaw q fcs ↔ NoExactBlock n (fcs.map blockSize) := by
  induction fcs generalizing q n with
  | nil =>
    refine iff_of_true trivial fun pre hpre _ hsum => ?_
    rw [List.map_nil, List.prefix_nil] at hpre
    subst hpre
    exact hn.ne hsum
  | cons fc fcs ih =>
    have hstep : ctsStep q fc = some (smfRunState q .fcCts (some fc)) := by
      simp [ctsStep, h.state]
    rw [steps_cons_some hstep, grantLaw_iff h, List.map_cons]
    by_cases hb : blockSize fc = 0
    · -- an unlimited grant ends the transfer
      have hidle := (grant_idle_iff h fc).mpr ((grant_complete_iff h fc).mpr (.inl hb))
      rw [hb]
      exact iff_of_true ⟨.inr rfl, steps_idle hidle fcs⟩ (noExactBlock_cons_zero hn _)
    · rw [noExactBlock_cons hn hb]
      simp only [hb, or_false]
      refine and_congr_right fun hnb => ?_
      rcases Nat.lt_or_ge (blockSize fc) n with hlt | hge
      · rw [ih (by omega) (grant_waiting h fc hb hlt.le)]
        exact ⟨fun hx _ => hx, fun hx => hx hlt⟩
      · -- the block is larger than what was left
        have hidle := (grant_idle_iff h fc).mpr ((grant_complete_iff h fc).mpr (.inr (by omega)))
        exact iff_of_true (steps_idle hidle fcs) fun hlt => by omega

/-! ## A whole transfer -/

/-- An addressed request of more than a Single Frame waits after its First Frame. -/
theorem begin_waiting (q : TxQueue) {r : TxRequest} (hlen : isotpSfMaxWithPad < r.length)
    (htarget : r.target ≠ isotpBroadcastAddr) : Waiting (begin q r) (cfCount r.length) := by
  have hsm := congrArg TxQueue.sm (startTransfer_addressed (q := makeCurrent q r) hlen htarget)
  refine ⟨by rw [begin, hsm]; rfl, ?_, ?_⟩
  · rw [begin, hsm]
    change isotpFfDataWithPad ≤ r.length
    simp only [isotpSfMaxWithPad, isotpFfDataWithPad] at hlen ⊢
    omega
  · rw [begin, hsm]
    change (chunks isotpCfDataBytes (r.data.drop isotpFfDataWithPad)).length = _
    rw [length_chunks (by decide), List.length_drop]
    rfl

/-- Every grant of an addressed transfer keeps the promise exactly when no block
ends with the payload. -/
theorem grants_complete_iff (q : TxQueue) (r : TxRequest) (hlen : isotpSfMaxWithPad < r.length)
    (htarget : r.target ≠ isotpBroadcastAddr) (fcs : List DiveCANMessage) :
    Steps ctsStep GrantLaw (begin q r) fcs ↔
      NoExactBlock (cfCount r.length) (fcs.map blockSize) := by
  refine steps_grantLaw_iff ?_ (begin_waiting q hlen htarget) fcs
  simp only [cfCount, isotpSfMaxWithPad, isotpFfDataWithPad, isotpCfDataBytes] at hlen ⊢
  omega

def twelveBytes : TxRequest := ⟨[1, 2, 3, 4, 5, 6, 7, 8, 9, 10, 11, 12], 4, 1, menuId⟩

/-- A Continue To Send from the peer with this block size and pacing. -/
def continueToSend (blockSize stmin : UInt8) : DiveCANMessage :=
  .ofBytes (menuId ||| 0x401) 3 [isotpFcCts, blockSize, stmin]

theorem grants_complete_large_block :
    Steps ctsStep GrantLaw (begin (.boot 0) twelveBytes) [continueToSend 8 0] ↔
      NoExactBlock 1 [8] :=
  grants_complete_iff (.boot 0) twelveBytes (by decide) (by decide) [continueToSend 8 0]

/-- Five bytes in the First Frame and seven in a block of one frame: the whole
payload is sent and the sender stays in `waitFc`. -/
theorem exact_block_parks :
    ¬ Steps ctsStep GrantLaw (begin (.boot 0) twelveBytes) [continueToSend 1 0] ∧
      (smfRunState (begin (.boot 0) twelveBytes) .fcCts (continueToSend 1 0)).sm.state = .waitFc ∧
      exhausted (smfRunState (begin (.boot 0) twelveBytes) .fcCts (continueToSend 1 0)).sm := by
  decide +kernel

end DiveCANHead.IsoTp
