import Mathlib.Algebra.BigOperators.Fin
import Mathlib.Data.Fintype.Perm
import Mathlib.GroupTheory.Perm.Basic
import Mathlib.Tactic.FinCases
import DiveCANHead.Lib.Rounding
import DiveCANHead.Lib.Voting

/-!
# The consensus vote (`oxygen_cell_math.c`)

Floats are rationals and ticks are integers. An array over the cells is a
function of the cell's index; entries of `cells` from `count` on are never read.
-/

namespace DiveCANHead.Cells

open DiveCANHead.Lib

/-- `PPO2_FAIL`. -/
def ppo2Fail : UInt8 := 0xFF

/-- `MAX_DEVIATION`, in centibar. -/
def maxDeviation : ℚ := 15

/-- `MAX_VALID_PPO2`, in centibar. -/
def maxValidPpo2 : ℕ := 254

def centibarPerBar : ℚ := 100

/-- `CellStatus_t`. -/
inductive CellStatus where
  | ok
  | degraded
  | fail
  | needCal
  deriving DecidableEq, Repr

/-- `OxygenCellMsg_t`, as far as the vote reads it. -/
structure OxygenCellMsg where
  ppo2 : UInt8
  precisionPpo2 : ℚ
  millivolts : UInt16
  status : CellStatus
  timestampTicks : ℤ
  deriving DecidableEq, Repr

/-- An array over the `CELL_MAX_COUNT` cells. -/
abbrev PerCell (α : Type) := Fin 3 → α

/-- `ConsensusMsg_t`. -/
structure ConsensusMsg where
  consensusPpo2 : UInt8
  precisionConsensus : ℚ
  ppo2Array : PerCell UInt8
  precisionPpo2Array : PerCell ℚ
  milliArray : PerCell UInt16
  statusArray : PerCell CellStatus
  includeArray : PerCell Bool
  confidence : ℕ
  deriving DecidableEq

/-- `ppo2_centibar_to_wire`. -/
def ppo2CentibarToWire (centibarPpo2 : ℚ) : UInt8 :=
  let rounded := roundAway centibarPpo2
  let rounded := if rounded < 0 then 0 else rounded
  let rounded := if rounded > maxValidPpo2 then (maxValidPpo2 : ℤ) else rounded
  UInt8.ofNat rounded.toNat

/-- The voted reading of an average in centibar: a failure past the wire's range. -/
def saturate (average : ℚ) : UInt8 :=
  if average > maxValidPpo2 then ppo2Fail else ppo2CentibarToWire average

/-- Whether a distance in bar is past the allowed deviation. -/
def tooFar (distance : ℚ) : Bool := decide (distance * centibarPerBar > maxDeviation)

/-- The indices the loops over the cells run through. -/
def cellIndices : List (Fin 3) := List.finRange 3

/-- `consensus_confidence`. -/
def consensusConfidence (consensus : ConsensusMsg) : ℕ :=
  cellIndices.countP consensus.includeArray

def twoCellConsensus (consensus : ConsensusMsg) : ConsensusMsg :=
  let included := (cellIndices.filter consensus.includeArray).map consensus.precisionPpo2Array
  let first := included.getD 0 0
  let second := included.getD 1 0
  if tooFar |first - second| then { consensus with includeArray := fun _ => false }
  else
    let average := (first + second) / 2 * centibarPerBar
    { consensus with
      consensusPpo2 := saturate average
      precisionConsensus := average / centibarPerBar }

/-- The two cells of each pairwise comparison. -/
def pairOf : Fin 3 → Fin 3 × Fin 3
  | 0 => (0, 1)
  | 1 => (0, 2)
  | 2 => (1, 2)

/-- The cell that is not in the pairwise comparison. -/
def remainderCell : Fin 3 → Fin 3
  | 0 => 2
  | 1 => 1
  | 2 => 0

def pairwiseDifferences (p : PerCell ℚ) (i : Fin 3) : ℚ := |p (pairOf i).1 - p (pairOf i).2|

def pairwiseAverages (p : PerCell ℚ) (i : Fin 3) : ℚ := (p (pairOf i).1 + p (pairOf i).2) / 2

/-- The first index of the least value, as the loop that looks for it finds it. -/
def minIndex (d : PerCell ℚ) : Fin 3 :=
  cellIndices.foldl (fun best i => if d i < d best then i else best) 0

def threeCellConsensus (consensus : ConsensusMsg) : ConsensusMsg :=
  let p := consensus.precisionPpo2Array
  let min := minIndex (pairwiseDifferences p)
  let pairAverage := pairwiseAverages p min
  let remainder := remainderCell min
  if tooFar (pairwiseDifferences p min) then
    { consensus with includeArray := fun _ => false }
  else if tooFar |p remainder - pairAverage| then
    { consensus with
      includeArray := Function.update consensus.includeArray remainder false
      consensusPpo2 := saturate (pairAverage * centibarPerBar)
      precisionConsensus := pairAverage }
  else
    let totalAverage := (p 0 + p 1 + p 2) / 3 * centibarPerBar
    { consensus with
      consensusPpo2 := saturate totalAverage
      precisionConsensus := totalAverage / centibarPerBar }

/-- The zeroth step: load up the arrays, with the cells from `count` on failed. -/
def loadCells (cells : PerCell OxygenCellMsg) (count : ℕ) : ConsensusMsg where
  consensusPpo2 := ppo2Fail
  precisionConsensus := ppo2Fail.toNat
  ppo2Array i := if i < count then (cells i).ppo2 else 0
  precisionPpo2Array i := if i < count then (cells i).precisionPpo2 else 0
  milliArray i := if i < count then (cells i).millivolts else 0
  statusArray i := if i < count then (cells i).status else .fail
  includeArray i := decide (i < count)
  confidence := 0

/-- Whether the first pass leaves an included cell in. -/
def cellIsGood (cell : OxygenCellMsg) (nowTicks stalenessTicks : ℤ) : Bool :=
  if cell.ppo2 = ppo2Fail ∨ cell.ppo2 = 0 then false
  else if cell.status = .needCal ∨ cell.status = .fail ∨ cell.status = .degraded ∨
      nowTicks - cell.timestampTicks > stalenessTicks then false
  else true

/-- The loop body for a single good cell: read it, and vote it out. -/
def useCell (consensus : ConsensusMsg) (i : Fin 3) : ConsensusMsg :=
  if consensus.includeArray i then
    { consensus with
      consensusPpo2 := consensus.ppo2Array i
      precisionConsensus := consensus.precisionPpo2Array i
      includeArray := Function.update consensus.includeArray i false }
  else consensus

def oneCellConsensus (consensus : ConsensusMsg) : ConsensusMsg :=
  cellIndices.foldl useCell consensus

/-- The first pass: the loaded arrays, with only the good cells left in. -/
def filterCells (cells : PerCell OxygenCellMsg) (count : ℕ)
    (nowTicks stalenessTicks : ℤ) : ConsensusMsg :=
  let loaded := loadCells cells count
  { loaded with includeArray := fun i =>
      loaded.includeArray i && cellIsGood (cells i) nowTicks stalenessTicks }

/-- The second pass: the vote that the number of good cells calls for. -/
def voteByCount (consensus : ConsensusMsg) : ConsensusMsg :=
  let includedCellCount := cellIndices.countP consensus.includeArray
  if includedCellCount = 0 then consensus
  else if includedCellCount = 1 then oneCellConsensus consensus
  else if includedCellCount = 2 then twoCellConsensus consensus
  else threeCellConsensus consensus

def consensusCalculate (cells : PerCell OxygenCellMsg) (count : ℕ)
    (nowTicks stalenessTicks : ℤ) : ConsensusMsg :=
  let consensus := voteByCount (filterCells cells count nowTicks stalenessTicks)
  { consensus with confidence := consensusConfidence consensus }

/-! ## What the vote decides -/

/-- The cells a message includes. -/
def included (consensus : ConsensusMsg) : Finset (Fin 3) :=
  Finset.univ.filter fun i => consensus.includeArray i = true

/-- The allowed deviation in bar. -/
def deviation : ℚ := maxDeviation / centibarPerBar

theorem tooFar_iff {d : ℚ} : tooFar d = true ↔ deviation < d := by
  simp only [tooFar, deviation, maxDeviation, centibarPerBar, decide_eq_true_eq, gt_iff_lt]
  constructor <;> intro h <;> linarith

theorem not_tooFar_iff {d : ℚ} : tooFar d = false ↔ d ≤ deviation := by
  rw [← Bool.not_eq_true, tooFar_iff, not_lt]

theorem included_eq_toFinset (consensus : ConsensusMsg) :
    included consensus = (cellIndices.filter consensus.includeArray).toFinset := by
  ext i
  simp [included, cellIndices]

theorem countP_eq_card (consensus : ConsensusMsg) :
    cellIndices.countP consensus.includeArray = (included consensus).card := by
  rw [included_eq_toFinset, List.toFinset_card_of_nodup, List.countP_eq_length_filter]
  exact (List.nodup_finRange 3).filter _

/-- The search never leaves a lesser value behind. -/
theorem foldl_least (d : PerCell ℚ) (l : List (Fin 3)) (start : Fin 3) :
    let least := l.foldl (fun best i => if d i < d best then i else best) start
    d least ≤ d start ∧ ∀ i ∈ l, d least ≤ d i := by
  induction l generalizing start with
  | nil => exact ⟨le_rfl, fun i hi => absurd hi List.not_mem_nil⟩
  | cons x l ih =>
    obtain ⟨hstart, hl⟩ := ih (if d x < d start then x else start)
    have hle : d (if d x < d start then x else start) ≤ min (d x) (d start) := by
      split_ifs with h
      · exact le_min le_rfl h.le
      · exact le_min (not_lt.mp h) le_rfl
    refine ⟨hstart.trans (hle.trans (min_le_right _ _)), fun i hi => ?_⟩
    rcases List.mem_cons.mp hi with rfl | hi
    · exact hstart.trans (hle.trans (min_le_left _ _))
    · exact hl i hi

theorem minIndex_le (d : PerCell ℚ) (i : Fin 3) : d (minIndex d) ≤ d i :=
  (foldl_least d cellIndices 0).2 i (List.mem_finRange i)

theorem pairwiseDifferences_eq (p : PerCell ℚ) (i : Fin 3) :
    pairwiseDifferences p i = gap p (pairOf i).1 (pairOf i).2 := rfl

/-- A pair no farther apart than any other is a closest one. -/
theorem closest_pairOf {p : PerCell ℚ} {m : Fin 3}
    (h : ∀ i, pairwiseDifferences p m ≤ pairwiseDifferences p i) :
    Closest p (pairOf m).1 (pairOf m).2 (remainderCell m) := by
  have h0 := h 0
  have h1 := h 1
  have h2 := h 2
  simp only [pairwiseDifferences_eq] at h0 h1 h2
  match m with
  | 0 =>
    simp only [pairOf, remainderCell] at *
    exact ⟨by decide, by decide, by decide, h1, h2⟩
  | 1 =>
    simp only [pairOf, remainderCell] at *
    exact ⟨by decide, by decide, by decide, h0, gap_comm p 1 2 ▸ h2⟩
  | 2 =>
    simp only [pairOf, remainderCell] at *
    exact ⟨by decide, by decide, by decide, gap_comm p 0 1 ▸ h0, gap_comm p 0 2 ▸ h1⟩

/-- What a vote among the `valid` cells decides: who is in, and the reading. -/
structure Decides (p : PerCell ℚ) (ppo2 : PerCell UInt8) (valid : Finset (Fin 3))
    (c : ConsensusMsg) : Prop where
  vote : Vote deviation p valid (included c)
  mean_of_nonempty : (included c).Nonempty → c.precisionConsensus = mean p (included c) ∧
    c.consensusPpo2 = saturate (c.precisionConsensus * centibarPerBar)
  single : ∀ i, valid = {i} → c.precisionConsensus = p i ∧ c.consensusPpo2 = ppo2 i
  failed : included c = ∅ → valid.card ≠ 1 →
    c.precisionConsensus = ppo2Fail.toNat ∧ c.consensusPpo2 = ppo2Fail

theorem cellIndices_nodup : cellIndices.Nodup := List.nodup_finRange 3

/-- The loop over a single good cell copies its reading and votes it out. -/
theorem oneCellConsensus_eq {c : ConsensusMsg} {a : Fin 3}
    (h : c.includeArray = fun i => decide (i = a)) :
    oneCellConsensus c = { c with
      consensusPpo2 := c.ppo2Array a
      precisionConsensus := c.precisionPpo2Array a
      includeArray := fun _ => false } := by
  have hupd : Function.update (fun i => decide (i = a)) a false = fun _ => false := by
    funext i
    by_cases hi : i = a <;> simp [hi]
  obtain ⟨f, m, pa, pp, ma, sa, inc, conf⟩ := c
  subst h
  match a with
  | 0 | 1 | 2 => simp [oneCellConsensus, useCell, cellIndices, List.finRange_succ, hupd]

theorem included_none {c : ConsensusMsg} (h : c.includeArray = fun _ => false) :
    included c = ∅ := by
  simp [included, h]

/-- A vote that lets nobody in keeps the failure the message was loaded with. -/
theorem Decides.failure {p : PerCell ℚ} {ppo2 : PerCell UInt8} {valid : Finset (Fin 3)}
    {c : ConsensusMsg} (h1 : valid.card ≠ 1) (hin : included c = ∅)
    (hv : Vote deviation p valid ∅) (hf : c.consensusPpo2 = ppo2Fail)
    (hp : c.precisionConsensus = ppo2Fail.toNat) : Decides p ppo2 valid c where
  vote := hin ▸ hv
  mean_of_nonempty h := absurd hin h.ne_empty
  single i h := absurd (h ▸ Finset.card_singleton i) h1
  failed _ _ := ⟨hp, hf⟩

/-- A vote that lets cells in reads their mean. -/
theorem Decides.reading {p : PerCell ℚ} {ppo2 : PerCell UInt8} {valid ins : Finset (Fin 3)}
    {c : ConsensusMsg} (h1 : valid.card ≠ 1) (hne : ins.Nonempty) (hin : included c = ins)
    (hv : Vote deviation p valid ins) (hp : c.precisionConsensus = mean p ins)
    (hf : c.consensusPpo2 = saturate (mean p ins * centibarPerBar)) :
    Decides p ppo2 valid c where
  vote := hin ▸ hv
  mean_of_nonempty _ := by rw [hin, hp]; exact ⟨rfl, hf⟩
  single i h := absurd (h ▸ Finset.card_singleton i) h1
  failed h := absurd (hin ▸ h) hne.ne_empty

theorem mul_centibarPerBar_div (x : ℚ) : x * centibarPerBar / centibarPerBar = x :=
  mul_div_cancel_right₀ x (by norm_num [centibarPerBar])

theorem twoCellConsensus_decides {c : ConsensusMsg} (h2 : (included c).card = 2)
    (hf : c.consensusPpo2 = ppo2Fail) (hp : c.precisionConsensus = ppo2Fail.toNat) :
    Decides c.precisionPpo2Array c.ppo2Array (included c) (twoCellConsensus c) := by
  have hlen : (cellIndices.filter c.includeArray).length = 2 := by
    rw [← List.countP_eq_length_filter, countP_eq_card, h2]
  obtain ⟨a, b, hfilter⟩ := List.length_eq_two.mp hlen
  have hab : a ≠ b := by
    have := cellIndices_nodup.filter c.includeArray
    simpa [hfilter] using this
  have hin : included c = {a, b} := by
    rw [included_eq_toFinset, hfilter, List.toFinset_cons, List.toFinset_cons, List.toFinset_nil,
      insert_empty_eq]
  have h1 : (included c).card ≠ 1 := by omega
  unfold twoCellConsensus
  simp only [hfilter, List.map_cons, List.map_nil, List.getD_cons_zero, List.getD_cons_succ]
  rw [← mean_pair c.precisionPpo2Array hab]
  split_ifs with hfar
  · refine .failure h1 (included_none rfl) (.scattered h2.ge ?_) hf hp
    rw [hin]
    intro i hi j hj hij
    have hfar := tooFar_iff.mp hfar
    simp only [Finset.mem_insert, Finset.mem_singleton] at hi hj
    rcases hi with rfl | rfl <;> rcases hj with rfl | rfl
    · exact absurd rfl hij
    · exact hfar
    · rw [gap_comm]; exact hfar
    · exact absurd rfl hij
  · have near := not_tooFar_iff.mp (Bool.not_eq_true _ ▸ hfar)
    have hne : (included c).Nonempty := by rw [← Finset.card_pos]; omega
    refine .reading h1 hne rfl (.pair hab hin near) ?_ ?_
    · rw [hin]; exact mul_centibarPerBar_div _
    · rw [hin]

/-- The three cells, seen from a comparison. -/
theorem univ_eq_pairOf (m : Fin 3) :
    (Finset.univ : Finset (Fin 3)) = {(pairOf m).1, (pairOf m).2, remainderCell m} := by
  match m with
  | 0 | 1 | 2 => decide

theorem pair_eq_erase (m : Fin 3) :
    ({(pairOf m).1, (pairOf m).2} : Finset (Fin 3)) = Finset.univ.erase (remainderCell m) := by
  match m with
  | 0 | 1 | 2 => decide

/-- Any two cells are compared. -/
theorem exists_pairOf : ∀ i j : Fin 3, i ≠ j → ∃ m, pairOf m = (i, j) ∨ pairOf m = (j, i) := by
  decide

theorem mean_univ (p : PerCell ℚ) : mean p Finset.univ = (p 0 + p 1 + p 2) / 3 := by
  rw [mean, Fin.sum_univ_three, Finset.card_univ, Fintype.card_fin, Nat.cast_ofNat]

theorem included_update {c : ConsensusMsg} (r : Fin 3) :
    Finset.univ.filter (fun i => Function.update c.includeArray r false i = true) =
      (included c).erase r := by
  ext i
  by_cases hi : i = r <;> simp [included, hi]

theorem threeCellConsensus_decides {c : ConsensusMsg} (h3 : included c = Finset.univ)
    (hf : c.consensusPpo2 = ppo2Fail) (hp : c.precisionConsensus = ppo2Fail.toNat) :
    Decides c.precisionPpo2Array c.ppo2Array (included c) (threeCellConsensus c) := by
  have hcard : (included c).card = 3 := by rw [h3]; rfl
  have h1 : (included c).card ≠ 1 := by omega
  have hclosest := closest_pairOf (minIndex_le (pairwiseDifferences c.precisionPpo2Array))
  have hleast := minIndex_le (pairwiseDifferences c.precisionPpo2Array)
  unfold threeCellConsensus
  simp only
  generalize minIndex (pairwiseDifferences c.precisionPpo2Array) = m at hclosest hleast ⊢
  have huniv := univ_eq_pairOf m
  have hmean := mean_pair c.precisionPpo2Array hclosest.ab
  rw [← pairwiseAverages] at hmean
  split_ifs with hfar hout
  · refine .failure h1 (included_none rfl) (.scattered (by omega) ?_) hf hp
    intro i _ j _ hij
    obtain ⟨k, hk⟩ := exists_pairOf i j hij
    have hlt := (tooFar_iff.mp hfar).trans_le (hleast k)
    rw [pairwiseDifferences_eq] at hlt
    rcases hk with hk | hk <;> rw [hk] at hlt
    · exact hlt
    · exact gap_comm c.precisionPpo2Array i j ▸ hlt
  · have near := not_tooFar_iff.mp (Bool.not_eq_true _ ▸ hfar)
    have far := tooFar_iff.mp hout
    rw [hmean.symm] at far
    refine .reading h1 ⟨_, Finset.mem_insert_self _ _⟩ ?_
      (.outlier hclosest (h3.trans huniv) near far) hmean.symm (by rw [hmean])
    rw [included, included_update, h3, pair_eq_erase]
  · have near := not_tooFar_iff.mp (Bool.not_eq_true _ ▸ hfar)
    have all := not_tooFar_iff.mp (Bool.not_eq_true _ ▸ hout)
    rw [hmean.symm] at all
    have hne : (included c).Nonempty := by rw [← Finset.card_pos]; omega
    refine .reading h1 hne rfl
      (.agreed hclosest (h3.trans huniv) near all) ?_ ?_
    · rw [h3, mean_univ, mul_centibarPerBar_div]
    · rw [h3, mean_univ]

/-- The cells that pass the filter. -/
def goodCells (cells : PerCell OxygenCellMsg) (count : ℕ) (now stale : ℤ) : Finset (Fin 3) :=
  Finset.univ.filter fun i => i < count ∧ cellIsGood (cells i) now stale = true

theorem included_filterCells (cells : PerCell OxygenCellMsg) (count : ℕ) (now stale : ℤ) :
    included (filterCells cells count now stale) = goodCells cells count now stale := by
  simp [included, filterCells, goodCells, loadCells]

/-- The confidence is the number of cells in the message. -/
theorem consensusCalculate_confidence (cells : PerCell OxygenCellMsg) (count : ℕ)
    (now stale : ℤ) :
    (consensusCalculate cells count now stale).confidence =
      (included (consensusCalculate cells count now stale)).card := by
  rw [← countP_eq_card]
  rfl

theorem Decides.confidence {p : PerCell ℚ} {ppo2 : PerCell UInt8} {valid : Finset (Fin 3)}
    {c : ConsensusMsg} (h : Decides p ppo2 valid c) (n : ℕ) :
    Decides p ppo2 valid { c with confidence := n } :=
  ⟨h.vote, h.mean_of_nonempty, h.single, h.failed⟩

/-- A single good cell is read and voted out. -/
theorem oneCellConsensus_decides {c : ConsensusMsg} (h1 : (included c).card = 1) :
    Decides c.precisionPpo2Array c.ppo2Array (included c) (oneCellConsensus c) := by
  obtain ⟨a, ha⟩ := Finset.card_eq_one.mp h1
  have hinc : c.includeArray = fun i => decide (i = a) := by
    funext i
    have : i ∈ included c ↔ i = a := by rw [ha, Finset.mem_singleton]
    rw [included, Finset.mem_filter] at this
    by_cases hi : i = a <;> simp_all
  rw [oneCellConsensus_eq hinc, ha]
  refine ⟨?_, ?_, ?_, ?_⟩
  · rw [included_none rfl]
    exact .few (Finset.card_singleton a).le
  · intro h
    exact absurd (included_none rfl) h.ne_empty
  · intro i hi
    rw [Finset.singleton_inj.mp hi]
    exact ⟨rfl, rfl⟩
  · intro _ h
    exact absurd (Finset.card_singleton a) h

/-- What the vote decides, by the number of good cells. -/
theorem consensusCalculate_decides (cells : PerCell OxygenCellMsg) (count : ℕ) (now stale : ℤ) :
    Decides (loadCells cells count).precisionPpo2Array (loadCells cells count).ppo2Array
      (goodCells cells count now stale) (consensusCalculate cells count now stale) := by
  have hle := Finset.card_le_univ (included (filterCells cells count now stale))
  rw [Fintype.card_fin] at hle
  rw [← included_filterCells]
  refine Decides.confidence ?_ _
  rw [voteByCount, countP_eq_card]
  split_ifs with h0 h1 h2
  · exact .failure (by omega) (Finset.card_eq_zero.mp h0) (.few (by omega)) rfl rfl
  · exact oneCellConsensus_decides h1
  · exact twoCellConsensus_decides h2 rfl rfl
  · have h3 : (included (filterCells cells count now stale)).card = 3 := by omega
    exact threeCellConsensus_decides ((Finset.card_eq_iff_eq_univ _).mp h3) rfl rfl

/-- A reading on the wire is its average rounded, raised to zero and never past the valid range. -/
theorem saturate_toNat {x : ℚ} (h : saturate x ≠ ppo2Fail) :
    ((saturate x).toNat : ℤ) = max 0 (roundAway x) ∧ (saturate x).toNat ≤ maxValidPpo2 := by
  unfold saturate at h ⊢
  split_ifs at h ⊢ with hx
  · exact absurd rfl h
  · have hle : roundAway x ≤ 254 := roundAway_le (by simpa [maxValidPpo2] using hx)
    have hwire : (ppo2CentibarToWire x).toNat = (max 0 (roundAway x)).toNat := by
      have hclamp : (if (if roundAway x < 0 then 0 else roundAway x) > (maxValidPpo2 : ℤ)
          then (maxValidPpo2 : ℤ) else if roundAway x < 0 then 0 else roundAway x) =
          max 0 (roundAway x) := by
        simp only [maxValidPpo2]
        split_ifs <;> omega
      simp only [ppo2CentibarToWire, hclamp, UInt8.toNat_ofNat']
      omega
    rw [hwire, maxValidPpo2]
    omega

theorem cellIsGood_iff {cell : OxygenCellMsg} {now stale : ℤ} :
    cellIsGood cell now stale = true ↔ cell.ppo2 ≠ 0 ∧ cell.ppo2 ≠ ppo2Fail ∧
      cell.status = .ok ∧ now - cell.timestampTicks ≤ stale := by
  unfold cellIsGood
  split_ifs with hppo2 hstatus
  · simp only [false_iff]
    tauto
  · simp only [false_iff]
    rintro ⟨-, -, hok, hage⟩
    rw [hok] at hstatus
    rcases hstatus with h | h | h | h
    · cases h
    · cases h
    · cases h
    · omega
  · simp only [not_or] at hppo2 hstatus
    refine ⟨fun _ => ⟨hppo2.2, hppo2.1, ?_, by omega⟩, fun _ => rfl⟩
    cases hs : cell.status <;> simp_all

theorem mem_goodCells {cells : PerCell OxygenCellMsg} {count : ℕ} {now stale : ℤ} {i : Fin 3} :
    i ∈ goodCells cells count now stale ↔ i < count ∧ cellIsGood (cells i) now stale = true := by
  simp [goodCells]

theorem mem_included {c : ConsensusMsg} {i : Fin 3} :
    i ∈ included c ↔ c.includeArray i = true := by
  simp [included]

/-- The vote reads the cells themselves wherever it reads a good one. -/
theorem loadCells_of_good {cells : PerCell OxygenCellMsg} {count : ℕ} {now stale : ℤ} {i : Fin 3}
    (h : i ∈ goodCells cells count now stale) :
    (loadCells cells count).precisionPpo2Array i = (cells i).precisionPpo2 ∧
      (loadCells cells count).ppo2Array i = (cells i).ppo2 := by
  have hi : (i : ℕ) < count := (mem_goodCells.mp h).1
  simp [loadCells, hi]

theorem deviation_lt_iff {x : ℚ} : deviation < x ↔ 15 < 100 * x := by
  rw [deviation, maxDeviation, centibarPerBar]
  constructor <;> intro h <;> linarith

/-- The vote of any cells: who may be in, what is read, and when it fails. -/
theorem consensusCalculate_sound (cells : PerCell OxygenCellMsg) (count : ℕ) (now stale : ℤ) :
    let c := consensusCalculate cells count now stale
    let good := goodCells cells count now stale
    (∀ i, c.includeArray i = true → (cells i).ppo2 ≠ 0 ∧ (cells i).ppo2 ≠ 0xFF ∧
      (cells i).status = .ok ∧ now - (cells i).timestampTicks ≤ stale) ∧
    ((c.confidence = 0 ∨ c.confidence = 2 ∨ c.confidence = 3) ∧
      c.confidence = (included c).card) ∧
    ((included c).Nonempty →
      c.precisionConsensus = mean (fun i => (cells i).precisionPpo2) (included c) ∧
      ∀ i ∈ included c, 100 * |(cells i).precisionPpo2 - c.precisionConsensus| ≤ 15) ∧
    ((good = ∅ ∨ 2 ≤ good.card ∧ ∀ i ∈ good, ∀ j ∈ good, i ≠ j →
        15 < 100 * |(cells i).precisionPpo2 - (cells j).precisionPpo2|) →
      c.consensusPpo2 = ppo2Fail) ∧
    (c.consensusPpo2 ≠ ppo2Fail → c.consensusPpo2.toNat ≤ 254 ∧
      ((∃ i, good = {i} ∧ c.consensusPpo2 = (cells i).ppo2) ∨
        (c.consensusPpo2.toNat : ℤ) = max 0 (roundAway (100 * c.precisionConsensus)))) := by
  intro c good
  have hd : Decides _ _ good c := consensusCalculate_decides cells count now stale
  have hin : ∀ {i}, i ∈ included c → i ∈ good := fun hi => hd.vote.subset hi
  have hconf : c.confidence = (included c).card := consensusCalculate_confidence ..
  have hmean : mean (loadCells cells count).precisionPpo2Array (included c) =
      mean (fun i => (cells i).precisionPpo2) (included c) :=
    mean_congr fun i hi => (loadCells_of_good (hin hi)).1
  refine ⟨fun i hi => cellIsGood_iff.mp (mem_goodCells.mp (hin (mem_included.mpr hi))).2,
    ⟨hconf ▸ hd.vote.card, hconf⟩, fun hne => ?_, fun hfail => ?_, fun hok => ?_⟩
  · have hp := (hd.mean_of_nonempty hne).1
    refine ⟨hp.trans hmean, fun i hi => not_lt.mp ?_⟩
    rw [← deviation_lt_iff, not_lt, hp, ← (loadCells_of_good (hin hi)).1]
    exact hd.vote.near_mean i hi
  · have hcard : good.card ≠ 1 := by
      rcases hfail with h | h
      · rw [h, Finset.card_empty]; exact Nat.zero_ne_one
      · omega
    refine (hd.failed (hd.vote.eq_empty fun i hi j hj hij => ?_) hcard).2
    rcases hfail with h | h
    · rw [h] at hi
      exact absurd hi (Finset.notMem_empty i)
    · rw [deviation_lt_iff, gap, (loadCells_of_good hi).1, (loadCells_of_good hj).1]
      exact h.2 i hi j hj hij
  · by_cases hone : good.card = 1
    · obtain ⟨i, hi⟩ := Finset.card_eq_one.mp hone
      have hread : c.consensusPpo2 = (cells i).ppo2 :=
        (hd.single i hi).2.trans (loadCells_of_good (hi ▸ Finset.mem_singleton_self i)).2
      have hne : c.consensusPpo2.toNat ≠ 255 := fun h => hok (UInt8.toNat_inj.mp h)
      have := c.consensusPpo2.toNat_lt
      exact ⟨by omega, .inl ⟨i, hi, hread⟩⟩
    · rcases (included c).eq_empty_or_nonempty with hempty | hne
      · exact absurd (hd.failed hempty hone).2 hok
      · have hread := (hd.mean_of_nonempty hne).2
        rw [hread] at hok ⊢
        obtain ⟨hround, hle⟩ := saturate_toNat hok
        rw [mul_comm 100]
        exact ⟨hle, .inr hround⟩

/-- Two cells that agree on a small negative reading. -/
def belowZeroCells : PerCell OxygenCellMsg := fun _ =>
  { ppo2 := 5, precisionPpo2 := -1 / 20, millivolts := 0, status := .ok, timestampTicks := 0 }

/-- A negative average is raised to zero on the wire. -/
theorem belowZeroCells_raised :
    let c := consensusCalculate belowZeroCells 2 0 0
    c.consensusPpo2 ≠ ppo2Fail ∧
      ¬((∃ i, goodCells belowZeroCells 2 0 0 = {i} ∧ c.consensusPpo2 = (belowZeroCells i).ppo2) ∨
        (c.consensusPpo2.toNat : ℤ) = roundAway (100 * c.precisionConsensus)) := by
  decide +kernel

/-! ## Reordering the cells -/

theorem useCell_arrays (c : ConsensusMsg) (i : Fin 3) :
    (useCell c i).ppo2Array = c.ppo2Array ∧ (useCell c i).statusArray = c.statusArray := by
  unfold useCell
  split <;> exact ⟨rfl, rfl⟩

theorem foldl_useCell_arrays (l : List (Fin 3)) (c : ConsensusMsg) :
    (l.foldl useCell c).ppo2Array = c.ppo2Array ∧
      (l.foldl useCell c).statusArray = c.statusArray := by
  induction l generalizing c with
  | nil => exact ⟨rfl, rfl⟩
  | cons i l ih =>
    obtain ⟨hp, hs⟩ := useCell_arrays c i
    rw [List.foldl_cons, (ih _).1, (ih _).2, hp, hs]
    exact ⟨rfl, rfl⟩

/-- No vote touches the arrays it was loaded with. -/
theorem voteByCount_arrays (c : ConsensusMsg) :
    (voteByCount c).ppo2Array = c.ppo2Array ∧ (voteByCount c).statusArray = c.statusArray := by
  unfold voteByCount
  simp only
  split_ifs
  · exact ⟨rfl, rfl⟩
  · exact foldl_useCell_arrays _ c
  · unfold twoCellConsensus
    simp only
    split_ifs <;> exact ⟨rfl, rfl⟩
  · unfold threeCellConsensus
    simp only
    split_ifs <;> exact ⟨rfl, rfl⟩

theorem goodCells_comp (cells : PerCell OxygenCellMsg) (now stale : ℤ) (σ : Equiv.Perm (Fin 3)) :
    (goodCells (cells ∘ σ) 3 now stale).map σ.toEmbedding = goodCells cells 3 now stale := by
  ext i
  rw [Finset.mem_map_equiv, mem_goodCells, mem_goodCells]
  simp

/-- Three cells are loaded as they are. -/
theorem loadCells_three (cells : PerCell OxygenCellMsg) :
    (loadCells cells 3).precisionPpo2Array = (fun i => (cells i).precisionPpo2) ∧
      (loadCells cells 3).ppo2Array = (fun i => (cells i).ppo2) ∧
      (loadCells cells 3).statusArray = fun i => (cells i).status := by
  simp [loadCells]

theorem consensusCalculate_arrays (cells : PerCell OxygenCellMsg) (now stale : ℤ) :
    (consensusCalculate cells 3 now stale).ppo2Array = (fun i => (cells i).ppo2) ∧
      (consensusCalculate cells 3 now stale).statusArray = fun i => (cells i).status := by
  obtain ⟨hp, hs⟩ := voteByCount_arrays (filterCells cells 3 now stale)
  obtain ⟨-, hp', hs'⟩ := loadCells_three cells
  exact ⟨hp.trans hp', hs.trans hs'⟩

/-- Votes over the same cells in two orders read the same, once the same cells are in. -/
theorem Decides.reading_eq {p : PerCell ℚ} {ppo2 : PerCell UInt8} {valid valid' : Finset (Fin 3)}
    {c c' : ConsensusMsg} {σ : Equiv.Perm (Fin 3)} (h : Decides p ppo2 valid c)
    (h' : Decides (p ∘ σ) (ppo2 ∘ σ) valid' c') (hv : valid'.map σ.toEmbedding = valid)
    (hin : (included c').map σ.toEmbedding = included c) :
    c'.precisionConsensus = c.precisionConsensus ∧ c'.consensusPpo2 = c.consensusPpo2 := by
  rcases (included c').eq_empty_or_nonempty with hempty | hne
  · have hempty' : included c = ∅ := by rw [← hin, hempty, Finset.map_empty]
    have hcard : valid'.card = valid.card := by rw [← hv, Finset.card_map]
    by_cases hone : valid.card = 1
    · obtain ⟨i, hi⟩ := Finset.card_eq_one.mp (hcard.trans hone)
      have hi' : valid = {σ i} := by rw [← hv, hi, Finset.map_singleton]; rfl
      rw [(h.single _ hi').1, (h.single _ hi').2, (h'.single _ hi).1, (h'.single _ hi).2]
      exact ⟨rfl, rfl⟩
    · obtain ⟨hp, hf⟩ := h.failed hempty' hone
      obtain ⟨hp', hf'⟩ := h'.failed hempty (hcard ▸ hone)
      exact ⟨hp'.trans hp.symm, hf'.trans hf.symm⟩
  · have hne' : (included c).Nonempty := by rw [← hin]; exact hne.map
    obtain ⟨hp, hf⟩ := h.mean_of_nonempty hne'
    obtain ⟨hp', hf'⟩ := h'.mean_of_nonempty hne
    rw [hf, hf', hp, hp', ← hin, mean_map]
    exact ⟨rfl, rfl⟩

/-- The voted message follows the cells wherever they are plugged in. -/
def Equivariant (cells : PerCell OxygenCellMsg) (now stale : ℤ) : Prop :=
  ∀ σ : Equiv.Perm (Fin 3),
    let c := consensusCalculate cells 3 now stale
    let c' := consensusCalculate (cells ∘ σ) 3 now stale
    c'.consensusPpo2 = c.consensusPpo2 ∧ c'.precisionConsensus = c.precisionConsensus ∧
      c'.confidence = c.confidence ∧ c'.includeArray = c.includeArray ∘ σ ∧
      c'.ppo2Array = c.ppo2Array ∘ σ ∧ c'.statusArray = c.statusArray ∘ σ

/-- An uncontested vote follows the cells. -/
theorem equivariant_of_not_contested {cells : PerCell OxygenCellMsg} {now stale : ℤ}
    (h : ¬Contested deviation (fun i => (cells i).precisionPpo2) (goodCells cells 3 now stale)) :
    Equivariant cells now stale := by
  intro σ c c'
  have hd := consensusCalculate_decides cells 3 now stale
  have hd' := consensusCalculate_decides (cells ∘ σ) 3 now stale
  have hv := goodCells_comp cells now stale σ
  rw [(loadCells_three _).1, (loadCells_three _).2.1] at hd hd'
  have hins : (included c').map σ.toEmbedding = included c := by
    have hback : (fun i => ((cells ∘ σ) i).precisionPpo2) ∘ σ.symm =
        fun i => (cells i).precisionPpo2 := by
      funext i
      simp
    have hvote := hd'.vote.relabel σ
    rw [hv, hback] at hvote
    exact Vote.unique h hvote hd.vote
  obtain ⟨hp, hf⟩ := Decides.reading_eq hd hd' hv hins
  refine ⟨hf, hp, ?_, ?_, ?_, ?_⟩
  · rw [consensusCalculate_confidence, consensusCalculate_confidence]
    exact (Finset.card_map σ.toEmbedding).symm.trans (congrArg Finset.card hins)
  · funext i
    rw [Function.comp_apply, Bool.eq_iff_iff, ← mem_included, ← mem_included, ← hins,
      Finset.mem_map_equiv, Equiv.symm_apply_apply]
  · rw [(consensusCalculate_arrays _ _ _).1, (consensusCalculate_arrays _ _ _).1]
    rfl
  · rw [(consensusCalculate_arrays _ _ _).2, (consensusCalculate_arrays _ _ _).2]
    rfl

/-- Three good cells are voted on pairwise. -/
theorem consensusCalculate_three {cells : PerCell OxygenCellMsg} {now stale : ℤ}
    (h : goodCells cells 3 now stale = Finset.univ) :
    included (consensusCalculate cells 3 now stale) =
      included (threeCellConsensus (filterCells cells 3 now stale)) := by
  have hthree : (included (filterCells cells 3 now stale)).card = 3 := by
    rw [included_filterCells, h]
    rfl
  rw [consensusCalculate, voteByCount, countP_eq_card, hthree]
  rfl

/-- The cell that the pairwise search leaves out of the closest pair. -/
def leftOut (cells : PerCell OxygenCellMsg) : Fin 3 :=
  remainderCell (minIndex (pairwiseDifferences fun i => (cells i).precisionPpo2))

/-- Three equally spaced cells with the vote contested between the outer two. -/
structure Spaced (cells : PerCell OxygenCellMsg) (a b c : Fin 3) : Prop where
  ab : a ≠ b
  ac : a ≠ c
  bc : b ≠ c
  eq : (cells b).precisionPpo2 - (cells a).precisionPpo2 =
    (cells c).precisionPpo2 - (cells b).precisionPpo2
  lo : 2 * deviation < 3 * ((cells b).precisionPpo2 - (cells a).precisionPpo2)
  hi : (cells b).precisionPpo2 - (cells a).precisionPpo2 ≤ deviation

/-- Three distinct cells are all the cells. -/
theorem triple_eq_univ {a b c : Fin 3} (hab : a ≠ b) (hac : a ≠ c) (hbc : b ≠ c) :
    ({a, b, c} : Finset (Fin 3)) = Finset.univ := by
  rw [← Finset.card_eq_iff_eq_univ, Finset.card_eq_three.mpr ⟨a, b, c, hab, hac, hbc, rfl⟩]
  rfl

/-- The search alone picks the voted-out cell among the outer two. -/
theorem Spaced.included {cells : PerCell OxygenCellMsg} {now stale : ℤ} {a b c : Fin 3}
    (h : Spaced cells a b c) (hgood : goodCells cells 3 now stale = Finset.univ) :
    included (consensusCalculate cells 3 now stale) = Finset.univ.erase (leftOut cells) ∧
      leftOut cells ≠ b := by
  have hp : (filterCells cells 3 now stale).precisionPpo2Array =
      fun i => (cells i).precisionPpo2 := (loadCells_three cells).1
  have hclosest := closest_pairOf
    (minIndex_le (pairwiseDifferences fun i => (cells i).precisionPpo2))
  have hmean := mean_pair (fun i => (cells i).precisionPpo2) hclosest.ab
  obtain ⟨hr, near, far⟩ := hclosest.of_spaced
    ((triple_eq_univ h.ab h.ac h.bc).trans (univ_eq_pairOf _)) h.bc h.ab h.eq h.lo h.hi
  refine ⟨?_, hr⟩
  rw [hmean] at far
  rw [consensusCalculate_three hgood, threeCellConsensus, hp]
  simp only
  rw [if_neg (by rw [tooFar_iff, not_lt]; exact near), if_pos (by rw [tooFar_iff]; exact far)]
  exact (included_update _).trans (by rw [included_filterCells, hgood]; rfl)

/-- Plugging the outer two in the other way round leaves the search as it was. -/
theorem Spaced.swap {cells : PerCell OxygenCellMsg} {a b c : Fin 3} (h : Spaced cells a b c) :
    Spaced (cells ∘ Equiv.swap a c) c b a ∧ leftOut (cells ∘ Equiv.swap a c) = leftOut cells := by
  have hb : (cells ∘ Equiv.swap a c) b = cells b :=
    congrArg cells (Equiv.swap_apply_of_ne_of_ne h.ab.symm h.bc)
  have ha : (cells ∘ Equiv.swap a c) a = cells c := congrArg cells (Equiv.swap_apply_left a c)
  have hc : (cells ∘ Equiv.swap a c) c = cells a := congrArg cells (Equiv.swap_apply_right a c)
  have hmem : ∀ x, x ∈ ({a, b, c} : Finset (Fin 3)) := fun x =>
    triple_eq_univ h.ab h.ac h.bc ▸ Finset.mem_univ x
  refine ⟨⟨h.bc.symm, h.ac.symm, h.ab.symm, ?_, ?_, ?_⟩, ?_⟩
  · rw [hb, ha, hc]; exact h.eq
  · rw [hb, hc]; exact h.lo
  · rw [hb, hc]; exact h.hi
  · unfold leftOut
    congr 2
    funext i
    exact gap_swap (p := fun i => (cells i).precisionPpo2) h.ab h.bc h.eq (hmem _) (hmem _)

/-- A contested vote does not follow the cells. -/
theorem not_equivariant_of_contested {cells : PerCell OxygenCellMsg} {now stale : ℤ}
    (h : Contested deviation (fun i => (cells i).precisionPpo2) (goodCells cells 3 now stale)) :
    ¬Equivariant cells now stale := by
  obtain ⟨a, b, c, hab, hac, hbc, hgood, heq, hlo, hhi⟩ := h
  simp only [nsmul_eq_mul, Nat.cast_ofNat] at hlo
  have hs : Spaced cells a b c := ⟨hab, hac, hbc, heq, hlo, hhi⟩
  rw [triple_eq_univ hab hac hbc] at hgood
  have hgood' : goodCells (cells ∘ Equiv.swap a c) 3 now stale = Finset.univ := by
    have := goodCells_comp cells now stale (Equiv.swap a c)
    rw [hgood, ← Finset.map_univ_equiv (Equiv.swap a c)] at this
    exact Finset.map_injective _ this
  obtain ⟨hs', hleft⟩ := hs.swap
  obtain ⟨hin, hr⟩ := hs.included hgood
  obtain ⟨hin', -⟩ := hs'.included hgood'
  intro heqv
  obtain ⟨-, -, -, hinc, -⟩ := heqv (Equiv.swap a c)
  -- the same position is voted out both times, though the cell in it moved
  have hfix : Equiv.swap a c (leftOut cells) = leftOut cells := by
    by_contra hne
    have h1 : Equiv.swap a c (leftOut cells) ∈ included (consensusCalculate cells 3 now stale) := by
      rw [hin]
      exact Finset.mem_erase.mpr ⟨hne, Finset.mem_univ _⟩
    have h2 : leftOut cells ∈
        included (consensusCalculate (cells ∘ Equiv.swap a c) 3 now stale) := by
      rw [mem_included, hinc]
      exact mem_included.mp h1
    rw [hin', hleft] at h2
    exact absurd rfl (Finset.mem_erase.mp h2).1
  have hmem : leftOut cells ∈ ({a, b, c} : Finset (Fin 3)) :=
    triple_eq_univ hab hac hbc ▸ Finset.mem_univ _
  simp only [Finset.mem_insert, Finset.mem_singleton] at hmem
  rcases hmem with h | h | h
  · rw [h, Equiv.swap_apply_left] at hfix
    exact hac hfix.symm
  · exact hr h
  · rw [h, Equiv.swap_apply_right] at hfix
    exact hac hfix

/-- The vote follows the cells exactly when it is not contested. -/
theorem consensusCalculate_equivariant_iff (cells : PerCell OxygenCellMsg) (now stale : ℤ) :
    Equivariant cells now stale ↔
      ¬Contested deviation (fun i => (cells i).precisionPpo2) (goodCells cells 3 now stale) :=
  ⟨fun h hc => not_equivariant_of_contested hc h, equivariant_of_not_contested⟩

/-- Cells reading 100, 112 and 124 centibar. -/
def evenlySpacedCells : PerCell OxygenCellMsg := fun i =>
  { ppo2 := 100 + 12 * UInt8.ofNat i, precisionPpo2 := 1 + 12 / 100 * i, millivolts := 0,
    status := .ok, timestampTicks := 0 }

/-- Swapping the outer two of evenly spaced cells changes the vote. -/
theorem evenlySpacedCells_not_equivariant : ¬Equivariant evenlySpacedCells 0 10000 := by
  intro h
  have hp := (h (Equiv.swap 0 2)).2.1
  exact absurd hp (by decide +kernel)

end DiveCANHead.Cells
