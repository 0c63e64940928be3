import Mathlib.Algebra.Order.Field.Basic
import Mathlib.Algebra.Order.Floor.Semiring
import Mathlib.Order.Bounds.Basic
import Mathlib.Tactic.Linarith

/-!
# Decimation for the viewport (`decimateChannel` of `TelemetrySeries.js`)

A channel is drawn on a grid of buckets over the visible range. Every bucket gets the minimum and
the maximum of its samples; an edge bucket without any gets the next sample off the screen, if that
is near enough; and holes of few enough buckets are bridged by a straight line.
-/

namespace DiveCANHead.Viewer

section Decimate

variable {K : Type} [Field K] [LinearOrder K] [FloorSemiring K]

/-- A channel of a table: the sample times, in order, and the values, of which some are not
finite. -/
structure Series (K : Type) [LE K] where
  time : ℕ → K
  values : ℕ → Option K
  n : ℕ
  sorted : ∀ i j, i ≤ j → j < n → time i ≤ time j

/-- The loop of `lowerBound`, which ends before its turns do. -/
def lowerBoundLoop (time : ℕ → K) (t : K) : ℕ → ℕ → ℕ → ℕ
  | 0, lo, _ => lo
  | turns + 1, lo, hi =>
    if lo < hi then
      let mid := (lo + hi) / 2
      if time mid < t then lowerBoundLoop time t turns (mid + 1) hi
      else lowerBoundLoop time t turns lo mid
    else lo

/-- `lowerBound`. -/
def lowerBound (time : ℕ → K) (n : ℕ) (t : K) : ℕ := lowerBoundLoop time t n 0 n

/-- The two slots of a bucket. -/
structure Envelope (K : Type) where
  lo : K
  hi : K
  deriving DecidableEq

/-- `out`, of which `out[2b]` and `out[2b + 1]` are the bucket `b`; they are only null together. -/
abbrev Grid (K : Type) := ℕ → Option (Envelope K)

/-- `out[k]`. -/
def Grid.slot (out : Grid K) (k : ℕ) : Option K :=
  if k % 2 = 0 then (out (k / 2)).map (·.lo) else (out (k / 2)).map (·.hi)

omit [Field K] [LinearOrder K] [FloorSemiring K] in
theorem Grid.slot_eq_none_iff (out : Grid K) (k : ℕ) : out.slot k = none ↔ out (k / 2) = none := by
  unfold slot
  split <;> exact Option.map_eq_none_iff

/-- `lo`, `hi` and `any` after one more value: they start at the infinities. -/
def addSample : Option (Envelope K) → Option K → Option (Envelope K)
  | e, none => e
  | none, some v => some ⟨v, v⟩
  | some e, some v => some ⟨if v < e.lo then v else e.lo, if v > e.hi then v else e.hi⟩

/-- The inner loop: the samples from `cursor` before `edge`, of the `k` that are left. -/
def takeBucket (s : Series K) (edge : K) : ℕ → ℕ → Option (Envelope K) → ℕ × Option (Envelope K)
  | 0, cursor, e => (cursor, e)
  | k + 1, cursor, e =>
    if s.time cursor < edge then takeBucket s edge k (cursor + 1) (addSample e (s.values cursor))
    else (cursor, e)

/-- The cursor and the grid after that many buckets. -/
def fillBuckets (s : Series K) (t0 dt : K) (fromIdx toIdx : ℕ) : ℕ → ℕ × Grid K
  | 0 => (fromIdx, fun _ => none)
  | b + 1 =>
    let (cursor, out) := fillBuckets s t0 dt fromIdx toIdx b
    if cursor < toIdx then
      let (cursor, e) := takeBucket s (t0 + dt * (b + 1)) (toIdx - cursor) cursor none
      (cursor, if e.isSome then Function.update out b e else out)
    else (cursor, out)

/-- Draws a sample off the screen in an edge bucket that has none. -/
def anchorEdge (out : Grid K) (b : ℕ) (v : Option K) (near : Prop) [Decidable near] : Grid K :=
  match v with
  | some v => if out b = none ∧ near then Function.update out b (some ⟨v, v⟩) else out
  | none => out

/-- The straight line over the buckets between `p` and `b`. -/
def bridgeHole (out : Grid K) (p b : ℕ) (a z : K) : Grid K := fun k =>
  if p < k ∧ k < b then
    let v := a + (z - a) * ((k - p) / (b - p))
    some ⟨v, v⟩
  else out k

/-- `prev` and the grid after that many buckets of the bridging pass. -/
def bridgeBuckets (maxEmptyBuckets : ℕ) (out : Grid K) : ℕ → Option ℕ × Grid K
  | 0 => (none, out)
  | b + 1 =>
    let (prev, out) := bridgeBuckets maxEmptyBuckets out b
    match out b with
    | none => (prev, out)
    | some z =>
      match prev with
      | none => (some b, out)
      | some p =>
        let span := b - p - 1
        if 0 < span ∧ span ≤ maxEmptyBuckets then
          (some b, bridgeHole out p b ((out.slot (p * 2 + 1)).getD 0) z.lo)
        else (some b, out)

/-- The grid before the edges are anchored. -/
def bucketGrid (s : Series K) (t0 t1 : K) (buckets : ℕ) : Grid K :=
  (fillBuckets s t0 ((t1 - t0) / buckets) (lowerBound s.time s.n t0) (lowerBound s.time s.n t1)
    buckets).2

/-- The grid after the edges are anchored. -/
def anchorGrid (s : Series K) (t0 t1 : K) (buckets : ℕ) (gapS : K) (out : Grid K) : Grid K :=
  let fromIdx := lowerBound s.time s.n t0
  let toIdx := lowerBound s.time s.n t1
  let out := anchorEdge out 0 (s.values (fromIdx - 1))
    (0 < fromIdx ∧ t0 - s.time (fromIdx - 1) ≤ gapS)
  anchorEdge out (buckets - 1) (s.values toIdx) (toIdx < s.n ∧ s.time toIdx - t1 ≤ gapS)

/-- `maxEmptyBuckets`. -/
def maxEmpty (t0 t1 : K) (buckets : ℕ) (gapS : K) : ℕ :=
  if gapS > 0 then ⌊gapS / ((t1 - t0) / buckets)⌋₊ else 0

/-- `decimateChannel`. -/
def decimateChannel (s : Series K) (t0 t1 : K) (buckets : ℕ) (gapS : K) : Grid K :=
  if s.n = 0 then fun _ => none
  else
    let out := bucketGrid s t0 t1 buckets
    if maxEmpty t0 t1 buckets gapS = 0 then out
    else
      (bridgeBuckets (maxEmpty t0 t1 buckets gapS) (anchorGrid s t0 t1 buckets gapS out) buckets).2

end Decimate

end DiveCANHead.Viewer
