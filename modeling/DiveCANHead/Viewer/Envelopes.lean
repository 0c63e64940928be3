import Mathlib.Order.Bounds.Basic
import Mathlib.Tactic.FieldSimp
import DiveCANHead.Viewer.Decimate

/-!
# What the buckets hold

Every visible sample goes to the bucket whose interval it is in, and a bucket holds the minimum and
the maximum of the finite values of its samples.
-/

namespace DiveCANHead.Viewer

section Decimate

variable {K : Type} [Field K] [LinearOrder K]

/-- The sample is in the interval of the bucket. -/
def InBucket (s : Series K) (t0 dt : K) (b i : ℕ) : Prop :=
  t0 + dt * b ≤ s.time i ∧ s.time i < t0 + dt * (b + 1)

/-- The finite values of the samples in the bucket. -/
def bucketValues (s : Series K) (t0 dt : K) (b : ℕ) : Set K :=
  {v | ∃ i < s.n, InBucket s t0 dt b i ∧ s.values i = some v}

/-- A bucket holds the least and the greatest of the values, or nothing where there are none. -/
def Envelops (S : Set K) : Option (Envelope K) → Prop
  | none => S = ∅
  | some e => IsLeast S e.lo ∧ IsGreatest S e.hi

omit [Field K] in
theorem Envelops.ne_none_iff {S : Set K} {e : Option (Envelope K)} (h : Envelops S e) :
    e ≠ none ↔ S.Nonempty := by
  cases e with
  | none =>
    obtain rfl : S = ∅ := h
    exact iff_of_false (fun hn => hn rfl) Set.not_nonempty_empty
  | some e => exact iff_of_true (Option.some_ne_none e) ⟨e.lo, h.1.1⟩

/-! ### The binary search -/

omit [Field K] in
theorem lowerBoundLoop_spec {time : ℕ → K} {n : ℕ}
    (hs : ∀ i j, i ≤ j → j < n → time i ≤ time j) (t : K) {turns lo hi : ℕ}
    (hfuel : hi - lo ≤ turns) (hle : lo ≤ hi) (hn : hi ≤ n) (hlo : ∀ i < lo, time i < t)
    (hhi : ∀ i, hi ≤ i → i < n → t ≤ time i) :
    lowerBoundLoop time t turns lo hi ≤ n ∧
    (∀ i < lowerBoundLoop time t turns lo hi, time i < t) ∧
    ∀ i, lowerBoundLoop time t turns lo hi ≤ i → i < n → t ≤ time i := by
  induction turns generalizing lo hi with
  | zero =>
    obtain rfl : lo = hi := by omega
    exact ⟨hn, hlo, hhi⟩
  | succ turns ih =>
    rw [lowerBoundLoop]
    split
    · rename_i hlt
      dsimp only
      split
      · rename_i hmid
        refine ih (by omega) (by omega) hn (fun i hi' => ?_) hhi
        exact (hs i ((lo + hi) / 2) (by omega) (by omega)).trans_lt hmid
      · rename_i hmid
        refine ih (by omega) (by omega) (by omega) hlo fun i hi' hin => ?_
        exact (not_lt.mp hmid).trans (hs ((lo + hi) / 2) i hi' hin)
    · obtain rfl : lo = hi := by omega
      exact ⟨hn, hlo, hhi⟩

omit [Field K] in
theorem lowerBound_spec (s : Series K) (t : K) :
    lowerBound s.time s.n t ≤ s.n ∧ (∀ i < lowerBound s.time s.n t, s.time i < t) ∧
    ∀ i, lowerBound s.time s.n t ≤ i → i < s.n → t ≤ s.time i :=
  lowerBoundLoop_spec s.sorted t (Nat.le_refl _) (Nat.zero_le _) (Nat.le_refl _)
    (fun _ hi => absurd hi (Nat.not_lt_zero _)) fun _ hge hlt => absurd hge (Nat.not_le.mpr hlt)

omit [Field K] in
/-- The samples before the index are those before the time. -/
theorem lt_lowerBound_iff (s : Series K) (t : K) {i : ℕ} (hi : i < s.n) :
    i < lowerBound s.time s.n t ↔ s.time i < t := by
  obtain ⟨-, hlo, hhi⟩ := lowerBound_spec s t
  refine ⟨hlo i, fun ht => ?_⟩
  by_contra hge
  exact absurd (hhi i (Nat.not_lt.mp hge) hi) (not_le.mpr ht)

/-! ### Filling the buckets -/

omit [Field K] in
theorem Envelops.addSample {S : Set K} {e : Option (Envelope K)} (h : Envelops S e)
    (v : Option K) : Envelops (S ∪ {x | v = some x}) (addSample e v) := by
  cases v with
  | none =>
    have hS : S ∪ {x | (none : Option K) = some x} = S := by simp
    rw [hS]
    cases e <;> exact h
  | some v =>
    have hv : {x : K | some v = some x} = {v} := by
      ext x
      simp [eq_comm]
    rw [hv, Set.union_comm, Set.singleton_union]
    cases e with
    | none =>
      obtain rfl : S = ∅ := h
      simp [Envelops, Viewer.addSample]
    | some e =>
      have hmin : (if v < e.lo then v else e.lo) = min v e.lo := by
        split
        · exact (min_eq_left (le_of_lt ‹_›)).symm
        · exact (min_eq_right (not_lt.mp ‹_›)).symm
      have hmax : (if v > e.hi then v else e.hi) = max v e.hi := by
        split
        · exact (max_eq_left (le_of_lt ‹_›)).symm
        · exact (max_eq_right (not_lt.mp ‹_›)).symm
      rw [Viewer.addSample, hmin, hmax]
      exact ⟨h.1.insert v, h.2.insert v⟩

omit [Field K] in
/-- The inner loop takes the samples before the edge, and keeps the envelope of what it took. -/
theorem takeBucket_spec (s : Series K) (edge : K) {k : ℕ} (cursor : ℕ) {e : Option (Envelope K)}
    {S : Set K} (he : Envelops S e) :
    cursor ≤ (takeBucket s edge k cursor e).1 ∧
    (takeBucket s edge k cursor e).1 ≤ cursor + k ∧
    (∀ i, cursor ≤ i → i < (takeBucket s edge k cursor e).1 → s.time i < edge) ∧
    ((takeBucket s edge k cursor e).1 < cursor + k →
      edge ≤ s.time (takeBucket s edge k cursor e).1) ∧
    Envelops (S ∪ {v | ∃ i, cursor ≤ i ∧ i < (takeBucket s edge k cursor e).1 ∧
      s.values i = some v}) (takeBucket s edge k cursor e).2 := by
  induction k generalizing cursor e S with
  | zero =>
    refine ⟨Nat.le_refl _, Nat.le_refl _, fun i h1 h2 => absurd h1 (Nat.not_le.mpr h2),
      fun h => absurd h (Nat.lt_irrefl _), ?_⟩
    have hS : {v | ∃ i, cursor ≤ i ∧ i < cursor ∧ s.values i = some v} = ∅ :=
      Set.eq_empty_of_forall_notMem fun v ⟨i, h1, h2, _⟩ => absurd h1 (Nat.not_le.mpr h2)
    show Envelops (S ∪ {v | ∃ i, cursor ≤ i ∧ i < cursor ∧ s.values i = some v}) e
    rw [hS, Set.union_empty]
    exact he
  | succ k ih =>
    rw [takeBucket]
    split
    · rename_i hlt
      obtain ⟨h1, h2, h3, h4, h5⟩ := ih (cursor + 1) (he.addSample (s.values cursor))
      generalize hr : takeBucket s edge k (cursor + 1) (addSample e (s.values cursor)) = r at *
      refine ⟨by omega, by omega, fun i hci hir => ?_, fun h => h4 (by omega), ?_⟩
      · rcases Nat.eq_or_lt_of_le hci with rfl | hci
        · exact hlt
        · exact h3 i hci hir
      · have hS : S ∪ {x | s.values cursor = some x} ∪
            {v | ∃ i, cursor + 1 ≤ i ∧ i < r.1 ∧ s.values i = some v} =
            S ∪ {v | ∃ i, cursor ≤ i ∧ i < r.1 ∧ s.values i = some v} := by
          rw [Set.union_assoc]
          congr 1
          ext v
          constructor
          · rintro (hv | ⟨i, hi, hir, hv⟩)
            · exact ⟨cursor, Nat.le_refl _, by omega, hv⟩
            · exact ⟨i, by omega, hir, hv⟩
          · rintro ⟨i, hi, hir, hv⟩
            rcases Nat.eq_or_lt_of_le hi with rfl | hi
            · exact .inl hv
            · exact .inr ⟨i, hi, hir, hv⟩
        rwa [hS] at h5
    · rename_i hge
      refine ⟨Nat.le_refl _, by omega, fun i h1 h2 => absurd h1 (Nat.not_le.mpr h2),
        fun _ => not_lt.mp hge, ?_⟩
      have hS : {v | ∃ i, cursor ≤ i ∧ i < cursor ∧ s.values i = some v} = ∅ :=
        Set.eq_empty_of_forall_notMem fun v ⟨i, h1, h2, _⟩ => absurd h1 (Nat.not_le.mpr h2)
      show Envelops (S ∪ {v | ∃ i, cursor ≤ i ∧ i < cursor ∧ s.values i = some v}) e
      rw [hS, Set.union_empty]
      exact he

variable [IsStrictOrderedRing K]

/-- Where the cursor and the grid are after `b` buckets. -/
structure Filled (s : Series K) (t0 t1 dt : K) (b cursor : ℕ) (out : Grid K) : Prop where
  from_le : lowerBound s.time s.n t0 ≤ cursor
  before : ∀ i, lowerBound s.time s.n t0 ≤ i → i < cursor → s.time i < t0 + dt * b
  after : ∀ i, cursor ≤ i → i < lowerBound s.time s.n t1 → t0 + dt * b ≤ s.time i
  envelops : ∀ c < b, Envelops (bucketValues s t0 dt c) (out c)
  empty : ∀ c, b ≤ c → out c = none

/-- The samples of a bucket inside the range are visible. -/
theorem InBucket.visible {s : Series K} {t0 t1 dt : K} {b i buckets : ℕ} (hdt : 0 < dt)
    (hspan : t0 + dt * buckets = t1) (hb : b < buckets) (h : InBucket s t0 dt b i) :
    t0 ≤ s.time i ∧ s.time i < t1 := by
  have hcast : ((b : K) + 1) ≤ buckets := by exact_mod_cast hb
  have h0 : (0 : K) ≤ b := Nat.cast_nonneg b
  obtain ⟨h1, h2⟩ := h
  constructor
  · nlinarith
  · nlinarith

theorem filled_step {s : Series K} {t0 t1 dt : K} {b cursor buckets : ℕ} {out : Grid K}
    (hdt : 0 < dt) (hspan : t0 + dt * buckets = t1) (hb : b < buckets)
    (h : Filled s t0 t1 dt b cursor out) {cursor' : ℕ} {e : Option (Envelope K)}
    (hle : cursor ≤ cursor')
    (hbefore : ∀ i, cursor ≤ i → i < cursor' → s.time i < t0 + dt * (b + 1))
    (hafter : ∀ i, cursor' ≤ i → i < lowerBound s.time s.n t1 → t0 + dt * (b + 1) ≤ s.time i)
    (hto : cursor' ≤ lowerBound s.time s.n t1 ∨ cursor' = cursor)
    (he : Envelops {v | ∃ i, cursor ≤ i ∧ i < cursor' ∧ s.values i = some v} e) :
    Filled s t0 t1 dt (b + 1) cursor' (if e.isSome then Function.update out b e else out) := by
  obtain ⟨hfrom, hbef, haft, henv, hempty⟩ := h
  have hmono : t0 + dt * (b : K) ≤ t0 + dt * ((b + 1 : ℕ) : K) := by
    push_cast
    nlinarith
  -- the samples taken are those of the bucket
  have hS : {v | ∃ i, cursor ≤ i ∧ i < cursor' ∧ s.values i = some v} = bucketValues s t0 dt b := by
    ext v
    constructor
    · rintro ⟨i, hci, hic, hv⟩
      have hto' : i < lowerBound s.time s.n t1 := by
        rcases hto with hto | rfl
        · omega
        · omega
      exact ⟨i, hto'.trans_le (lowerBound_spec s t1).1, ⟨haft i hci hto', hbefore i hci hic⟩, hv⟩
    · rintro ⟨i, hin, hbucket, hv⟩
      obtain ⟨h1, h2⟩ := hbucket.visible hdt hspan hb
      have hto' := (lt_lowerBound_iff s t1 hin).mpr h2
      have hfrom' : lowerBound s.time s.n t0 ≤ i :=
        Nat.not_lt.mp fun hlt => absurd ((lt_lowerBound_iff s t0 hin).mp hlt) (not_lt.mpr h1)
      refine ⟨i, ?_, ?_, hv⟩
      · by_contra hci
        exact absurd (hbef i hfrom' (Nat.not_le.mp hci)) (not_lt.mpr hbucket.1)
      · by_contra hic
        exact absurd (hafter i (Nat.not_lt.mp hic) hto') (not_le.mpr hbucket.2)
  rw [hS] at he
  have hout : (if e.isSome then Function.update out b e else out) = Function.update out b e := by
    cases e with
    | none => rw [Function.update_eq_self_iff.mpr (hempty b (Nat.le_refl _)).symm]; rfl
    | some e => rfl
  rw [hout]
  refine ⟨hfrom.trans hle, fun i h1 h2 => ?_, fun i h1 h2 => ?_, fun c hc => ?_, fun c hc => ?_⟩
  · rcases Nat.lt_or_ge i cursor with hi | hi
    · exact (hbef i h1 hi).trans_le hmono
    · push_cast
      exact hbefore i hi h2
  · push_cast
    exact hafter i h1 h2
  · rcases Nat.lt_succ_iff_lt_or_eq.mp hc with hc | rfl
    · rw [Function.update_of_ne hc.ne]
      exact henv c hc
    · rw [Function.update_self]
      exact he
  · rw [Function.update_of_ne (by omega)]
    exact hempty c (by omega)

theorem fillBuckets_filled (s : Series K) {t0 t1 dt : K} {buckets : ℕ} (hdt : 0 < dt)
    (hspan : t0 + dt * buckets = t1) {b : ℕ} (hb : b ≤ buckets) :
    let r := fillBuckets s t0 dt (lowerBound s.time s.n t0) (lowerBound s.time s.n t1) b
    Filled s t0 t1 dt b r.1 r.2 := by
  induction b with
  | zero =>
    refine ⟨Nat.le_refl _, fun i h1 h2 => absurd h1 (Nat.not_le.mpr h2), fun i h1 h2 => ?_,
      fun c hc => absurd hc (Nat.not_lt_zero _), fun _ _ => rfl⟩
    rw [Nat.cast_zero, mul_zero, add_zero]
    exact (lowerBound_spec s t0).2.2 i h1 (h2.trans_le (lowerBound_spec s t1).1)
  | succ b ih =>
    have hfilled := ih (by omega)
    dsimp only at hfilled ⊢
    rw [fillBuckets]
    generalize fillBuckets s t0 dt (lowerBound s.time s.n t0) (lowerBound s.time s.n t1) b = r at *
    obtain ⟨cursor, out⟩ := r
    dsimp only at hfilled ⊢
    split
    · rename_i hlt
      obtain ⟨h1, h2, h3, h4, h5⟩ := takeBucket_spec s (t0 + dt * (b + 1))
        (k := lowerBound s.time s.n t1 - cursor) cursor (e := none) (S := ∅) rfl
      rw [Set.empty_union] at h5
      refine filled_step hdt hspan hb hfilled h1 h3 (fun i hi hto => ?_) (.inl (by omega)) h5
      exact (h4 (by omega)).trans
        (s.sorted _ i hi (hto.trans_le (lowerBound_spec s t1).1))
    · rename_i hge
      have hS : Envelops {v | ∃ i, cursor ≤ i ∧ i < cursor ∧ s.values i = some v} none :=
        Set.eq_empty_of_forall_notMem fun v ⟨i, h1, h2, _⟩ => absurd h1 (Nat.not_le.mpr h2)
      exact filled_step hdt hspan hb hfilled (Nat.le_refl _)
        (fun i h1 h2 => absurd h1 (Nat.not_le.mpr h2)) (fun i h1 h2 => by omega) (.inr rfl) hS

theorem bucketWidth {t0 t1 : K} {buckets : ℕ} (ht : t0 < t1) (hb : 0 < buckets) :
    0 < (t1 - t0) / buckets ∧ t0 + (t1 - t0) / buckets * buckets = t1 := by
  have hcast : (0 : K) < buckets := Nat.cast_pos.mpr hb
  refine ⟨div_pos (sub_pos.mpr ht) hcast, ?_⟩
  rw [div_mul_cancel₀ _ hcast.ne']
  exact add_sub_cancel t0 t1

/-- Before the edges are anchored, every bucket holds the envelope of its values. -/
theorem bucketGrid_envelops (s : Series K) {t0 t1 : K} {buckets : ℕ} (ht : t0 < t1)
    {b : ℕ} (hb : b < buckets) :
    Envelops (bucketValues s t0 ((t1 - t0) / buckets) b) (bucketGrid s t0 t1 buckets b) := by
  obtain ⟨hdt, hspan⟩ := bucketWidth ht (Nat.zero_lt_of_lt hb)
  exact (fillBuckets_filled s hdt hspan (Nat.le_refl buckets)).envelops b hb

/-- A visible sample is in one bucket. -/
theorem existsUnique_inBucket [FloorSemiring K] (s : Series K) {t0 t1 : K} {buckets : ℕ}
    (ht : t0 < t1) (hb : 0 < buckets) {i : ℕ} (h0 : t0 ≤ s.time i) (h1 : s.time i < t1) :
    ∃! b, b < buckets ∧ InBucket s t0 ((t1 - t0) / buckets) b i := by
  obtain ⟨hdt, hspan⟩ := bucketWidth ht hb
  generalize (t1 - t0) / (buckets : K) = dt at *
  have hpos : 0 ≤ (s.time i - t0) / dt := div_nonneg (sub_nonneg.mpr h0) hdt.le
  have hin : ∀ {b : ℕ}, InBucket s t0 dt b i ↔ ⌊(s.time i - t0) / dt⌋₊ = b := by
    intro b
    rw [Nat.floor_eq_iff hpos, le_div_iff₀ hdt, div_lt_iff₀ hdt, InBucket]
    constructor
    · rintro ⟨h2, h3⟩
      constructor <;> linarith
    · rintro ⟨h2, h3⟩
      constructor <;> linarith
  refine ⟨⌊(s.time i - t0) / dt⌋₊, ⟨?_, hin.mpr rfl⟩, fun b hb' => (hin.mp hb'.2).symm⟩
  rw [Nat.floor_lt hpos, div_lt_iff₀ hdt]
  linarith

end Decimate

end DiveCANHead.Viewer
