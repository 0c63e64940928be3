import Mathlib.Data.Rat.Floor
import Mathlib.Tactic.NormNum
import DiveCANHead.Lib.Numerals
import DiveCANHead.Viewer.Envelopes

/-!
# Spikes and gaps on the grid

Bridging closes exactly the holes of few enough buckets. So it never breaks the line between samples
close together; whether it leaves one between samples far apart depends on the edges: a sample drawn
in an edge bucket stands nearer there than it is.
-/

namespace DiveCANHead.Viewer

section Bridge

variable {K : Type}

/-- The bucket is in a hole of at most that many buckets, of `b` buckets. -/
def Bridged (maxEmptyBuckets : ℕ) (out : Grid K) (b k : ℕ) : Prop :=
  ∃ p q, p < k ∧ k < q ∧ q < b ∧ out p ≠ none ∧ out q ≠ none ∧
    (∀ j, p < j → j < q → out j = none) ∧ q - p - 1 ≤ maxEmptyBuckets

/-- Where the bridging pass is after `b` buckets. -/
structure BridgeInv (maxEmptyBuckets : ℕ) (out : Grid K) (b : ℕ) (prev : Option ℕ)
    (out' : Grid K) : Prop where
  prev_none : prev = none → ∀ j < b, out j = none
  prev_some : ∀ p, prev = some p → p < b ∧ out p ≠ none ∧ ∀ j, p < j → j < b → out j = none
  kept : ∀ j, out j ≠ none ∨ b ≤ j → out' j = out j
  bridged : ∀ j < b, out j = none → (out' j ≠ none ↔ Bridged maxEmptyBuckets out b j)

/-- A bucket with nothing in it changes nothing. -/
theorem BridgeInv.skip {m b : ℕ} {out out' : Grid K} {prev : Option ℕ}
    (h : BridgeInv m out b prev out') (hb : out b = none) : BridgeInv m out (b + 1) prev out' := by
  refine ⟨fun hp j hj => ?_, fun p hp => ?_, fun j hj => ?_, fun j hj hn => ?_⟩
  · rcases Nat.lt_succ_iff_lt_or_eq.mp hj with hj | rfl
    · exact h.prev_none hp j hj
    · exact hb
  · obtain ⟨hlt, hne, hbetween⟩ := h.prev_some p hp
    refine ⟨by omega, hne, fun j hpj hj => ?_⟩
    rcases Nat.lt_succ_iff_lt_or_eq.mp hj with hj | rfl
    · exact hbetween j hpj hj
    · exact hb
  · exact h.kept j (hj.imp_right (by omega))
  · -- no hole ends in this bucket
    have hiff : Bridged m out (b + 1) j ↔ Bridged m out b j := by
      constructor
      · rintro ⟨p, q, hp, hq, hqb, hpn, hqn, hbetween, hle⟩
        have hne : q ≠ b := fun he => hqn (he ▸ hb)
        exact ⟨p, q, hp, hq, by omega, hpn, hqn, hbetween, hle⟩
      · rintro ⟨p, q, hp, hq, hqb, hrest⟩
        exact ⟨p, q, hp, hq, by omega, hrest⟩
    rw [hiff]
    rcases Nat.lt_succ_iff_lt_or_eq.mp hj with hj | rfl
    · exact h.bridged j hj hn
    · rw [h.kept j (.inr (Nat.le_refl _)), hb]
      refine iff_of_false (fun hne => hne rfl) ?_
      rintro ⟨p, q, hp, hq, hqb, -⟩
      omega

/-- A bucket that holds something ends the hole before it. -/
theorem BridgeInv.fill {m b : ℕ} {out out' : Grid K} {prev : Option ℕ}
    (h : BridgeInv m out b prev out') (hb : out b ≠ none) {out'' : Grid K}
    (hkept : ∀ j, out j ≠ none ∨ b + 1 ≤ j → out'' j = out' j)
    (hfill : ∀ j < b, out j = none → (out'' j ≠ none ↔ out' j ≠ none ∨
      ∃ p, prev = some p ∧ p < j ∧ b - p - 1 ≤ m)) :
    BridgeInv m out (b + 1) (some b) out'' := by
  refine ⟨fun hp => absurd hp (Option.some_ne_none b), fun p hp => ?_, fun j hj => ?_,
    fun j hj hn => ?_⟩
  · obtain rfl := Option.some.inj hp
    exact ⟨Nat.lt_succ_self _, hb, fun j h1 h2 => by omega⟩
  · rw [hkept j hj]
    exact h.kept j (hj.imp_right (by omega))
  · have hjb : j < b := by
      rcases Nat.lt_succ_iff_lt_or_eq.mp hj with hj | rfl
      · exact hj
      · exact absurd hn hb
    rw [hfill j hjb hn, h.bridged j hjb hn]
    constructor
    · rintro (⟨p, q, hp, hq, hqb, hrest⟩ | ⟨p, hp, hpj, hle⟩)
      · exact ⟨p, q, hp, hq, by omega, hrest⟩
      · obtain ⟨-, hpn, hbetween⟩ := h.prev_some p hp
        exact ⟨p, b, hpj, hjb, Nat.lt_succ_self b, hpn, hb, hbetween, hle⟩
    · rintro ⟨p, q, hp, hq, hqb, hpn, hqn, hbetween, hle⟩
      rcases Nat.lt_succ_iff_lt_or_eq.mp hqb with hqb | rfl
      · exact .inl ⟨p, q, hp, hq, hqb, hpn, hqn, hbetween, hle⟩
      · -- the hole is the one since the last bucket that held something
        refine .inr ?_
        cases hprev : prev with
        | none => exact absurd (h.prev_none hprev p (by omega)) hpn
        | some p' =>
          obtain ⟨hlt, hpn', hbetween'⟩ := h.prev_some p' hprev
          have hle' : p' ≤ p := by
            by_contra hgt
            exact hpn' (hbetween p' (by omega) hlt)
          have hge' : p ≤ p' := by
            by_contra hgt
            exact hpn (hbetween' p (by omega) (by omega))
          obtain rfl : p' = p := by omega
          exact ⟨p', rfl, hp, hle⟩

variable [Field K]

theorem bridgeHole_apply (out : Grid K) (p b : ℕ) (a z : K) (k : ℕ) :
    bridgeHole out p b a z k = if p < k ∧ k < b then
      some ⟨a + (z - a) * ((k - p) / (b - p)), a + (z - a) * ((k - p) / (b - p))⟩ else out k :=
  rfl

theorem bridgeBuckets_inv (m : ℕ) (out : Grid K) (b : ℕ) :
    BridgeInv m out b (bridgeBuckets m out b).1 (bridgeBuckets m out b).2 := by
  induction b with
  | zero =>
    exact ⟨fun _ j hj => absurd hj (Nat.not_lt_zero j),
      fun p hp => absurd hp.symm (Option.some_ne_none p), fun _ _ => rfl,
      fun j hj => absurd hj (Nat.not_lt_zero j)⟩
  | succ b ih =>
    rw [bridgeBuckets]
    generalize bridgeBuckets m out b = r at *
    obtain ⟨prev, out'⟩ := r
    dsimp only at ih ⊢
    have hkept := ih.kept b (.inr (Nat.le_refl b))
    cases hz : out' b with
    | none => exact ih.skip (hkept ▸ hz)
    | some z =>
      have hb : out b ≠ none := by
        rw [← hkept, hz]
        exact Option.some_ne_none z
      cases prev with
      | none =>
        refine ih.fill hb (fun _ _ => rfl) fun j hj hn => ?_
        exact (or_iff_left fun ⟨p, hp, _⟩ => absurd hp.symm (Option.some_ne_none p)).symm
      | some p =>
        obtain ⟨hpb, hpn, hbetween⟩ := ih.prev_some p rfl
        dsimp only
        split
        · rename_i hspan
          refine ih.fill hb (fun j hj => ?_) fun j hj hn => ?_
          · refine if_neg fun hpj => ?_
            rcases hj with hj | hj
            · exact hj (hbetween j hpj.1 hpj.2)
            · omega
          · by_cases hpj : p < j
            · have hval :
                  bridgeHole out' p b ((Grid.slot out' (p * 2 + 1)).getD 0) z.lo j ≠ none := by
                rw [bridgeHole_apply, if_pos ⟨hpj, hj⟩]
                exact Option.some_ne_none _
              exact iff_of_true hval (.inr ⟨p, rfl, hpj, hspan.2⟩)
            · show bridgeHole out' p b _ z.lo j ≠ none ↔ _
              rw [bridgeHole_apply, if_neg fun hn => hpj hn.1]
              refine (or_iff_left ?_).symm
              rintro ⟨p', hp', hlt, -⟩
              exact hpj (Option.some.inj hp' ▸ hlt)
        · rename_i hspan
          refine ih.fill hb (fun _ _ => rfl) fun j hj hn => (or_iff_left ?_).symm
          rintro ⟨p', hp', hlt, hle⟩
          obtain rfl := Option.some.inj hp'
          exact hspan ⟨by omega, hle⟩

/-- The bridging pass keeps what a bucket holds. -/
theorem bridgeBuckets_kept {m : ℕ} {out : Grid K} {buckets b : ℕ} (h : out b ≠ none) :
    (bridgeBuckets m out buckets).2 b = out b :=
  (bridgeBuckets_inv m out buckets).kept b (.inl h)

/-- A bucket between two that hold something, with few enough buckets between them, is not left
empty: the hole it may be in is no longer. -/
theorem bridgeBuckets_ne_none {m : ℕ} {out : Grid K} {buckets p k q : ℕ} (hpk : p < k)
    (hkq : k < q) (hq : q < buckets) (hp : out p ≠ none) (hqn : out q ≠ none)
    (hle : q - p - 1 ≤ m) : (bridgeBuckets m out buckets).2 k ≠ none := by
  classical
  by_cases hk : out k = none
  swap
  · rwa [bridgeBuckets_kept hk]
  -- the nearest buckets that hold something on each side
  have hleft : ∃ d, out (k - d) ≠ none ∧ d ≤ k :=
    ⟨k - p, by rwa [Nat.sub_sub_self hpk.le], by omega⟩
  have hright : ∃ d, out (k + d) ≠ none := ⟨q - k, by rwa [Nat.add_sub_cancel' hkq.le]⟩
  obtain ⟨hl, hlk⟩ := Nat.find_spec hleft
  have hr := Nat.find_spec hright
  have hlp : Nat.find hleft ≤ k - p :=
    Nat.find_min' hleft ⟨by rwa [Nat.sub_sub_self hpk.le], by omega⟩
  have hrq : Nat.find hright ≤ q - k := Nat.find_min' hright (by rwa [Nat.add_sub_cancel' hkq.le])
  have hl0 : Nat.find hleft ≠ 0 := fun h0 => by rw [h0] at hl; exact hl hk
  have hr0 : Nat.find hright ≠ 0 := fun h0 => by rw [h0] at hr; exact hr hk
  refine ((bridgeBuckets_inv m out buckets).bridged k (by omega) hk).mpr
    ⟨k - Nat.find hleft, k + Nat.find hright, by omega, by omega, by omega, hl, hr,
      fun j h1 h2 => ?_, by omega⟩
  by_contra hj
  rcases Nat.lt_or_ge j k with hjk | hjk
  · refine Nat.find_min hleft (m := k - j) (by omega) ⟨?_, by omega⟩
    rwa [Nat.sub_sub_self hjk.le]
  · refine Nat.find_min hright (m := j - k) (by omega) ?_
    rwa [Nat.add_sub_cancel' hjk]

/-- A hole longer than that stays. -/
theorem bridgeBuckets_none {m : ℕ} {out : Grid K} {buckets k : ℕ} (hk : k < buckets)
    (hn : out k = none)
    (hlong : ∀ p q, p < k → k < q → q < buckets → out p ≠ none → out q ≠ none → m < q - p - 1) :
    (bridgeBuckets m out buckets).2 k = none := by
  by_contra hne
  obtain ⟨p, q, hp, hq, hqb, hpn, hqn, -, hle⟩ :=
    ((bridgeBuckets_inv m out buckets).bridged k hk hn).mp hne
  exact absurd (hlong p q hp hq hqb hpn hqn) (Nat.not_lt.mpr hle)

end Bridge

section Decimate

variable {K : Type} [Field K] [LinearOrder K] [FloorSemiring K]

/-- The whole bucket lies between the sample and the next of the two. -/
def Between (s : Series K) (t0 dt : K) (i j b : ℕ) : Prop :=
  s.time i < t0 + dt * b ∧ t0 + dt * (b + 1) ≤ s.time j

/-- Two finite samples are adjacent: next to each other, or in the range with only values between
them that are not finite. -/
def Adjacent (s : Series K) (t0 t1 : K) (i j : ℕ) : Prop :=
  i < j ∧ j < s.n ∧ s.values i ≠ none ∧ s.values j ≠ none ∧
    (j = i + 1 ∨ t0 ≤ s.time i ∧ s.time j < t1 ∧ ∀ k, i < k → k < j → s.values k = none)

/-- What decimation is to keep. Every finite visible sample is in one bucket, which starts with the
minimum and the maximum of its finite samples and ends with them; no bucket between adjacent finite
samples at most the tolerance apart is empty; and one of those between two samples further apart
than the tolerance and two buckets is, where both are visible or some bucket is between them. -/
structure Keeps (s : Series K) (t0 t1 : K) (buckets : ℕ) (gapS : K) : Prop where
  one_bucket : ∀ i < s.n, s.values i ≠ none → t0 ≤ s.time i → s.time i < t1 →
    ∃! b, b < buckets ∧ InBucket s t0 ((t1 - t0) / buckets) b i
  envelops : ∀ b < buckets,
    Envelops (bucketValues s t0 ((t1 - t0) / buckets) b) (bucketGrid s t0 t1 buckets b) ∧
    (bucketGrid s t0 t1 buckets b ≠ none →
      decimateChannel s t0 t1 buckets gapS b = bucketGrid s t0 t1 buckets b)
  joined : ∀ i j, Adjacent s t0 t1 i j → s.time j - s.time i ≤ gapS →
    ∀ b < buckets, Between s t0 ((t1 - t0) / buckets) i j b →
      decimateChannel s t0 t1 buckets gapS b ≠ none
  broken : ∀ i, i + 1 < s.n →
    gapS + 2 * ((t1 - t0) / buckets) < s.time (i + 1) - s.time i →
    (t0 ≤ s.time i ∧ s.time (i + 1) < t1 ∨
      ∃ b < buckets, Between s t0 ((t1 - t0) / buckets) i (i + 1) b) →
    ∃ b < buckets, Between s t0 ((t1 - t0) / buckets) i (i + 1) b ∧
      decimateChannel s t0 t1 buckets gapS b = none

/-- The sample is the last one before the range, near enough to be drawn in the first bucket. -/
def LeftNear (s : Series K) (t0 gapS dt : K) : Prop :=
  0 < lowerBound s.time s.n t0 ∧ s.values (lowerBound s.time s.n t0 - 1) ≠ none ∧
    t0 - s.time (lowerBound s.time s.n t0 - 1) ≤ gapS ∧ dt ≤ gapS

/-- The first sample after the range is near enough to be drawn in the last bucket. -/
def RightNear (s : Series K) (t1 gapS dt : K) : Prop :=
  lowerBound s.time s.n t1 < s.n ∧ s.values (lowerBound s.time s.n t1) ≠ none ∧
    s.time (lowerBound s.time s.n t1) - t1 ≤ gapS ∧ dt ≤ gapS

/-- Something is drawn in the bucket before bridging. -/
def Drawn (s : Series K) (t0 t1 : K) (buckets : ℕ) (gapS : K) (b : ℕ) : Prop :=
  (bucketValues s t0 ((t1 - t0) / buckets) b).Nonempty ∨
    b = 0 ∧ LeftNear s t0 gapS ((t1 - t0) / buckets) ∨
    b = buckets - 1 ∧ RightNear s t1 gapS ((t1 - t0) / buckets)

attribute [local instance] DiveCANHead.Lib.atLeastTwo_two in
/-- The two samples are further apart than the tolerance and two buckets. -/
def Wide (s : Series K) (t0 t1 : K) (buckets : ℕ) (gapS : K) (i : ℕ) : Prop :=
  i + 1 < s.n ∧ gapS + 2 * ((t1 - t0) / buckets) < s.time (i + 1) - s.time i

/-- What is drawn in an edge bucket for a sample with a wide gap after it is followed by too many
empty buckets to bridge, and so for one with a wide gap before it; and where the only bucket lies in
a wide gap, nothing is drawn in it. -/
structure CleanEdges (s : Series K) (t0 t1 : K) (buckets : ℕ) (gapS : K) : Prop where
  left : ∀ i, Wide s t0 t1 buckets gapS i → i + 1 = lowerBound s.time s.n t0 →
    LeftNear s t0 gapS ((t1 - t0) / buckets) →
    ∀ b < buckets, 0 < b → Drawn s t0 t1 buckets gapS b → maxEmpty t0 t1 buckets gapS + 1 < b
  right : ∀ i, Wide s t0 t1 buckets gapS i → i + 1 = lowerBound s.time s.n t1 →
    RightNear s t1 gapS ((t1 - t0) / buckets) →
    ∀ b < buckets - 1, Drawn s t0 t1 buckets gapS b →
      b + maxEmpty t0 t1 buckets gapS + 1 < buckets - 1
  single : ∀ i, Wide s t0 t1 buckets gapS i → i + 1 = lowerBound s.time s.n t0 →
    i + 1 = lowerBound s.time s.n t1 → buckets = 1 →
    ¬LeftNear s t0 gapS ((t1 - t0) / buckets) ∧ ¬RightNear s t1 gapS ((t1 - t0) / buckets)

/-! ### The tolerance in buckets -/

variable [IsStrictOrderedRing K]

omit [FloorSemiring K] in
theorem edge_le (t0 : K) {dt : K} (hdt : 0 < dt) {a b : ℕ} (h : a ≤ b) :
    t0 + dt * (a : K) ≤ t0 + dt * b := by
  have hab : (a : K) ≤ b := Nat.cast_le.mpr h
  nlinarith

omit [FloorSemiring K] in
theorem edge_succ_le (t0 : K) {dt : K} (hdt : 0 < dt) {a b : ℕ} (h : a < b) :
    t0 + dt * ((a : K) + 1) ≤ t0 + dt * b := by
  have hab : (a : K) + 1 ≤ b := by exact_mod_cast h
  nlinarith

omit [FloorSemiring K] [LinearOrder K] [IsStrictOrderedRing K] in
theorem edge_add (t0 dt : K) {a b c : ℕ} (h : a + c = b) :
    t0 + dt * (b : K) = t0 + dt * a + dt * c := by
  rw [← h, Nat.cast_add, mul_add, add_assoc]

theorem le_maxEmpty_iff {t0 t1 gapS : K} {buckets k : ℕ} (ht : t0 < t1) (hb : 0 < buckets)
    (hg : 0 < gapS) :
    k ≤ maxEmpty t0 t1 buckets gapS ↔ k * ((t1 - t0) / buckets) ≤ gapS := by
  obtain ⟨hdt, -⟩ := bucketWidth ht hb
  rw [maxEmpty, if_pos hg, Nat.le_floor_iff (div_pos hg hdt).le, le_div_iff₀ hdt]

theorem maxEmpty_ne_zero_iff {t0 t1 gapS : K} {buckets : ℕ} (ht : t0 < t1) (hb : 0 < buckets)
    (hg : 0 < gapS) : maxEmpty t0 t1 buckets gapS ≠ 0 ↔ (t1 - t0) / buckets ≤ gapS := by
  rw [← Nat.one_le_iff_ne_zero, le_maxEmpty_iff ht hb hg, Nat.cast_one, one_mul]

/-! ### What is drawn before bridging -/

omit [FloorSemiring K] [IsStrictOrderedRing K] [Field K] [LinearOrder K] in
theorem anchorEdge_kept {out : Grid K} {b c : ℕ} {v : Option K} {near : Prop} [Decidable near]
    (h : out c ≠ none) : anchorEdge out b v near c = out c := by
  cases v with
  | none => rfl
  | some v =>
    rw [anchorEdge]
    split
    · rename_i hb
      exact Function.update_of_ne (fun he => h ((congrArg out he).trans hb.1)) _ _
    · rfl

omit [FloorSemiring K] [IsStrictOrderedRing K] [Field K] [LinearOrder K] in
theorem anchorEdge_ne_none_iff {out : Grid K} {b c : ℕ} {v : Option K} {near : Prop}
    [Decidable near] :
    anchorEdge out b v near c ≠ none ↔ out c ≠ none ∨ c = b ∧ v ≠ none ∧ near := by
  by_cases hc : out c ≠ none
  · rw [anchorEdge_kept hc]
    exact iff_of_true hc (.inl hc)
  · rw [or_iff_right hc]
    rw [not_not] at hc
    cases v with
    | none => exact iff_of_false (fun hn => hn hc) fun hn => hn.2.1 rfl
    | some v =>
      rw [anchorEdge]
      by_cases hb : c = b
      · subst hb
        by_cases hnear : near
        · rw [if_pos ⟨hc, hnear⟩, Function.update_self]
          exact iff_of_true (Option.some_ne_none _) ⟨rfl, Option.some_ne_none _, hnear⟩
        · rw [if_neg fun hn => hnear hn.2]
          exact iff_of_false (fun hn => hn hc) fun hn => hnear hn.2.2
      · refine iff_of_false (fun hn => hn ?_) fun hn => hb hn.1
        split
        · rw [Function.update_of_ne hb, hc]
        · exact hc

variable {s : Series K} {t0 t1 gapS : K} {buckets : ℕ}

omit [FloorSemiring K] in
theorem bucketGrid_ne_none_iff (ht : t0 < t1) {b : ℕ} (hb : b < buckets) :
    bucketGrid s t0 t1 buckets b ≠ none ↔
      (bucketValues s t0 ((t1 - t0) / buckets) b).Nonempty :=
  (bucketGrid_envelops s ht hb).ne_none_iff

omit [FloorSemiring K] in
/-- The grid before bridging holds what is drawn. -/
theorem anchorGrid_ne_none_iff (ht : t0 < t1) (hdt : (t1 - t0) / buckets ≤ gapS) {b : ℕ}
    (hb : b < buckets) :
    anchorGrid s t0 t1 buckets gapS (bucketGrid s t0 t1 buckets) b ≠ none ↔
      Drawn s t0 t1 buckets gapS b := by
  rw [anchorGrid, anchorEdge_ne_none_iff, anchorEdge_ne_none_iff, bucketGrid_ne_none_iff ht hb,
    Drawn, LeftNear, RightNear, or_assoc]
  refine or_congr_right (or_congr (and_congr_right fun _ => ?_) (and_congr_right fun _ => ?_))
  · exact ⟨fun ⟨hv, hpos, hle⟩ => ⟨hpos, hv, hle, hdt⟩, fun ⟨hpos, hv, hle, _⟩ => ⟨hv, hpos, hle⟩⟩
  · exact ⟨fun ⟨hv, hlt, hle⟩ => ⟨hlt, hv, hle, hdt⟩, fun ⟨hlt, hv, hle, _⟩ => ⟨hv, hlt, hle⟩⟩

omit [FloorSemiring K] [IsStrictOrderedRing K] in
theorem anchorGrid_kept {b : ℕ} (h : bucketGrid s t0 t1 buckets b ≠ none) :
    anchorGrid s t0 t1 buckets gapS (bucketGrid s t0 t1 buckets) b =
      bucketGrid s t0 t1 buckets b := by
  have hleft : anchorEdge (bucketGrid s t0 t1 buckets) 0 (s.values (lowerBound s.time s.n t0 - 1))
      (0 < lowerBound s.time s.n t0 ∧ t0 - s.time (lowerBound s.time s.n t0 - 1) ≤ gapS) b =
        bucketGrid s t0 t1 buckets b := anchorEdge_kept h
  rw [anchorGrid, anchorEdge_kept (hleft.symm ▸ h), hleft]

/-- What is drawn is on the grid. -/
theorem decimateChannel_of_drawn (ht : t0 < t1) (hg : 0 < gapS) (hn : s.n ≠ 0)
    (hdt : (t1 - t0) / buckets ≤ gapS) {b : ℕ} (hb : b < buckets)
    (h : Drawn s t0 t1 buckets gapS b) : decimateChannel s t0 t1 buckets gapS b ≠ none := by
  have hm := (maxEmpty_ne_zero_iff ht (Nat.zero_lt_of_lt hb) hg).mpr hdt
  have hne := (anchorGrid_ne_none_iff ht hdt hb).mpr h
  rw [decimateChannel, if_neg hn, if_neg hm, bridgeBuckets_kept hne]
  exact hne

/-- So is what lies between two buckets drawn, with few enough between them. -/
theorem decimateChannel_between (ht : t0 < t1) (hg : 0 < gapS) (hn : s.n ≠ 0)
    (hdt : (t1 - t0) / buckets ≤ gapS) {p b q : ℕ} (hpb : p < b) (hbq : b < q) (hq : q < buckets)
    (hp : Drawn s t0 t1 buckets gapS p) (hqd : Drawn s t0 t1 buckets gapS q)
    (hle : q - p - 1 ≤ maxEmpty t0 t1 buckets gapS) :
    decimateChannel s t0 t1 buckets gapS b ≠ none := by
  have hm := (maxEmpty_ne_zero_iff ht (Nat.zero_lt_of_lt hq) hg).mpr hdt
  rw [decimateChannel, if_neg hn, if_neg hm]
  exact bridgeBuckets_ne_none hpb hbq hq ((anchorGrid_ne_none_iff ht hdt (by omega)).mpr hp)
    ((anchorGrid_ne_none_iff ht hdt hq).mpr hqd) hle

/-- A bucket that is not drawn, in a hole of too many buckets, stays empty. -/
theorem decimateChannel_none (ht : t0 < t1) (hg : 0 < gapS) {b : ℕ} (hb : b < buckets)
    (hd : ¬Drawn s t0 t1 buckets gapS b)
    (hlong : ∀ p q, p < b → b < q → q < buckets → Drawn s t0 t1 buckets gapS p →
      Drawn s t0 t1 buckets gapS q → maxEmpty t0 t1 buckets gapS < q - p - 1) :
    decimateChannel s t0 t1 buckets gapS b = none := by
  rw [decimateChannel]
  split
  · rfl
  · dsimp only
    split
    · by_contra hne
      exact hd (.inl ((bucketGrid_ne_none_iff ht hb).mp hne))
    · rename_i hm
      have hdt := (maxEmpty_ne_zero_iff ht (Nat.zero_lt_of_lt hb) hg).mp hm
      have hiff : ∀ {c : ℕ}, c < buckets →
          (anchorGrid s t0 t1 buckets gapS (bucketGrid s t0 t1 buckets) c ≠ none ↔
            Drawn s t0 t1 buckets gapS c) := fun hc => anchorGrid_ne_none_iff ht hdt hc
      refine bridgeBuckets_none hb ?_ fun p q hpb hbq hq hp hqn => ?_
      · by_contra hne
        exact hd ((hiff hb).mp hne)
      · exact hlong p q hpb hbq hq ((hiff (by omega)).mp hp) ((hiff hq).mp hqn)

/-! ### Samples close together -/

omit [Field K] [FloorSemiring K] [IsStrictOrderedRing K] in
/-- The first sample at or after a time comes after the last one before it. -/
theorem lowerBound_eq {i : ℕ} {t : K} (hi : i + 1 < s.n) (h0 : s.time i < t)
    (h1 : t ≤ s.time (i + 1)) : lowerBound s.time s.n t = i + 1 := by
  have hlt := (lt_lowerBound_iff s t (Nat.lt_of_succ_lt hi)).mpr h0
  have hge := mt (lt_lowerBound_iff s t hi).mp (not_lt.mpr h1)
  omega

omit [FloorSemiring K] [IsStrictOrderedRing K] in
theorem drawn_of_inBucket {i b : ℕ} (hi : i < s.n) (hv : s.values i ≠ none)
    (hb : InBucket s t0 ((t1 - t0) / buckets) b i) : Drawn s t0 t1 buckets gapS b := by
  obtain ⟨v, hv⟩ := Option.ne_none_iff_exists'.mp hv
  exact .inl ⟨v, i, hi, hb, hv⟩

/-- On the left of a bucket between two adjacent samples something is drawn, no further away than
the one of them is. -/
theorem exists_drawn_left (ht : t0 < t1) {i j b : ℕ} (had : Adjacent s t0 t1 i j)
    (hle : s.time j - s.time i ≤ gapS) (hdt : (t1 - t0) / buckets ≤ gapS) (hb : b < buckets)
    (hbt : Between s t0 ((t1 - t0) / buckets) i j b) :
    ∃ p ≤ b, Drawn s t0 t1 buckets gapS p ∧
      s.time i < t0 + (t1 - t0) / buckets * (p + 1) := by
  obtain ⟨hij, hjn, hvi, -, hnext⟩ := had
  obtain ⟨hw, hspan⟩ := bucketWidth ht (Nat.zero_lt_of_lt hb)
  have hlt1 : s.time i < t1 := hspan ▸ hbt.1.trans_le (edge_le t0 hw hb.le)
  have hfirst : t0 + (t1 - t0) / buckets ≤ s.time j := by
    have := edge_le t0 hw (Nat.zero_le b)
    have := hbt.2
    push_cast at *
    linarith
  by_cases h0 : t0 ≤ s.time i
  · obtain ⟨p, ⟨hp, hin⟩, -⟩ := existsUnique_inBucket s ht (Nat.zero_lt_of_lt hb) h0 hlt1
    refine ⟨p, ?_, drawn_of_inBucket (hij.trans hjn) hvi hin, hin.2⟩
    by_contra hbp
    exact absurd (hin.1.trans_lt hbt.1) (not_lt.mpr (edge_le t0 hw (Nat.not_le.mp hbp).le))
  · rw [not_le] at h0
    -- the sample is the last before the range
    have hj : j = i + 1 := hnext.resolve_right fun hn => absurd hn.1 (not_le.mpr h0)
    subst hj
    have hfrom : lowerBound s.time s.n t0 = i + 1 := lowerBound_eq hjn h0 (by linarith)
    refine ⟨0, Nat.zero_le b, .inr (.inl ⟨rfl, ?_⟩), ?_⟩
    · rw [LeftNear, hfrom]
      exact ⟨Nat.succ_pos i, hvi, by rw [Nat.add_sub_cancel]; linarith, hdt⟩
    · push_cast
      linarith

/-- And on the right. -/
theorem exists_drawn_right (ht : t0 < t1) {i j b : ℕ} (had : Adjacent s t0 t1 i j)
    (hle : s.time j - s.time i ≤ gapS) (hdt : (t1 - t0) / buckets ≤ gapS) (hb : b < buckets)
    (hbt : Between s t0 ((t1 - t0) / buckets) i j b) :
    ∃ q < buckets, b ≤ q ∧ Drawn s t0 t1 buckets gapS q ∧
      t0 + (t1 - t0) / buckets * q ≤ s.time j := by
  obtain ⟨hij, hjn, -, hvj, hnext⟩ := had
  obtain ⟨hw, hspan⟩ := bucketWidth ht (Nat.zero_lt_of_lt hb)
  have hlt1 : s.time i < t1 := hspan ▸ hbt.1.trans_le (edge_le t0 hw hb.le)
  have h0 : t0 ≤ s.time j := by
    have := edge_le t0 hw (Nat.zero_le b)
    have := hbt.2
    push_cast at *
    linarith
  by_cases h1 : s.time j < t1
  · obtain ⟨q, ⟨hq, hin⟩, -⟩ := existsUnique_inBucket s ht (Nat.zero_lt_of_lt hb) h0 h1
    refine ⟨q, hq, ?_, drawn_of_inBucket hjn hvj hin, hin.1⟩
    by_contra hqb
    have hlt := hbt.2.trans_lt hin.2
    have hle := edge_le t0 hw (Nat.not_le.mp hqb)
    push_cast at hle
    linarith
  · rw [not_lt] at h1
    -- the sample is the first after the range
    have hj : j = i + 1 := hnext.resolve_right fun hn => absurd hn.2.1 (not_lt.mpr h1)
    subst hj
    have hto : lowerBound s.time s.n t1 = i + 1 := lowerBound_eq hjn hlt1 h1
    refine ⟨buckets - 1, by omega, by omega, .inr (.inr ⟨rfl, ?_⟩), ?_⟩
    · rw [RightNear, hto]
      exact ⟨hjn, hvj, by linarith, hdt⟩
    · exact ((edge_le t0 hw (Nat.sub_le buckets 1)).trans_eq hspan).trans h1

/-- No bucket between adjacent samples at most the tolerance apart is empty. -/
theorem decimateChannel_joined (ht : t0 < t1) (hg : 0 < gapS) {i j b : ℕ}
    (had : Adjacent s t0 t1 i j) (hle : s.time j - s.time i ≤ gapS) (hb : b < buckets)
    (hbt : Between s t0 ((t1 - t0) / buckets) i j b) :
    decimateChannel s t0 t1 buckets gapS b ≠ none := by
  obtain ⟨hw, -⟩ := bucketWidth ht (Nat.zero_lt_of_lt hb)
  have hn : s.n ≠ 0 := Nat.ne_of_gt (Nat.zero_lt_of_lt had.2.1)
  have hdt : (t1 - t0) / buckets ≤ gapS := by
    have h1 := hbt.1
    have h2 := hbt.2
    linarith
  obtain ⟨p, hp, hpd, hpt⟩ := exists_drawn_left ht had hle hdt hb hbt
  obtain ⟨q, hq, hbq, hqd, hqt⟩ := exists_drawn_right ht had hle hdt hb hbt
  rcases Nat.eq_or_lt_of_le hp with rfl | hp
  · exact decimateChannel_of_drawn ht hg hn hdt hb hpd
  rcases Nat.eq_or_lt_of_le hbq with rfl | hbq
  · exact decimateChannel_of_drawn ht hg hn hdt hb hqd
  refine decimateChannel_between ht hg hn hdt hp hbq hq hpd hqd ?_
  rw [le_maxEmpty_iff ht (Nat.zero_lt_of_lt hb) hg]
  have hsplit := edge_add t0 ((t1 - t0) / buckets) (by omega : p + 1 + (q - p - 1) = q)
  rw [mul_comm]
  push_cast at hsplit
  linarith

/-! ### Samples far apart -/

omit [FloorSemiring K] [IsStrictOrderedRing K] in
/-- No sample is in a bucket between two samples next to each other. -/
theorem Between.not_nonempty {i b : ℕ} (hi : i + 1 < s.n)
    (hbt : Between s t0 ((t1 - t0) / buckets) i (i + 1) b) :
    ¬(bucketValues s t0 ((t1 - t0) / buckets) b).Nonempty := by
  rintro ⟨v, k, hk, hin, -⟩
  have h1 := hbt.1.trans_le hin.1
  have h2 := hin.2.trans_le hbt.2
  rcases Nat.lt_or_ge i k with hik | hki
  · exact absurd (s.sorted (i + 1) k hik hk) (not_le.mpr h2)
  · exact absurd (s.sorted k i hki (by omega)) (not_le.mpr h1)

omit [FloorSemiring K] [IsStrictOrderedRing K] in
/-- So what is drawn there is drawn for a sample off the screen. -/
theorem Between.drawn_edge {i b : ℕ} (hi : i + 1 < s.n)
    (hbt : Between s t0 ((t1 - t0) / buckets) i (i + 1) b) (hd : Drawn s t0 t1 buckets gapS b) :
    b = 0 ∧ LeftNear s t0 gapS ((t1 - t0) / buckets) ∨
      b = buckets - 1 ∧ RightNear s t1 gapS ((t1 - t0) / buckets) :=
  hd.resolve_left (hbt.not_nonempty hi)

/-- Between two visible samples far apart there is a bucket. -/
theorem exists_between (ht : t0 < t1) (hb : 0 < buckets) (hg : 0 < gapS) {i : ℕ}
    (hwide : Wide s t0 t1 buckets gapS i) (h0 : t0 ≤ s.time i) (h1 : s.time (i + 1) < t1) :
    ∃ b < buckets, Between s t0 ((t1 - t0) / buckets) i (i + 1) b := by
  obtain ⟨hw, -⟩ := bucketWidth ht hb
  obtain ⟨hi, hgap⟩ := hwide
  have hlt1 : s.time i < t1 := (s.sorted i (i + 1) (Nat.le_succ i) hi).trans_lt h1
  obtain ⟨p, ⟨-, hp⟩, -⟩ := existsUnique_inBucket s ht hb h0 hlt1
  obtain ⟨q, ⟨hq, hqin⟩, -⟩ := existsUnique_inBucket s ht hb
    (h0.trans (s.sorted i (i + 1) (Nat.le_succ i) hi)) h1
  have hpq : p + 1 < q := by
    by_contra hle
    have hqp := edge_le t0 hw (Nat.not_lt.mp hle)
    have h2 := hp.1
    have h3 := hqin.2
    push_cast at hqp
    linarith
  refine ⟨p + 1, by omega, ?_, ?_⟩
  · push_cast
    exact hp.2
  · exact (edge_succ_le t0 hw hpq).trans hqin.1

/-- A wide hole between two visible samples stays open. -/
theorem broken_visible (ht : t0 < t1) (hg : 0 < gapS) {i b : ℕ}
    (hwide : Wide s t0 t1 buckets gapS i) (h0 : t0 ≤ s.time i) (h1 : s.time (i + 1) < t1)
    (hb : b < buckets) (hbt : Between s t0 ((t1 - t0) / buckets) i (i + 1) b) :
    decimateChannel s t0 t1 buckets gapS b = none := by
  obtain ⟨hw, hspan⟩ := bucketWidth ht (Nat.zero_lt_of_lt hb)
  obtain ⟨hi, hgap⟩ := hwide
  -- nothing is drawn between the two
  have hnone : ∀ {c : ℕ}, c < buckets → Between s t0 ((t1 - t0) / buckets) i (i + 1) c →
      ¬Drawn s t0 t1 buckets gapS c := by
    intro c hc hct hd
    rcases hct.drawn_edge hi hd with ⟨rfl, -⟩ | ⟨rfl, -⟩
    · have := hct.1
      rw [Nat.cast_zero, mul_zero, add_zero] at this
      exact absurd this (not_lt.mpr h0)
    · have hlast : (((buckets - 1 : ℕ) : K) + 1) = buckets := by
        exact_mod_cast (by omega : buckets - 1 + 1 = buckets)
      have := hct.2
      rw [hlast, hspan] at this
      exact absurd this (not_le.mpr h1)
  refine decimateChannel_none ht hg hb (hnone hb hbt) fun p q hpb hbq hq hpd hqd => ?_
  -- so the buckets drawn around it are those of the two, or further out
  have hp : t0 + (t1 - t0) / buckets * p ≤ s.time i := by
    by_contra hlt
    exact hnone (by omega) ⟨not_le.mp hlt, (edge_succ_le t0 hw hpb).trans
      ((edge_le t0 hw (Nat.le_succ b)).trans (by push_cast; exact hbt.2))⟩ hpd
  have hqt : s.time (i + 1) < t0 + (t1 - t0) / buckets * (q + 1) := by
    by_contra hge
    exact hnone hq ⟨hbt.1.trans_le (edge_le t0 hw hbq.le), not_lt.mp hge⟩ hqd
  by_contra hle
  have hm := (le_maxEmpty_iff ht (Nat.zero_lt_of_lt hb) hg).mp (Nat.not_lt.mp hle)
  have hsplit := edge_add t0 ((t1 - t0) / buckets) (by omega : p + (q - p - 1 + 1) = q)
  rw [mul_comm] at hm
  push_cast at hsplit
  linarith

omit [FloorSemiring K] in
/-- The edges of the first bucket, and of the last. -/
theorem Between.first {i b : ℕ} (hw : 0 < (t1 - t0) / buckets) (h0 : s.time i < t0)
    (hbt : Between s t0 ((t1 - t0) / buckets) i (i + 1) b) :
    Between s t0 ((t1 - t0) / buckets) i (i + 1) 0 := by
  have hle := edge_le t0 hw (Nat.zero_le b)
  have h2 := hbt.2
  constructor
  · push_cast
    linarith
  · push_cast at *
    linarith

omit [FloorSemiring K] in
theorem Between.last {i b : ℕ} (ht : t0 < t1) (h1 : t1 ≤ s.time (i + 1)) (hb : b < buckets)
    (hbt : Between s t0 ((t1 - t0) / buckets) i (i + 1) b) :
    Between s t0 ((t1 - t0) / buckets) i (i + 1) (buckets - 1) := by
  obtain ⟨hw, hspan⟩ := bucketWidth ht (Nat.zero_lt_of_lt hb)
  have hlast : (((buckets - 1 : ℕ) : K) + 1) = buckets := by
    exact_mod_cast (by omega : buckets - 1 + 1 = buckets)
  refine ⟨hbt.1.trans_le (edge_le t0 hw (by omega)), ?_⟩
  rw [hlast, hspan]
  exact h1

/-- A wide hole on the left edge stays open where the edge is clean. -/
theorem broken_left (ht : t0 < t1) (hg : 0 < gapS) {i b : ℕ}
    (hclean : CleanEdges s t0 t1 buckets gapS) (hwide : Wide s t0 t1 buckets gapS i)
    (h0 : s.time i < t0) (hb : b < buckets)
    (hbt : Between s t0 ((t1 - t0) / buckets) i (i + 1) b) :
    ∃ b < buckets, Between s t0 ((t1 - t0) / buckets) i (i + 1) b ∧
      decimateChannel s t0 t1 buckets gapS b = none := by
  have hpos := Nat.zero_lt_of_lt hb
  obtain ⟨hw, hspan⟩ := bucketWidth ht hpos
  have hi := hwide.1
  have hfirst := hbt.first hw h0
  have hnext : t0 ≤ s.time (i + 1) := by
    have := hfirst.2
    push_cast at this
    linarith
  have hfrom := lowerBound_eq hi h0 hnext
  -- a range of one bucket is all in the hole
  have hsingle : buckets = 1 → ¬LeftNear s t0 gapS ((t1 - t0) / buckets) ∧
      ¬RightNear s t1 gapS ((t1 - t0) / buckets) := by
    intro h1
    refine hclean.single i hwide hfrom.symm (lowerBound_eq hi (h0.trans ht) ?_).symm h1
    have := hfirst.2
    subst h1
    push_cast at *
    linarith
  by_cases hnear : LeftNear s t0 gapS ((t1 - t0) / buckets)
  · -- the sample is drawn in the first bucket; the second is empty
    have hnear' := hnear.2.2.1
    rw [hfrom, Nat.add_sub_cancel] at hnear'
    have htwo : t0 + 2 * ((t1 - t0) / buckets) < s.time (i + 1) := by
      have := hwide.2
      linarith
    have hb2 : 1 < buckets := by
      by_contra hle
      exact (hsingle (by omega)).1 hnear
    have hleft := hclean.left i hwide hfrom.symm hnear
    refine ⟨1, hb2, ⟨?_, ?_⟩, decimateChannel_none ht hg hb2 (fun hd => ?_)
      fun p q hp hq hqb _ hqd => ?_⟩
    · push_cast
      linarith
    · push_cast
      linarith
    · exact absurd (hleft 1 hb2 Nat.one_pos hd) (by omega)
    · have := hleft q hqb (by omega) hqd
      omega
  · refine ⟨0, hpos, hfirst, decimateChannel_none ht hg hpos (fun hd => ?_)
      fun p q hp => absurd hp (Nat.not_lt_zero p)⟩
    rcases hfirst.drawn_edge hi hd with ⟨-, hl⟩ | ⟨h1, hr⟩
    · exact hnear hl
    · exact (hsingle (by omega)).2 hr

/-- And on the right edge. -/
theorem broken_right (ht : t0 < t1) (hg : 0 < gapS) {i b : ℕ}
    (hclean : CleanEdges s t0 t1 buckets gapS) (hwide : Wide s t0 t1 buckets gapS i)
    (h0 : t0 ≤ s.time i) (h1 : t1 ≤ s.time (i + 1)) (hb : b < buckets)
    (hbt : Between s t0 ((t1 - t0) / buckets) i (i + 1) b) :
    ∃ b < buckets, Between s t0 ((t1 - t0) / buckets) i (i + 1) b ∧
      decimateChannel s t0 t1 buckets gapS b = none := by
  have hpos := Nat.zero_lt_of_lt hb
  obtain ⟨hw, hspan⟩ := bucketWidth ht hpos
  have hi := hwide.1
  have hlast := hbt.last ht h1 hb
  have hto : lowerBound s.time s.n t1 = i + 1 :=
    lowerBound_eq hi (hspan ▸ hbt.1.trans_le (edge_le t0 hw hb.le)) h1
  have hnot0 : ¬Between s t0 ((t1 - t0) / buckets) i (i + 1) 0 := by
    intro hn
    have := hn.1
    push_cast at this
    linarith
  by_cases hnear : RightNear s t1 gapS ((t1 - t0) / buckets)
  · -- the sample is drawn in the last bucket; the one before it is empty
    have hnear' := hnear.2.2.1
    rw [hto] at hnear'
    have hgap := hwide.2
    have hb3 : 2 < buckets := by
      by_contra hle
      have hwidth := edge_le t0 hw (Nat.not_lt.mp hle)
      rw [hspan, Nat.cast_ofNat] at hwidth
      linarith
    have hsplit := edge_add t0 ((t1 - t0) / buckets) (by omega : buckets - 1 - 1 + 2 = buckets)
    rw [hspan, Nat.cast_ofNat] at hsplit
    have hright := hclean.right i hwide hto.symm hnear
    have hbt' : Between s t0 ((t1 - t0) / buckets) i (i + 1) (buckets - 1 - 1) := by
      constructor
      · linarith
      · linarith
    refine ⟨buckets - 1 - 1, by omega, hbt', decimateChannel_none ht hg (by omega) (fun hd => ?_)
      fun p q hp hq hqb hpd _ => ?_⟩
    · exact absurd (hright _ (by omega) hd) (by omega)
    · have := hright p (by omega) hpd
      omega
  · refine ⟨buckets - 1, by omega, hlast, decimateChannel_none ht hg (by omega) (fun hd => ?_)
      fun p q hp hq hqb => by omega⟩
    rcases hlast.drawn_edge hi hd with ⟨h2, -⟩ | ⟨-, hr⟩
    · exact hnot0 (h2 ▸ hlast)
    · exact hnear hr

/-- A wide hole left open is at a clean edge. -/
theorem cleanEdges_of_broken (ht : t0 < t1) (hb : 0 < buckets) (hg : 0 < gapS)
    (hbroken : ∀ i, Wide s t0 t1 buckets gapS i →
      (∃ b < buckets, Between s t0 ((t1 - t0) / buckets) i (i + 1) b) →
      ∃ b < buckets, Between s t0 ((t1 - t0) / buckets) i (i + 1) b ∧
        decimateChannel s t0 t1 buckets gapS b = none) :
    CleanEdges s t0 t1 buckets gapS := by
  obtain ⟨hw, hspan⟩ := bucketWidth ht hb
  have hbefore : ∀ {i : ℕ} {t : K}, i + 1 < s.n → i + 1 = lowerBound s.time s.n t →
      s.time i < t ∧ t ≤ s.time (i + 1) := fun {i t} hi heq =>
    ⟨(lt_lowerBound_iff s t (by omega)).mp (by omega),
      not_lt.mp (mt (lt_lowerBound_iff s t hi).mpr (by omega))⟩
  refine ⟨fun i hwide hfrom hnear q hq hq0 hqd => ?_, fun i hwide hto hnear q hq hqd => ?_,
    fun i hwide hfrom hto h1 => ?_⟩
  · obtain ⟨h0, h0'⟩ := hbefore hwide.1 hfrom
    have hn : s.n ≠ 0 := Nat.ne_of_gt (Nat.zero_lt_of_lt hwide.1)
    have hnear' := hnear.2.2.1
    rw [← hfrom, Nat.add_sub_cancel] at hnear'
    have hgap := hwide.2
    have hfirst : Between s t0 ((t1 - t0) / buckets) i (i + 1) 0 := by
      constructor
      · push_cast
        linarith
      · push_cast
        linarith
    obtain ⟨b, hbb, hbt, hnone⟩ := hbroken i hwide ⟨0, hb, hfirst⟩
    have hd0 : Drawn s t0 t1 buckets gapS 0 := .inr (.inl ⟨rfl, hnear⟩)
    have hdt := hnear.2.2.2
    by_contra hle
    have hb0 : 0 < b := by
      rcases Nat.eq_zero_or_pos b with rfl | hpos
      · exact absurd hnone (decimateChannel_of_drawn ht hg hn hdt hb hd0)
      · exact hpos
    rcases Nat.lt_or_ge b q with hbq | hqb
    · exact decimateChannel_between ht hg hn hdt hb0 hbq hq hd0 hqd (by omega) hnone
    · -- then the bucket drawn lies in the hole as well, and can only be the last
      have hqt : Between s t0 ((t1 - t0) / buckets) i (i + 1) q := by
        refine ⟨hfirst.1.trans_le (edge_le t0 hw (Nat.zero_le q)), le_trans ?_ hbt.2⟩
        have := edge_le t0 hw (Nat.succ_le_succ hqb)
        push_cast at this
        exact this
      rcases hqt.drawn_edge hwide.1 hqd with ⟨hz, -⟩ | ⟨hlast, -⟩
      · omega
      · obtain rfl : b = q := by omega
        exact decimateChannel_of_drawn ht hg hn hdt hq hqd hnone
  · obtain ⟨h1, h1'⟩ := hbefore hwide.1 hto
    have hn : s.n ≠ 0 := Nat.ne_of_gt (Nat.zero_lt_of_lt hwide.1)
    have hnear' := hnear.2.2.1
    rw [← hto] at hnear'
    have hgap := hwide.2
    have hcast : ((buckets - 1 : ℕ) : K) + 1 = buckets := by
      exact_mod_cast (by omega : buckets - 1 + 1 = buckets)
    have hsplit := edge_add t0 ((t1 - t0) / buckets) (by omega : buckets - 1 + 1 = buckets)
    rw [hspan, Nat.cast_one] at hsplit
    have hlast : Between s t0 ((t1 - t0) / buckets) i (i + 1) (buckets - 1) := by
      constructor
      · linarith
      · rw [hcast, hspan]
        exact h1'
    obtain ⟨b, hbb, hbt, hnone⟩ := hbroken i hwide ⟨buckets - 1, by omega, hlast⟩
    have hdl : Drawn s t0 t1 buckets gapS (buckets - 1) := .inr (.inr ⟨rfl, hnear⟩)
    have hdt := hnear.2.2.2
    by_contra hle
    have hbl : b < buckets - 1 := by
      rcases Nat.lt_or_ge b (buckets - 1) with hlt | hge
      · exact hlt
      · obtain rfl : b = buckets - 1 := by omega
        exact absurd hnone (decimateChannel_of_drawn ht hg hn hdt hbb hdl)
    rcases Nat.lt_or_ge q b with hqb | hbq
    · exact decimateChannel_between ht hg hn hdt hqb hbl (by omega) hqd hdl (by omega) hnone
    · -- then the bucket drawn lies in the hole as well, and can only be the first
      have hqt : Between s t0 ((t1 - t0) / buckets) i (i + 1) q := by
        refine ⟨hbt.1.trans_le (edge_le t0 hw hbq), le_trans ?_ hlast.2⟩
        have := edge_le t0 hw (Nat.succ_le_succ hq.le)
        push_cast at this
        exact this
      rcases hqt.drawn_edge hwide.1 hqd with ⟨hz, -⟩ | ⟨hl, -⟩
      · obtain rfl : b = q := by omega
        exact decimateChannel_of_drawn ht hg hn hdt (by omega) hqd hnone
      · omega
  · obtain ⟨h0, -⟩ := hbefore hwide.1 hfrom
    obtain ⟨-, h1'⟩ := hbefore hwide.1 hto
    have hn : s.n ≠ 0 := Nat.ne_of_gt (Nat.zero_lt_of_lt hwide.1)
    have hone : Between s t0 ((t1 - t0) / buckets) i (i + 1) 0 := by
      subst h1
      constructor
      · push_cast
        linarith
      · push_cast at *
        linarith
    obtain ⟨b, hbb, hbt, hnone⟩ := hbroken i hwide ⟨0, hb, hone⟩
    obtain rfl : b = 0 := by omega
    exact ⟨fun hl => decimateChannel_of_drawn ht hg hn hl.2.2.2 hbb (.inr (.inl ⟨rfl, hl⟩)) hnone,
      fun hr => decimateChannel_of_drawn ht hg hn hr.2.2.2 hbb
        (.inr (.inr ⟨by omega, hr⟩)) hnone⟩

/-- Decimation keeps spikes and gaps exactly where the edges are clean. -/
theorem decimateChannel_keeps_iff (s : Series K) {t0 t1 gapS : K} {buckets : ℕ} (ht : t0 < t1)
    (hb : 0 < buckets) (hg : 0 < gapS) :
    Keeps s t0 t1 buckets gapS ↔ CleanEdges s t0 t1 buckets gapS := by
  constructor
  · intro hk
    exact cleanEdges_of_broken ht hb hg fun i hwide hex =>
      hk.broken i hwide.1 hwide.2 (.inr hex)
  · intro hclean
    refine ⟨fun i _ _ h0 h1 => existsUnique_inBucket s ht hb h0 h1,
      fun b hbb => ⟨bucketGrid_envelops s ht hbb, fun hne => ?_⟩,
      fun i j had hle b hbb hbt => decimateChannel_joined ht hg had hle hbb hbt,
      fun i hi hgap hex => ?_⟩
    · have hn : s.n ≠ 0 := by
        intro h0
        obtain ⟨v, k, hk, -⟩ := (bucketGrid_ne_none_iff ht hbb).mp hne
        omega
      have hkept : anchorGrid s t0 t1 buckets gapS (bucketGrid s t0 t1 buckets) b =
          bucketGrid s t0 t1 buckets b := anchorGrid_kept hne
      rw [decimateChannel, if_neg hn]
      split
      · rfl
      · rw [bridgeBuckets_kept (hkept.symm ▸ hne), hkept]
    · have hwide : Wide s t0 t1 buckets gapS i := ⟨hi, hgap⟩
      by_cases hvis : t0 ≤ s.time i ∧ s.time (i + 1) < t1
      · obtain ⟨b, hbb, hbt⟩ := exists_between ht hb hg hwide hvis.1 hvis.2
        exact ⟨b, hbb, hbt, broken_visible ht hg hwide hvis.1 hvis.2 hbb hbt⟩
      · obtain ⟨b, hbb, hbt⟩ := hex.resolve_left hvis
        by_cases h0 : s.time i < t0
        · exact broken_left ht hg hclean hwide h0 hbb hbt
        · have h1 : t1 ≤ s.time (i + 1) := not_lt.mp fun hlt => hvis ⟨not_lt.mp h0, hlt⟩
          exact broken_right ht hg hclean hwide (not_lt.mp h0) h1 hbb hbt

end Decimate

/-- Two samples 1.85 s apart, the first of them 0.9 s before the range. -/
def offScreen : Series ℚ where
  time i := -9 / 10 + i * (37 / 20)
  values _ := some 1
  n := 2
  sorted i j hij _ := by
    have hcast : (i : ℚ) ≤ j := Nat.cast_le.mpr hij
    linarith

/-- In ten buckets of 0.1 s, with a tolerance of 1 s. -/
theorem decimateChannel_keeps_iff_offScreen :
    Keeps offScreen 0 1 10 1 ↔ CleanEdges offScreen 0 1 10 1 :=
  decimateChannel_keeps_iff offScreen (by norm_num) (by norm_num) (by norm_num)

/-- The line is drawn straight from one to the other. -/
theorem offScreen_bridged : ¬Keeps offScreen 0 1 10 1 := by
  intro hk
  have hfull : ∀ b < 10, (decimateChannel offScreen 0 1 10 1 b).isSome := by decide +kernel
  have hgap : (1 : ℚ) + 2 * ((1 - 0) / (10 : ℕ)) < offScreen.time (0 + 1) - offScreen.time 0 := by
    norm_num [offScreen]
  have hfirst : Between offScreen 0 ((1 - 0) / (10 : ℕ)) 0 (0 + 1) 0 := by
    constructor <;> norm_num [offScreen]
  obtain ⟨b, hb, -, hnone⟩ := hk.broken 0 (by decide) hgap (.inr ⟨0, by decide, hfirst⟩)
  have hsome := hfull b hb
  rw [hnone] at hsome
  exact absurd hsome Bool.false_ne_true

end DiveCANHead.Viewer
