import DiveCANHead.LogClient.Replay
import Mathlib.Data.List.Infix

/-!
# The anchor is looked for everywhere (`LogDownloader.js`)

The windows of the search overlap by the needle less one byte, and each owns the places from its
offset to the next window's. Together they own every place where the needle fits exactly once, so
the search in windows is the search from place to place.
-/

namespace DiveCANHead.LogClient

open DiveCANHead.Lib

/-! ## The search with windows of any size -/

/-- One window of `_findStoredAnchor`, for any value of `LOG_RESUME_VERIFY_WINDOW_BYTES`. -/
def anchorInWindowOf (windowBytes : ℕ) (store : List UInt8) (readable : ℕ → ℕ → Bool) (total : ℕ)
    (needle : List UInt8) (k : ℕ) (found : Option ℕ) : Except PullError (Option ℕ) :=
  let offset := logDclgHeaderLen + k * windowBytes
  let scanEnd := min total (offset + windowBytes + needle.length - 1)
  match readStore store readable offset (scanEnd - offset) with
  | .error e => .error e
  | .ok haystack =>
    let ownedEnd := min (total - needle.length + 1) (offset + windowBytes)
    loop (anchorAt haystack needle offset)
      (min (ownedEnd - offset) (haystack.length + 1 - needle.length)) found

/-- `_findStoredAnchor`, for any value of `LOG_RESUME_VERIFY_WINDOW_BYTES`. -/
def findStoredAnchorOf (windowBytes : ℕ) (store : List UInt8) (readable : ℕ → ℕ → Bool)
    (total : ℕ) (needle : List UInt8) : Except PullError (Option ℕ) :=
  if total < logDclgHeaderLen + needle.length then .ok none
  else
    loop (anchorInWindowOf windowBytes store readable total needle)
      ((total - needle.length - logDclgHeaderLen) / windowBytes + 1) none

theorem findStoredAnchor_eq_of (store : List UInt8) (readable : ℕ → ℕ → Bool) (total : ℕ)
    (needle : List UInt8) : findStoredAnchor store readable total needle =
      findStoredAnchorOf windowBytes store readable total needle := rfl

/-! ## One window -/

section

variable {store needle : List UInt8} {width total offset : ℕ}

/-- The needle stands at this place of the record area. -/
def Occurs (store needle : List UInt8) (q : ℕ) : Prop :=
  logDclgHeaderLen ≤ q ∧ needle <+: store.drop q

instance : DecidablePred (Occurs store needle) := fun _ => inferInstanceAs (Decidable (_ ∧ _))

theorem Occurs.fits {q : ℕ} (h : Occurs store needle q) (hne : needle ≠ []) :
    q + needle.length ≤ store.length := by
  have hlen := h.2.length_le
  have hpos := List.length_pos_iff.mpr hne
  rw [List.length_drop] at hlen
  omega

/-- One place of the search from place to place. -/
def anchorStep (store needle : List UInt8) (q : ℕ) (found : Option ℕ) :
    Except PullError (Option ℕ) :=
  onlyAt (fun q => needle <+: store.drop q)
    (fun first second => .ambiguous first second needle.length) q found

/-- Where the needle fits into what was read, it stands there if it stands in the store. -/
theorem anchorAt_read {length i : ℕ} {found : Option ℕ}
    (hfit : i + needle.length ≤ length) :
    anchorAt ((store.drop offset).take length) needle offset i found =
      anchorStep store needle (offset + i) found := by
  have hhere : needle <+: ((store.drop offset).take length).drop i ↔
      needle <+: store.drop (offset + i) := by
    rw [List.drop_take, List.drop_drop, List.prefix_take_iff, and_iff_left]
    omega
  unfold anchorStep anchorAt onlyAt
  exact if_congr hhere rfl rfl

/-- Where window `k` starts; the place behind the last one where the needle fits ends them all. -/
def ownedStart (width total : ℕ) (needle : List UInt8) (k : ℕ) : ℕ :=
  min (total - needle.length + 1) (logDclgHeaderLen + k * width)

theorem ownedStart_le_succ (k : ℕ) :
    ownedStart width total needle k ≤ ownedStart width total needle (k + 1) := by
  unfold ownedStart
  rw [Nat.succ_mul]
  omega

/-- A window compares at every place it owns. -/
theorem anchorInWindowOf_eq {k : ℕ} {found : Option ℕ} (hne : needle ≠ [])
    (hwidth : 0 < width) (hfit : logDclgHeaderLen + needle.length ≤ store.length) :
    anchorInWindowOf width store (fun _ _ => true) store.length needle k found =
      loop (fun i => anchorStep store needle (ownedStart width store.length needle k + i))
        (ownedStart width store.length needle (k + 1) - ownedStart width store.length needle k)
        found := by
  have hpos := List.length_pos_iff.mpr hne
  have hshort : needle.length ≤ store.length := (Nat.le_add_left _ _).trans hfit
  unfold anchorInWindowOf ownedStart readStore
  rw [Nat.succ_mul, ← Nat.add_assoc]
  generalize logDclgHeaderLen + k * width = offset
  have hroom : min store.length (offset + width + needle.length - 1) - offset ≤
      store.length - offset := Nat.sub_le_sub_right (Nat.min_le_left _ _) _
  have hfits := fits_window offset width hpos hshort
  simp only [↓reduceIte, List.length_take, List.length_drop]
  generalize min store.length (offset + width + needle.length - 1) - offset = length at *
  rw [Nat.min_eq_left hroom, hfits, Nat.min_self]
  rcases Nat.le_total (store.length - needle.length + 1) offset with hnone | hsome
  · -- no place of this window is left
    rw [Nat.min_eq_left hnone, Nat.min_eq_left (hnone.trans (Nat.le_add_right _ _)),
      Nat.sub_eq_zero_of_le hnone, Nat.sub_self]
    rfl
  · rw [Nat.min_eq_right hsome]
    exact loop_congr fun hi found => anchorAt_read (by omega)

/-! ## All windows -/

/-- The search in windows is the search from place to place. -/
theorem findStoredAnchorOf_eq (hne : needle ≠ []) (hwidth : 0 < width) :
    findStoredAnchorOf width store (fun _ _ => true) store.length needle =
      loop (fun i => anchorStep store needle (logDclgHeaderLen + i))
        (store.length + 1 - needle.length - logDclgHeaderLen) none := by
  unfold findStoredAnchorOf
  split
  · next hshort =>
    have hnone : store.length + 1 - needle.length - logDclgHeaderLen = 0 := by omega
    rw [hnone]
    rfl
  · next hlong =>
    have hfit : logDclgHeaderLen + needle.length ≤ store.length := Nat.le_of_not_lt hlong
    have hdiv := Nat.lt_div_mul_add (a := store.length - needle.length - logDclgHeaderLen) hwidth
    rw [loop_congr fun _ found => anchorInWindowOf_eq hne hwidth hfit,
      (loop_windows ownedStart_le_succ _).2]
    have hfirst : ownedStart width store.length needle 0 = logDclgHeaderLen := by
      unfold ownedStart
      omega
    have hlast : ownedStart width store.length needle
        ((store.length - needle.length - logDclgHeaderLen) / width + 1) =
          store.length - needle.length + 1 := by
      unfold ownedStart
      rw [Nat.succ_mul]
      omega
    rw [hfirst, hlast]
    congr 1
    omega

variable (store) in
/-- What the search comes to, over all places where the needle fits. -/
theorem onlyAmong_findStoredAnchorOf (hne : needle ≠ []) (hwidth : 0 < width) :
    OnlyAmong (fun q => needle <+: store.drop q)
      (fun first second => PullError.ambiguous first second needle.length) logDclgHeaderLen
      (logDclgHeaderLen + (store.length + 1 - needle.length - logDclgHeaderLen))
      (findStoredAnchorOf width store (fun _ _ => true) store.length needle) := by
  rw [findStoredAnchorOf_eq hne hwidth]
  exact onlyAmong_loop logDclgHeaderLen _

theorem occurs_iff {q : ℕ} (hne : needle ≠ []) : Occurs store needle q ↔
    logDclgHeaderLen ≤ q ∧
      q < logDclgHeaderLen + (store.length + 1 - needle.length - logDclgHeaderLen) ∧
      needle <+: store.drop q := by
  refine ⟨fun h => ⟨h.1, ?_, h.2⟩, fun ⟨hle, _, hhere⟩ => ⟨hle, hhere⟩⟩
  have hfits := h.fits hne
  have hle := h.1
  omega

end

section

variable {store needle : List UInt8} {width : ℕ} {readable : ℕ → ℕ → Bool}

/-- With windows of any size the search finds the place where the needle stands in the record area,
nothing where it stands nowhere, and an error where it stands at two places. -/
theorem findStoredAnchor_naive (hne : needle ≠ []) (hwidth : 0 < width)
    (hread : ∀ offset length, readable offset length = true) :
    (∀ start, findStoredAnchorOf width store readable store.length needle = .ok (some start) ↔
        Occurs store needle start ∧ ∀ q, Occurs store needle q → q = start) ∧
      (findStoredAnchorOf width store readable store.length needle = .ok none ↔
        ∀ q, ¬ Occurs store needle q) ∧
      ((∃ e, findStoredAnchorOf width store readable store.length needle = .error e) ↔
        ∃ first second, first < second ∧ Occurs store needle first ∧
          Occurs store needle second) ∧
      findStoredAnchorOf width store readable store.length needle =
        findStoredAnchor store readable store.length needle := by
  obtain rfl : readable = fun _ _ => true := funext fun _ => funext fun _ => hread _ _
  have honly := onlyAmong_findStoredAnchorOf store hne hwidth
  refine ⟨fun start => ?_, ?_, ?_, ?_⟩
  · rw [honly.some_iff]
    simp only [occurs_iff hne, and_imp]
  · rw [honly.none_iff]
    simp only [occurs_iff hne, not_and]
  · rw [honly.error_iff]
    simp only [occurs_iff hne]
    refine ⟨fun ⟨i, j, hi, hij, hj, hp, hpj⟩ => ?_,
      fun ⟨i, j, hij, ⟨hi, _, hp⟩, _, hj, hpj⟩ => ⟨i, j, hi, hij, hj, hp, hpj⟩⟩
    exact ⟨i, j, hij, ⟨hi, Nat.lt_trans hij hj, hp⟩, Nat.le_trans hi (Nat.le_of_lt hij), hj, hpj⟩
  · rw [findStoredAnchor_eq_of, findStoredAnchorOf_eq hne hwidth,
      findStoredAnchorOf_eq hne (show 0 < windowBytes by decide)]

/-- The needle stands in the last two bytes, behind the first window of one place. -/
theorem findStoredAnchor_naive_last :
    findStoredAnchorOf 1 (List.replicate 17 0 ++ [1, 2]) (fun _ _ => true) 19 [1, 2] =
      .ok (some 17) :=
  ((findStoredAnchor_naive (by decide) (by decide) fun _ _ => rfl).1 17).mpr
    ⟨by decide, fun q hq => by
      have hfits := hq.fits (by decide)
      have hle := hq.1
      have hq' : q = 16 ∨ q = 17 := by
        simp only [logDclgHeaderLen, List.length_append, List.length_replicate, List.length_cons,
          List.length_nil] at hfits hle
        omega
      rcases hq' with rfl | rfl
      · exact absurd hq (by decide)
      · rfl⟩

end

end DiveCANHead.LogClient
