import DiveCANHead.LogClient.Pull
import Mathlib.Data.List.Infix

/-!
# A resumed log is not spliced

Whatever a resumed attempt meets, the store holds the saved part and, behind it, bytes that follow
it in the log that is being sent: the overlap has been compared to its end before anything is
appended.
-/

namespace DiveCANHead.LogClient

open DiveCANHead.Lib

/-! ## Comparing with the store -/

theorem prefix_of_firstDifference {as bs : List UInt8} {offset : ℕ}
    (h : firstDifference offset as bs = none) (hlen : as.length ≤ bs.length) : as <+: bs := by
  induction as generalizing bs offset with
  | nil => exact List.nil_prefix
  | cons a as ih =>
    cases bs with
    | nil => exact absurd hlen (Nat.not_succ_le_zero _)
    | cons b bs =>
      unfold firstDifference at h
      split at h
      · next heq => exact List.cons_prefix_cons.mpr ⟨heq, ih h (Nat.le_of_succ_le_succ hlen)⟩
      · cases h

theorem readStore_ok {store : List UInt8} {readable : ℕ → ℕ → Bool} {offset length : ℕ}
    {bytes : List UInt8} (h : readStore store readable offset length = .ok bytes) :
    bytes = (store.drop offset).take length := by
  unfold readStore at h
  split at h
  · exact (Except.ok.inj h).symm
  · cases h

section

variable {store bytes : List UInt8} {readable : ℕ → ℕ → Bool} {total offset : ℕ}
  {v w : StorePrefixVerifier}

/-- The window of the verifier is one of the store. -/
def StorePrefixVerifier.Coherent (v : StorePrefixVerifier) (store : List UInt8) (total : ℕ) :
    Prop :=
  ∀ start, v.windowStart = some start →
    v.window = (store.drop start).take (min windowBytes (total - start))

theorem StorePrefixVerifier.coherent_start : Coherent {} store total := nofun

theorem StorePrefixVerifier.load_ok (hv : v.Coherent store total)
    (h : v.load store readable total offset = .ok w) : w.Coherent store total ∧
      w.windowStart = some (offset / windowBytes * windowBytes) := by
  unfold StorePrefixVerifier.load at h
  dsimp only at h
  split at h
  · next hstart => exact Except.ok.inj h ▸ ⟨hv, hstart⟩
  · split at h
    · cases h
    · next window hread =>
      split at h
      · obtain rfl := Except.ok.inj h
        refine ⟨fun start hstart => ?_, rfl⟩
        obtain rfl := Option.some.inj hstart
        exact readStore_ok hread
      · cases h

/-- What is verified stands in the store. -/
theorem StorePrefixVerifier.verify_ok (hv : v.Coherent store total)
    (h : v.verify store readable total bytes offset = .ok w) :
    w.Coherent store total ∧ bytes <+: store.drop offset := by
  induction hn : bytes.length using Nat.strong_induction_on generalizing v bytes offset with
  | _ n ih =>
    subst hn
    unfold StorePrefixVerifier.verify at h
    split at h
    · next hnil =>
      subst hnil
      exact Except.ok.inj h ▸ ⟨hv, List.nil_prefix⟩
    split at h
    · cases h
    next u hload =>
    obtain ⟨hu, hstart⟩ := load_ok hv hload
    dsimp only at h
    generalize hsaved : u.window.drop (offset - offset / windowBytes * windowBytes) = saved at h
    split at h
    · cases h
    next hdiff =>
    split at h
    · next hcount =>
      generalize hmin : min bytes.length saved.length = count at h hdiff hcount
      have hfirst : bytes.take count <+: store.drop offset := by
        have hpre : bytes.take count <+: saved := prefix_of_firstDifference hdiff (by
          rw [List.length_take]
          omega)
        refine hpre.trans ?_
        have hle : offset / windowBytes * windowBytes ≤ offset := Nat.div_mul_le_self _ _
        rw [← hsaved, hu _ hstart, List.drop_take, List.drop_drop, Nat.add_sub_cancel' hle]
        exact List.take_prefix _ _
      have hrest := ih (bytes.drop count).length (by
        rw [List.length_drop]
        omega) hu h rfl
      refine ⟨hrest.1, ?_⟩
      have hlen : (bytes.take count).length = count := by
        rw [List.length_take]
        omega
      have hsplit : store.drop offset = bytes.take count ++ store.drop (offset + count) := by
        have heq := List.prefix_iff_eq_take.mp hfirst
        rw [hlen] at heq
        rw [heq, ← List.drop_drop, List.take_append_drop]
      obtain ⟨tail, htail⟩ := hrest.2
      exact ⟨tail, by rw [hsplit, ← htail, ← List.append_assoc, List.take_append_drop]⟩
    · cases h

end

/-! ## The anchor -/

/-- The places of the record area up to `bound` where the needle stands are those that were
found. -/
structure Found (store needle : List UInt8) (bound : ℕ) (found : Option ℕ) : Prop where
  only : ∀ q, logDclgHeaderLen ≤ q → q < bound → (needle <+: store.drop q ↔ found = some q)
  inside : ∀ q, found = some q → logDclgHeaderLen ≤ q ∧ q < bound

section

variable {store needle haystack : List UInt8} {readable : ℕ → ℕ → Bool} {total bound : ℕ}
  {found found' : Option ℕ}

theorem Found.start : Found store needle logDclgHeaderLen none :=
  ⟨fun _ hle hlt => absurd hlt (Nat.not_lt_of_le hle), nofun⟩

theorem Found.next {offset i : ℕ} (h : Found store needle (offset + i) found)
    (hoffset : logDclgHeaderLen ≤ offset)
    (hhay : needle <+: haystack.drop i ↔ needle <+: store.drop (offset + i))
    (hstep : anchorAt haystack needle offset i found = .ok found') :
    Found store needle (offset + (i + 1)) found' := by
  unfold anchorAt at hstep
  split at hstep
  · next hhere =>
    cases found with
    | some first => cases hstep
    | none =>
      obtain rfl := Except.ok.inj hstep
      refine ⟨fun q hle hlt => ?_, fun q hq => ?_⟩
      · by_cases hq : q = offset + i
        · rw [hq]
          exact iff_of_true (hhay.mp hhere) rfl
        · rw [h.only q hle (by omega), Option.some.injEq]
          exact iff_of_false nofun fun heq => hq heq.symm
      · obtain rfl := Option.some.inj hq
        omega
  · next hnot =>
    obtain rfl := Except.ok.inj hstep
    refine ⟨fun q hle hlt => ?_, fun q hq => ?_⟩
    · by_cases hq : q = offset + i
      · rw [hq]
        refine iff_of_false (mt hhay.mpr hnot) fun hfound => ?_
        exact absurd (h.inside _ hfound).2 (Nat.lt_irrefl _)
      · exact h.only q hle (by omega)
    · have hinside := h.inside q hq
      omega

theorem Found.mono (h : Found store needle bound found) {bound' : ℕ} (heq : bound = bound') :
    Found store needle bound' found := heq ▸ h

/-- One window owns the places from its offset to the next window's, as far as the needle fits. -/
theorem Found.window {k : ℕ} (hpos : 0 < needle.length) (htotal : total ≤ store.length)
    (h : Found store needle
      (min (total - needle.length + 1) (logDclgHeaderLen + k * windowBytes)) found)
    (hfit : logDclgHeaderLen + needle.length ≤ total)
    (hstep : anchorInWindow store readable total needle k found = .ok found') :
    Found store needle
      (min (total - needle.length + 1) (logDclgHeaderLen + (k + 1) * windowBytes)) found' := by
  unfold anchorInWindow at hstep
  dsimp only at hstep
  generalize hoffset : logDclgHeaderLen + k * windowBytes = offset at h hstep
  have hnext : logDclgHeaderLen + (k + 1) * windowBytes = offset + windowBytes := by
    rw [Nat.succ_mul]
    omega
  rw [hnext]
  split at hstep
  · cases hstep
  next haystack hread =>
  have hhay := readStore_ok hread
  have hshort : needle.length ≤ total := (Nat.le_add_left _ _).trans hfit
  have hrecords : logDclgHeaderLen ≤ offset := hoffset ▸ Nat.le_add_right _ _
  generalize windowBytes = width at hnext hhay hstep ⊢
  have hroom : min total (offset + width + needle.length - 1) - offset ≤ store.length - offset :=
    Nat.sub_le_sub_right ((Nat.min_le_left _ _).trans htotal) _
  have hfits := fits_window offset width hpos hshort
  generalize min total (offset + width + needle.length - 1) - offset = length at hhay hroom hfits
  have hlen : haystack.length = length := by
    rw [hhay, List.length_take, List.length_drop, Nat.min_eq_left hroom]
  rw [hlen, hfits, Nat.min_self] at hstep
  rcases Nat.le_total (total - needle.length + 1) offset with hnone | hsome
  · have hend : min (total - needle.length + 1) (offset + width) = total - needle.length + 1 :=
      Nat.min_eq_left (hnone.trans (Nat.le_add_right _ _))
    rw [hend, Nat.sub_eq_zero_of_le hnone] at hstep
    obtain rfl := Except.ok.inj hstep
    rw [Nat.min_eq_left hnone] at h
    rw [hend]
    exact h
  · have howned : offset ≤ min (total - needle.length + 1) (offset + width) :=
      Nat.le_min.mpr ⟨hsome, Nat.le_add_right _ _⟩
    generalize min (total - needle.length + 1) (offset + width) = ownedEnd at *
    rw [Nat.min_eq_right hsome] at h
    have hloop : Found store needle (offset + (ownedEnd - offset)) found' := by
      refine loop_inv (I := fun i found => Found store needle (offset + i) found)
        (fun {i s t} hlt hi hturn => hi.next hrecords ?_ hturn)
        (h.mono (Nat.add_zero offset).symm) hstep
      have hdrop : haystack.drop i = (store.drop (offset + i)).take (length - i) := by
        rw [hhay, List.drop_take, List.drop_drop]
      rw [hdrop, List.prefix_take_iff, and_iff_left]
      omega
    exact hloop.mono (Nat.add_sub_of_le howned)

/-- The anchor stands at this place of the record area, and at no other. -/
structure Once (store anchor : List UInt8) (start : ℕ) : Prop where
  enough : logResumeMinAnchorBytes ≤ anchor.length
  records : logDclgHeaderLen ≤ start
  fits : start + anchor.length ≤ store.length
  here : anchor <+: store.drop start
  only : ∀ q, logDclgHeaderLen ≤ q → q + anchor.length ≤ store.length →
    anchor <+: store.drop q → q = start

theorem findStoredAnchor_once {start : ℕ} (henough : logResumeMinAnchorBytes ≤ needle.length)
    (h : findStoredAnchor store readable store.length needle = .ok (some start)) :
    Once store needle start := by
  have hpos : 0 < needle.length := Nat.lt_of_lt_of_le (by decide) henough
  unfold findStoredAnchor at h
  split at h
  · cases h
  next hfits =>
  have hfit : logDclgHeaderLen + needle.length ≤ store.length := Nat.le_of_not_lt hfits
  have hloop := loop_inv
    (I := fun k found => Found store needle
      (min (store.length - needle.length + 1) (logDclgHeaderLen + k * windowBytes)) found)
    (fun {k s t} _ hi hturn => hi.window hpos (Nat.le_refl _) hfit hturn)
    (Found.start.mono (by omega)) h
  have hall : min (store.length - needle.length + 1) (logDclgHeaderLen +
      ((store.length - needle.length - logDclgHeaderLen) / windowBytes + 1) * windowBytes) =
        store.length - needle.length + 1 := by
    have hdiv := Nat.lt_div_mul_add (a := store.length - needle.length - logDclgHeaderLen)
      (show 0 < windowBytes by decide)
    rw [Nat.succ_mul]
    generalize windowBytes = width at hdiv ⊢
    omega
  have hfound := hloop.mono hall
  obtain ⟨hrecords, hinside⟩ := hfound.inside start rfl
  refine ⟨henough, hrecords, by omega, (hfound.only start hrecords hinside).mpr rfl, ?_⟩
  intro q hle hq hpre
  exact (Option.some.inj ((hfound.only q hle (by omega)).mp hpre)).symm

end

/-! ## The start of the log -/

section

variable {store body : List UInt8} {readable : ℕ → ℕ → Bool}

theorem fromMagic_append {stored : List UInt8} (h : fromMagic body = some stored)
    (rest : List UInt8) : fromMagic (body ++ rest) = some (stored ++ rest) := by
  have hmagic : ∀ {body stored}, fromMagic body = some stored →
      logDownloadMagic <+: stored ∧ stored <:+ body := by
    intro body stored h
    induction body with
    | nil => cases h
    | cons byte body ih =>
      unfold fromMagic at h
      split at h
      · next hpre => exact Option.some.inj h ▸ ⟨hpre, List.suffix_refl _⟩
      · exact ⟨(ih h).1, (ih h).2.trans (List.suffix_cons byte body)⟩
  induction body with
  | nil => cases h
  | cons byte body ih =>
    have hshort := (hmagic h).1.length_le.trans (hmagic h).2.length_le
    unfold fromMagic at h
    rw [List.cons_append, fromMagic]
    split at h
    · next hpre =>
      have hpre' : logDownloadMagic <+: byte :: (body ++ rest) :=
        hpre.trans (List.prefix_append (byte :: body) rest)
      rw [if_pos hpre', ← Option.some.inj h]
      rfl
    · next hnot =>
      have hnot' : ¬logDownloadMagic <+: byte :: (body ++ rest) := fun hpre =>
        hnot (List.prefix_of_prefix_length_le hpre (List.prefix_append (byte :: body) rest)
          hshort)
      rw [if_neg hnot', ih h]

theorem fromMagic_ne_nil {stored : List UInt8} (h : fromMagic body = some stored) :
    stored ≠ [] := by
  rintro rfl
  induction body with
  | nil => cases h
  | cons byte body ih =>
    unfold fromMagic at h
    split at h
    · cases h
    · exact ih h

/-- What the first block says about the saved part. -/
structure Starts (saved body : List UInt8) (r : Replay) : Prop where
  stored : r.storedOffset = r.reconciledFrom
  offset : r.bodyOffset = if r.reconciledFrom = 0 then 0 else logDclgHeaderLen
  fits : r.reconciledFrom ≤ saved.length
  long : r.bodyOffset ≤ body.length
  once : r.reconciledFrom ≠ 0 →
    ∃ anchor, anchor <+: body.drop logDclgHeaderLen ∧ Once saved anchor r.reconciledFrom

theorem prepareStoredReplay_starts {r : Replay}
    (h : prepareStoredReplay store readable store.length body = .ok r) : Starts store body r := by
  unfold prepareStoredReplay at h
  dsimp only at h
  split at h
  · cases h
  split at h
  · obtain rfl := Except.ok.inj h
    exact ⟨rfl, rfl, Nat.zero_le _, Nat.zero_le _, fun h => absurd rfl h⟩
  unfold anchoredReplay at h
  dsimp only at h
  generalize hlen : min logResumeAnchorBytes (body.length - logDclgHeaderLen) = len at h
  split at h
  · cases h
  next henough =>
  split at h
  · cases h
  split at h
  · cases h
  split at h
  · cases h
  · cases h
  · next start hfound =>
    obtain rfl := Except.ok.inj h
    have hmin : logResumeMinAnchorBytes ≤ len := Nat.le_of_not_lt henough
    have hanchor : ((body.drop logDclgHeaderLen).take len).length = len := by
      rw [List.length_take, List.length_drop]
      omega
    have honce := findStoredAnchor_once (Nat.le_trans hmin (Nat.le_of_eq hanchor.symm)) hfound
    have hrecords : logDclgHeaderLen ≤ start := honce.records
    have hheader : logDclgHeaderLen = 16 := rfl
    have hlong : logResumeMinAnchorBytes = 32 := rfl
    refine ⟨rfl, (if_neg (by dsimp only; omega)).symm, ?_, ?_,
      fun _ => ⟨_, List.take_prefix _ _, honce⟩⟩
    · exact Nat.le_trans (Nat.le_add_right _ _) honce.fits
    · dsimp only
      omega

end

/-! ## Attempts -/

/-- The log that is being sent, from its header on. -/
def Pull.stream (s : Pull) : List UInt8 := (fromMagic s.blocks.flatten).getD []

/-- The part of it that overlaps with the saved part, and what comes after: all of it, or the
records. -/
def Pull.replayed (s : Pull) : List UInt8 :=
  s.stream.drop (if s.reconciledFrom = 0 then 0 else logDclgHeaderLen)

/-- The store holds the saved part and what follows it in the log; when the attempt is complete,
all that follows it. Another start than zero is the only place of the anchor. -/
structure Spliced (saved : List UInt8) (s : Pull) : Prop where
  stored : ∃ appended, s.store = saved ++ appended ∧
    (appended ≠ [] → saved.drop s.reconciledFrom ++ appended <+: s.replayed) ∧
    (s.status = .complete → s.replayed = saved.drop s.reconciledFrom ++ appended)
  once : s.reconciledFrom ≠ 0 →
    ∃ anchor, anchor <+: s.stream.drop logDclgHeaderLen ∧ Once saved anchor s.reconciledFrom

/-- What was sent has been compared with the saved part as far as it overlaps, and the rest
appended, but for what is left of the body from `offset` on. -/
structure PullInv (saved : List UInt8) (s : Pull) (appended body : List UInt8) (offset : ℕ) :
    Prop where
  store : s.store = saved ++ appended
  transferred : s.stream.length = s.transferred + body.length
  fresh : s.stream = [] → s.blocks.flatten = [] ∧ s.replayStoredOffset = 0 ∧ s.reconciledFrom = 0
  found : s.stream ≠ [] → fromMagic s.blocks.flatten = some s.stream
  ordered : s.reconciledFrom ≤ s.replayStoredOffset
  within : s.replayStoredOffset ≤ saved.length
  left : offset ≤ body.length
  replayed : s.replayed = (saved.drop s.reconciledFrom).take
    (s.replayStoredOffset - s.reconciledFrom) ++ (appended ++ body.drop offset)
  whole : appended ≠ [] → s.replayStoredOffset = saved.length
  coherent : s.verifier.Coherent saved saved.length
  once : s.reconciledFrom ≠ 0 →
    ∃ anchor, anchor <+: s.stream.drop logDclgHeaderLen ∧ Once saved anchor s.reconciledFrom

section

variable {cfg : PullConfig} {saved appended body : List UInt8} {offset : ℕ} {s r : Pull}
  {turn : Turn}

theorem PullInv.start (saved : List UInt8) : PullInv saved (.start saved) [] [] 0 where
  store := (List.append_nil _).symm
  transferred := rfl
  fresh := fun _ => ⟨rfl, rfl, rfl⟩
  found := fun h => absurd rfl h
  ordered := Nat.le_refl _
  within := Nat.zero_le _
  left := Nat.le_refl _
  replayed := rfl
  whole := fun h => absurd rfl h
  coherent := nofun
  once := fun h => absurd rfl h

/-- Once all of the saved part is compared, it is the overlap. -/
theorem PullInv.overlap (h : PullInv saved s appended body offset)
    (hfull : s.replayStoredOffset = saved.length) :
    s.replayed = saved.drop s.reconciledFrom ++ (appended ++ body.drop offset) := by
  rw [h.replayed, List.take_of_length_le]
  rw [List.length_drop]
  omega

/-- A turn may end anywhere. -/
theorem PullInv.spliced (h : PullInv saved s appended body offset) (status : PullStatus)
    (hstatus : status = .complete → s.replayStoredOffset = saved.length ∧ offset = body.length) :
    Spliced saved { s with status } := by
  refine ⟨⟨appended, h.store, fun hne => ?_, fun hc => ?_⟩, h.once⟩
  · refine ⟨body.drop offset, ?_⟩
    rw [List.append_assoc]
    exact (h.overlap (h.whole hne)).symm
  · obtain ⟨hfull, hoffset⟩ := hstatus hc
    have hall := h.overlap hfull
    rw [hoffset, List.drop_length, List.append_nil] at hall
    exact hall

theorem PullInv.failed (h : PullInv saved s appended body offset) (e : PullError) :
    Spliced saved (s.fail e) := h.spliced (.failed e) nofun

/-- The anchor stands behind the header. -/
theorem PullInv.header_le (h : PullInv saved s appended body offset)
    (hrec : s.reconciledFrom ≠ 0) : logDclgHeaderLen ≤ s.stream.length := by
  obtain ⟨anchor, hanchor, honce⟩ := h.once hrec
  have hlen := hanchor.length_le
  have henough := honce.enough
  have hmin : logResumeMinAnchorBytes = 32 := rfl
  rw [List.length_drop] at hlen
  omega

/-! ## The steps of a turn -/

/-- A block is received. -/
theorem PullInv.received (h : PullInv saved s appended [] 0) {wireBody : List UInt8}
    (hbody : (if s.transferred = 0 ∧ wireBody.length > 0 then firstStoredBody wireBody
      else .ok wireBody) = .ok body) :
    PullInv saved { s with blocks := s.blocks ++ [wireBody] } appended body 0 ∧
      (s.transferred = 0 →
        Pull.stream { s with blocks := s.blocks ++ [wireBody] } = body ∧ appended = []) := by
  have hstream : (s.stream ≠ [] → s.transferred ≠ 0) ∧ (s.stream = [] → s.transferred = 0) := by
    have hlen := h.transferred
    rw [List.length_nil, Nat.add_zero] at hlen
    rw [← hlen]
    exact ⟨fun hne => Nat.pos_iff_ne_zero.mp (List.length_pos_iff.mpr hne), fun hnil =>
      List.length_eq_zero_iff.mpr hnil⟩
  have hflatten : (s.blocks ++ [wireBody]).flatten = s.blocks.flatten ++ wireBody := by
    rw [List.flatten_append, List.flatten_singleton]
  have hnew : (s.stream ++ body = [] → (s.blocks ++ [wireBody]).flatten = []) ∧
      (s.stream ++ body ≠ [] →
        fromMagic (s.blocks ++ [wireBody]).flatten = some (s.stream ++ body)) := by
    rw [hflatten]
    by_cases hs : s.stream = []
    · rw [hs, List.nil_append, (h.fresh hs).1, List.nil_append]
      by_cases hw : wireBody.length > 0
      · rw [if_pos ⟨hstream.2 hs, hw⟩] at hbody
        unfold firstStoredBody at hbody
        split at hbody
        · next stored hmagic =>
          obtain rfl := Except.ok.inj hbody
          exact ⟨fun hnil => absurd hnil (fromMagic_ne_nil hmagic), fun _ => hmagic⟩
        · cases hbody
      · obtain rfl := List.length_eq_zero_iff.mp (Nat.eq_zero_of_not_pos hw)
        rw [if_neg fun hand => hw hand.2] at hbody
        obtain rfl := Except.ok.inj hbody
        exact ⟨fun _ => rfl, fun hne => absurd rfl hne⟩
    · rw [if_neg fun hand => hstream.1 hs hand.1] at hbody
      obtain rfl := Except.ok.inj hbody
      refine ⟨fun hnil => absurd (List.append_eq_nil_iff.mp hnil).1 hs, fun _ => ?_⟩
      exact fromMagic_append (h.found hs) wireBody
  have hr : Pull.stream { s with blocks := s.blocks ++ [wireBody] } = s.stream ++ body := by
    by_cases hnil : s.stream ++ body = []
    · rw [Pull.stream, hnew.1 hnil, hnil]
      rfl
    · rw [Pull.stream, hnew.2 hnil]
      rfl
  refine ⟨⟨h.store, ?_, fun hnil => ?_, fun hne => ?_, h.ordered, h.within, Nat.zero_le _, ?_,
    h.whole, h.coherent, fun hrec => ?_⟩, fun hzero => ?_⟩
  · rw [hr, List.length_append, h.transferred]
    rfl
  · rw [hr] at hnil
    have hs := (List.append_eq_nil_iff.mp hnil).1
    exact ⟨hnew.1 hnil, (h.fresh hs).2⟩
  · rw [hr] at hne ⊢
    exact hnew.2 hne
  · have hoff : (if s.reconciledFrom = 0 then 0 else logDclgHeaderLen) ≤ s.stream.length := by
      split
      · exact Nat.zero_le _
      · next hrec => exact h.header_le hrec
    have hold := h.replayed
    rw [Pull.replayed, List.drop_zero] at hold
    rw [Pull.replayed, hr, List.drop_append_of_le_length hoff, hold, List.drop_zero]
    simp only [List.append_assoc, List.append_nil]
  · obtain ⟨anchor, hanchor, honce⟩ := h.once hrec
    refine ⟨anchor, hanchor.trans ?_, honce⟩
    rw [hr]
    exact (List.prefix_append _ _).drop _
  · have hnil : s.stream = [] := by
      by_contra hne
      exact hstream.1 hne hzero
    have hold := h.replayed
    rw [Pull.replayed, hnil, List.drop_nil] at hold
    have happended := (List.append_eq_nil_iff.mp hold.symm).2
    exact ⟨by rw [hr, hnil, List.nil_append], (List.append_eq_nil_iff.mp happended).1⟩

/-- The first block has said where the overlap starts. -/
theorem PullInv.reconciled (h : PullInv saved s appended body 0)
    (hfirst : s.transferred = 0 → s.stream = body ∧ appended = [])
    (hcfg : cfg.resumeBytes = saved.length) (hr : s.reconcile cfg turn body = .ok (offset, r)) :
    PullInv saved r appended body offset := by
  unfold Pull.reconcile at hr
  split at hr
  · next hzero =>
    split at hr
    · cases hr
    next replay hreplay =>
    obtain ⟨rfl, rfl⟩ := Prod.mk.inj (Except.ok.inj hr)
    obtain ⟨hstream, rfl⟩ := hfirst hzero.1
    rw [h.store, List.append_nil, hcfg] at hreplay
    have hstarts := prepareStoredReplay_starts hreplay
    refine ⟨h.store, h.transferred, fun hnil => ?_, h.found, Nat.le_of_eq hstarts.stored.symm,
      ?_, hstarts.long, ?_, fun hne => absurd rfl hne, h.coherent, fun hrec => ?_⟩
    · have hbody : body = [] := hstream.symm.trans hnil
      have hrec : replay.reconciledFrom = 0 := by
        by_contra hrec
        obtain ⟨anchor, hanchor, honce⟩ := hstarts.once hrec
        rw [hbody, List.drop_nil, List.prefix_nil] at hanchor
        exact absurd (hanchor ▸ honce.enough) (by decide)
      exact ⟨(h.fresh hnil).1, hstarts.stored.trans hrec, hrec⟩
    · exact Nat.le_trans (Nat.le_of_eq hstarts.stored) hstarts.fits
    · show List.drop _ s.stream = _
      rw [hstream, hstarts.stored, Nat.sub_self, List.take_zero, hstarts.offset]
      rfl
    · obtain ⟨anchor, hanchor, honce⟩ := hstarts.once hrec
      exact ⟨anchor, hstream.symm ▸ hanchor, honce⟩
  · obtain ⟨rfl, rfl⟩ := Prod.mk.inj (Except.ok.inj hr)
    exact h

theorem PullInv.compared (h : PullInv saved s appended body offset)
    (hcfg : cfg.resumeBytes = saved.length) {offset' : ℕ}
    (hr : s.compare cfg turn body offset = .ok (offset', r)) :
    PullInv saved r appended body offset' ∧
      (offset' < body.length → r.replayStoredOffset = saved.length) := by
  unfold Pull.compare at hr
  split at hr
  · next hlt =>
    dsimp only at hr
    split at hr
    · cases hr
    next verifier hverify =>
    obtain ⟨rfl, rfl⟩ := Prod.mk.inj (Except.ok.inj hr)
    rw [hcfg] at hverify hlt ⊢
    have hnil : appended = [] := by
      by_contra hne
      exact absurd (h.whole hne) (Nat.ne_of_lt hlt)
    subst hnil
    rw [h.store, List.append_nil] at hverify
    obtain ⟨hcoherent, hpre⟩ := StorePrefixVerifier.verify_ok h.coherent hverify
    generalize hn : min (body.length - offset) (saved.length - s.replayStoredOffset) = n
      at hpre ⊢
    have hleft := h.left
    have hlen : ((body.drop offset).take n).length = n := by
      rw [List.length_take, List.length_drop]
      omega
    have hequal : (body.drop offset).take n = (saved.drop s.replayStoredOffset).take n := by
      have heq := List.prefix_iff_eq_take.mp hpre
      rwa [hlen] at heq
    refine ⟨⟨h.store, h.transferred, fun (hstream : s.stream = []) => ?_, h.found, ?_, ?_, ?_, ?_,
      fun hne => absurd rfl hne, hcoherent, h.once⟩, fun hlt' => ?_⟩
    · obtain ⟨hblocks, hreplay, hrec⟩ := h.fresh hstream
      have hbody := h.transferred
      rw [hstream, List.length_nil] at hbody
      refine ⟨hblocks, ?_, hrec⟩
      dsimp only
      omega
    · exact Nat.le_trans h.ordered (Nat.le_add_right _ _)
    · dsimp only
      omega
    · omega
    · show s.replayed = _
      have hsplit : body.drop offset =
          (saved.drop s.replayStoredOffset).take n ++ body.drop (offset + n) := by
        rw [← hequal, ← List.drop_drop, List.take_append_drop]
      have hordered := h.ordered
      have hdrop : saved.drop s.replayStoredOffset =
          (saved.drop s.reconciledFrom).drop (s.replayStoredOffset - s.reconciledFrom) := by
        rw [List.drop_drop, Nat.add_sub_cancel' hordered]
      have hsum : s.replayStoredOffset + n - s.reconciledFrom =
          s.replayStoredOffset - s.reconciledFrom + n := by
        omega
      rw [h.replayed, hsplit, hdrop, hsum, List.take_add, List.nil_append, List.nil_append,
        List.append_assoc]
    · dsimp only
      omega
  · next hge =>
    obtain ⟨rfl, rfl⟩ := Prod.mk.inj (Except.ok.inj hr)
    rw [hcfg] at hge
    exact ⟨h, fun _ => Nat.le_antisymm h.within (Nat.le_of_not_lt hge)⟩

theorem PullInv.extended (h : PullInv saved s appended body offset)
    (hfull : offset < body.length → s.replayStoredOffset = saved.length)
    (hstatus : s.status = .pulling) :
    Spliced saved (s.extend cfg turn body offset) ∧
      ((s.extend cfg turn body offset).status = .pulling →
        ∃ appended, PullInv saved (s.extend cfg turn body offset) appended body body.length) := by
  unfold Pull.extend
  split
  · next hlt =>
    have hnext : ∀ store saved', store = s.store ++ body.drop offset →
        PullInv saved { s with store, saved := saved' } (appended ++ body.drop offset) body
          body.length := by
      rintro store saved' rfl
      refine ⟨?_, h.transferred, h.fresh, h.found, h.ordered, h.within, Nat.le_refl _, ?_,
        fun _ => hfull hlt, h.coherent, h.once⟩
      · rw [h.store, List.append_assoc]
      · rw [List.drop_length, List.append_nil]
        exact h.replayed
    dsimp only
    split
    · exact ⟨h.failed _, nofun⟩
    · split
      · refine ⟨?_, fun _ => ⟨_, hnext _ _ rfl⟩⟩
        exact (hnext _ _ rfl).spliced s.status (by rw [hstatus]; exact nofun)
      · next kept _ =>
        refine ⟨?_, nofun⟩
        cases kept with
        | true => exact (hnext _ s.saved rfl).failed .storeFailed
        | false => exact h.failed .storeFailed
  · next hge =>
    have hoffset : offset = body.length := Nat.le_antisymm h.left (Nat.le_of_not_lt hge)
    subst hoffset
    exact ⟨h.spliced s.status (by rw [hstatus]; exact nofun), fun _ => ⟨_, h⟩⟩

theorem PullInv.closed (h : PullInv saved s appended body body.length)
    (hcfg : cfg.resumeBytes = saved.length) (hstatus : s.status = .pulling)
    {wireBody : List UInt8} :
    Spliced saved (s.close cfg wireBody body) ∧
      ((s.close cfg wireBody body).status = .pulling →
        ∃ appended, PullInv saved (s.close cfg wireBody body) appended [] 0) := by
  have hrest : body.drop body.length = [] := List.drop_length
  have hnext : ∀ seq, PullInv saved { s with transferred := s.transferred + body.length, seq }
      appended [] 0 := fun seq =>
    ⟨h.store, h.transferred, h.fresh, h.found, h.ordered, h.within, Nat.le_refl _,
      by rw [List.drop_zero, ← hrest]; exact h.replayed, h.whole, h.coherent, h.once⟩
  unfold Pull.close
  rw [if_pos hstatus]
  dsimp only
  split
  · split
    · exact ⟨(hnext _).failed _, nofun⟩
    · next hge =>
      refine ⟨(hnext _).spliced .complete fun _ => ⟨?_, rfl⟩, nofun⟩
      rw [hcfg] at hge
      exact Nat.le_antisymm h.within (Nat.le_of_not_lt hge)
  · exact ⟨(hnext _).spliced s.status (by rw [hstatus]; exact nofun), fun _ => ⟨_, hnext _⟩⟩

/-! ## Runs -/

/-- Before a turn. -/
def Resuming (saved : List UInt8) (s : Pull) : Prop :=
  s.status = .pulling → ∃ appended, PullInv saved s appended [] 0

theorem reconcile_status (hr : s.reconcile cfg turn body = .ok (offset, r)) :
    r.status = s.status := by
  unfold Pull.reconcile at hr
  split at hr
  · split at hr
    · cases hr
    · obtain ⟨-, rfl⟩ := Prod.mk.inj (Except.ok.inj hr)
      rfl
  · obtain ⟨-, rfl⟩ := Prod.mk.inj (Except.ok.inj hr)
    rfl

theorem compare_status {offset' : ℕ} (hr : s.compare cfg turn body offset = .ok (offset', r)) :
    r.status = s.status := by
  unfold Pull.compare at hr
  split at hr
  · dsimp only at hr
    split at hr
    · cases hr
    · obtain ⟨-, rfl⟩ := Prod.mk.inj (Except.ok.inj hr)
      rfl
  · obtain ⟨-, rfl⟩ := Prod.mk.inj (Except.ok.inj hr)
    rfl

theorem take_spliced {appended : List UInt8} (h : PullInv saved s appended [] 0)
    (hstatus : s.status = .pulling) (hcfg : cfg.resumeBytes = saved.length)
    (wireBody : List UInt8) :
    Spliced saved (Pull.take cfg { s with blocks := s.blocks ++ [wireBody] } turn wireBody) ∧
      Resuming saved (Pull.take cfg { s with blocks := s.blocks ++ [wireBody] } turn wireBody) := by
  unfold Pull.take
  split
  · next e hbody =>
    -- only a first block is refused, and nothing has been appended before it
    have hzero : s.transferred = 0 := by
      by_contra hne
      rw [if_neg fun hand => hne hand.1] at hbody
      cases hbody
    have hnil : s.stream = [] := List.length_eq_zero_iff.mp (h.transferred.trans hzero)
    have hrec := (h.fresh hnil).2.2
    have happended : appended = [] := by
      have hold := h.replayed
      rw [Pull.replayed, hnil, List.drop_nil] at hold
      exact (List.append_eq_nil_iff.mp (List.append_eq_nil_iff.mp hold.symm).2).1
    exact ⟨⟨⟨appended, h.store, fun hne => absurd happended hne, nofun⟩,
      fun hne => absurd hrec hne⟩, nofun⟩
  next body hbody =>
  obtain ⟨hreceived, hfirst⟩ := h.received hbody
  split
  · exact ⟨hreceived.failed _, nofun⟩
  next offset r hr =>
  have hreconciled := hreceived.reconciled hfirst hcfg hr
  have hrstatus : r.status = .pulling := (reconcile_status hr).trans hstatus
  split
  · exact ⟨hreconciled.failed _, nofun⟩
  next offset' c hc =>
  obtain ⟨hcompared, hfull⟩ := hreconciled.compared hcfg hc
  have hcstatus : c.status = .pulling := (compare_status hc).trans hrstatus
  obtain ⟨hspliced, hextended⟩ : Spliced saved (c.extend cfg turn body offset') ∧
      ((c.extend cfg turn body offset').status = .pulling →
        ∃ appended,
          PullInv saved (c.extend cfg turn body offset') appended body body.length) :=
    hcompared.extended hfull hcstatus
  by_cases hpull : (c.extend cfg turn body offset').status = .pulling
  · obtain ⟨appended, hinv⟩ := hextended hpull
    exact hinv.closed hcfg hpull
  · have hclose : (c.extend cfg turn body offset').close cfg wireBody body =
        c.extend cfg turn body offset' := if_neg hpull
    rw [hclose]
    exact ⟨hspliced, fun hp => absurd hp hpull⟩

theorem pullStep_spliced (hcfg : cfg.resumeBytes = saved.length) (hi : Resuming saved s)
    (hstep : pullStep cfg s turn = some r) : Resuming saved r ∧ Spliced saved r := by
  unfold pullStep at hstep
  split at hstep
  · cases hstep
  next hstatus =>
  have hpulling : s.status = .pulling := of_not_not hstatus
  obtain ⟨appended, h⟩ := hi hpulling
  split at hstep
  · exact Option.some.inj hstep ▸ ⟨nofun, h.failed _⟩
  split at hstep
  · exact Option.some.inj hstep ▸ ⟨nofun, h.failed _⟩
  split at hstep
  · exact Option.some.inj hstep ▸ ⟨nofun, h.failed _⟩
  · next resp _ => exact Option.some.inj hstep ▸ (take_spliced h hpulling hcfg _).symm

end

/-- Whatever an attempt to resume a log meets, it does not splice. -/
theorem resume_spliced (saved : List UInt8) (cfg : PullConfig) (turns : List Turn) :
    Steps (pullStep { cfg with resumeBytes := saved.length }) (fun _ _ s => Spliced saved s)
      (.start saved) turns := by
  have hkeep : ∀ {s : Pull} {t : Turn} {r : Pull}, Resuming saved s → True →
      pullStep { cfg with resumeBytes := saved.length } s t = some r →
        Resuming saved r ∧ Spliced saved r := fun hi _ hstep => pullStep_spliced rfl hi hstep
  exact Steps.of_inv hkeep (fun _ => ⟨[], .start saved⟩) (Steps.of_mem fun _ _ => trivial)

end DiveCANHead.LogClient
