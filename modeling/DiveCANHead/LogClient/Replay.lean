import DiveCANHead.Lib.Loop
import Mathlib.Tactic.Common

/-!
# Replaying a saved log (`LogDownloader.js`)

A restarted download sends the log from its beginning. The first block says where in the saved part
it starts: at byte zero, or, where the ring has moved on, at the one place in the saved records
where the first of its own records stand. What follows is compared with the store in windows.
-/

namespace DiveCANHead.LogClient

open DiveCANHead.Lib

/-! ## The store -/

/-- What an attempt can fail with. -/
inductive PullError where
  | aborted
  | transport
  | storeFailed
  | blockLimit
  | byteLimit
  | noHeader (received : ℕ)
  | shorterThanRecorded (offset expected actual : ℕ)
  | differs (offset : ℕ) (expected actual : UInt8)
  | blockTooSmall (availableAnchorBytes : ℕ)
  | notSameStream (offset : ℕ)
  | ambiguous (firstOffset secondOffset anchorBytes : ℕ)
  | cannotReconcile (resumeBytes anchorBytes : ℕ)
  | endedEarly (expected actual reconciledFrom : ℕ)
  | endless
  deriving DecidableEq, Repr

/-- `store.read`, where `readable` says which reads succeed. -/
def readStore (store : List UInt8) (readable : ℕ → ℕ → Bool) (offset length : ℕ) :
    Except PullError (List UInt8) :=
  if readable offset length then .ok ((store.drop offset).take length) else .error .storeFailed

/-! ## `StorePrefixVerifier` -/

/-- `LOG_RESUME_VERIFY_WINDOW_BYTES`. -/
def windowBytes : ℕ := 64 * 1024

/-- `total` is a parameter of the functions; `windowStart` is -1 before the first window. -/
structure StorePrefixVerifier where
  windowStart : Option ℕ := none
  window : List UInt8 := []
  deriving DecidableEq, Repr

/-- The first of these bytes that is not the expected one, counted from `offset`. -/
def firstDifference (offset : ℕ) : List UInt8 → List UInt8 → Option PullError
  | byte :: bytes, saved :: window =>
    if byte = saved then firstDifference (offset + 1) bytes window
    else some (.differs offset saved byte)
  | _, _ => none

/-- The window that `absolute` is in. -/
def StorePrefixVerifier.load (v : StorePrefixVerifier) (store : List UInt8)
    (readable : ℕ → ℕ → Bool) (total absolute : ℕ) : Except PullError StorePrefixVerifier :=
  let windowStart := absolute / windowBytes * windowBytes
  if v.windowStart = some windowStart then .ok v
  else
    let length := min windowBytes (total - windowStart)
    match readStore store readable windowStart length with
    | .error e => .error e
    | .ok window =>
      if window.length = length then .ok ⟨some windowStart, window⟩
      else .error (.shorterThanRecorded absolute length window.length)

/-- `verify`: the bytes stand at `offset` in the store. -/
def StorePrefixVerifier.verify (store : List UInt8) (readable : ℕ → ℕ → Bool) (total : ℕ)
    (v : StorePrefixVerifier) (bytes : List UInt8) (offset : ℕ) :
    Except PullError StorePrefixVerifier :=
  if _hne : bytes = [] then .ok v
  else
    match v.load store readable total offset with
    | .error e => .error e
    | .ok v =>
      let saved := v.window.drop (offset - offset / windowBytes * windowBytes)
      let count := min bytes.length saved.length
      match firstDifference offset (bytes.take count) saved with
      | some e => .error e
      | none =>
        if _hcount : 0 < count then
          verify store readable total v (bytes.drop count) (offset + count)
        else .error .endless
termination_by bytes.length
decreasing_by
  rw [List.length_drop]
  exact Nat.sub_lt (List.length_pos_iff.mpr _hne) _hcount

/-! ## The start of the overlap -/

/-- `LOG_DOWNLOAD_MAGIC` in little endian. -/
def logDownloadMagic : List UInt8 := [0x44, 0x4C, 0x43, 0x47]

/-- `LOG_DCLG_HEADER_LEN`. -/
def logDclgHeaderLen : ℕ := 16

/-- `LOG_RESUME_ANCHOR_BYTES`. -/
def logResumeAnchorBytes : ℕ := 128

/-- `LOG_RESUME_MIN_ANCHOR_BYTES`. -/
def logResumeMinAnchorBytes : ℕ := 32

/-- The rest of the body from the first magic on. -/
def fromMagic : List UInt8 → Option (List UInt8)
  | [] => none
  | byte :: body =>
    if logDownloadMagic <+: byte :: body then some (byte :: body) else fromMagic body

/-- `_firstStoredBody`. -/
def firstStoredBody (body : List UInt8) : Except PullError (List UInt8) :=
  match fromMagic body with
  | some stored => .ok stored
  | none => .error (.noHeader body.length)

/-- One place where the anchor may stand. -/
def anchorAt (haystack needle : List UInt8) (offset i : ℕ) (found : Option ℕ) :
    Except PullError (Option ℕ) :=
  if needle <+: haystack.drop i then
    match found with
    | some first => .error (.ambiguous first (offset + i) needle.length)
    | none => .ok (some (offset + i))
  else .ok found

/-- One window of `_findStoredAnchor`; the places that are its own, where the needle fits. -/
def anchorInWindow (store : List UInt8) (readable : ℕ → ℕ → Bool) (total : ℕ)
    (needle : List UInt8) (k : ℕ) (found : Option ℕ) : Except PullError (Option ℕ) :=
  let offset := logDclgHeaderLen + k * windowBytes
  let scanEnd := min total (offset + windowBytes + needle.length - 1)
  match readStore store readable offset (scanEnd - offset) with
  | .error e => .error e
  | .ok haystack =>
    let ownedEnd := min (total - needle.length + 1) (offset + windowBytes)
    loop (anchorAt haystack needle offset)
      (min (ownedEnd - offset) (haystack.length + 1 - needle.length)) found

/-- The needle fits into what a window reads at the places that the window owns. -/
theorem fits_window (offset width : ℕ) {total n : ℕ} (hpos : 0 < n) (hfit : n ≤ total) :
    min total (offset + width + n - 1) - offset + 1 - n =
      min (total - n + 1) (offset + width) - offset := by
  obtain ⟨k, rfl⟩ := Nat.exists_eq_add_one.mpr hpos
  obtain ⟨rest, rfl⟩ := Nat.exists_eq_add_of_le hfit
  have htotal : k + 1 + rest = rest + 1 + k := by omega
  have hread : offset + width + (k + 1) - 1 = offset + width + k := rfl
  rw [Nat.add_sub_cancel_left, hread, htotal, Nat.add_min_add_right, Nat.add_sub_add_right,
    Nat.sub_right_comm, Nat.add_sub_cancel]

/-- `_findStoredAnchor`. -/
def findStoredAnchor (store : List UInt8) (readable : ℕ → ℕ → Bool) (total : ℕ)
    (needle : List UInt8) : Except PullError (Option ℕ) :=
  if total < logDclgHeaderLen + needle.length then .ok none
  else
    loop (anchorInWindow store readable total needle)
      ((total - needle.length - logDclgHeaderLen) / windowBytes + 1) none

/-- Where the replay starts: in the body, and in the store; both are zero for the same log. -/
structure Replay where
  bodyOffset : ℕ
  storedOffset : ℕ
  reconciledFrom : ℕ
  deriving DecidableEq, Repr

/-- The start of the overlap in a log that is not the saved one from its first byte. -/
def anchoredReplay (store : List UInt8) (readable : ℕ → ℕ → Bool) (resumeBytes : ℕ)
    (firstBody : List UInt8) : Except PullError Replay :=
  let anchorLength := min logResumeAnchorBytes (firstBody.length - logDclgHeaderLen)
  if anchorLength < logResumeMinAnchorBytes then .error (.blockTooSmall anchorLength)
  else
    match readStore store readable 0 8 with
    | .error e => .error e
    | .ok savedHeader =>
      if savedHeader ≠ firstBody.take 8 then .error (.notSameStream
        (((List.range 8).find? fun i => savedHeader[i]? ≠ firstBody[i]?).getD 0))
      else
        let anchor := (firstBody.drop logDclgHeaderLen).take anchorLength
        match findStoredAnchor store readable resumeBytes anchor with
        | .error e => .error e
        | .ok none => .error (.cannotReconcile resumeBytes anchorLength)
        | .ok (some storedOffset) => .ok ⟨logDclgHeaderLen, storedOffset, storedOffset⟩

/-- `_prepareStoredReplay`. -/
def prepareStoredReplay (store : List UInt8) (readable : ℕ → ℕ → Bool) (resumeBytes : ℕ)
    (firstBody : List UInt8) : Except PullError Replay :=
  let exactLength := min resumeBytes firstBody.length
  match readStore store readable 0 exactLength with
  | .error e => .error e
  | .ok savedStart =>
    if savedStart = firstBody.take exactLength then .ok ⟨0, 0, 0⟩
    else anchoredReplay store readable resumeBytes firstBody

end DiveCANHead.LogClient
