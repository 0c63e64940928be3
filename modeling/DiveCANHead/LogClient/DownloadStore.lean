import DiveCANHead.Lib.Bytes
import DiveCANHead.Lib.Runs

/-!
# Storage of a long log download

A download keeps what it has received in a file of the browser's private file system: each attempt
opens a writable on the file, appends to it and closes it. The memory store has the same methods.
A file operation that may fail is given by a flag, true when it works.
-/

namespace DiveCANHead.LogClient

open Lib

def OPFS_WRITE_BUFFER_BYTES : ℕ := 64 * 1024

/-- `MemoryLogDownloadStore`: the bytes, and the `bytes` entry of the metadata. -/
structure MemoryStore where
  bytes : List UInt8 := []
  metaBytes : ℕ := 0
  deriving DecidableEq, Repr

namespace MemoryStore

def beginAttempt (m : MemoryStore) : MemoryStore := m

def append (m : MemoryStore) (value : List UInt8) : MemoryStore :=
  let grown := List.replicate (m.bytes.length + value.length) 0
  let grown := overlay grown 0 m.bytes
  let grown := overlay grown m.bytes.length value
  { bytes := grown, metaBytes := grown.length }

def size (m : MemoryStore) : ℕ := m.bytes.length

def finishAttempt (m : MemoryStore) : MemoryStore := { m with metaBytes := m.bytes.length }

theorem append_bytes (m : MemoryStore) (value : List UInt8) :
    (m.append value).bytes = m.bytes ++ value := by
  have hcopy : overlay (List.replicate (m.bytes.length + value.length) 0) 0 m.bytes =
      m.bytes ++ List.replicate value.length 0 := by
    simp [overlay]
  rw [append, hcopy, overlay_append, List.drop_replicate, Nat.sub_self, List.replicate_zero,
    List.append_nil]

end MemoryStore

/-- A writable of the file system: its own copy of the file, and where the next write goes. -/
structure Writable where
  bytes : List UInt8
  position : ℕ
  deriving DecidableEq, Repr

/-- Writes at the position, past the end after zeros, and moves on. -/
def Writable.write (w : Writable) (data : List UInt8) : Writable where
  bytes := overlay (padTo w.position 0 w.bytes) w.position data
  position := w.position + data.length

inductive StoreError where
  | alreadyOpen
  | notOpen
  | file
  deriving DecidableEq, Repr

/-- `OPFSLogDownloadStore`, with the file behind its handle and the metadata's `bytes`. -/
structure OpfsStore where
  file : List UInt8
  writer : Option Writable := none
  currentSize : ℕ
  pendingChunks : List (List UInt8) := []
  pendingBytes : ℕ := 0
  metaBytes : ℕ := 0
  deriving DecidableEq, Repr

/-- What a method returned or threw, and the store it left. -/
abbrev Outcome (α : Type) : Type := Except StoreError α × OpfsStore

/-- The file operations of `beginAttempt`. -/
structure BeginOps where
  getFile : Bool := true
  createWritable : Bool := true
  seek : Bool := true
  deriving DecidableEq, Repr

/-- The file operations of `finishAttempt`; the metadata is written by one. -/
structure FinishOps where
  write : Bool := true
  close : Bool := true
  getFile : Bool := true
  setMetadata : Bool := true
  deriving DecidableEq, Repr

/-- The chunks copied one after the other into `output`. -/
def gather (output : List UInt8) (offset : ℕ) : List (List UInt8) → List UInt8
  | [] => output
  | chunk :: chunks => gather (overlay output offset chunk) (offset + chunk.length) chunks

namespace OpfsStore

/-- `_openHandles`, on a file that holds `file`. -/
def openHandles (file : List UInt8) : OpfsStore := { file, currentSize := file.length }

def beginAttempt (s : OpfsStore) (ops : BeginOps) : Outcome Unit :=
  if s.writer.isSome then (.error .alreadyOpen, s)
  else if ops.getFile then
    let s := { s with currentSize := s.file.length }
    if ops.createWritable then
      if ops.seek then
        (.ok (), { s with
          writer := some { bytes := s.file, position := s.currentSize }
          pendingChunks := []
          pendingBytes := 0 })
      else (.error .file, { s with writer := some { bytes := s.file, position := 0 } })
    else (.error .file, s)
  else (.error .file, s)

def flushPending (s : OpfsStore) (write : Bool) : Outcome Unit :=
  match s.writer with
  | none => (.ok (), s)
  | some w =>
    if s.pendingBytes = 0 then (.ok (), s)
    else
      let output := gather (List.replicate s.pendingBytes 0) 0 s.pendingChunks
      if write then
        (.ok (), { s with
          writer := some (w.write output)
          currentSize := s.currentSize + output.length
          pendingChunks := []
          pendingBytes := 0 })
      else (.error .file, s)

theorem flushPending_of_empty {s : OpfsStore} {write : Bool} (h : s.pendingBytes = 0) :
    s.flushPending write = (.ok (), s) := by
  unfold flushPending
  split
  · rfl
  · exact if_pos h

def append (s : OpfsStore) (value : List UInt8) (write : Bool) : Outcome Unit :=
  if s.writer.isSome then
    let s := { s with
      pendingChunks := s.pendingChunks ++ [value]
      pendingBytes := s.pendingBytes + value.length }
    if s.pendingBytes ≥ OPFS_WRITE_BUFFER_BYTES then s.flushPending write else (.ok (), s)
  else (.error .notOpen, s)

def size (s : OpfsStore) (getFile : Bool) : Except StoreError ℕ :=
  if s.writer.isSome then .ok (s.currentSize + s.pendingBytes)
  else if getFile then .ok s.file.length
  else .error .file

/-- The end of `finishAttempt`: the metadata with the size. -/
def recordSize (s : OpfsStore) (ops : FinishOps) : Outcome Unit :=
  match s.size ops.getFile with
  | .error e => (.error e, s)
  | .ok bytes =>
    if ops.setMetadata then (.ok (), { s with metaBytes := bytes }) else (.error .file, s)

def finishAttempt (s : OpfsStore) (ops : FinishOps) : Outcome Unit :=
  match s.writer with
  | none => s.recordSize ops
  | some _ =>
    match s.flushPending ops.write with
    | (.error e, s) => (.error e, s)
    | (.ok (), s) =>
      let writer := s.writer
      let s := { s with writer := none }
      if ops.close then { s with file := (writer.map Writable.bytes).getD s.file }.recordSize ops
      else (.error .file, s)

end OpfsStore

/-! ## What the store holds -/

theorem gather_append (done : List UInt8) (chunks : List (List UInt8)) :
    gather (done ++ List.replicate chunks.flatten.length 0) done.length chunks =
      done ++ chunks.flatten := by
  induction chunks generalizing done with
  | nil => simp [gather]
  | cons chunk chunks ih =>
    have hrest : overlay (done ++ List.replicate (chunk :: chunks).flatten.length 0) done.length
        chunk = (done ++ chunk) ++ List.replicate chunks.flatten.length 0 := by
      rw [overlay_append, List.drop_replicate, List.flatten_cons, List.length_append,
        Nat.add_sub_cancel_left]
    rw [gather, hrest, ← List.length_append, ih, List.flatten_cons, List.append_assoc]

theorem gather_replicate (chunks : List (List UInt8)) :
    gather (List.replicate chunks.flatten.length 0) 0 chunks = chunks.flatten :=
  gather_append [] chunks

/-- The writable is the file followed by what has been written of `attempt`, the bytes of the open
attempt; a writable that no attempt goes with is the file. -/
def InPlace (s : OpfsStore) : Option Writable → Option (List UInt8) → Prop
  | none, none => s.pendingChunks.flatten = []
  | none, some _ => False
  | some w, none => w.bytes = s.file ∧ s.pendingChunks.flatten = []
  | some w, some attempt =>
    w.bytes ++ s.pendingChunks.flatten = s.file ++ attempt ∧
      w.position = w.bytes.length ∧ s.currentSize = w.bytes.length

/-- The store holds its file and the bytes of `attempt`. -/
structure Holds (attempt : Option (List UInt8)) (s : OpfsStore) : Prop where
  pending : s.pendingBytes = s.pendingChunks.flatten.length
  place : InPlace s s.writer attempt

namespace Holds

variable {s : OpfsStore} {attempt : Option (List UInt8)}

theorem openHandles (file : List UInt8) : Holds none (OpfsStore.openHandles file) :=
  ⟨rfl, rfl⟩

/-- With no writer there is no attempt. -/
theorem attempt_eq_none (h : Holds attempt s) (hw : s.writer = none) : attempt = none := by
  cases attempt with
  | none => rfl
  | some b =>
    have hplace := h.place
    rw [hw] at hplace
    exact hplace.elim

/-- An open attempt has a writer. -/
theorem writer_isSome {b : List UInt8} (h : Holds (some b) s) : s.writer.isSome := by
  cases hw : s.writer with
  | some w => rfl
  | none => simpa using h.attempt_eq_none hw

/-- An open attempt counts. -/
theorem size_eq {b : List UInt8} (h : Holds (some b) s) (getFile : Bool) :
    s.size getFile = .ok (s.file ++ b).length := by
  obtain ⟨w, hw⟩ := Option.isSome_iff_exists.mp h.writer_isSome
  have hplace := h.place
  rw [hw] at hplace
  obtain ⟨hbytes, -, hsize⟩ := hplace
  rw [OpfsStore.size, if_pos h.writer_isSome, hsize, h.pending, ← List.length_append, hbytes]

theorem beginAttempt (h : Holds attempt s) (ops : BeginOps) :
    (s.beginAttempt ops).2.file = s.file ∧
      ((s.beginAttempt ops).1 = .ok () → Holds (some []) (s.beginAttempt ops).2) ∧
      ((s.beginAttempt ops).1 ≠ .ok () → Holds attempt (s.beginAttempt ops).2) := by
  cases hw : s.writer with
  | some w => simp [OpfsStore.beginAttempt, hw, h]
  | none =>
    obtain rfl := h.attempt_eq_none hw
    have hplace : s.pendingChunks.flatten = [] := by simpa only [hw, InPlace] using h.place
    cases hf : ops.getFile with
    | false => simpa [OpfsStore.beginAttempt, hw, hf] using h
    | true =>
      cases hc : ops.createWritable with
      | false =>
        have hsame : Holds none { s with currentSize := s.file.length } :=
          ⟨h.pending, by simpa only [hw, InPlace] using hplace⟩
        simpa [OpfsStore.beginAttempt, hw, hf, hc] using hsame
      | true =>
        cases hs : ops.seek with
        | false =>
          -- The writer stays, at the front of its copy of the file.
          have hleft : Holds none { s with
              currentSize := s.file.length
              writer := some { bytes := s.file, position := 0 } } :=
            ⟨h.pending, rfl, hplace⟩
          simpa [OpfsStore.beginAttempt, hw, hf, hc, hs] using hleft
        | true =>
          have hopen : Holds (some []) { s with
              currentSize := s.file.length
              writer := some { bytes := s.file, position := s.file.length }
              pendingChunks := []
              pendingBytes := 0 } :=
            ⟨rfl, rfl, rfl, rfl⟩
          simpa [OpfsStore.beginAttempt, hw, hf, hc, hs] using hopen

/-- What is pending belongs to an attempt. -/
theorem exists_attempt (h : Holds attempt s) (hp : s.pendingBytes ≠ 0) :
    ∃ b, attempt = some b ∧ s.writer.isSome := by
  cases attempt with
  | some b => exact ⟨b, rfl, h.writer_isSome⟩
  | none =>
    have hnil : s.pendingChunks.flatten = [] := by
      have hplace := h.place
      cases hw : s.writer with
      | none => simpa only [hw, InPlace] using hplace
      | some w =>
        rw [hw] at hplace
        exact hplace.2
    exact absurd (by rw [h.pending, hnil]; rfl) hp

/-- A flush keeps what the store holds; one that returns leaves nothing pending. -/
theorem flushPending (h : Holds attempt s) (write : Bool) :
    (s.flushPending write).2.file = s.file ∧ Holds attempt (s.flushPending write).2 ∧
      (s.flushPending write).2.writer.isSome = s.writer.isSome ∧
      ((s.flushPending write).1 = .ok () →
        (s.flushPending write).2.pendingChunks.flatten = []) ∧
      (write → (s.flushPending write).1 = .ok ()) := by
  by_cases hzero : s.pendingBytes = 0
  · have hnil : s.pendingChunks.flatten = [] := List.length_eq_zero_iff.mp (h.pending ▸ hzero)
    rw [OpfsStore.flushPending_of_empty hzero]
    exact ⟨rfl, h, rfl, fun _ => hnil, fun _ => rfl⟩
  · obtain ⟨b, rfl, hsome⟩ := h.exists_attempt hzero
    obtain ⟨w, hw⟩ := Option.isSome_iff_exists.mp hsome
    have hplace := h.place
    rw [hw] at hplace
    obtain ⟨hbytes, hpos, hsize⟩ := hplace
    cases write with
    | false => simp [OpfsStore.flushPending, hw, hzero, h]
    | true =>
      have hwrite : w.write s.pendingChunks.flatten =
          { bytes := s.file ++ b, position := (s.file ++ b).length } := by
        rw [Writable.write, hpos, padTo_of_length_eq rfl, overlay_length, ← List.length_append,
          hbytes]
      have hflushed : Holds (some b) { s with
          writer := some (w.write s.pendingChunks.flatten)
          currentSize := s.currentSize + s.pendingChunks.flatten.length
          pendingChunks := []
          pendingBytes := 0 } := by
        refine ⟨rfl, ?_⟩
        rw [hwrite]
        refine ⟨List.append_nil _, rfl, ?_⟩
        rw [hsize, ← List.length_append, hbytes]
      have heq : s.flushPending true = (.ok (), { s with
          writer := some (w.write s.pendingChunks.flatten)
          currentSize := s.currentSize + s.pendingChunks.flatten.length
          pendingChunks := []
          pendingBytes := 0 }) := by
        simp only [OpfsStore.flushPending, hw, if_neg hzero, if_true]
        rw [h.pending, gather_replicate]
      rw [heq]
      exact ⟨rfl, hflushed, by simp [hw], fun _ => rfl, fun _ => rfl⟩

theorem append {b : List UInt8} (h : Holds (some b) s) (value : List UInt8) (write : Bool) :
    (s.append value write).2.file = s.file ∧
      Holds (some (b ++ value)) (s.append value write).2 := by
  obtain ⟨w, hw⟩ := Option.isSome_iff_exists.mp h.writer_isSome
  have hplace := h.place
  rw [hw] at hplace
  obtain ⟨hbytes, hpos, hsize⟩ := hplace
  have hgrown : Holds (some (b ++ value)) { s with
      pendingChunks := s.pendingChunks ++ [value]
      pendingBytes := s.pendingBytes + value.length } := by
    refine ⟨by simp [h.pending], ?_⟩
    simp only [hw]
    refine ⟨?_, hpos, hsize⟩
    rw [List.flatten_append, List.flatten_singleton, ← List.append_assoc, hbytes,
      List.append_assoc]
  rw [OpfsStore.append, if_pos h.writer_isSome]
  dsimp only
  split
  · exact ⟨(hgrown.flushPending write).1, (hgrown.flushPending write).2.1⟩
  · exact ⟨rfl, hgrown⟩

/-- Writing the metadata changes nothing else. -/
theorem recordSize (h : Holds attempt s) (ops : FinishOps) :
    (s.recordSize ops).2.file = s.file ∧ (s.recordSize ops).2.writer = s.writer ∧
      Holds attempt (s.recordSize ops).2 := by
  unfold OpfsStore.recordSize
  split
  · exact ⟨rfl, rfl, h⟩
  · split
    · exact ⟨rfl, rfl, h.pending, h.place⟩
    · exact ⟨rfl, rfl, h⟩

/-- `finishAttempt` closes the writer, unless the write of what is pending fails; the file has the
attempt's bytes where the close works. -/
theorem finishAttempt (h : Holds attempt s) (ops : FinishOps) :
    ((s.finishAttempt ops).2.writer = none ∧ Holds none (s.finishAttempt ops).2 ∧
        (s.finishAttempt ops).2.file =
          if ops.close then s.file ++ attempt.getD [] else s.file) ∨
      ((s.finishAttempt ops).2.writer.isSome ∧ ops.write = false ∧
        Holds attempt (s.finishAttempt ops).2 ∧ (s.finishAttempt ops).2.file = s.file) := by
  cases hw : s.writer with
  | none =>
    obtain rfl := h.attempt_eq_none hw
    obtain ⟨hfile, hwriter, hsame⟩ := h.recordSize ops
    simp only [OpfsStore.finishAttempt, hw, hwriter, hfile]
    exact .inl ⟨trivial, hsame, by simp⟩
  | some w =>
    obtain ⟨hfile, hsame, hsome, hempty, hok⟩ := h.flushPending ops.write
    generalize hr : s.flushPending ops.write = r at *
    obtain ⟨result, t⟩ := r
    cases result with
    | error e =>
      have hwrite : ops.write = false := by
        cases hwr : ops.write with
        | false => rfl
        | true => simpa using hok hwr
      simp only [OpfsStore.finishAttempt, hw, hr]
      exact .inr ⟨by rw [hsome, hw]; rfl, hwrite, hsame, hfile⟩
    | ok =>
      have hnil : t.pendingChunks.flatten = [] := hempty rfl
      obtain ⟨v, hv⟩ := Option.isSome_iff_exists.mp (hsome.trans (by rw [hw]; rfl))
      have hv : t.writer = some v := hv
      have hbytes : v.bytes = s.file ++ attempt.getD [] := by
        have hplace := hsame.place
        rw [hv] at hplace
        cases attempt with
        | none => simpa [← hfile] using hplace.1
        | some b =>
          rw [← hfile]
          simpa [hnil] using hplace.1
      have hclosed (file : List UInt8) : Holds none { t with writer := none, file } :=
        ⟨hsame.pending, hnil⟩
      simp only [OpfsStore.finishAttempt, hw, hr, hv, Option.map_some, Option.getD_some]
      split
      · obtain ⟨hfile', hwriter, hkept⟩ := (hclosed v.bytes).recordSize ops
        exact .inl ⟨hwriter, hkept, hfile'.trans hbytes⟩
      · exact .inl ⟨rfl, hclosed t.file, hfile⟩

/-- When every file operation works, so does `finishAttempt`. -/
theorem finishAttempt_ok (h : Holds attempt s) : (s.finishAttempt {}).1 = .ok () := by
  have hrecord (t : OpfsStore) : (t.recordSize {}).1 = .ok () := by
    cases ht : t.writer <;> simp [OpfsStore.recordSize, OpfsStore.size, ht]
  have hok := (h.flushPending true).2.2.2.2 rfl
  unfold OpfsStore.finishAttempt
  split
  · exact hrecord s
  · generalize s.flushPending true = r at *
    obtain ⟨result, t⟩ := r
    obtain rfl : result = .ok () := hok
    simp [hrecord]

end Holds

theorem OpfsStore.beginAttempt_ok {s : OpfsStore} (hw : s.writer = none) :
    (s.beginAttempt {}).1 = .ok () := by
  simp [beginAttempt, hw]

theorem OpfsStore.recordSize_metaBytes {s : OpfsStore} {ops : FinishOps} (hw : s.writer = none)
    (hok : (s.recordSize ops).1 = .ok ()) :
    (s.recordSize ops).2.metaBytes = (s.recordSize ops).2.file.length := by
  cases hg : ops.getFile <;> cases hm : ops.setMetadata <;>
    simp_all [recordSize, size]

/-- A `finishAttempt` that returns has recorded the size of the file. -/
theorem OpfsStore.finishAttempt_metaBytes {s : OpfsStore} {ops : FinishOps}
    (hok : (s.finishAttempt ops).1 = .ok ()) :
    (s.finishAttempt ops).2.metaBytes = (s.finishAttempt ops).2.file.length := by
  unfold finishAttempt at hok ⊢
  split at hok
  · next hw => exact recordSize_metaBytes hw hok
  · generalize s.flushPending ops.write = r at *
    obtain ⟨_ | _, t⟩ := r
    · cases hok
    · cases hc : ops.close
      · simp [hc] at hok
      · simp only [hc, if_true] at hok ⊢
        exact recordSize_metaBytes rfl hok

/-! ## Runs of calls -/

inductive StoreCall where
  | beginAttempt (ops : BeginOps)
  | append (value : List UInt8) (write : Bool)
  | size (getFile : Bool)
  | finishAttempt (ops : FinishOps)
  deriving DecidableEq, Repr

/-- No file operation of the call fails. -/
def StoreCall.Works : StoreCall → Prop
  | .beginAttempt ops => ops = {}
  | .append _ write => write
  | .size getFile => getFile
  | .finishAttempt ops => ops = {}

/-- The bytes a call hands over. -/
def StoreCall.value : StoreCall → List UInt8
  | .append value _ => value
  | _ => []

/-- The two stores under the same calls; with them the bytes appended in the attempt that is open,
and those of the attempts whose writer has been closed. -/
structure Session where
  store : OpfsStore
  memory : MemoryStore
  attempt : Option (List UInt8) := none
  finished : List (List UInt8) := []
  deriving DecidableEq, Repr

namespace Session

/-- Two stores that hold the same bytes, none at first in a new store. -/
def start (file : List UInt8) : Session where
  store := .openHandles file
  memory := { bytes := file }

def call (s : Session) : StoreCall → Session
  | .beginAttempt ops =>
    let (result, store) := s.store.beginAttempt ops
    { s with
      store
      memory := s.memory.beginAttempt
      attempt := match result with
        | .ok () => some []
        | .error _ => s.attempt }
  | .append value write =>
    { s with
      store := (s.store.append value write).2
      memory := s.memory.append value
      attempt := s.attempt.map (· ++ value) }
  | .size _ => s
  | .finishAttempt ops =>
    let store := (s.store.finishAttempt ops).2
    { store
      memory := s.memory.finishAttempt
      attempt := if store.writer.isSome then s.attempt else none
      finished :=
        if store.writer.isNone ∧ ops.close then s.finished ++ s.attempt.toList else s.finished }

def step (s : Session) (c : StoreCall) : Option Session := some (s.call c)

/-- `append` is called only while an attempt is open. -/
def InAttempt (s : Session) : StoreCall → Prop
  | .append _ _ => s.attempt.isSome
  | _ => True

instance (s c) : Decidable (InAttempt s c) := by
  cases c <;> unfold InAttempt <;> infer_instance

/-- The stores have the same size, and after `finishAttempt` the same bytes. -/
def Mirrors (_ : Session) (c : StoreCall) (t : Session) : Prop :=
  t.store.size true = .ok t.memory.size ∧
    ∀ ops, c = .finishAttempt ops → t.store.file = t.memory.bytes

instance (s c t) : Decidable (Mirrors s c t) :=
  match c with
  | .finishAttempt ops =>
    decidable_of_iff (t.store.size true = .ok t.memory.size ∧ t.store.file = t.memory.bytes)
      ⟨fun h => ⟨h.1, fun _ _ => h.2⟩, fun h => ⟨h.1, h.2 ops rfl⟩⟩
  | .beginAttempt _ | .append _ _ | .size _ =>
    decidable_of_iff (t.store.size true = .ok t.memory.size)
      ⟨fun h => ⟨h, fun _ hc => by cases hc⟩, fun h => h.1⟩

/-- The file is what it was followed by the finished attempts. -/
structure Inv (file : List UInt8) (s : Session) : Prop where
  holds : Holds s.attempt s.store
  file_eq : s.store.file = file ++ s.finished.flatten

theorem inv_start (file : List UInt8) : Inv file (start file) :=
  ⟨Holds.openHandles file, (List.append_nil _).symm⟩

theorem inv_call {file : List UInt8} {s : Session} {c : StoreCall} (h : Inv file s)
    (hc : InAttempt s c) : Inv file (s.call c) := by
  cases c with
  | beginAttempt ops =>
    obtain ⟨hfile, hok, herr⟩ := h.holds.beginAttempt ops
    refine ⟨?_, hfile.trans h.file_eq⟩
    simp only [call]
    generalize s.store.beginAttempt ops = r at *
    obtain ⟨_ | _, t⟩ := r
    · exact herr (by simp)
    · exact hok rfl
  | append value write =>
    obtain ⟨b, hb⟩ := Option.isSome_iff_exists.mp hc
    have hholds := h.holds
    rw [hb] at hholds
    obtain ⟨hfile, hsame⟩ := hholds.append value write
    exact ⟨by simpa only [call, hb, Option.map_some] using hsame, hfile.trans h.file_eq⟩
  | size getFile => exact h
  | finishAttempt ops =>
    obtain ⟨hw, hsame, hfile⟩ | ⟨hw, -, hsame, hfile⟩ := h.holds.finishAttempt ops
    · refine ⟨by simpa [call, hw] using hsame, ?_⟩
      simp only [call, hw, hfile]
      cases ops.close <;> cases s.attempt <;> simp [h.file_eq]
    · refine ⟨by simpa [call, hw] using hsame, ?_⟩
      have hnone : (s.store.finishAttempt ops).2.writer.isNone = false := by
        rw [← Option.not_isSome, hw]
        rfl
      simp only [call, hfile, hnone]
      simpa using h.file_eq

/-- While every file operation works, the memory store has what the store holds, and the writer
is open just during an attempt. -/
structure Twin (s : Session) : Prop where
  memory : s.memory.bytes = s.store.file ++ s.attempt.getD []
  writer : s.store.writer = none → s.attempt = none
  attempt : s.attempt = none → s.store.writer = none

theorem twin_call {file : List UInt8} {s : Session} {c : StoreCall} (h : Inv file s) (ht : Twin s)
    (hc : InAttempt s c) (hworks : c.Works) : Twin (s.call c) := by
  have hkept := (inv_call h hc).holds
  refine ⟨?_, fun hw => hkept.attempt_eq_none hw, ?_⟩
  · cases c with
    | beginAttempt ops =>
      obtain rfl : ops = {} := hworks
      cases hw : s.store.writer with
      | none => simpa [call, OpfsStore.beginAttempt, MemoryStore.beginAttempt, hw, ht.writer hw]
          using ht.memory
      | some w => simpa [call, OpfsStore.beginAttempt, MemoryStore.beginAttempt, hw] using ht.memory
    | append value write =>
      obtain ⟨b, hb⟩ := Option.isSome_iff_exists.mp hc
      have hfile := ((hb ▸ h.holds : Holds (some b) s.store).append value write).1
      simp [call, hb, hfile, MemoryStore.append_bytes, ht.memory]
    | size getFile => exact ht.memory
    | finishAttempt ops =>
      obtain rfl : ops = {} := hworks
      obtain ⟨hw, -, hfile⟩ | ⟨-, hfalse, -⟩ := h.holds.finishAttempt {}
      · simpa [call, hw, hfile, MemoryStore.finishAttempt] using ht.memory
      · cases hfalse
  · intro hnone
    cases c with
    | beginAttempt ops =>
      obtain rfl : ops = {} := hworks
      cases hw : s.store.writer with
      | none => simp [call, OpfsStore.beginAttempt, hw] at hnone
      | some w =>
        have hattempt : s.attempt = none := by
          simpa [call, OpfsStore.beginAttempt, hw] using hnone
        simp [ht.attempt hattempt] at hw
    | append value write =>
      obtain ⟨b, hb⟩ := Option.isSome_iff_exists.mp hc
      simp [call, hb] at hnone
    | size getFile => exact ht.attempt hnone
    | finishAttempt ops =>
      obtain rfl : ops = {} := hworks
      obtain ⟨hw, -⟩ | ⟨-, hfalse, -⟩ := h.holds.finishAttempt {}
      · exact hw
      · cases hfalse

theorem Twin.size_eq {file : List UInt8} {s : Session} (h : Inv file s) (ht : Twin s) :
    s.store.size true = .ok s.memory.size := by
  cases hb : s.attempt with
  | none => simp [OpfsStore.size, ht.attempt hb, MemoryStore.size, ht.memory, hb]
  | some b =>
    rw [(hb ▸ h.holds : Holds (some b) s.store).size_eq, MemoryStore.size, ht.memory, hb]
    rfl

theorem Twin.mirrors {file : List UInt8} {s : Session} {c : StoreCall} (h : Inv file s)
    (ht : Twin s) (hc : InAttempt s c) (hworks : c.Works) : Mirrors s c (s.call c) := by
  have hnext := twin_call h ht hc hworks
  refine ⟨hnext.size_eq (inv_call h hc), ?_⟩
  rintro ops rfl
  obtain rfl : ops = {} := hworks
  obtain ⟨hw, -⟩ | ⟨-, hfalse, -⟩ := h.holds.finishAttempt {}
  · rw [hnext.memory, hnext.writer hw]
    exact (List.append_nil _).symm
  · cases hfalse

theorem steps_mirrors {file : List UInt8} {calls : List StoreCall}
    (h : Steps step (fun s c _ => InAttempt s c) (start file) calls)
    (hworks : ∀ c ∈ calls, c.Works) : Steps step Mirrors (start file) calls := by
  have hstep : ∀ {s : Session} {c t}, (Inv file s ∧ Twin s) → (InAttempt s c ∧ c.Works) →
      step s c = some t → (Inv file t ∧ Twin t) ∧ Mirrors s c t := by
    rintro s c t ⟨hi, ht⟩ ⟨hc, hw⟩ hs
    obtain rfl := Option.some.inj hs
    exact ⟨⟨inv_call hi hc, twin_call hi ht hc hw⟩, ht.mirrors hi hc hw⟩
  have hstart : Twin (start file) := ⟨(List.append_nil _).symm, fun _ => rfl, fun _ => rfl⟩
  exact Steps.of_inv hstep ⟨inv_start file, hstart⟩ (h.and (Steps.of_mem hworks))

/-- The calls of an attempt, up to its `finishAttempt`. -/
theorem exec_attempt {file : List UInt8} {more : List StoreCall}
    (hmore : ∀ c ∈ more, ∀ ops, c ≠ .finishAttempt ops) {s : Session} {b : List UInt8}
    (h : Inv file s) (hb : s.attempt = some b) :
    ∃ t, exec step s more = some t ∧ Inv file t ∧ t.finished = s.finished ∧
      t.attempt = some (b ++ more.flatMap StoreCall.value) := by
  induction more generalizing s b with
  | nil => exact ⟨s, rfl, h, rfl, by simpa using hb⟩
  | cons c more ih =>
    obtain ⟨w, hw⟩ := Option.isSome_iff_exists.mp (hb ▸ h.holds : Holds (some b) _).writer_isSome
    have hc : InAttempt s c := by cases c <;> simp [InAttempt, hb]
    have hcall : (s.call c).finished = s.finished ∧ (s.call c).attempt = some (b ++ c.value) := by
      cases c with
      | beginAttempt ops => simp [call, OpfsStore.beginAttempt, hw, hb, StoreCall.value]
      | append value write => simp [call, hb, StoreCall.value]
      | size getFile => simp [call, hb, StoreCall.value]
      | finishAttempt ops => exact absurd rfl (hmore _ List.mem_cons_self ops)
    obtain ⟨t, ht, hinv, hfin, hatt⟩ := ih (fun c' hc' => hmore c' (List.mem_cons_of_mem c hc'))
      (inv_call h hc) hcall.2
    refine ⟨t, ht, hinv, hfin.trans hcall.1, ?_⟩
    rw [hatt, List.flatMap_cons, List.append_assoc]

/-- A store with no writer takes the next attempt, whatever has failed before. -/
theorem recovers {file : List UInt8} {s : Session} (h : Inv file s) (hw : s.store.writer = none)
    {more : List StoreCall} (hmore : ∀ c ∈ more, ∀ ops, c ≠ .finishAttempt ops) :
    (s.store.beginAttempt {}).1 = .ok () ∧
      ∃ t, exec step s (.beginAttempt {} :: more) = some t ∧
        (t.store.finishAttempt {}).1 = .ok () ∧
        (t.store.finishAttempt {}).2.file =
          file ++ s.finished.flatten ++ more.flatMap StoreCall.value := by
  have hbegin : (s.call (.beginAttempt {})).attempt = some [] := by
    simp [call, OpfsStore.beginAttempt, hw]
  obtain ⟨t, ht, hinv, hfin, hatt⟩ :=
    exec_attempt hmore (inv_call (c := .beginAttempt {}) h trivial) hbegin
  refine ⟨OpfsStore.beginAttempt_ok hw, t, ht, hinv.holds.finishAttempt_ok, ?_⟩
  obtain ⟨-, -, hfile⟩ | ⟨-, hfalse, -⟩ := hinv.holds.finishAttempt {}
  · rw [hfile, hinv.file_eq, hatt, hfin]
    rfl
  · cases hfalse

/-- With `append` called in open attempts only: while every file operation works the stores mirror
each other; and whichever fail, a `finishAttempt` whose flush works leaves no writer, and a store
with no writer takes the next attempt, after which the file is what it was, the finished attempts
and the new one. -/
theorem store_mirrors_and_recovers (file : List UInt8) {calls : List StoreCall}
    (h : Steps step (fun s c _ => InAttempt s c) (start file) calls) :
    ((∀ c ∈ calls, c.Works) → Steps step Mirrors (start file) calls) ∧
      ∀ s, exec step (start file) calls = some s →
        (∀ ops, ops.write → (s.store.finishAttempt ops).2.writer = none) ∧
        (s.store.writer = none →
          ∀ more : List StoreCall, (∀ c ∈ more, ∀ ops, c ≠ .finishAttempt ops) →
            (s.store.beginAttempt {}).1 = .ok () ∧
              ∃ t, exec step s (.beginAttempt {} :: more) = some t ∧
                (t.store.finishAttempt {}).1 = .ok () ∧
                (t.store.finishAttempt {}).2.file =
                  file ++ s.finished.flatten ++ more.flatMap StoreCall.value) := by
  refine ⟨steps_mirrors h, fun s hs => ?_⟩
  have hstep : ∀ {s : Session} {c t}, Inv file s → InAttempt s c → step s c = some t →
      Inv file t := by
    rintro s c t hi hc hs
    obtain rfl := Option.some.inj hs
    exact inv_call hi hc
  have hinv : Inv file s := Steps.inv_exec hstep (inv_start file) h hs
  refine ⟨fun ops hops => ?_, fun hw more hmore => recovers hinv hw hmore⟩
  obtain ⟨hw, -⟩ | ⟨-, hfalse, -⟩ := hinv.holds.finishAttempt ops
  · exact hw
  · simp [hops] at hfalse

/-- An attempt whose close fails, and the next one. -/
theorem store_mirrors_and_recovers_closeFails :
    let calls : List StoreCall :=
      [.beginAttempt {}, .append [1, 2] true, .size true, .finishAttempt { close := false }]
    Steps step (fun s c _ => InAttempt s c) (start []) calls ∧
      ∃ s, exec step (start []) calls = some s ∧ s.store.writer = none ∧
        ∃ t, exec step s [.beginAttempt {}, .append [3] true] = some t ∧
          (t.store.finishAttempt {}).1 = .ok () ∧ (t.store.finishAttempt {}).2.file = [3] := by
  have hcalls : Steps step (fun s c _ => InAttempt s c) (start [])
      [.beginAttempt {}, .append [1, 2] true, .size true, .finishAttempt { close := false }] := by
    decide
  refine ⟨hcalls, _, rfl, rfl, ?_⟩
  have hnext := ((store_mirrors_and_recovers [] hcalls).2 _ rfl).2 rfl [.append [3] true]
  exact (hnext (by simp)).2

/-- A chunk outside an attempt is refused by the one store and taken by the other. -/
theorem append_outside_unmirrored :
    ¬ ∀ (file : List UInt8) (calls : List StoreCall), (∀ c ∈ calls, c.Works) →
      Steps step Mirrors (start file) calls := by
  intro h
  have hrun := h [] [.append [0] true] (by simp [StoreCall.Works])
  revert hrun
  decide

end Session

end DiveCANHead.LogClient
