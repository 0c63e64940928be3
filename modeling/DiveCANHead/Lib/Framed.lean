import Mathlib.Data.List.Basic
import Mathlib.Tactic.Common

/-!
# Records that carry their length

Each record of a stream is a header of a fixed size, which says how long the body is, and the
body. A walk takes whole records until what is left is none.
-/

namespace DiveCANHead.Lib

universe u v

variable {α : Type u} {size : ℕ} {bodyLength : List α → ℕ}

/-- The headers and the bodies of the records of a stream. -/
def frames (size : ℕ) (bodyLength : List α → ℕ) (stream : List α) : List (List α × List α) :=
  if _h : size = 0 ∨ stream.length < size + bodyLength (stream.take size) then []
  else
    (stream.take size, (stream.drop size).take (bodyLength (stream.take size))) ::
      frames size bodyLength (stream.drop (size + bodyLength (stream.take size)))
  termination_by stream.length
  decreasing_by
    rw [List.length_drop]
    omega

theorem frames_short {stream : List α} (h : stream.length < size) :
    frames size bodyLength stream = [] := by
  rw [frames, dif_pos (.inr (Nat.lt_add_right _ h))]

theorem frames_append {header body rest : List α} (hpos : 0 < size)
    (hheader : header.length = size) (hbody : bodyLength header = body.length) :
    frames size bodyLength (header ++ body ++ rest) =
      (header, body) :: frames size bodyLength rest := by
  have htake : (header ++ body ++ rest).take size = header := by
    rw [List.append_assoc, List.take_left' hheader]
  have hdrop : (header ++ body ++ rest).drop size = body ++ rest := by
    rw [List.append_assoc, List.drop_left' hheader]
  rw [frames, htake, hbody, hdrop, List.take_left, ← List.drop_drop, hdrop, List.drop_left]
  rw [dif_neg]
  simp only [List.length_append, hheader]
  omega

/-- A stream of records is read back. -/
theorem frames_flatMap {β : Type v} {header body : β → List α} {records : List β} (hpos : 0 < size)
    (hheader : ∀ r ∈ records, (header r).length = size)
    (hbody : ∀ r ∈ records, bodyLength (header r) = (body r).length) :
    frames size bodyLength (records.flatMap fun r => header r ++ body r) =
      records.map fun r => (header r, body r) := by
  induction records with
  | nil => exact frames_short hpos
  | cons r records ih =>
    rw [List.flatMap_cons, frames_append hpos (hheader r List.mem_cons_self)
      (hbody r List.mem_cons_self), List.map_cons,
      ih (fun r hr => hheader r (.tail _ hr)) fun r hr => hbody r (.tail _ hr)]

end DiveCANHead.Lib
