import DiveCANHead.Cells.Consensus
import DiveCANHead.Lib.Text

/-!
# What the two digital cells' drivers share

Both clean a received buffer into a text, and both check a reading's age and the supply before
they publish it. The calibration thread may run between any two of those checks.
-/

namespace DiveCANHead.Cells

open DiveCANHead.Lib

/-! ## Received text -/

def cr : UInt8 := 0x0D

def lf : UInt8 := 0x0A

def isLineEnd (c : UInt8) : Bool := c == cr || c == lf

/-- `diveo2_prepare_message_buffer` and `o2s_prepare_message_buffer`: NULs and one newline are
skipped at the front, then a string is copied and cut at its first line end. -/
def prepareMessageBuffer (newline : UInt8) (copyLen : ℕ → ℕ) (rawBuffer : List UInt8)
    (outBufferLen : ℕ) : Text :=
  let skipped := min (rawBuffer.takeWhile fun c => c == 0 || c == newline).length (outBufferLen - 1)
  let copied := cString ((rawBuffer.drop skipped).take (copyLen skipped))
  (copied.take (outBufferLen - 1)).takeWhile fun c => !isLineEnd c

theorem length_prepareMessageBuffer_le (newline : UInt8) (copyLen : ℕ → ℕ)
    (rawBuffer : List UInt8) (n : ℕ) :
    (prepareMessageBuffer newline copyLen rawBuffer n).length ≤ n - 1 :=
  (List.takeWhile_prefix _).length_le.trans (List.length_take_le _ _)

/-- Something between line ends, without a NUL. -/
structure PlainLine (line : Text) : Prop where
  ne_nil : line ≠ []
  nul : 0 ∉ line
  lineEnd : ∀ c ∈ line, isLineEnd c = false

/-- What may stand after a line: the end of the string or of the line. -/
def Stops (c : UInt8) : Prop := c = 0 ∨ isLineEnd c = true

/-- A string cut at its first line end is the line it starts with. -/
theorem cut_line {line rest : Text} {stop : UInt8} {m : ℕ} (hline : PlainLine line)
    (hstop : Stops stop) (hm : line.length ≤ m) :
    ((cString (line ++ stop :: rest)).take m).takeWhile (fun c => !isLineEnd c) = line := by
  have hnul : ∀ c ∈ line, (c != 0) = true := fun c hc => by
    simpa using fun h : c = 0 => hline.nul (h ▸ hc)
  have hend : ∀ c ∈ line, (!isLineEnd c) = true := fun c hc => by simp [hline.lineEnd c hc]
  have hall : line.takeWhile (fun c => !isLineEnd c) = line := List.takeWhile_eq_self_iff.mpr hend
  by_cases hz : stop = 0
  · rw [cString, takeWhile_append_stop hnul (by simp [hz]), List.take_of_length_le hm, hall]
  · have hstop : isLineEnd stop = true := hstop.resolve_left hz
    rw [cString, List.takeWhile_append_of_pos hnul, List.takeWhile_cons_of_pos (by simpa using hz),
      List.take_append, List.take_of_length_le hm]
    cases m - line.length with
    | zero => rw [List.take_zero, List.append_nil, hall]
    | succ k => rw [List.take_succ_cons, takeWhile_append_stop hend (by simp [hstop])]

/-- Cleaning finds the first line, where nothing but NULs and newlines stands before it. -/
theorem prepareMessageBuffer_line {newline stop : UInt8} {copyLen : ℕ → ℕ} {lead line rest : Text}
    {n : ℕ} (hnewline : isLineEnd newline = true) (hlead : ∀ c ∈ lead, c = 0 ∨ c = newline)
    (hline : PlainLine line) (hstop : Stops stop) (hcopy : line.length < copyLen lead.length)
    (hout : lead.length + line.length < n) :
    prepareMessageBuffer newline copyLen (lead ++ (line ++ stop :: rest)) n = line := by
  have hskip : (lead ++ (line ++ stop :: rest)).takeWhile (fun c => c == 0 || c == newline) =
      lead := by
    obtain ⟨c, tail, rfl⟩ := List.exists_cons_of_ne_nil hline.ne_nil
    refine takeWhile_append_stop (by simpa using hlead) ?_
    have hnul : c ≠ 0 := fun h => hline.nul (h ▸ List.mem_cons_self)
    have hend : c ≠ newline := fun h => by
      simpa [h, hnewline] using hline.lineEnd c List.mem_cons_self
    simp [hnul, hend]
  have hmin : min lead.length (n - 1) = lead.length := by omega
  obtain ⟨k, hk⟩ : ∃ k, copyLen lead.length - line.length = k + 1 :=
    ⟨copyLen lead.length - line.length - 1, by omega⟩
  have hrow : (line ++ stop :: rest).take (copyLen lead.length) = line ++ stop :: rest.take k := by
    rw [List.take_append, List.take_of_length_le (by omega), hk, List.take_succ_cons]
  simp only [prepareMessageBuffer, hskip, hmin, List.drop_left, hrow]
  exact cut_line hline hstop (by omega)

/-! ## Checks before a reading is published -/

/-- `k_ms_to_ticks_ceil64` at `rate` ticks a second. -/
def kMsToTicksCeil64 (rate ms : ℕ) : ℕ := (ms * rate + 999) / 1000

/-- `VBUS_MIN_VOLTAGE`. -/
def vbusMinVoltage : ℚ := 3.25

/-- A reading of the supply below the least voltage; one at or below zero says that nothing
measures it. -/
def UnderVolt (vbus : ℚ) : Prop := 0 < vbus ∧ vbus < vbusMinVoltage

instance (vbus : ℚ) : Decidable (UnderVolt vbus) := inferInstanceAs (Decidable (_ ∧ _))

/-- `PPO2_OVERRANGE_LIMIT`, in centibar. -/
def ppo2OverrangeLimit : ℚ := 255

/-- How far a broadcast has come: not past any check, past the check of the age at a clock reading,
past the check of the supply, or ready to publish a converted reading. -/
inductive BroadcastStage (α : Type) where
  | start
  | aged (now : ℤ)
  | powered (now : ℤ) (vbus : ℚ)
  | converted (now : ℤ) (vbus : ℚ) (precisionPpo2 : α)
  deriving DecidableEq, Repr

namespace BroadcastStage

variable {α : Type}

/-- The clock reading the age was checked at. -/
def now? : BroadcastStage α → Option ℤ
  | .start => none
  | .aged now | .powered now _ | .converted now _ _ => some now

/-- The reading of the supply that was checked. -/
def vbus? : BroadcastStage α → Option ℚ
  | .start | .aged _ => none
  | .powered _ vbus | .converted _ vbus _ => some vbus

def precision? : BroadcastStage α → Option α
  | .start | .aged _ | .powered _ _ => none
  | .converted _ _ precisionPpo2 => some precisionPpo2

end BroadcastStage

def ageChecked (timeoutTicks now lastPpo2Ticks : ℤ) (status : CellStatus) : CellStatus :=
  if now - lastPpo2Ticks > timeoutTicks then .fail else status

def supplyChecked (vbus : ℚ) (status : CellStatus) : CellStatus :=
  if UnderVolt vbus then .fail else status

theorem ageChecked_ok {timeoutTicks now last : ℤ} {status : CellStatus}
    (h : ageChecked timeoutTicks now last status = .ok) :
    status = .ok ∧ now - last ≤ timeoutTicks := by
  simp only [ageChecked] at h
  split at h
  · exact absurd h (by simp)
  · exact ⟨h, by omega⟩

theorem supplyChecked_ok {vbus : ℚ} {status : CellStatus} (h : supplyChecked vbus status = .ok) :
    status = .ok ∧ ¬ UnderVolt vbus := by
  simp only [supplyChecked] at h
  split at h
  · exact absurd h (by simp)
  · rename_i hv
    exact ⟨h, hv⟩

end DiveCANHead.Cells
