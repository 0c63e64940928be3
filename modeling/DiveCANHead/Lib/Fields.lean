import Mathlib.Data.Nat.Notation

/-!
# Fields of a word

A mask says which bits of a word a field has. `writeFields v m c` is the word `v` with the bits of
`m` from `c`: it reads as `c` inside the mask, and as `v` outside.
-/

namespace DiveCANHead.Lib

variable {w : ℕ}

/-- The word with the bits of the mask replaced. -/
def writeFields (v m c : BitVec w) : BitVec w := (v &&& ~~~m) ||| (c &&& m)

theorem getLsbD_writeFields (v m c : BitVec w) {i : ℕ} (hi : i < w) :
    (writeFields v m c).getLsbD i = if m.getLsbD i = true then c.getLsbD i else v.getLsbD i := by
  rw [writeFields, BitVec.getLsbD_or, BitVec.getLsbD_and, BitVec.getLsbD_and, BitVec.getLsbD_not]
  cases m.getLsbD i <;> simp [hi]

/-- Inside the mask the word is the new one. -/
theorem writeFields_inside {v m c n : BitVec w} (h : n &&& m = n) :
    writeFields v m c &&& n = c &&& n := by
  apply BitVec.eq_of_getLsbD_eq
  intro i hi
  have hbit := congrArg (fun x => x.getLsbD i) h
  simp only [BitVec.getLsbD_and, getLsbD_writeFields v m c hi] at hbit ⊢
  cases hn : n.getLsbD i with
  | false => rw [Bool.and_false, Bool.and_false]
  | true =>
    rw [hn, Bool.true_and] at hbit
    rw [if_pos hbit]

/-- Outside the mask the word is the old one. -/
theorem writeFields_outside {v m c n : BitVec w} (h : n &&& m = 0) :
    writeFields v m c &&& n = v &&& n := by
  apply BitVec.eq_of_getLsbD_eq
  intro i hi
  have hbit := congrArg (fun x => x.getLsbD i) h
  simp only [BitVec.getLsbD_and, getLsbD_writeFields v m c hi, BitVec.ofNat_eq_ofNat,
    BitVec.getLsbD_zero] at hbit ⊢
  cases hn : n.getLsbD i with
  | false => rw [Bool.and_false, Bool.and_false]
  | true =>
    rw [hn, Bool.true_and] at hbit
    rw [if_neg (by rw [hbit]; exact Bool.false_ne_true)]

end DiveCANHead.Lib
