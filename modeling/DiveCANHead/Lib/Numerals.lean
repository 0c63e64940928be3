import Mathlib.Algebra.GroupWithZero.Nat
import Mathlib.Data.Nat.Cast.Defs
import Mathlib.Data.Int.Notation

/-!
# Side conditions of numerals

A numeral of `Fin n` asks that `n` is not zero, one of a field that it is at least two. These are
the facts by name, for use as local instances.
-/

namespace DiveCANHead.Lib

theorem neZero_three : NeZero 3 := ⟨by decide⟩

theorem atLeastTwo_two : Nat.AtLeastTwo 2 := ⟨by decide⟩

theorem atLeastTwo_five : Nat.AtLeastTwo 5 := ⟨by decide⟩

theorem atLeastTwo_thousand : Nat.AtLeastTwo 1000 := ⟨by decide⟩

end DiveCANHead.Lib
