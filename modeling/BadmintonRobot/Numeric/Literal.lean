import Mathlib

/-!
# Shared literals

A literal of a field carries a proof that it is at least two, and an index into a table of
fixed size carries a proof that the table is not empty. Left to the elaborator, these proofs
are auxiliary lemmas of the module that writes the literal. The literals that more than one
module writes have them here by name, so that they are the same term in all of them.
-/

namespace BadmintonRobot.Numeric

instance atLeastTwo2 : Nat.AtLeastTwo 2 := ⟨by decide⟩
instance atLeastTwo3 : Nat.AtLeastTwo 3 := ⟨by decide⟩
instance atLeastTwo4 : Nat.AtLeastTwo 4 := ⟨by decide⟩
instance atLeastTwo5 : Nat.AtLeastTwo 5 := ⟨by decide⟩
instance atLeastTwo6 : Nat.AtLeastTwo 6 := ⟨by decide⟩
instance atLeastTwo10 : Nat.AtLeastTwo 10 := ⟨by decide⟩
instance atLeastTwo14 : Nat.AtLeastTwo 14 := ⟨by decide⟩
instance atLeastTwo20 : Nat.AtLeastTwo 20 := ⟨by decide⟩
instance atLeastTwo43 : Nat.AtLeastTwo 43 := ⟨by decide⟩
instance atLeastTwo50 : Nat.AtLeastTwo 50 := ⟨by decide⟩
instance atLeastTwo100 : Nat.AtLeastTwo 100 := ⟨by decide⟩
instance atLeastTwo130 : Nat.AtLeastTwo 130 := ⟨by decide⟩
instance atLeastTwo300 : Nat.AtLeastTwo 300 := ⟨by decide⟩
instance atLeastTwo500 : Nat.AtLeastTwo 500 := ⟨by decide⟩
instance atLeastTwo1000 : Nat.AtLeastTwo 1000 := ⟨by decide⟩
instance atLeastTwo1800 : Nat.AtLeastTwo 1800 := ⟨by decide⟩
instance atLeastTwo4095 : Nat.AtLeastTwo 4095 := ⟨by decide⟩
instance atLeastTwo6000 : Nat.AtLeastTwo 6000 := ⟨by decide⟩
instance atLeastTwo10000 : Nat.AtLeastTwo 10000 := ⟨by decide⟩
instance atLeastTwo100000 : Nat.AtLeastTwo 100000 := ⟨by decide⟩
instance atLeastTwo1000000 : Nat.AtLeastTwo 1000000 := ⟨by decide⟩

/-! The sizes of the tables. -/

instance neZero2 : NeZero 2 := ⟨by decide⟩
instance neZero3 : NeZero 3 := ⟨by decide⟩
instance neZero4 : NeZero 4 := ⟨by decide⟩
instance neZero5 : NeZero 5 := ⟨by decide⟩
instance neZero9 : NeZero 9 := ⟨by decide⟩
instance neZero30 : NeZero 30 := ⟨by decide⟩

end BadmintonRobot.Numeric
