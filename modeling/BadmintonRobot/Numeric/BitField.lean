import Mathlib.Algebra.Order.Ring.Nat
import Mathlib.Data.Nat.Bitwise

/-!
# Bit fields

A word that holds several numbers has each of them in some of its bits. Each field of a disjunction is the
disjunction of the fields, so the parts of a packed word can be looked at one by one.
-/

namespace BadmintonRobot.Numeric

/-- The number in the `width` bits from the bit `low` on. -/
def bitField (low width word : Nat) : Nat := word / 2 ^ low % 2 ^ width

variable {low width word : Nat}

theorem bitField_or (first second : Nat) :
    bitField low width (first ||| second) =
      bitField low width first ||| bitField low width second := by
  simp only [bitField, ← Nat.shiftRight_eq_div_pow, Nat.shiftRight_or_distrib, Nat.or_mod_two_pow]

/-- A word that is cut off keeps the fields in front of the cut. -/
theorem bitField_mod {bits : Nat} (inside : low + width ≤ bits) :
    bitField low width (word % 2 ^ bits) = bitField low width word := by
  obtain ⟨rest, rfl⟩ := Nat.exists_eq_add_of_le inside
  rw [bitField, Nat.add_assoc, pow_add, Nat.mod_mul_right_div_self, pow_add, Nat.mod_mul_right_mod,
    bitField]

/-- A number that is too small has nothing in the field. -/
theorem bitField_of_lt (small : word < 2 ^ low) : bitField low width word = 0 := by
  rw [bitField, Nat.div_eq_of_lt small, Nat.zero_mod]

/-- A number that is shifted beyond the field leaves it empty. -/
theorem bitField_above {shift : Nat} (above : low + width ≤ shift) (number : Nat) :
    bitField low width (number * 2 ^ shift) = 0 := by
  obtain ⟨rest, rfl⟩ := Nat.exists_eq_add_of_le above
  rw [bitField, Nat.add_assoc, pow_add, ← Nat.mul_assoc, Nat.mul_right_comm,
    Nat.mul_div_cancel _ (Nat.two_pow_pos low), pow_add, ← Nat.mul_assoc, Nat.mul_right_comm,
    Nat.mul_mod_left]

/-- A number that is shifted to the field is there. -/
theorem bitField_shifted {number : Nat} (fits : number < 2 ^ width) :
    bitField low width (number * 2 ^ low) = number := by
  rw [bitField, Nat.mul_div_cancel _ (Nat.two_pow_pos low), Nat.mod_eq_of_lt fits]

/-- Where all bits are set, nothing else can be told. -/
theorem or_ones {number : Nat} (fits : number < 2 ^ width) :
    number ||| (2 ^ width - 1) = 2 ^ width - 1 := by
  refine Nat.eq_of_testBit_eq fun i => ?_
  rw [Nat.testBit_or, Nat.testBit_two_pow_sub_one]
  by_cases inside : i < width
  · simp [inside]
  · have large : number < 2 ^ i := fits.trans_le (Nat.pow_le_pow_right two_pos (by omega))
    simp [inside, Nat.testBit_lt_two_pow large]

end BadmintonRobot.Numeric
