import Mathlib.Data.Nat.ModEq
import Mathlib.Tactic.SplitIfs

/-!
# Ring buffers of fixed-width records

Records are numbered in the order written and stored cyclically. Positions and
contents are stated by record number, so that wrapping around appears only in the
lemmas of this file.
-/

namespace BadmintonRobot.Semantics.Ring

variable {Item : Type} {width capacity : Nat}

/-- Where the record with a given number starts, in a ring of `capacity` records. -/
def offset (width capacity number : Nat) : Nat := width * (number % capacity)

@[simp] theorem offset_zero : offset width capacity 0 = 0 := by simp [offset]

/-- Counted in items, the records follow one another all around the ring. -/
theorem offset_eq_mod (number : Nat) :
    offset width capacity number = width * number % (width * capacity) :=
  (Nat.mul_mod_mul_left width number capacity).symm

/-- The next record follows, or starts again at the front. -/
theorem offset_succ (positive : 0 < width) (room : 0 < capacity) (number : Nat) :
    offset width capacity (number + 1) =
      if offset width capacity number + width = width * capacity then 0
      else offset width capacity number + width := by
  have bound := Nat.mod_lt number room
  have last : width * (number % capacity) + width = width * capacity ↔
      number % capacity + 1 = capacity := by
    rw [← Nat.mul_succ]
    exact Nat.mul_right_inj positive.ne'
  simp only [offset, last]
  split_ifs with wraps
  · have whole : (number + 1) % capacity = 0 := by
      rw [← Nat.mod_add_mod, wraps, Nat.mod_self]
    rw [whole, Nat.mul_zero]
  · have small : (number + 1) % capacity = number % capacity + 1 := by
      rw [← Nat.mod_add_mod, Nat.mod_eq_of_lt (by omega)]
    rw [small, Nat.mul_succ]

theorem offset_add_le (room : 0 < capacity) (number : Nat) :
    offset width capacity number + width ≤ width * capacity := by
  have bound := Nat.mod_lt number room
  rw [offset, ← Nat.mul_succ]
  exact Nat.mul_le_mul_left width bound

/-- Record numbers less than a lap apart start at different places. -/
theorem offset_inj (positive : 0 < width) {first second : Nat} (ordered : first ≤ second)
    (near : second < first + capacity)
    (same : offset width capacity first = offset width capacity second) : first = second := by
  have residues : first % capacity = second % capacity :=
    Nat.eq_of_mul_eq_mul_left positive same
  obtain ⟨gap, rfl⟩ := Nat.exists_eq_add_of_le ordered
  have multiple : capacity ∣ gap := by
    have congruent : first + 0 ≡ first + gap [MOD capacity] := residues
    exact (Nat.modEq_zero_iff_dvd.mp (Nat.ModEq.add_left_cancel' first congruent).symm)
  obtain ⟨laps, rfl⟩ := multiple
  cases laps with
  | zero => simp
  | succ laps =>
    rw [Nat.mul_succ] at near
    omega

/-- The buffer holds the records numbered from `low` to below `high`. -/
def Holds (width capacity : Nat) (buf : Nat → Item) (record : Nat → Nat → Item)
    (low high : Nat) : Prop :=
  ∀ number, low ≤ number → number < high → ∀ i < width,
    buf (offset width capacity number + i) = record number i

/-- The buffer after a record has been stored. -/
def store (width : Nat) (buf : Nat → Item) (start : Nat) (item : Nat → Item) : Nat → Item :=
  fun address => if start ≤ address ∧ address < start + width then item (address - start)
    else buf address

/-- Storing the next record keeps those that are less than a lap behind. -/
theorem Holds.store {buf : Nat → Item} {record : Nat → Nat → Item} {low high : Nat}
    (holds : Holds width capacity buf record low high) (positive : 0 < width)
    (near : high < low + capacity) :
    Holds width capacity (Ring.store width buf (offset width capacity high) (record high))
      record low (high + 1) := by
  intro number lower upper i inside
  by_cases newest : number = high
  · subst newest
    simp only [Ring.store]
    rw [if_pos (by omega), Nat.add_sub_cancel_left]
  · have apart : offset width capacity number ≠ offset width capacity high :=
      fun same => newest (offset_inj positive (by omega) (by omega) same)
    -- different records are whole multiples of the width apart
    have disjoint : ¬(offset width capacity high ≤ offset width capacity number + i ∧
        offset width capacity number + i < offset width capacity high + width) := by
      simp only [offset] at apart ⊢
      rintro ⟨left, right⟩
      apply apart
      congr 1
      have upperResidue : width * (number % capacity) < width * (high % capacity + 1) := by
        rw [Nat.mul_succ]; omega
      have lowerResidue : width * (high % capacity) < width * (number % capacity + 1) := by
        rw [Nat.mul_succ]; omega
      have one := Nat.lt_of_mul_lt_mul_left upperResidue
      have two := Nat.lt_of_mul_lt_mul_left lowerResidue
      omega
    simp only [Ring.store, if_neg disjoint]
    exact holds number lower (by omega) i inside

theorem Holds.mono {buf : Nat → Item} {record : Nat → Nat → Item} {low later high : Nat}
    (holds : Holds width capacity buf record low high) (advance : low ≤ later) :
    Holds width capacity buf record later high :=
  fun number lower upper => holds number (by omega) upper

/-- The records are read one after another by going around the ring. -/
theorem Holds.cyclic {buf : Nat → Item} {record : Nat → Nat → Item} {low high : Nat}
    (holds : Holds width capacity buf record low high) {distance : Nat}
    (inside : distance < width * (high - low)) :
    buf ((offset width capacity low + distance) % (width * capacity)) =
      record (low + distance / width) (distance % width) := by
  have positive : 0 < width := Nat.pos_of_ne_zero fun zero => by simp [zero] at inside
  have passed : distance / width < high - low := Nat.div_lt_of_lt_mul inside
  have there : (offset width capacity low + distance) % (width * capacity) =
      offset width capacity (low + distance / width) + distance % width := by
    rw [offset_eq_mod, Nat.mod_add_mod, Nat.mod_mul, Nat.mul_add_mod, Nat.mul_add_div positive, offset,
      Nat.add_comm]
  rw [there]
  exact holds _ (Nat.le_add_right low _) (Nat.add_lt_of_lt_sub' passed) _ (Nat.mod_lt _ positive)

end BadmintonRobot.Semantics.Ring
