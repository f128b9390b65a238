import Mathlib.Algebra.Order.Field.Basic
import Mathlib.Algebra.Order.Floor.Ring
import Mathlib.Tactic.Linarith
import Mathlib.Tactic.Ring
import BadmintonRobot.Numeric.OrderedField

/-!
# Interpolation between integers

A number interpolated between two integers and cut to an integer stays between them.
-/

namespace BadmintonRobot.Numeric

attribute [local instance] isOrderedRing zeroLEOneClass

variable {K : Type} [Field K] [LinearOrder K]

/-- An integer between two others, in either order. -/
def Between (a b value : Int) : Prop := min a b ≤ value ∧ value ≤ max a b

theorem Between.self (a : Int) : Between a a a := by
  simp [Between]

theorem Between.symm {a b value : Int} (between : Between a b value) : Between b a value := by
  rwa [Between, min_comm, max_comm]

section Floor

variable [FloorRing K]

/-- Cut the fraction off. -/
def truncate (x : K) : Int := if 0 ≤ x then ⌊x⌋ else ⌈x⌉

variable [IsStrictOrderedRing K]

theorem le_truncate {a : Int} {x : K} (lower : (a : K) ≤ x) : a ≤ truncate x := by
  rw [truncate]
  split
  · exact Int.le_floor.mpr lower
  · exact Int.cast_le.mp (le_trans lower (Int.le_ceil x))

theorem truncate_le {b : Int} {x : K} (upper : x ≤ (b : K)) : truncate x ≤ b := by
  rw [truncate]
  split
  · exact Int.cast_le.mp (le_trans (Int.floor_le x) upper)
  · exact Int.ceil_le.mpr upper

private theorem between_interpolate_of_le {a b : Int} (up : a ≤ b) {ratio : K}
    (nonneg : 0 ≤ ratio) (le_one : ratio ≤ 1) :
    Between a b (truncate (((b - a : Int) : K) * ratio + a)) := by
  have rise : (0 : K) ≤ ((b - a : Int) : K) := Int.cast_nonneg (sub_nonneg.mpr up)
  rw [Between, min_eq_left up, max_eq_right up]
  constructor
  · exact le_truncate (le_add_of_nonneg_left (mul_nonneg rise nonneg))
  · apply truncate_le
    have part := mul_le_of_le_one_right rise le_one
    rw [Int.cast_sub] at part ⊢
    linarith only [part]

/-- The truncated value at a ratio between 0 and 1 of the way from `a` to `b`. -/
theorem between_interpolate (a b : Int) {ratio : K} (nonneg : 0 ≤ ratio) (le_one : ratio ≤ 1) :
    Between a b (truncate (((b - a : Int) : K) * ratio + a)) := by
  rcases le_total a b with up | down
  · exact between_interpolate_of_le up nonneg le_one
  · -- seen from the other end the ratio is the rest of the way
    have turned : ((b - a : Int) : K) * ratio + a = ((a - b : Int) : K) * (1 - ratio) + b := by
      push_cast
      ring
    rw [turned]
    exact (between_interpolate_of_le down (sub_nonneg.mpr le_one)
      (sub_le_self 1 nonneg)).symm

end Floor

end BadmintonRobot.Numeric
