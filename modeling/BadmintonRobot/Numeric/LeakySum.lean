import Mathlib.Algebra.BigOperators.Intervals
import Mathlib.Algebra.BigOperators.Ring.Finset
import Mathlib.Algebra.Order.Field.Basic
import Mathlib.Data.List.GetD
import Mathlib.Data.List.Induction
import Mathlib.Tactic.Ring
import BadmintonRobot.Numeric.OrderedField

/-!
# A sum that leaks

An accumulator that takes a value and is then multiplied by a factor holds a sum in which older
values have higher powers of the factor. With a factor below 1 it is bounded.
-/

namespace BadmintonRobot.Numeric

attribute [local instance] isOrderedRing zeroLEOneClass

variable {K : Type}

/-- The accumulator after some values. -/
def leakySum [Semiring K] (factor : K) (values : List K) : K :=
  values.foldl (fun sum value => (sum + value) * factor) 0

section Sum

variable [Semiring K] (factor : K)

@[simp] theorem leakySum_nil : leakySum factor [] = 0 := rfl

@[simp] theorem leakySum_append_singleton (values : List K) (value : K) :
    leakySum factor (values ++ [value]) = (leakySum factor values + value) * factor := by
  simp [leakySum]

end Sum

/-- The newest value has the factor itself, and each older one a power more. -/
theorem leakySum_eq_sum [CommSemiring K] (factor : K) (values : List K) :
    leakySum factor values =
      ∑ k ∈ Finset.range values.length, factor ^ (values.length - k) * values.getD k 0 := by
  induction values using List.reverseRecOn with
  | nil => rfl
  | append_singleton values value ih =>
    have older : ∀ k ∈ Finset.range values.length,
        factor ^ (values.length + 1 - k) * (values ++ [value]).getD k 0 =
          factor ^ (values.length - k) * values.getD k 0 * factor := by
      intro k member
      have inside := Finset.mem_range.mp member
      rw [List.getD_append _ _ _ _ inside, Nat.succ_sub inside.le, pow_succ]
      ring
    have last : (values ++ [value]).getD values.length 0 = value := by
      rw [List.getD_append_right _ _ _ _ le_rfl, Nat.sub_self]
      rfl
    rw [leakySum_append_singleton, ih, List.length_append, List.length_singleton,
      Finset.sum_range_succ, Finset.sum_congr rfl older, last, Nat.add_sub_cancel_left, pow_one,
      ← Finset.sum_mul]
    ring

section Bound

variable [Field K] [LinearOrder K] [IsStrictOrderedRing K] {factor bound : K} {values : List K}

theorem abs_leakySum_le (nonneg : 0 ≤ factor) (leaks : factor < 1)
    (small : ∀ value ∈ values, |value| ≤ bound) (bounded : 0 ≤ bound) :
    |leakySum factor values| ≤ bound * factor / (1 - factor) := by
  have rest : 0 < 1 - factor := sub_pos.mpr leaks
  induction values using List.reverseRecOn with
  | nil =>
    rw [leakySum_nil, abs_zero]
    exact div_nonneg (mul_nonneg bounded nonneg) rest.le
  | append_singleton values value ih =>
    have before := ih fun other member => small other (List.mem_append_left _ member)
    have last := small value (by simp)
    have whole : bound * factor / (1 - factor) + bound = bound / (1 - factor) := by
      rw [div_add' _ _ _ rest.ne', ← mul_add, add_sub_cancel, mul_one]
    rw [leakySum_append_singleton, abs_mul, abs_of_nonneg nonneg]
    calc |leakySum factor values + value| * factor
        ≤ (bound * factor / (1 - factor) + bound) * factor :=
          mul_le_mul_of_nonneg_right ((abs_add_le _ _).trans (add_le_add before last)) nonneg
      _ = bound * factor / (1 - factor) := by rw [whole, div_mul_eq_mul_div]

end Bound

end BadmintonRobot.Numeric
