import Mathlib.Algebra.Order.Field.Basic
import Mathlib.Algebra.Order.AbsoluteValue.Basic
import Mathlib.Tactic.FieldSimp
import Mathlib.Tactic.Positivity
import BadmintonRobot.Numeric.OrderedField

/-!
# Saturation that keeps ratios

A family of numbers whose largest size exceeds a limit is scaled by one common factor, so
that the largest size becomes the limit. The factor is 1 if no size exceeds the limit.
-/

namespace BadmintonRobot.Numeric

attribute [local instance] isOrderedRing zeroLEOneClass

variable {ι K : Type} [Field K] [LinearOrder K] [IsStrictOrderedRing K]

/-- The common factor for a family with the given largest size. -/
def saturation (limit peak : K) : K := if limit ≤ peak then limit / peak else 1

/-- The largest size of a family. -/
structure Peak (values : ι → K) (peak : K) : Prop where
  bound : ∀ place, |values place| ≤ peak
  attained : ∃ place, |values place| = peak

variable {values : ι → K} {limit peak : K}

theorem saturation_pos (positive : 0 < limit) : 0 < saturation limit peak := by
  rw [saturation]
  split
  · next reached => exact div_pos positive (lt_of_lt_of_le positive reached)
  · exact one_pos

namespace Peak

/-- After the scaling no size exceeds the limit. -/
theorem saturated (isPeak : Peak values peak) (positive : 0 < limit) (place : ι) :
    |saturation limit peak * values place| ≤ limit := by
  have bound := isPeak.bound place
  rw [abs_mul, abs_of_pos (saturation_pos positive), saturation]
  split
  · next reached =>
    have peak_pos := lt_of_lt_of_le positive reached
    calc limit / peak * |values place| ≤ limit / peak * peak := by gcongr
      _ = limit := div_mul_cancel₀ _ (ne_of_gt peak_pos)
  · next below =>
    rw [one_mul]
    exact le_trans bound (le_of_not_ge below)

omit [IsStrictOrderedRing K] in
/-- Nothing is scaled if no size exceeds the limit. -/
theorem saturation_eq_one (isPeak : Peak values peak) (positive : 0 < limit)
    (fits : ∀ place, |values place| ≤ limit) : saturation limit peak = 1 := by
  obtain ⟨place, attained⟩ := isPeak.attained
  have bound := fits place
  rw [attained] at bound
  rw [saturation]
  split
  · next reached =>
    have same := le_antisymm reached bound
    rw [← same]
    exact div_self (ne_of_gt positive)
  · rfl

/-- If a size exceeds the limit, the factor is below 1 and the largest size becomes the
limit. -/
theorem saturation_lt_one (isPeak : Peak values peak) (positive : 0 < limit) {place : ι}
    (exceeds : limit < |values place|) :
    saturation limit peak < 1 ∧ ∃ extreme,
      |saturation limit peak * values extreme| = limit := by
  have above : limit < peak := lt_of_lt_of_le exceeds (isPeak.bound place)
  have peak_pos := lt_trans positive above
  have factor : saturation limit peak = limit / peak := if_pos (le_of_lt above)
  obtain ⟨extreme, attained⟩ := isPeak.attained
  constructor
  · rw [factor, div_lt_one peak_pos]
    exact above
  · refine ⟨extreme, ?_⟩
    rw [abs_mul, abs_of_pos (saturation_pos positive), factor, attained]
    exact div_mul_cancel₀ _ (ne_of_gt peak_pos)

end Peak

end BadmintonRobot.Numeric
