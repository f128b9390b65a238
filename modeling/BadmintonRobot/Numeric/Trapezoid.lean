import Mathlib.Topology.Algebra.Order.Field
import Mathlib.Topology.Order.Lattice
import Mathlib.Tactic.Linarith
import BadmintonRobot.Numeric.OrderedField

/-!
# Trapezoidal profiles

A profile that rises linearly from its start to its top, stays there, and falls linearly to its end.
The two ramps do not overlap, so that the profile is the smallest of three linear functions.
-/

namespace BadmintonRobot.Numeric

attribute [local instance] isOrderedRing zeroLEOneClass

/-- The heights of a profile, and the lengths of its ramps. -/
structure Trapezoid (K : Type) [Field K] [LinearOrder K] where
  start : K
  top : K
  stop : K
  rise : K
  fall : K
  length : K
  start_le : start ≤ top
  stop_le : stop ≤ top
  rise_pos : 0 < rise
  fall_pos : 0 < fall
  room : rise + fall ≤ length

namespace Trapezoid

variable {K : Type} [Field K] [LinearOrder K] (shape : Trapezoid K)

/-- The straight line of the first ramp. -/
def rising (t : K) : K := shape.start + (shape.top - shape.start) / shape.rise * t

/-- The straight line of the last ramp. -/
def falling (t : K) : K :=
  shape.top + (shape.stop - shape.top) / shape.fall * (t - (shape.length - shape.fall))

/-- The height at a place. -/
def height (t : K) : K :=
  if t < shape.rise then shape.rising t
  else if t > shape.length - shape.fall then shape.falling t
  else shape.top

theorem rising_rise : shape.rising shape.rise = shape.top := by
  rw [rising, div_mul_cancel₀ _ shape.rise_pos.ne', add_sub_cancel]

theorem falling_fall : shape.falling (shape.length - shape.fall) = shape.top := by
  rw [falling, sub_self, mul_zero, add_zero]

theorem height_middle {t : K} (inside : t ∈ Set.Icc shape.rise (shape.length - shape.fall)) :
    shape.height t = shape.top := by
  rw [height, if_neg (not_lt.mpr inside.1), if_neg (not_lt.mpr inside.2)]

variable [IsStrictOrderedRing K]

theorem monotone_rising : Monotone shape.rising := by
  intro t u before
  have slope : 0 ≤ (shape.top - shape.start) / shape.rise :=
    div_nonneg (sub_nonneg.mpr shape.start_le) shape.rise_pos.le
  have step := mul_le_mul_of_nonneg_left before slope
  unfold rising
  linarith

theorem antitone_falling : Antitone shape.falling := by
  intro t u before
  have slope : (shape.stop - shape.top) / shape.fall ≤ 0 :=
    div_nonpos_of_nonpos_of_nonneg (sub_nonpos.mpr shape.stop_le) shape.fall_pos.le
  have step := mul_le_mul_of_nonpos_left
    (sub_le_sub_right before (shape.length - shape.fall)) slope
  unfold falling
  linarith

section Places

variable {shape} {t : K}

theorem rising_le (before : t ≤ shape.rise) : shape.rising t ≤ shape.top :=
  (shape.monotone_rising before).trans_eq shape.rising_rise

theorem le_rising (after : shape.rise ≤ t) : shape.top ≤ shape.rising t :=
  shape.rising_rise.symm.trans_le (shape.monotone_rising after)

theorem le_falling (before : t ≤ shape.length - shape.fall) : shape.top ≤ shape.falling t :=
  shape.falling_fall.symm.trans_le (shape.antitone_falling before)

theorem falling_le (after : shape.length - shape.fall ≤ t) : shape.falling t ≤ shape.top :=
  (shape.antitone_falling after).trans_eq shape.falling_fall

end Places

theorem height_eq_min (t : K) :
    shape.height t = min (min (shape.rising t) (shape.falling t)) shape.top := by
  have order : shape.rise ≤ shape.length - shape.fall := by linarith [shape.room]
  rw [height]
  split_ifs with first last
  · have low := rising_le first.le
    have high := le_falling (first.le.trans order)
    rw [min_eq_left (low.trans high), min_eq_left low]
  · have high := le_rising (not_lt.mp first)
    have low := falling_le last.le
    rw [min_eq_right (low.trans high), min_eq_left low]
  · rw [min_eq_right (le_min (le_rising (not_lt.mp first)) (le_falling (not_lt.mp last)))]

theorem height_of_le_rise {t : K} (before : t ≤ shape.rise) : shape.height t = shape.rising t := by
  have low := rising_le before
  have high := le_falling (show t ≤ shape.length - shape.fall by linarith [shape.room])
  rw [height_eq_min, min_eq_left (low.trans high), min_eq_left low]

theorem height_of_fall_le {t : K} (after : shape.length - shape.fall ≤ t) :
    shape.height t = shape.falling t := by
  have high := le_rising (show shape.rise ≤ t by linarith [shape.room])
  have low := falling_le after
  rw [height_eq_min, min_eq_right (low.trans high), min_eq_left low]

theorem height_zero : shape.height 0 = shape.start := by
  rw [height_of_le_rise _ shape.rise_pos.le, rising, mul_zero, add_zero]

theorem height_length : shape.height shape.length = shape.stop := by
  rw [height_of_fall_le _ (sub_le_self _ shape.fall_pos.le), falling, sub_sub_cancel,
    div_mul_cancel₀ _ shape.fall_pos.ne', add_sub_cancel]

theorem monotoneOn_height : MonotoneOn shape.height (Set.Icc 0 shape.rise) := by
  intro t before u after le
  rw [shape.height_of_le_rise before.2, shape.height_of_le_rise after.2]
  exact shape.monotone_rising le

theorem antitoneOn_height :
    AntitoneOn shape.height (Set.Icc (shape.length - shape.fall) shape.length) := by
  intro t before u after le
  rw [shape.height_of_fall_le before.1, shape.height_of_fall_le after.1]
  exact shape.antitone_falling le

theorem height_le_top (t : K) : shape.height t ≤ shape.top := by
  rw [height_eq_min]
  exact min_le_right _ _

theorem min_le_height {t : K} (inside : t ∈ Set.Icc 0 shape.length) :
    min shape.start shape.stop ≤ shape.height t := by
  have left := shape.monotone_rising inside.1
  have right := shape.antitone_falling inside.2
  rw [← height_of_le_rise _ shape.rise_pos.le, height_zero] at left
  rw [← height_of_fall_le _ (sub_le_self _ shape.fall_pos.le), height_length] at right
  rw [height_eq_min]
  exact le_min (min_le_min left right) ((min_le_left _ _).trans shape.start_le)

theorem continuous_height [TopologicalSpace K] [OrderTopology K] : Continuous shape.height := by
  have linear : shape.height = fun t => min (min (shape.rising t) (shape.falling t)) shape.top :=
    funext shape.height_eq_min
  have rising : Continuous shape.rising := by
    unfold Trapezoid.rising
    fun_prop
  have falling : Continuous shape.falling := by
    unfold Trapezoid.falling
    fun_prop
  rw [linear]
  exact (rising.min falling).min continuous_const

end Trapezoid

end BadmintonRobot.Numeric
