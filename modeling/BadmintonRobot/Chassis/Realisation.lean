import Mathlib
import BadmintonRobot.Chassis.SetSpeed
import BadmintonRobot.Numeric.Saturation

/-!
# What the duty cycles realise

The four duty cycles stay in the range of the drivers and realise one speed of the robot:
the commanded one, slowed down against slipping, up to one common factor for all wheels.
-/

namespace BadmintonRobot.Chassis

open General Numeric

/-- `MaxFour` of the sizes is the largest of them. -/
theorem peak_maxAbs (values : Wheel → ℝ) : Peak values (maxAbs values) := by
  simp only [maxAbs, maxFour, max'_eq, abs'_eq]
  constructor
  · intro wheel
    cases wheel <;> simp
  · rcases max_choice (max |values .fl| |values .fr|) (max |values .bl| |values .br|) with
      front | back
    · rw [front]
      rcases max_choice |values .fl| |values .fr| with left | right
      · exact ⟨.fl, left.symm⟩
      · exact ⟨.fr, right.symm⟩
    · rw [back]
      rcases max_choice |values .bl| |values .br| with left | right
      · exact ⟨.bl, left.symm⟩
      · exact ⟨.br, right.symm⟩

/-- The limit against slipping scales the speed down, if at all, to `realspe + ACC`. -/
theorem antiSlip_scales {realspe : ℝ} (forward : 0 ≤ realspe) (x y : ℝ) :
    ∃ scale, 0 ≤ scale ∧ scale ≤ 1 ∧ antiSlip realspe x y = (scale * x, scale * y) ∧
      (√(x ^ 2 + y ^ 2) < realspe + acc → scale = 1) ∧
      (realspe + acc ≤ √(x ^ 2 + y ^ 2) →
        √((scale * x) ^ 2 + (scale * y) ^ 2) = realspe + acc) := by
  have bound_pos : 0 < realspe + acc := by
    rw [acc]
    linarith
  by_cases fast : realspe + acc ≤ √(x ^ 2 + y ^ 2)
  · have speed_pos := lt_of_lt_of_le bound_pos fast
    have nonneg : 0 ≤ (realspe + acc) / √(x ^ 2 + y ^ 2) := by positivity
    refine ⟨(realspe + acc) / √(x ^ 2 + y ^ 2), nonneg, (div_le_one speed_pos).mpr fast, ?_, ?_, ?_⟩
    · have reached : √(x ^ 2 + y ^ 2) - realspe ≥ acc := by linarith
      have ahead : √(x ^ 2 + y ^ 2) - realspe ≥ 0 := by
        rw [acc] at reached
        linarith
      simp only [antiSlip, if_pos reached, if_pos ahead, if_pos (ne_of_gt speed_pos)]
      ext <;> simp only <;> ring
    · intro slow
      linarith
    · intro _
      rw [mul_pow, mul_pow, ← mul_add, Real.sqrt_mul (by positivity), Real.sqrt_sq nonneg]
      exact div_mul_cancel₀ _ (ne_of_gt speed_pos)
  · refine ⟨1, zero_le_one, le_refl _, ?_, fun _ => rfl, fun reached => absurd reached fast⟩
    have below : ¬√(x ^ 2 + y ^ 2) - realspe ≥ acc := by
      intro reached
      apply fast
      linarith
    simp only [antiSlip, if_neg below, one_mul]
    split_ifs <;> rfl

/-- The gain from a wheel's speed to its duty cycle before the last limit. -/
noncomputable def Settings.gain (s : Settings) : ℝ := 50 / 6000 * 14 * s.rate

/-- The duty cycles, seen from 50, are those before the last limit scaled by one factor. -/
theorem setSpeed_duty (s : Settings) (last : Wheel → ℝ) (x y rotation : ℝ) (wheel : Wheel) :
    (setSpeed s last x y rotation).duty wheel - 50 =
      saturation 48 (maxAbs fun w => s.gain * s.arg w *
          wheelSpeed (antiSlip s.realspe x y).1 (antiSlip s.realspe x y).2 rotation w) *
        (s.gain * s.arg wheel *
          wheelSpeed (antiSlip s.realspe x y).1 (antiSlip s.realspe x y).2 rotation wheel) := by
  have unlimited : limitAcceleration s last
      (wheelSpeed (antiSlip s.realspe x y).1 (antiSlip s.realspe x y).2 rotation) =
      wheelSpeed (antiSlip s.realspe x y).1 (antiSlip s.realspe x y).2 rotation := by
    simp [limitAcceleration, accLimitEnable]
  have offset : ∀ w, pwm s (wheelSpeed (antiSlip s.realspe x y).1 (antiSlip s.realspe x y).2
      rotation) w - 50 = s.gain * s.arg w *
        wheelSpeed (antiSlip s.realspe x y).1 (antiSlip s.realspe x y).2 rotation w := by
    intro w
    rw [pwm, Settings.gain]
    ring
  simp only [setSpeed, unlimited, limitPwm, offset, saturation, ge_iff_le]
  split_ifs
  · ring
  · rw [offset, one_mul]

/-- The duty cycles realise the speed `(scale * x, scale * y, rotation)` with a gain that
is common to all wheels. -/
structure Realises (s : Settings) (x y rotation : ℝ) (duty : Wheel → ℝ) (scale gain : ℝ) :
    Prop where
  scale_nonneg : 0 ≤ scale
  scale_le_one : scale ≤ 1
  gain_pos : 0 < gain
  range : ∀ wheel, 2 ≤ duty wheel ∧ duty wheel ≤ 98
  speeds : ∀ wheel,
    duty wheel - 50 = gain * s.arg wheel * wheelSpeed (scale * x) (scale * y) rotation wheel
  slow : √(x ^ 2 + y ^ 2) < s.realspe + acc → scale = 1
  fast : s.realspe + acc ≤ √(x ^ 2 + y ^ 2) →
    √((scale * x) ^ 2 + (scale * y) ^ 2) = s.realspe + acc
  /-- The gain is the unsaturated one unless a duty cycle would leave the range. -/
  unsaturated : (∀ wheel,
      2 ≤ 50 + s.gain * s.arg wheel * wheelSpeed (scale * x) (scale * y) rotation wheel ∧
        50 + s.gain * s.arg wheel * wheelSpeed (scale * x) (scale * y) rotation wheel ≤ 98) →
    gain = s.gain
  /-- Otherwise it is smaller, and the extreme duty cycle is an end of the range. -/
  saturated : ∀ wheel,
    ¬(2 ≤ 50 + s.gain * s.arg wheel * wheelSpeed (scale * x) (scale * y) rotation wheel ∧
        50 + s.gain * s.arg wheel * wheelSpeed (scale * x) (scale * y) rotation wheel ≤ 98) →
    gain < s.gain ∧ ∃ extreme, (∀ other, |duty other - 50| ≤ |duty extreme - 50|) ∧
      (duty extreme = 2 ∨ duty extreme = 98)

theorem abs_le_iff_range (value : ℝ) : |value| ≤ 48 ↔ 2 ≤ 50 + value ∧ 50 + value ≤ 98 := by
  rw [abs_le]
  constructor <;> rintro ⟨lower, upper⟩ <;> constructor <;> linarith

theorem setSpeed_realises {s : Settings} (rate : 0 < s.rate) (forward : 0 ≤ s.realspe)
    (last : Wheel → ℝ) (x y rotation : ℝ) :
    ∃ scale gain,
      Realises s x y rotation (setSpeed s last x y rotation).duty scale gain := by
  obtain ⟨scale, nonneg, le_one, limited, slow, fast⟩ := antiSlip_scales forward x y
  have duty := setSpeed_duty s last x y rotation
  have peak := peak_maxAbs fun w => s.gain * s.arg w *
    wheelSpeed (scale * x) (scale * y) rotation w
  have gain_pos : 0 < s.gain := by
    rw [Settings.gain]
    positivity
  simp only [limited] at duty
  generalize (maxAbs fun w => s.gain * s.arg w *
    wheelSpeed (scale * x) (scale * y) rotation w) = largest at duty peak
  have factor_pos : 0 < saturation 48 largest := saturation_pos (by norm_num)
  refine ⟨scale, saturation 48 largest * s.gain, nonneg, le_one, mul_pos factor_pos gain_pos,
    ?_, ?_, slow, fast, ?_, ?_⟩
  · intro wheel
    have bound : |saturation 48 largest * _| ≤ 48 := peak.saturated (by norm_num) wheel
    rw [← duty, abs_le_iff_range] at bound
    simpa using bound
  · intro wheel
    rw [duty]
    ring
  · intro fits
    rw [peak.saturation_eq_one (by norm_num) fun wheel => (abs_le_iff_range _).mpr (fits wheel),
      one_mul]
  · intro wheel leaves
    rw [← abs_le_iff_range, not_le] at leaves
    obtain ⟨smaller, extreme, reached⟩ := peak.saturation_lt_one (by norm_num) leaves
    refine ⟨by nlinarith, extreme, ?_, ?_⟩
    · intro other
      rw [duty, duty, reached]
      exact peak.saturated (by norm_num) other
    · rw [← duty] at reached
      rcases abs_eq (by norm_num) |>.mp reached with upper | lower
      · exact .inr (by linarith)
      · exact .inl (by linarith)

/-- The wheels' speeds determine the robot's. -/
theorem wheelSpeed_scaled_injective {x y rotation x' y' rotation' factor : ℝ}
    (same : ∀ wheel,
      wheelSpeed x y rotation wheel = factor * wheelSpeed x' y' rotation' wheel) :
    x = factor * x' ∧ y = factor * y' ∧ rotation = factor * rotation' := by
  have fl := same .fl
  have fr := same .fr
  have bl := same .bl
  simp only [wheelSpeed] at fl fr bl
  have coeffXY_ne : coeffXY ≠ 0 := by norm_num [coeffXY]
  have coeffR_ne : coeffR ≠ 0 := by norm_num [coeffR]
  refine ⟨mul_left_cancel₀ coeffXY_ne ?_, mul_left_cancel₀ coeffXY_ne ?_,
    mul_left_cancel₀ coeffR_ne ?_⟩
  · linear_combination (fl - bl) / 2
  · linear_combination (fl + fr) / 2
  · linear_combination 50 * (fr - bl)

theorem Realises.determines {s s' : Settings} {x y rotation x' y' rotation' : ℝ}
    {duty : Wheel → ℝ} {scale gain scale' gain' : ℝ} (factors : ∀ wheel, s.arg wheel ≠ 0)
    (wheels : s'.arg = s.arg) (first : Realises s x y rotation duty scale gain)
    (second : Realises s' x' y' rotation' duty scale' gain') :
    ∃ factor, 0 < factor ∧ scale * x = factor * (scale' * x') ∧
      scale * y = factor * (scale' * y') ∧ rotation = factor * rotation' := by
  refine ⟨gain' / gain, div_pos second.gain_pos first.gain_pos, ?_⟩
  apply wheelSpeed_scaled_injective
  intro wheel
  have nonzero : (s.arg wheel : ℝ) ≠ 0 := Int.cast_ne_zero.mpr (factors wheel)
  have gain_ne := ne_of_gt first.gain_pos
  have same := (first.speeds wheel).symm.trans (second.speeds wheel)
  rw [wheels] at same
  field_simp
  apply mul_left_cancel₀ nonzero
  linarith

/-- The chassis command: the duty cycles of every call of `SetSpeed` realise the commanded
speed, and with the same factors of the wheels they determine what they realise up to one
positive factor. -/
theorem chassis_command {s : Settings} (rate : 0 < s.rate) (forward : 0 ≤ s.realspe)
    (factors : ∀ wheel, s.arg wheel ≠ 0) (last : Wheel → ℝ) (x y rotation : ℝ) :
    (∃ scale gain,
      Realises s x y rotation (setSpeed s last x y rotation).duty scale gain) ∧
    ∀ (s' : Settings) (last' : Wheel → ℝ) (x' y' rotation' scale gain scale' gain' : ℝ),
      s'.arg = s.arg →
      Realises s x y rotation (setSpeed s last x y rotation).duty scale gain →
      Realises s' x' y' rotation' (setSpeed s' last' x' y' rotation').duty scale' gain' →
      (setSpeed s last x y rotation).duty = (setSpeed s' last' x' y' rotation').duty →
      ∃ factor, 0 < factor ∧ scale * x = factor * (scale' * x') ∧
        scale * y = factor * (scale' * y') ∧ rotation = factor * rotation' := by
  refine ⟨setSpeed_realises rate forward last x y rotation, ?_⟩
  intro s' last' x' y' rotation' scale gain scale' gain' wheels first second same
  rw [same] at first
  exact first.determines factors wheels second

/-- The robot at rest gets the order to drive with 1000 mm/s along its x axis. -/
theorem chassis_command_start :
    ∃ scale gain, Realises (robotSettings 0) 1000 0 0
      (setSpeed (robotSettings 0) (fun _ => 0) 1000 0 0).duty scale gain := by
  refine (chassis_command ?_ ?_ ?_ _ _ _ _).1
  · norm_num [robotSettings]
  · exact le_refl _
  · intro wheel
    cases wheel <;> decide

end BadmintonRobot.Chassis
