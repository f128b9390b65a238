import Mathlib
import BadmintonRobot.General.Mymath

/-!
# Points and lines

The functions of `mymath.c` for the distance of a point from a line and for the foot of the
perpendicular. A line is given by its equation, by two points, or by a point and a slope; the last
two forms compute the equation. Two equations of one line differ by a factor, on which neither the
foot nor the distance depends.
-/

namespace BadmintonRobot.General

/-- The function `GetDis_P2L`. -/
noncomputable def getDisP2L (p : Point) (a b c : ℝ) : ℝ :=
  abs' (a * p.x + b * p.y + c) / √(a * a + b * b)

/-- The function `GetDis_P2L_PP`. -/
noncomputable def getDisP2LPP (p p1 p2 : Point) : ℝ :=
  let a := p2.y - p1.y
  let b := p1.x - p2.x
  let c := p2.x * p1.y - p1.x * p2.y
  getDisP2L p a b c

/-- The function `GetDis_P2L_PK`. -/
noncomputable def getDisP2LPK (p p0 : Point) (k : ℝ) : ℝ :=
  let a := k
  let b := -1
  let c := -k * p0.x + p0.y
  getDisP2L p a b c

/-- The function `GetFoot_P2L`. -/
noncomputable def getFootP2L (p : Point) (a b c : ℝ) : Point where
  x := (b * b * p.x - a * b * p.y - a * c) / (a * a + b * b)
  y := (a * a * p.y - a * b * p.x - b * c) / (a * a + b * b)

/-- The function `GetFoot_P2L_PP`. -/
noncomputable def getFootP2LPP (p p1 p2 : Point) : Point :=
  let a := p2.y - p1.y
  let b := p1.x - p2.x
  let c := p2.x * p1.y - p1.x * p2.y
  getFootP2L p a b c

/-- The function `GetFoot_P2L_PK`. -/
noncomputable def getFootP2LPK (p p0 : Point) (k : ℝ) : Point :=
  let a := k
  let b := -1
  let c := -k * p0.x + p0.y
  getFootP2L p a b c

/-- The line through two points. -/
def Point.line (p1 p2 : Point) : Set Point :=
  {q | ∃ t : ℝ, q = ⟨p1.x + t * (p2.x - p1.x), p1.y + t * (p2.y - p1.y)⟩}

section Equation

variable {a b : ℝ} (c : ℝ) (p : Point)

theorem foot_equation (proper : a ^ 2 + b ^ 2 ≠ 0) :
    a * (getFootP2L p a b c).x + b * (getFootP2L p a b c).y + c = 0 := by
  simp only [getFootP2L]
  field_simp
  ring

/-- The way from the foot to the point is along the normal of the line. -/
theorem sub_foot (proper : a ^ 2 + b ^ 2 ≠ 0) :
    p.x - (getFootP2L p a b c).x = (a * p.x + b * p.y + c) / (a * a + b * b) * a ∧
      p.y - (getFootP2L p a b c).y = (a * p.x + b * p.y + c) / (a * a + b * b) * b := by
  simp only [getFootP2L]
  constructor
  · field_simp
    ring
  · field_simp
    ring

theorem getLength_foot (proper : a ^ 2 + b ^ 2 ≠ 0) :
    getLength p (getFootP2L p a b c) = getDisP2L p a b c := by
  obtain ⟨across, along⟩ := sub_foot c p proper
  have square : (p.x - (getFootP2L p a b c).x) * (p.x - (getFootP2L p a b c).x) +
      (p.y - (getFootP2L p a b c).y) * (p.y - (getFootP2L p a b c).y) =
      (a * p.x + b * p.y + c) ^ 2 / (a * a + b * b) := by
    rw [across, along]
    field_simp
  rw [getLength, square, Real.sqrt_div (sq_nonneg _), Real.sqrt_sq_eq_abs, getDisP2L, abs'_eq]

/-- No point of the line is nearer than the foot. -/
theorem getDisP2L_le_getLength (proper : a ^ 2 + b ^ 2 ≠ 0) {q : Point}
    (on : a * q.x + b * q.y + c = 0) : getDisP2L p a b c ≤ getLength p q := by
  have normal : 0 < a * a + b * b := by
    rw [← sq, ← sq]
    exact lt_of_le_of_ne (by positivity) (Ne.symm proper)
  rw [getDisP2L, abs'_eq, div_le_iff₀ (Real.sqrt_pos.mpr normal), getLength,
    ← Real.sqrt_mul (add_nonneg (mul_self_nonneg _) (mul_self_nonneg _))]
  refine Real.abs_le_sqrt ?_
  have value : a * p.x + b * p.y + c = a * (p.x - q.x) + b * (p.y - q.y) := by
    linear_combination on
  rw [value]
  nlinarith [sq_nonneg (a * (p.y - q.y) - b * (p.x - q.x))]

variable {factor : ℝ} (nonzero : factor ≠ 0)

include nonzero

theorem getFootP2L_scale :
    getFootP2L p (factor * a) (factor * b) (factor * c) = getFootP2L p a b c := by
  have square : factor * a * (factor * a) + factor * b * (factor * b) =
      factor ^ 2 * (a * a + b * b) := by ring
  have first : factor * b * (factor * b) * p.x - factor * a * (factor * b) * p.y -
      factor * a * (factor * c) = factor ^ 2 * (b * b * p.x - a * b * p.y - a * c) := by ring
  have second : factor * a * (factor * a) * p.y - factor * a * (factor * b) * p.x -
      factor * b * (factor * c) = factor ^ 2 * (a * a * p.y - a * b * p.x - b * c) := by ring
  rw [getFootP2L, square, first, second, mul_div_mul_left _ _ (pow_ne_zero 2 nonzero),
    mul_div_mul_left _ _ (pow_ne_zero 2 nonzero), getFootP2L]

theorem getDisP2L_scale :
    getDisP2L p (factor * a) (factor * b) (factor * c) = getDisP2L p a b c := by
  have value : factor * a * p.x + factor * b * p.y + factor * c =
      factor * (a * p.x + b * p.y + c) := by ring
  have square : factor * a * (factor * a) + factor * b * (factor * b) =
      factor ^ 2 * (a * a + b * b) := by ring
  rw [getDisP2L, getDisP2L, abs'_eq, abs'_eq, value, abs_mul, square,
    Real.sqrt_mul (sq_nonneg factor), Real.sqrt_sq_eq_abs,
    mul_div_mul_left _ _ (abs_ne_zero.mpr nonzero)]

end Equation

section TwoPoints

variable {p1 p2 : Point}

theorem proper_of_ne (distinct : p1 ≠ p2) :
    (p2.y - p1.y) ^ 2 + (p1.x - p2.x) ^ 2 ≠ 0 := by
  intro zero
  rw [add_eq_zero_iff_of_nonneg (sq_nonneg _) (sq_nonneg _), sq_eq_zero_iff, sq_eq_zero_iff,
    sub_eq_zero, sub_eq_zero] at zero
  exact distinct (Point.ext zero.2 zero.1.symm)

theorem getLength_sq (a b : Point) :
    getLength a b ^ 2 = (a.x - b.x) ^ 2 + (a.y - b.y) ^ 2 := by
  rw [getLength, Real.sq_sqrt (add_nonneg (mul_self_nonneg _) (mul_self_nonneg _)), sq, sq]

theorem getLength_nonneg (a b : Point) : 0 ≤ getLength a b := Real.sqrt_nonneg _

theorem getLength_pos {a b : Point} (distinct : a ≠ b) : 0 < getLength a b := by
  refine lt_of_le_of_ne (getLength_nonneg a b) fun zero => proper_of_ne distinct ?_
  linear_combination -getLength_sq a b - getLength a b * zero

/-- The equation that the functions compute is that of the line. -/
theorem mem_line_iff (distinct : p1 ≠ p2) {q : Point} :
    q ∈ p1.line p2 ↔
      (p2.y - p1.y) * q.x + (p1.x - p2.x) * q.y + (p2.x * p1.y - p1.x * p2.y) = 0 := by
  have proper := proper_of_ne distinct
  constructor
  · rintro ⟨t, rfl⟩
    ring
  · intro on
    refine ⟨((q.x - p1.x) * (p2.x - p1.x) + (q.y - p1.y) * (p2.y - p1.y)) /
      ((p2.y - p1.y) ^ 2 + (p1.x - p2.x) ^ 2), ?_⟩
    ext
    · dsimp only
      field_simp
      linear_combination (p2.y - p1.y) * on
    · dsimp only
      field_simp
      linear_combination (p1.x - p2.x) * on

/-- The equation from a point of the line and its slope is that from two points, up to a factor. -/
theorem slope_equation (slanted : p1.x ≠ p2.x) {p0 : Point}
    (on : (p2.y - p1.y) * p0.x + (p1.x - p2.x) * p0.y + (p2.x * p1.y - p1.x * p2.y) = 0) :
    (p2.y - p1.y) / (p2.x - p1.x) = 1 / (p2.x - p1.x) * (p2.y - p1.y) ∧
      -1 = 1 / (p2.x - p1.x) * (p1.x - p2.x) ∧
      -((p2.y - p1.y) / (p2.x - p1.x)) * p0.x + p0.y =
        1 / (p2.x - p1.x) * (p2.x * p1.y - p1.x * p2.y) := by
  have run : p2.x - p1.x ≠ 0 := sub_ne_zero.mpr (Ne.symm slanted)
  refine ⟨by ring, ?_, ?_⟩
  · field_simp
    ring
  · field_simp
    linear_combination -on

end TwoPoints

/-- The foot and the distance of a point for all forms of a line. -/
theorem point_line_geometry (p p1 p2 : Point) (distinct : p1 ≠ p2) :
    getFootP2LPP p p1 p2 ∈ p1.line p2 ∧
      (p.x - (getFootP2LPP p p1 p2).x) * (p2.x - p1.x) +
        (p.y - (getFootP2LPP p p1 p2).y) * (p2.y - p1.y) = 0 ∧
      getLength p (getFootP2LPP p p1 p2) = getDisP2LPP p p1 p2 ∧
      IsLeast {d | ∃ q ∈ p1.line p2, d = getLength p q} (getDisP2LPP p p1 p2) ∧
      (p1.x ≠ p2.x → ∀ p0 ∈ p1.line p2,
        getFootP2LPK p p0 ((p2.y - p1.y) / (p2.x - p1.x)) = getFootP2LPP p p1 p2 ∧
          getDisP2LPK p p0 ((p2.y - p1.y) / (p2.x - p1.x)) = getDisP2LPP p p1 p2) := by
  have proper := proper_of_ne distinct
  have on : getFootP2LPP p p1 p2 ∈ p1.line p2 := (mem_line_iff distinct).mpr (foot_equation _ p proper)
  have same : getLength p (getFootP2LPP p p1 p2) = getDisP2LPP p p1 p2 := getLength_foot _ p proper
  refine ⟨on, ?_, same, ⟨⟨_, on, same.symm⟩, ?_⟩, ?_⟩
  · obtain ⟨across, along⟩ := sub_foot (p2.x * p1.y - p1.x * p2.y) p proper
    rw [getFootP2LPP, across, along]
    ring
  · rintro d ⟨q, member, rfl⟩
    exact getDisP2L_le_getLength _ p proper ((mem_line_iff distinct).mp member)
  · intro slanted p0 member
    have run : 1 / (p2.x - p1.x) ≠ 0 := one_div_ne_zero (sub_ne_zero.mpr (Ne.symm slanted))
    obtain ⟨slope, minus, rest⟩ := slope_equation slanted ((mem_line_iff distinct).mp member)
    constructor
    · rw [getFootP2LPK, getFootP2LPP, rest, slope, minus, getFootP2L_scale _ p run]
    · rw [getDisP2LPK, getDisP2LPP, rest, slope, minus, getDisP2L_scale _ p run]

/-- The point (0, 2) and the diagonal. -/
theorem point_line_geometry_diagonal :
    getLength ⟨0, 2⟩ (getFootP2LPP ⟨0, 2⟩ ⟨0, 0⟩ ⟨1, 1⟩) = getDisP2LPP ⟨0, 2⟩ ⟨0, 0⟩ ⟨1, 1⟩ :=
  (point_line_geometry ⟨0, 2⟩ ⟨0, 0⟩ ⟨1, 1⟩ (by simp)).2.2.1

end BadmintonRobot.General
