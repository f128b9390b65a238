import Mathlib
import BadmintonRobot.Numeric.Literal

/-!
# The functions of `mymath.c`

Numbers are exact, and so is the square root. A division by zero has no result.
-/

namespace BadmintonRobot.General

/-- The structure `Point`. A root of an equation is one, with its imaginary part in `y`. -/
@[ext] structure Point where
  x : ℝ
  y : ℝ

/-- The constant `pi`. -/
noncomputable def pi : ℝ := 3.14159265359

/-- The macro `Max`. -/
noncomputable def max' (a b : ℝ) : ℝ := if a > b then a else b

/-- The macro `Abs`. -/
noncomputable def abs' (a : ℝ) : ℝ := if a > 0 then a else -a

/-- The function `MaxFour`. -/
noncomputable def maxFour (a b c d : ℝ) : ℝ :=
  let maxtemp1 := max' a b
  let maxtemp2 := max' c d
  max' maxtemp1 maxtemp2

/-- The function `GetLength`. -/
noncomputable def getLength (a b : Point) : ℝ :=
  let dx := (a.x - b.x) * (a.x - b.x)
  let dy := (a.y - b.y) * (a.y - b.y)
  √(dx + dy)

theorem max'_eq (a b : ℝ) : max' a b = max a b := by
  rw [max', max_def]
  split_ifs <;> linarith

theorem abs'_eq (a : ℝ) : abs' a = |a| := by
  rw [abs']
  split_ifs with positive
  · exact (abs_of_pos positive).symm
  · exact (abs_of_nonpos (le_of_not_gt positive)).symm

theorem getLength_axis (x : ℝ) : getLength ⟨x, 0⟩ ⟨0, 0⟩ = |x| := by
  simp [getLength, Real.sqrt_mul_self_eq_abs]

/-- Division, which has no result for the divisor 0. -/
noncomputable def divide (a b : ℝ) : Option ℝ := if b = 0 then none else some (a / b)

/-- The function `solu_w`: the two roots of a quadratic equation. -/
noncomputable def soluW (a b c : ℝ) : Option (Point × Point) := do
  let tem1 := b * b - 4 * a * c
  let m ← divide (-1 * b) (2 * a)
  if tem1 ≥ 0 then
    let n ← divide (√tem1) (2 * a)
    some (⟨m + n, 0⟩, ⟨m - n, 0⟩)
  else
    let n ← divide (√(-1 * tem1)) (2 * a)
    some (⟨m, n⟩, ⟨m, -n⟩)

/-- The function `get_du_dv`. -/
noncomputable def getDuDv (a b c d e f : ℝ) : Option (ℝ × ℝ) := do
  let g0 ← divide (b * d - a * e) (c * e - b * f)
  let g1 ← divide (c * d - a * f) (b * f - c * e)
  some (g0, g1)

/-- The coefficients of a polynomial of degree 4, from the constant up. -/
structure Quartic where
  a0 : ℝ
  a1 : ℝ
  a2 : ℝ
  a3 : ℝ
  a4 : ℝ

/-- The loop of `solu_q` with at most `turns` turns left. Without convergence it leaves
the roots as they are. -/
noncomputable def soluQLoop (a : Quartic) (ro : Fin 4 → Point) :
    (turns : Nat) → (u v : ℝ) → Option (Fin 4 → Point)
  | 0, _, _ => some ro
  | turns + 1, u, v => do
    let p2 := a.a4
    let p1 := a.a3 - u * p2
    let p0 := a.a2 - v * p2 - u * p1
    let r0 := a.a1 - v * p1 - u * p0
    let r1 := a.a0 - v * p0
    let r0v := u * p2 - p1
    let r1v := v * p2 - p0
    let r0u := r1v - u * r0v
    let r1u := -1 * v * r0v
    let (d0, d1) ← getDuDv r0 r0u r0v r1 r1u r1v
    let u := u + d1
    let v := v + d0
    if abs' d1 < 0.00000001 ∧ abs' d0 < 0.00000001 then
      let (first, second) ← soluW 1 u v
      let (third, fourth) ← soluW p2 p1 p0
      some fun
        | 0 => first
        | 1 => second
        | 2 => third
        | 3 => fourth
    else soluQLoop a ro turns u v

/-- The function `solu_q`: the roots of an equation of degree 4. -/
noncomputable def soluQ (a : Quartic) (ro : Fin 4 → Point) : Option (Fin 4 → Point) :=
  soluQLoop a ro 50 (-2) 1

end BadmintonRobot.General
