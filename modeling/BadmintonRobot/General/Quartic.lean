import Mathlib
import BadmintonRobot.General.Mymath
import BadmintonRobot.Numeric.Newton

/-!
# The solver for equations of degree 4

`solu_q` looks for a factor `x^2 + u x + v` of the polynomial by Newton's method for the remainder of
the division by it, and solves the two quadratic equations. The partial derivatives of the remainder
come from a second division.
-/

namespace BadmintonRobot.General

open Numeric Polynomial

namespace Quartic

variable (a : Quartic)

/-- The polynomial with the coefficients of the array. -/
noncomputable def poly : ℝ[X] :=
  C a.a4 * X ^ 4 + C a.a3 * X ^ 3 + C a.a2 * X ^ 2 + C a.a1 * X + C a.a0

/-- The divisor of an iterate. -/
noncomputable def factor (u v : ℝ) : ℝ[X] := X ^ 2 + C u * X + C v

/-- The remainder of the division by the divisor of an iterate: the coefficient of `x` and the
constant. -/
noncomputable def remainder (iterate : ℝ × ℝ) : ℝ × ℝ :=
  ((a.poly %ₘ factor iterate.1 iterate.2).coeff 1, (a.poly %ₘ factor iterate.1 iterate.2).coeff 0)

section Division

variable (u v : ℝ)

/-- The coefficients `p1` and `p0` of the quotient. -/
def p1 : ℝ := a.a3 - u * a.a4

def p0 : ℝ := a.a2 - v * a.a4 - u * a.p1 u

/-- The remainder as the loop computes it. -/
def r0 : ℝ := a.a1 - v * a.p1 u - u * a.p0 u v

def r1 : ℝ := a.a0 - v * a.p0 u v

/-- The partial derivatives as the loop computes them. -/
def r0v : ℝ := u * a.a4 - a.p1 u

def r1v : ℝ := v * a.a4 - a.p0 u v

def r0u : ℝ := a.r1v u v - u * a.r0v u

def r1u : ℝ := -1 * v * a.r0v u

theorem factor_monic : (factor u v).Monic := by
  unfold factor
  monicity!

theorem degree_factor : (factor u v).degree = 2 := by
  unfold factor
  compute_degree!

theorem division :
    (C (a.r0 u v) * X + C (a.r1 u v)) +
      factor u v * (C a.a4 * X ^ 2 + C (a.p1 u) * X + C (a.p0 u v)) = a.poly := by
  simp only [poly, factor, r0, r1, p0, p1, map_sub, map_mul]
  ring

theorem remainder_eq : a.remainder (u, v) = (a.r0 u v, a.r1 u v) := by
  have small : (C (a.r0 u v) * X + C (a.r1 u v)).degree < (factor u v).degree := by
    rw [degree_factor]
    exact lt_of_le_of_lt degree_linear_le (by decide)
  have unique := (div_modByMonic_unique _ _ (factor_monic u v) ⟨a.division u v, small⟩).2
  rw [remainder, unique]
  simp

/-- The Jacobian of the remainder. -/
theorem hasFDerivAt_remainder :
    HasFDerivAt a.remainder (planeMap (a.r0u u v) (a.r0v u) (a.r1u u v) (a.r1v u v)) (u, v) := by
  have function : a.remainder = fun w : ℝ × ℝ => (a.r0 w.1 w.2, a.r1 w.1 w.2) :=
    funext fun w => a.remainder_eq w.1 w.2
  have atU : HasFDerivAt (fun w : ℝ × ℝ => w.1) (.fst ℝ ℝ ℝ) (u, v) := hasFDerivAt_fst
  have atV : HasFDerivAt (fun w : ℝ × ℝ => w.2) (.snd ℝ ℝ ℝ) (u, v) := hasFDerivAt_snd
  have atP1 := (atU.mul_const a.a4).const_sub a.a3
  have atP0 := ((atV.mul_const a.a4).const_sub a.a2).sub (atU.mul atP1)
  have atR0 := ((atV.mul atP1).const_sub a.a1).sub (atU.mul atP0)
  have atR1 := (atV.mul atP0).const_sub a.a0
  rw [function]
  refine (atR0.prodMk atR1).congr_fderiv (ContinuousLinearMap.ext fun w => ?_)
  simp only [ContinuousLinearMap.prod_apply, sub_apply,
    neg_apply, add_apply, smul_apply,
    ContinuousLinearMap.coe_fst', ContinuousLinearMap.coe_snd', smul_eq_mul, Pi.sub_apply,
    Pi.mul_apply, planeMap_apply, Prod.mk.injEq, r0u, r0v, r1u, r1v, p0, p1]
  constructor
  · ring
  · ring

end Division

section Iteration

/-- The Jacobian of the remainder at an iterate can be inverted. -/
def Nonsingular (iterate : ℝ × ℝ) : Prop := (fderiv ℝ a.remainder iterate).IsInvertible

variable {u v : ℝ}

theorem nonsingular_iff :
    a.Nonsingular (u, v) ↔ a.r0u u v * a.r1v u v - a.r0v u * a.r1u u v ≠ 0 := by
  rw [Nonsingular, (a.hasFDerivAt_remainder u v).fderiv]
  exact ⟨det_ne_zero_of_isInvertible, isInvertible_of_det⟩

/-- The solution of the linear system in a turn is the step of Newton's method. -/
theorem getDuDv_newton (nonsingular : a.Nonsingular (u, v)) :
    getDuDv (a.r0 u v) (a.r0u u v) (a.r0v u) (a.r1 u v) (a.r1u u v) (a.r1v u v) =
      some ((newtonStep ℝ a.remainder (u, v)).2 - v, (newtonStep ℝ a.remainder (u, v)).1 - u) := by
  have det := a.nonsingular_iff.mp nonsingular
  have derivative := a.hasFDerivAt_remainder u v
  rw [Nonsingular, derivative.fderiv] at nonsingular
  have value := a.remainder_eq u v
  generalize a.r0 u v = r0, a.r1 u v = r1, a.r0u u v = r0u, a.r0v u = r0v, a.r1u u v = r1u,
    a.r1v u v = r1v at *
  have opposite : r0v * r1u - r0u * r1v = -(r0u * r1v - r0v * r1u) := by ring
  have solves : planeMap r0u r0v r1u r1v ((r0v * r1 - r0 * r1v) / (r0u * r1v - r0v * r1u),
      -((r0u * r1 - r0 * r1u) / (r0u * r1v - r0v * r1u))) = -a.remainder (u, v) := by
    have cancel := mul_inv_cancel₀ det
    rw [value, planeMap_apply, Prod.neg_mk, Prod.mk.injEq, div_eq_mul_inv, div_eq_mul_inv]
    constructor
    · linear_combination -r0 * cancel
    · linear_combination -r1 * cancel
  simp only [getDuDv, divide, opposite, neg_eq_zero, div_neg, det, if_false,
    Option.bind_eq_bind, Option.bind_some, newtonStep_eq derivative nonsingular solves, Prod.mk_add_mk,
    add_sub_cancel_left]

/-- The roots that a turn writes, with the quotient at the start and the divisor at the end of
the turn. -/
noncomputable def written (iterate next : ℝ × ℝ) : Option (Fin 4 → Point) := do
  let (first, second) ← soluW 1 next.1 next.2
  let (third, fourth) ← soluW a.a4 (a.p1 iterate.1) (a.p0 iterate.1 iterate.2)
  some fun
    | 0 => first
    | 1 => second
    | 2 => third
    | 3 => fourth

/-- A turn of the loop as a step of Newton's method. -/
theorem soluQLoop_newton (ro : Fin 4 → Point) (turns : Nat) (nonsingular : a.Nonsingular (u, v)) :
    soluQLoop a ro (turns + 1) u v =
      let next := newtonStep ℝ a.remainder (u, v)
      if |next.1 - u| < 0.00000001 ∧ |next.2 - v| < 0.00000001 then a.written (u, v) next
      else soluQLoop a ro turns next.1 next.2 := by
  have solved := a.getDuDv_newton nonsingular
  simp only [r0, r1, r0u, r0v, r1u, r1v, p0, p1] at solved
  rw [soluQLoop]
  simp only [solved, Option.bind_eq_bind, Option.bind_some, abs'_eq, add_sub_cancel]
  rfl

/-- The iterate at the start of a turn of `solu_q`. -/
inductive Reached : (turn : Nat) → ℝ × ℝ → Prop
  | start : Reached 0 (-2, 1)
  | next {turn : Nat} {u v d0 d1 : ℝ} (reached : Reached turn (u, v))
      (solved : getDuDv (a.r0 u v) (a.r0u u v) (a.r0v u) (a.r1 u v) (a.r1u u v) (a.r1v u v) =
        some (d0, d1))
      (coarse : ¬(abs' d1 < 0.00000001 ∧ abs' d0 < 0.00000001)) : Reached (turn + 1) (u + d1, v + d0)

variable {a}

/-- From a reached iterate on, `solu_q` is its loop with the turns that are left. -/
theorem Reached.soluQ_eq (ro : Fin 4 → Point) {turn : Nat} {iterate : ℝ × ℝ}
    (reached : a.Reached turn iterate) (left : turn ≤ 50) :
    soluQ a ro = soluQLoop a ro (50 - turn) iterate.1 iterate.2 := by
  induction reached with
  | start => rfl
  | @next turn u v d0 d1 reached solved coarse ih =>
    have turns : 50 - turn = 50 - (turn + 1) + 1 := by omega
    simp only [r0, r1, r0u, r0v, r1u, r1v, p0, p1] at solved
    rw [ih (by omega), turns, soluQLoop]
    simp only [solved, Option.bind_eq_bind, Option.bind_some, coarse, if_false]

end Iteration

end Quartic

/-- A root as a complex number. -/
def Point.toComplex (p : Point) : ℂ := ⟨p.x, p.y⟩

/-- A quadratic polynomial with real coefficients, over the complex numbers. -/
noncomputable def quadratic (a b c : ℝ) : ℂ[X] := C (a : ℂ) * X ^ 2 + C (b : ℂ) * X + C (c : ℂ)

/-- A quadratic polynomial splits by the sum and the product of its roots. -/
theorem quadratic_split {a b c : ℝ} {z w : Point}
    (sum : a * (z.x + w.x) = -b ∧ z.y + w.y = 0)
    (product : a * (z.x * w.x - z.y * w.y) = c ∧ z.x * w.y + z.y * w.x = 0) :
    quadratic a b c = C (a : ℂ) * ((X - C z.toComplex) * (X - C w.toComplex)) := by
  have sums : (b : ℂ) = -(a * (z.toComplex + w.toComplex)) := by
    refine Complex.ext ?_ ?_ <;> simp [Point.toComplex, sum.1, sum.2]
  have products : (c : ℂ) = a * (z.toComplex * w.toComplex) := by
    refine Complex.ext ?_ ?_ <;> simp [Point.toComplex, product.1, product.2]
  rw [quadratic, sums, products]
  simp only [map_mul, map_neg, map_add]
  ring

/-- `solu_w` splits the quadratic polynomial. -/
theorem soluW_split {a : ℝ} (lead : a ≠ 0) (b c : ℝ) :
    ∃ first second, soluW a b c = some (first, second) ∧
      quadratic a b c = C (a : ℂ) * ((X - C first.toComplex) * (X - C second.toComplex)) := by
  have double : 2 * a ≠ 0 := mul_ne_zero two_ne_zero lead
  generalize quotient : -1 * b / (2 * a) = m
  have sum : 2 * a * m = -b := by rw [← quotient, mul_div_cancel₀ _ double, neg_one_mul]
  by_cases real : b * b - 4 * a * c ≥ 0
  · generalize root : √(b * b - 4 * a * c) / (2 * a) = n
    have square : (2 * a * n) ^ 2 = b * b - 4 * a * c := by
      rw [← root, mul_div_cancel₀ _ double, Real.sq_sqrt real]
    refine ⟨⟨m + n, 0⟩, ⟨m - n, 0⟩, ?_, quadratic_split ⟨?_, by ring⟩ ⟨?_, by ring⟩⟩
    · simp only [soluW, divide, double, real, quotient, root, if_true, if_false,
        Option.bind_eq_bind, Option.bind_some]
    · linear_combination sum
    · refine mul_left_cancel₀ (mul_ne_zero two_ne_zero double) ?_
      linear_combination (2 * a * m - b) * sum - square
  · generalize root : √(-1 * (b * b - 4 * a * c)) / (2 * a) = n
    have square : (2 * a * n) ^ 2 = -1 * (b * b - 4 * a * c) := by
      rw [← root, mul_div_cancel₀ _ double, Real.sq_sqrt (by linarith)]
    refine ⟨⟨m, n⟩, ⟨m, -n⟩, ?_, quadratic_split ⟨?_, by ring⟩ ⟨?_, by ring⟩⟩
    · simp only [soluW, divide, double, real, quotient, root, if_false, Option.bind_eq_bind,
        Option.bind_some]
    · linear_combination sum
    · refine mul_left_cancel₀ (mul_ne_zero two_ne_zero double) ?_
      linear_combination (2 * a * m - b) * sum + square

namespace Quartic

variable {a : Quartic} {u v : ℝ}

/-- Without a remainder the polynomial is the product of the divisor and the quotient. -/
theorem map_poly (zero : a.remainder (u, v) = 0) :
    a.poly.map (algebraMap ℝ ℂ) = quadratic 1 u v * quadratic a.a4 (a.p1 u) (a.p0 u v) := by
  rw [remainder_eq, Prod.mk_eq_zero] at zero
  rw [← a.division u v, zero.1, zero.2]
  simp [factor, quadratic]

/-- The roots that are written at an iterate without a remainder. -/
theorem written_roots (lead : a.a4 ≠ 0) (zero : a.remainder (u, v) = 0) :
    ∃ roots, a.written (u, v) (u, v) = some roots ∧
      a.poly.aroots ℂ = {(roots 0).toComplex, (roots 1).toComplex, (roots 2).toComplex,
        (roots 3).toComplex} := by
  obtain ⟨first, second, solved1, split1⟩ := soluW_split one_ne_zero u v
  obtain ⟨third, fourth, solved2, split2⟩ := soluW_split lead (a.p1 u) (a.p0 u v)
  refine ⟨_, by simp only [written, solved1, solved2, Option.bind_eq_bind, Option.bind_some]; rfl,
    ?_⟩
  have product : a.poly.map (algebraMap ℝ ℂ) =
      C (a.a4 : ℂ) * (Multiset.map (fun z => X - C z) {first.toComplex, second.toComplex,
        third.toComplex, fourth.toComplex}).prod := by
    rw [map_poly zero, split1, split2]
    simp only [Complex.ofReal_one, map_one, Multiset.insert_eq_cons, Multiset.map_cons,
      Multiset.map_singleton, Multiset.prod_cons, Multiset.prod_singleton]
    ring
  rw [aroots_def, product, roots_C_mul _ (Complex.ofReal_ne_zero.mpr lead),
    roots_multiset_prod_X_sub_C]

/-- A turn of `solu_q` is a step of Newton's method for the remainder of the division by
`x^2 + u x + v`, and an iterate without a remainder ends the loop with the roots of the polynomial,
each as often as its multiplicity. -/
theorem soluQ_roots (a : Quartic) (lead : a.a4 ≠ 0) (ro : Fin 4 → Point) :
    (∀ turns u v, a.Nonsingular (u, v) →
      soluQLoop a ro (turns + 1) u v =
        let next := newtonStep ℝ a.remainder (u, v)
        if |next.1 - u| < 0.00000001 ∧ |next.2 - v| < 0.00000001 then a.written (u, v) next
        else soluQLoop a ro turns next.1 next.2) ∧
    ∀ turn < 50, ∀ iterate, a.Reached turn iterate → a.Nonsingular iterate →
      a.remainder iterate = 0 →
      ∃ roots, soluQ a ro = some roots ∧
        a.poly.aroots ℂ = {(roots 0).toComplex, (roots 1).toComplex, (roots 2).toComplex,
          (roots 3).toComplex} := by
  refine ⟨fun turns u v => a.soluQLoop_newton ro turns, ?_⟩
  rintro turn left ⟨u, v⟩ reached nonsingular zero
  have turns : 50 - turn = 50 - (turn + 1) + 1 := by omega
  rw [reached.soluQ_eq ro left.le, turns, a.soluQLoop_newton ro _ nonsingular,
    newtonStep_eq_self zero]
  simp only [sub_self, abs_zero]
  rw [if_pos (by norm_num)]
  exact written_roots lead zero

/-- The starting iterate divides `x^4 - 2 x^3 + x^2`, which has the roots 0 and 1 twice. -/
theorem soluQ_roots_start : ∃ roots, soluQ ⟨0, 0, 1, -2, 1⟩ (fun _ => ⟨0, 0⟩) = some roots ∧
    (Quartic.mk 0 0 1 (-2) 1).poly.aroots ℂ = {(roots 0).toComplex, (roots 1).toComplex,
      (roots 2).toComplex, (roots 3).toComplex} := by
  refine (soluQ_roots ⟨0, 0, 1, -2, 1⟩ one_ne_zero _).2 0 (by decide) _ .start ?_ ?_
  · rw [nonsingular_iff]
    norm_num [r0u, r0v, r1u, r1v, p0, p1]
  · rw [remainder_eq]
    norm_num [r0, r1, p0, p1]

end Quartic

end BadmintonRobot.General
