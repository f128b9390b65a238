import Mathlib.Analysis.Calculus.FDeriv.Prod
import Mathlib.Tactic.LinearCombination

/-!
# Newton's method for systems of equations

A step goes to the zero of the linear approximation. In the plane the linear approximation is given
by its four coefficients, and is invertible only if their determinant is not zero.
-/

namespace BadmintonRobot.Numeric

section Step

variable {𝕜 E : Type} [NontriviallyNormedField 𝕜] [NormedAddCommGroup E] [NormedSpace 𝕜 E]

/-- A step of Newton's method for the equation `F x = 0`. -/
noncomputable def newtonStep (𝕜 : Type) {E : Type} [NontriviallyNormedField 𝕜]
    [NormedAddCommGroup E] [NormedSpace 𝕜 E] (F : E → E) (x : E) : E :=
  x - (fderiv 𝕜 F x).inverse (F x)

/-- A step adds the solution of the linear system. -/
theorem newtonStep_eq {F : E → E} {F' : E →L[𝕜] E} {x d : E} (derivative : HasFDerivAt F F' x)
    (invertible : F'.IsInvertible) (solves : F' d = -F x) : newtonStep 𝕜 F x = x + d := by
  have value : F x = F' (-d) := by rw [map_neg, solves, neg_neg]
  rw [newtonStep, derivative.fderiv, value, invertible.inverse_apply_self, sub_neg_eq_add]

theorem newtonStep_eq_self {F : E → E} {x : E} (zero : F x = 0) : newtonStep 𝕜 F x = x := by
  rw [newtonStep, zero, map_zero, sub_zero]

end Step

section Plane

variable {𝕜 : Type} [NontriviallyNormedField 𝕜]

/-- The linear map of the plane with the given coefficients, row by row. -/
noncomputable def planeMap (a b c d : 𝕜) : 𝕜 × 𝕜 →L[𝕜] 𝕜 × 𝕜 :=
  (a • ContinuousLinearMap.fst 𝕜 𝕜 𝕜 + b • ContinuousLinearMap.snd 𝕜 𝕜 𝕜).prod
    (c • ContinuousLinearMap.fst 𝕜 𝕜 𝕜 + d • ContinuousLinearMap.snd 𝕜 𝕜 𝕜)

@[simp] theorem planeMap_apply (a b c d : 𝕜) (x : 𝕜 × 𝕜) :
    planeMap a b c d x = (a * x.1 + b * x.2, c * x.1 + d * x.2) := rfl

/-- An invertible map of the plane has a determinant that is not zero. -/
theorem det_ne_zero_of_isInvertible {a b c d : 𝕜} (invertible : (planeMap a b c d).IsInvertible) :
    a * d - b * c ≠ 0 := by
  intro det
  have injective := invertible.injective
  -- the columns of the adjugate matrix are mapped to zero
  have first : planeMap a b c d (d, -c) = planeMap a b c d 0 := by
    simp only [planeMap_apply, Prod.fst_zero, Prod.snd_zero, mul_zero, add_zero, Prod.mk.injEq]
    constructor
    · linear_combination det
    · ring
  have second : planeMap a b c d (b, -a) = planeMap a b c d 0 := by
    simp only [planeMap_apply, Prod.fst_zero, Prod.snd_zero, mul_zero, add_zero, Prod.mk.injEq]
    constructor
    · ring
    · linear_combination -det
  have row1 := Prod.ext_iff.mp (injective first)
  have row2 := Prod.ext_iff.mp (injective second)
  simp only [Prod.fst_zero, Prod.snd_zero, neg_eq_zero] at row1 row2
  have all : planeMap a b c d (1, 0) = planeMap a b c d 0 := by
    simp [row1.1, row1.2, row2.1, row2.2]
  exact one_ne_zero (Prod.ext_iff.mp (injective all)).1

/-- A map of the plane with a determinant that is not zero is invertible. -/
theorem isInvertible_of_det {a b c d : 𝕜} (det : a * d - b * c ≠ 0) :
    (planeMap a b c d).IsInvertible := by
  have cancel : (a * d - b * c) * (a * d - b * c)⁻¹ = 1 := mul_inv_cancel₀ det
  generalize (a * d - b * c)⁻¹ = r at cancel
  refine .of_inverse (g := planeMap (d * r) (-b * r) (-c * r) (a * r)) ?_ ?_ <;>
  · refine ContinuousLinearMap.ext fun x => Prod.ext ?_ ?_
    · simp only [ContinuousLinearMap.comp_apply, planeMap_apply, ContinuousLinearMap.id_apply]
      linear_combination x.1 * cancel
    · simp only [ContinuousLinearMap.comp_apply, planeMap_apply, ContinuousLinearMap.id_apply]
      linear_combination x.2 * cancel

end Plane

end BadmintonRobot.Numeric
