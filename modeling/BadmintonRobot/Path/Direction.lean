import Mathlib
import BadmintonRobot.Path.GoLine

/-!
# The direction of travel

`GoLine`, `Keep` and `_set_keep` take the direction to their target from `GetLineAngle`, which
corrects the value of `atan` in the second and in the third quadrant. The half line between the two
belongs to neither: for a target straight ahead in the direction of decreasing `x` the angle is 0,
and the robot drives away from it.
-/

namespace BadmintonRobot.Path

open Control General

section Keep

/-- The variables that `SetKeep` and `Keep` write. -/
structure Keep where
  aimKeepPoint : Point
  aimKeepRadian : ℝ
  speedKeepMax : ℝ
  controllers : Controllers ℝ
  speedX : ℝ
  speedY : ℝ
  speedRotation : ℝ

namespace Keep

/-- The function `SetKeep`. -/
def setKeep (endPoint : Point) (aimRadian speedMax : ℝ) (k : Keep) : Keep :=
  { k with aimKeepPoint := endPoint, aimKeepRadian := aimRadian, speedKeepMax := speedMax }

/-- The results of the two controllers in a call of `Keep`, and the variables after them. -/
noncomputable def controlled (gps : GpsState) (k : Keep) : ℝ × ℝ × Controllers ℝ :=
  let errorAngle := wrapAngle (k.aimKeepRadian - gps.radian)
  let errorDis := getLength gps.position k.aimKeepPoint
  let (angle, controllers) := anglePID errorAngle (k.controllers.pidList 4) k.controllers
  let voutA := 1000 * angle
  let (voutD, controllers) := distancePID errorDis (controllers.pidList 5) controllers
  (voutA, voutD, controllers)

/-- The speed of `Keep`. -/
noncomputable def speed (gps : GpsState) (k : Keep) : ℝ :=
  limited (k.controlled gps).2.1 k.speedKeepMax

/-- The function `Keep`. -/
noncomputable def keep (gps : GpsState) (k : Keep) : Keep :=
  let lineangle := getLineAngle gps.position k.aimKeepPoint
  let speedX := k.speed gps * Real.cos lineangle
  let speedY := k.speed gps * Real.sin lineangle
  let phi := gps.radian
  { k with
    controllers := (k.controlled gps).2.2
    speedX := speedX * Real.cos phi + speedY * Real.sin phi
    speedY := -speedX * Real.sin phi + speedY * Real.cos phi
    speedRotation := limited (k.controlled gps).1 300 }

end Keep

end Keep

/-- The speed of `_set_keep`. -/
noncomputable def KeepArgs.speed (args : KeepArgs) (gps : GpsState) (s : Keeper) : ℝ :=
  let angle := posPid (wrapAngle (args.aimRad - gps.radian)) 1 .aKeep 100 s.pids
  limited (posPid (getLength gps.position args.pt) 1 .dKeep 1000 angle.2).1 args.maxv

/-- A velocity of the robot as a velocity in the world. -/
noncomputable def worldVelocity (phi speedX speedY : ℝ) : Point where
  x := speedX * Real.cos phi - speedY * Real.sin phi
  y := speedX * Real.sin phi + speedY * Real.cos phi

/-- The functions turn a velocity of the world into one of the robot. -/
theorem worldVelocity_turned (phi x y : ℝ) :
    worldVelocity phi (x * Real.cos phi + y * Real.sin phi)
      (-x * Real.sin phi + y * Real.cos phi) = ⟨x, y⟩ := by
  have one := Real.sin_sq_add_cos_sq phi
  ext
  · simp only [worldVelocity]
    linear_combination x * one
  · simp only [worldVelocity]
    linear_combination y * one

/-- `GetLineAngle` with another value of the constant `pi`. -/
noncomputable def lineAngle (pi : ℝ) (sta fin : Point) : ℝ :=
  if abs' (sta.x - fin.x) ≤ 0.02 then if sta.y > fin.y then -pi / 2 else pi / 2
  else
    let radian := Real.arctan ((fin.y - sta.y) / (fin.x - sta.x))
    if sta.x > fin.x ∧ sta.y < fin.y then radian + pi
    else if sta.x > fin.x ∧ sta.y > fin.y then radian - pi
    else radian

theorem getLineAngle_eq : getLineAngle = lineAngle pi := rfl

/-- The unit vector from a point towards another. -/
noncomputable def toward (sta fin : Point) : Point where
  x := (fin.x - sta.x) / getLength sta fin
  y := (fin.y - sta.y) / getLength sta fin

/-- A velocity is `speed` times the unit vector towards a point, up to a relative error. -/
structure Heads (tolerance speed : ℝ) (velocity sta fin : Point) : Prop where
  x : |velocity.x - speed * (toward sta fin).x| ≤ |speed| * tolerance
  y : |velocity.y - speed * (toward sta fin).y| ≤ |speed| * tolerance

/-- An angle is the direction from a point to another. -/
structure Aims (pi tolerance angle : ℝ) (sta fin : Point) : Prop where
  range : angle ∈ Set.Icc (-pi) pi
  heads : Heads tolerance 1 ⟨Real.cos angle, Real.sin angle⟩ sta fin

/-- The angle from a point to another is their direction, and so are the velocities of the functions
that use it. -/
structure Travels (tolerance : ℝ) (sta fin : Point) : Prop where
  aims : Aims pi tolerance (getLineAngle sta fin) sta fin
  goLine : ∀ (args : LineArgs) (rates : LineRates) (gps : GpsState) (d : LineDriver),
    gps.position = sta → args.endPoint = fin → ∀ position,
      let line := (d.setLine args rates gps).line
      Heads tolerance (line.speed position) (line.velocity position) sta fin
  keep : ∀ (k : Keep) (gps : GpsState), gps.position = sta → k.aimKeepPoint = fin →
    Heads tolerance (k.speed gps)
      (worldVelocity gps.radian (k.keep gps).speedX (k.keep gps).speedY) sta fin
  setKeep : ∀ (args : KeepArgs) (gps : GpsState) (s : Keeper),
    gps.position = sta → args.pt = fin →
    Heads tolerance (args.speed gps s)
      (worldVelocity gps.radian (args.drive gps s).speedX (args.drive gps s).speedY) sta fin

/-- The direction for which `GetLineAngle` has no correction. -/
def Backward (sta fin : Point) : Prop := sta.x > fin.x ∧ sta.y = fin.y

section Direction

variable {sta fin : Point}

/-- A velocity along an angle heads where the angle does. -/
theorem Heads.scale {tolerance angle : ℝ}
    (heads : Heads tolerance 1 ⟨Real.cos angle, Real.sin angle⟩ sta fin) (speed : ℝ) :
    Heads tolerance speed ⟨speed * Real.cos angle, speed * Real.sin angle⟩ sta fin := by
  have x := heads.x
  have y := heads.y
  simp only [one_mul, abs_one] at x y
  constructor
  · rw [← mul_sub, abs_mul]
    exact mul_le_mul_of_nonneg_left x (abs_nonneg speed)
  · rw [← mul_sub, abs_mul]
    exact mul_le_mul_of_nonneg_left y (abs_nonneg speed)

/-- The velocities are as good as the angle. -/
theorem Aims.travels {tolerance : ℝ} (aims : Aims pi tolerance (getLineAngle sta fin) sta fin) :
    Travels tolerance sta fin where
  aims := aims
  goLine := by
    rintro args rates gps d rfl rfl position
    exact aims.heads.scale _
  keep := by
    rintro k gps rfl rfl
    rw [Keep.keep, worldVelocity_turned]
    exact aims.heads.scale _
  setKeep := by
    rintro args gps s rfl rfl
    rw [KeepArgs.drive, worldVelocity_turned]
    exact aims.heads.scale _

theorem getLength_eq_slope (apart : fin.x - sta.x ≠ 0) :
    getLength sta fin =
      |fin.x - sta.x| * √(1 + ((fin.y - sta.y) / (fin.x - sta.x)) ^ 2) := by
  rw [← Real.sqrt_sq_eq_abs, ← Real.sqrt_mul (sq_nonneg _), getLength]
  congr 1
  field_simp
  ring

theorem cos_arctan_slope (apart : fin.x - sta.x ≠ 0) :
    Real.cos (Real.arctan ((fin.y - sta.y) / (fin.x - sta.x))) =
      |fin.x - sta.x| / getLength sta fin := by
  rw [Real.cos_arctan, getLength_eq_slope apart, div_mul_cancel_left₀ (abs_ne_zero.mpr apart),
    one_div]

theorem sin_arctan_slope (apart : fin.x - sta.x ≠ 0) :
    Real.sin (Real.arctan ((fin.y - sta.y) / (fin.x - sta.x))) =
      (fin.y - sta.y) / (fin.x - sta.x) * |fin.x - sta.x| / getLength sta fin := by
  rw [Real.sin_arctan, getLength_eq_slope apart, mul_comm |fin.x - sta.x|,
    mul_div_mul_right _ _ (abs_ne_zero.mpr apart)]

/-- An angle near the direction heads there. -/
theorem heads_of_near (direction : ℝ) {angle tolerance : ℝ} (near : |angle - direction| ≤ tolerance)
    (cos : Real.cos direction = (toward sta fin).x) (sin : Real.sin direction = (toward sta fin).y) :
    Heads tolerance 1 ⟨Real.cos angle, Real.sin angle⟩ sta fin := by
  constructor
  · rw [one_mul, abs_one, one_mul, ← cos]
    exact (Real.abs_cos_sub_cos_le angle direction).trans near
  · rw [one_mul, abs_one, one_mul, ← sin]
    exact (Real.abs_sin_sub_sin_le angle direction).trans near

/-- For a target behind, half a turn is missing from the value of `atan`. -/
theorem heads_behind (half : ℝ) (behind : fin.x < sta.x) {turn tolerance : ℝ}
    (near : |turn - half| ≤ tolerance) (cos : ∀ x, Real.cos (x + half) = -Real.cos x)
    (sin : ∀ x, Real.sin (x + half) = -Real.sin x) :
    Heads tolerance 1
      ⟨Real.cos (Real.arctan ((fin.y - sta.y) / (fin.x - sta.x)) + turn),
        Real.sin (Real.arctan ((fin.y - sta.y) / (fin.x - sta.x)) + turn)⟩ sta fin := by
  have run : fin.x - sta.x < 0 := sub_neg.mpr behind
  refine heads_of_near (Real.arctan ((fin.y - sta.y) / (fin.x - sta.x)) + half) ?_ ?_ ?_
  · rw [add_sub_add_left_eq_sub]
    exact near
  · rw [cos, cos_arctan_slope run.ne, abs_of_neg run, neg_div, neg_neg, toward]
  · rw [sin, sin_arctan_slope run.ne, abs_of_neg run, mul_neg, div_mul_cancel₀ _ run.ne, neg_div,
      neg_neg, toward]

section Angle

variable {pi tolerance : ℝ}

theorem lineAngle_of_apart (apart : 0.02 < |sta.x - fin.x|) :
    lineAngle pi sta fin =
      if sta.x > fin.x ∧ sta.y < fin.y then
        Real.arctan ((fin.y - sta.y) / (fin.x - sta.x)) + pi
      else if sta.x > fin.x ∧ sta.y > fin.y then
        Real.arctan ((fin.y - sta.y) / (fin.x - sta.x)) - pi
      else Real.arctan ((fin.y - sta.y) / (fin.x - sta.x)) := by
  rw [lineAngle, abs'_eq, if_neg (not_le.mpr apart)]

/-- Without the correction the angle is that of the opposite direction. -/
theorem Backward.not_aims (backward : Backward sta fin) (apart : 0.02 < |sta.x - fin.x|)
    (small : tolerance < 1) : ¬Aims pi tolerance (lineAngle pi sta fin) sta fin := by
  intro aims
  have angle : lineAngle pi sta fin = 0 := by
    rw [lineAngle_of_apart apart, backward.2]
    simp
  have x := aims.heads.x
  rw [angle, Real.cos_zero, one_mul, abs_one, one_mul] at x
  have length : 0 < getLength sta fin :=
    getLength_pos fun same => absurd backward.1 (by rw [same]; exact lt_irrefl _)
  have away : (toward sta fin).x < 0 := div_neg_of_neg_of_pos (sub_neg.mpr backward.1) length
  have far := (le_abs_self _).trans x
  linarith

theorem aims_forward (close : |pi - Real.pi| ≤ tolerance) (small : tolerance < 1)
    (apart : 0.02 < |sta.x - fin.x|) (forward : sta.x < fin.x) :
    Aims pi tolerance (lineAngle pi sta fin) sta fin := by
  have run : 0 < fin.x - sta.x := sub_pos.mpr forward
  have angle : lineAngle pi sta fin = Real.arctan ((fin.y - sta.y) / (fin.x - sta.x)) := by
    rw [lineAngle_of_apart apart, if_neg (fun h => absurd h.1 (not_lt.mpr forward.le)),
      if_neg (fun h => absurd h.1 (not_lt.mpr forward.le))]
  rw [angle]
  refine ⟨?_, heads_of_near (Real.arctan ((fin.y - sta.y) / (fin.x - sta.x))) ?_ ?_ ?_⟩
  · have bounds := Real.arctan_mem_Ioo ((fin.y - sta.y) / (fin.x - sta.x))
    have near := abs_le.mp close
    have three := Real.pi_gt_three
    exact ⟨by linarith [bounds.1, near.1], by linarith [bounds.2, near.1]⟩
  · rw [sub_self, abs_zero]
    exact (abs_nonneg _).trans close
  · rw [cos_arctan_slope run.ne', abs_of_pos run, toward]
  · rw [sin_arctan_slope run.ne', abs_of_pos run, div_mul_cancel₀ _ run.ne', toward]

theorem aims_behind_above (close : |pi - Real.pi| ≤ tolerance) (small : tolerance < 1)
    (apart : 0.02 < |sta.x - fin.x|) (behind : fin.x < sta.x) (above : sta.y < fin.y) :
    Aims pi tolerance (lineAngle pi sta fin) sta fin := by
  have slope : (fin.y - sta.y) / (fin.x - sta.x) < 0 :=
    div_neg_of_pos_of_neg (sub_pos.mpr above) (sub_neg.mpr behind)
  have low := (Real.arctan_mem_Ioo ((fin.y - sta.y) / (fin.x - sta.x))).1
  have high := Real.arctan_lt_zero.mpr slope
  have near := (abs_le.mp close).1
  have three := Real.pi_gt_three
  rw [lineAngle_of_apart apart, if_pos ⟨behind, above⟩]
  exact ⟨⟨by linarith, by linarith⟩, heads_behind _ behind close Real.cos_add_pi Real.sin_add_pi⟩

theorem aims_behind_below (close : |pi - Real.pi| ≤ tolerance) (small : tolerance < 1)
    (apart : 0.02 < |sta.x - fin.x|) (behind : fin.x < sta.x) (below : fin.y < sta.y) :
    Aims pi tolerance (lineAngle pi sta fin) sta fin := by
  have slope : 0 < (fin.y - sta.y) / (fin.x - sta.x) :=
    div_pos_of_neg_of_neg (sub_neg.mpr below) (sub_neg.mpr behind)
  have low := Real.arctan_pos.mpr slope
  have high := (Real.arctan_mem_Ioo ((fin.y - sta.y) / (fin.x - sta.x))).2
  have near := (abs_le.mp close).1
  have three := Real.pi_gt_three
  rw [lineAngle_of_apart apart, if_neg (fun h => absurd h.2 (not_lt.mpr below.le)),
    if_pos ⟨behind, below⟩, sub_eq_add_neg]
  refine ⟨⟨by linarith, by linarith⟩, heads_behind (-Real.pi) behind ?_
    Real.cos_sub_pi Real.sin_sub_pi⟩
  rw [neg_sub_neg, abs_sub_comm]
  exact close

/-- The angle is right in every direction but one. -/
theorem aims_lineAngle_iff (close : |pi - Real.pi| ≤ tolerance) (small : tolerance < 1)
    (apart : 0.02 < |sta.x - fin.x|) :
    Aims pi tolerance (lineAngle pi sta fin) sta fin ↔ ¬Backward sta fin := by
  constructor
  · intro aims backward
    exact backward.not_aims apart small aims
  · intro corrected
    rcases lt_trichotomy sta.x fin.x with forward | same | behind
    · exact aims_forward close small apart forward
    · rw [same, sub_self, abs_zero] at apart
      norm_num at apart
    · rcases lt_trichotomy sta.y fin.y with above | level | below
      · exact aims_behind_above close small apart behind above
      · exact absurd ⟨behind, level⟩ corrected
      · exact aims_behind_below close small apart behind below

end Angle

theorem abs_pi_sub_le : |pi - Real.pi| ≤ 0.000000000001 := by
  have low := Real.pi_gt_d20
  have high := Real.pi_lt_d20
  rw [pi, abs_le]
  constructor <;> linarith

end Direction

/-- The angle of `GetLineAngle` is the direction to the target exactly if that is not the direction
of decreasing `x`. With the value of `pi` in the source the angle and the velocities are right up to
the error of this value. -/
theorem travels_iff (sta fin : Point) (apart : 0.02 < |sta.x - fin.x|) :
    (Aims Real.pi 0 (lineAngle Real.pi sta fin) sta fin ↔ ¬Backward sta fin) ∧
      (Travels 0.000000000001 sta fin ↔ ¬Backward sta fin) := by
  have iff := aims_lineAngle_iff abs_pi_sub_le (by norm_num) apart
  refine ⟨aims_lineAngle_iff (by simp) one_pos apart, ?_, ?_⟩
  · intro travels
    exact iff.mp travels.aims
  · intro corrected
    exact (iff.mpr corrected).travels

/-- The way from (0, 0) to (1, 1). -/
theorem travels_diagonal : Travels 0.000000000001 ⟨0, 0⟩ ⟨1, 1⟩ :=
  (travels_iff ⟨0, 0⟩ ⟨1, 1⟩ (by norm_num)).2.mpr fun backward => absurd backward.1 (by norm_num)

/-- From (1, 0) to (0, 0) the angle is 0. -/
theorem not_travels_backward : ¬Travels 0.000000000001 ⟨1, 0⟩ ⟨0, 0⟩ := by
  intro travels
  have backward : Backward ⟨1, 0⟩ ⟨0, 0⟩ := ⟨by norm_num, rfl⟩
  exact backward.not_aims (by norm_num) (by norm_num) travels.aims

end BadmintonRobot.Path
