import Mathlib
import BadmintonRobot.General.Lines
import BadmintonRobot.Numeric.Trapezoid
import BadmintonRobot.Path.SetKeep

/-!
# Driving along a line

`SetLine` stores a line from the position of the robot to its target, and `GoLine` drives along it.
The speed depends on how far the foot of the robot's position is along the line, and follows a
trapezoid. Two controllers turn the robot and bring it back to the line. Numbers are exact, and the
screen is left out.
-/

namespace BadmintonRobot.Path

open Control General Numeric

/-- The variables `Acc_Rate` and `Dec_Rate`, which the menu can change. -/
structure LineRates where
  accRate : ℝ
  decRate : ℝ

/-- The rates at the start of the program. -/
noncomputable def LineRates.initial : LineRates where
  accRate := 0.3
  decRate := 0.3

/-- The arguments of `SetLine`. -/
structure LineArgs where
  endPoint : Point
  aimRadian : ℝ
  speedSta : ℝ
  speedMax : ℝ
  speedEnd : ℝ

/-- The variables in which `SetLine` stores a line. -/
structure Line where
  staPoint : Point
  endPoint : Point
  aimRadian : ℝ
  speedSta : ℝ
  speedMax : ℝ
  lineAngle : ℝ
  s : ℝ
  accDis : ℝ
  decDis : ℝ
  acc : ℝ
  dec : ℝ

/-- The line from the position of the robot. -/
noncomputable def LineArgs.line (args : LineArgs) (rates : LineRates) (position : Point) : Line :=
  let s := getLength position args.endPoint
  let accDis := rates.accRate * s
  let decDis := rates.decRate * s
  { staPoint := position
    endPoint := args.endPoint
    aimRadian := args.aimRadian
    speedSta := args.speedSta
    speedMax := args.speedMax
    lineAngle := getLineAngle position args.endPoint
    s := s
    accDis := accDis
    decDis := decDis
    acc := (args.speedMax - args.speedSta) / accDis
    dec := (args.speedEnd - args.speedMax) / decDis }

/-- The variables that `SetLine` and `GoLine` write. -/
structure LineDriver where
  line : Line
  controllers : Controllers ℝ
  speedX : ℝ
  speedY : ℝ
  speedRotation : ℝ

/-- The variables at the start of the program. -/
noncomputable def LineDriver.initial : LineDriver where
  line := ⟨⟨0, 0⟩, ⟨0, 0⟩, 0, 0, 0, 0, 0, 0, 0, 0, 0⟩
  controllers := .initial
  speedX := 0
  speedY := 0
  speedRotation := 0

/-- The function `SetLine`. -/
noncomputable def LineDriver.setLine (args : LineArgs) (rates : LineRates) (gps : GpsState)
    (d : LineDriver) : LineDriver :=
  { d with line := args.line rates gps.position, controllers := pidClear d.controllers }

namespace Line

variable (line : Line)

/-- The speed of `GoLine` at a position. The variable `speed` is still 0 when it is compared with
`Speed_Max`. -/
noncomputable def speed (position : Point) : ℝ :=
  let pos := getFootP2LPP position line.staPoint line.endPoint
  let speed := 0
  if getLength line.staPoint pos < line.accDis then
    if speed < line.speedMax then line.speedSta + line.acc * getLength line.staPoint pos
    else line.speedMax
  else if getLength line.staPoint pos > line.s - line.decDis then
    line.speedMax + line.dec * (getLength line.staPoint pos - (line.s - line.decDis))
  else line.speedMax

/-- The velocity of `GoLine` at a position, before the correction. -/
noncomputable def velocity (position : Point) : Point where
  x := line.speed position * Real.cos line.lineAngle
  y := line.speed position * Real.sin line.lineAngle

/-- The point of the line at a distance from its start. -/
noncomputable def point (t : ℝ) : Point where
  x := line.staPoint.x + t / line.s * (line.endPoint.x - line.staPoint.x)
  y := line.staPoint.y + t / line.s * (line.endPoint.y - line.staPoint.y)

end Line

/-- The function `GoLine`. -/
noncomputable def LineDriver.goLine (gps : GpsState) (d : LineDriver) : LineDriver :=
  let line := d.line
  let base := line.velocity gps.position
  let errorAngle := wrapAngle (line.aimRadian - gps.radian)
  let errorDis := (gps.position.x - line.staPoint.x) * Real.sin line.lineAngle -
    (gps.position.y - line.staPoint.y) * Real.cos line.lineAngle
  let (angle, controllers) := anglePID errorAngle (d.controllers.pidList 2) d.controllers
  let voutA := 1000 * angle
  let (voutD, controllers) := distancePID errorDis (controllers.pidList 3) controllers
  let vErrX := -voutD * Real.sin line.lineAngle
  let vErrY := voutD * Real.cos line.lineAngle
  let speedX := base.x + vErrX
  let speedY := base.y + vErrY
  let phi := gps.radian
  { d with
    controllers := controllers
    speedX := speedX * Real.cos phi + speedY * Real.sin phi
    speedY := -speedX * Real.sin phi + speedY * Real.cos phi
    speedRotation := voutA }

/-- Arguments with which the speed follows a trapezoid. -/
structure LineArgs.Proper (args : LineArgs) (rates : LineRates) (position : Point) : Prop where
  distinct : position ≠ args.endPoint
  acc_pos : 0 < rates.accRate
  dec_pos : 0 < rates.decRate
  room : rates.accRate + rates.decRate ≤ 1
  speedSta_pos : 0 < args.speedSta
  speedSta_le : args.speedSta ≤ args.speedMax
  speedEnd_le : args.speedEnd ≤ args.speedMax

section Profile

variable {args : LineArgs} {rates : LineRates} {position : Point}

/-- The trapezoid of a line. -/
noncomputable def LineArgs.Proper.trapezoid (proper : args.Proper rates position) :
    Trapezoid ℝ where
  start := args.speedSta
  top := args.speedMax
  stop := args.speedEnd
  rise := (args.line rates position).accDis
  fall := (args.line rates position).decDis
  length := (args.line rates position).s
  start_le := proper.speedSta_le
  stop_le := proper.speedEnd_le
  rise_pos := mul_pos proper.acc_pos (getLength_pos proper.distinct)
  fall_pos := mul_pos proper.dec_pos (getLength_pos proper.distinct)
  room := by
    have scaled := mul_le_mul_of_nonneg_right proper.room (getLength_pos proper.distinct).le
    simp only [LineArgs.line]
    linarith

theorem LineArgs.getLength_point (rates : LineRates) (distinct : position ≠ args.endPoint) {t : ℝ}
    (ahead : 0 ≤ t) :
    getLength position ((args.line rates position).point t) = t := by
  have pos := getLength_pos distinct
  have square := getLength_sq position args.endPoint
  rw [← sq_eq_sq₀ (getLength_nonneg _ _) ahead, getLength_sq]
  simp only [Line.point, LineArgs.line]
  generalize getLength position args.endPoint = s at pos square
  field_simp
  linear_combination -t ^ 2 * square

theorem LineArgs.Proper.speed_eq (proper : args.Proper rates position) {current : Point} {t : ℝ}
    (ahead : 0 ≤ t)
    (foot : getFootP2LPP current position args.endPoint = (args.line rates position).point t) :
    (args.line rates position).speed current = proper.trapezoid.height t := by
  have along := LineArgs.getLength_point rates proper.distinct ahead
  have moving : 0 < args.speedMax := proper.speedSta_pos.trans_le proper.speedSta_le
  rw [← foot] at along
  have defs : (args.line rates position).speed current =
      if t < (args.line rates position).accDis then
        if 0 < args.speedMax then args.speedSta + (args.line rates position).acc * t
        else args.speedMax
      else if t > (args.line rates position).s - (args.line rates position).decDis then
        args.speedMax + (args.line rates position).dec *
          (t - ((args.line rates position).s - (args.line rates position).decDis))
      else args.speedMax := by
    rw [← along]
    rfl
  rw [defs, if_pos moving]
  rfl

end Profile

/-- Along a line the speed follows a trapezoid. -/
theorem goLine_profile (args : LineArgs) (rates : LineRates) (gps : GpsState) (d : LineDriver)
    (proper : args.Proper rates gps.position) :
    let line := (d.setLine args rates gps).line
    ∃ profile : ℝ → ℝ,
      (∀ position, ∀ t ∈ Set.Icc 0 line.s,
        getFootP2LPP position line.staPoint line.endPoint = line.point t →
          line.speed position = profile t) ∧
      ContinuousOn profile (Set.Icc 0 line.s) ∧
      profile 0 = args.speedSta ∧
      (∀ t ∈ Set.Icc line.accDis (line.s - line.decDis), profile t = args.speedMax) ∧
      profile line.s = args.speedEnd ∧
      MonotoneOn profile (Set.Icc 0 line.accDis) ∧
      AntitoneOn profile (Set.Icc (line.s - line.decDis) line.s) ∧
      ∀ t ∈ Set.Icc 0 line.s,
        profile t ∈ Set.Icc (min args.speedSta args.speedEnd) args.speedMax := by
  intro line
  refine ⟨proper.trapezoid.height, ?_, proper.trapezoid.continuous_height.continuousOn,
    proper.trapezoid.height_zero, fun t => proper.trapezoid.height_middle,
    proper.trapezoid.height_length, proper.trapezoid.monotoneOn_height,
    proper.trapezoid.antitoneOn_height, ?_⟩
  · intro position t inside foot
    exact proper.speed_eq inside.1 foot
  · intro t inside
    exact ⟨proper.trapezoid.min_le_height inside, proper.trapezoid.height_le_top t⟩

/-- A line of 100 along the x axis. -/
theorem goLine_profile_axis :
    let line := (LineDriver.initial.setLine ⟨⟨100, 0⟩, 0, 10, 50, 5⟩ .initial ⟨⟨0, 0⟩, 0⟩).line
    ∃ profile : ℝ → ℝ,
      (∀ position, ∀ t ∈ Set.Icc 0 line.s,
        getFootP2LPP position line.staPoint line.endPoint = line.point t →
          line.speed position = profile t) ∧
      ContinuousOn profile (Set.Icc 0 line.s) ∧ profile 0 = 10 := by
  have proper : LineArgs.Proper ⟨⟨100, 0⟩, 0, 10, 50, 5⟩ .initial ⟨0, 0⟩ := by
    constructor <;> norm_num [LineRates.initial]
  obtain ⟨profile, follows, continuous, start, -⟩ :=
    goLine_profile ⟨⟨100, 0⟩, 0, 10, 50, 5⟩ .initial ⟨⟨0, 0⟩, 0⟩ .initial proper
  exact ⟨profile, follows, continuous, start⟩

end BadmintonRobot.Path
