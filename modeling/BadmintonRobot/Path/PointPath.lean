import Mathlib
import BadmintonRobot.Control.Pid
import BadmintonRobot.General.Mymath
import BadmintonRobot.Mission.Route

/-!
# The path follower

`GoPointPath` looks for the next target among the points ahead, steers towards it with
two controllers and stores the speeds of the robot. Numbers are exact. The screen and the
log are left out.
-/

namespace BadmintonRobot.Path

open Control General Mission

/-- The structure `Path_Point`. -/
structure PathPoint where
  position : Point
  speeddir : ℝ
  selfdir : ℝ
  speed : ℝ

/-- The structure `GPS_State`. -/
structure GpsState where
  position : Point
  radian : ℝ

/-- The variables that `GoPointPath` reads and does not write. -/
structure Input where
  gps : GpsState
  routeNum : Nat
  camFlag : Bool
  /-- `Cam_Angle[Cam_Circle_Line]` in degrees. -/
  camAngleLine : ℝ
  camAngle : ℝ
  pidFlag : Bool

/-- The variables of the path follower. -/
structure Follower where
  pointStartNum : Int
  pointEndNum : Int
  pointNowNum : Int
  controllers : Controllers ℝ
  speedX : ℝ
  speedY : ℝ
  speedRotation : ℝ

/-- What `SetPointPath` does to the variables of the path follower. -/
noncomputable def setPointPath (staNum endNum : Int) (f : Follower) : Follower :=
  { f with
    pointStartNum := staNum
    pointEndNum := endNum
    pointNowNum := staNum
    controllers := pidClear f.controllers }

/-- The comparison in the search: the point after `p` is at most as far away as `p`. -/
noncomputable def nearer (pointRoute : Int → PathPoint) (position : Point) (p : Int) : Bool :=
  decide (getLength (pointRoute (p + 1)).position position ≤
    getLength (pointRoute p).position position)

/-- The points that the search reads from turn `i` on. -/
def searchReads (now last : Int) : (left i : Nat) → List Int
  | 0, _ => []
  | left + 1, i =>
    if now + i ≥ last then []
    else [now + i + 1, now + i] ++ searchReads now last left (i + 1)

/-- Bring an angle back to one turn. -/
noncomputable def wrapAngle (errorAngle : ℝ) : ℝ :=
  let errorAngle := if errorAngle > pi then errorAngle - 2 * pi else errorAngle
  if errorAngle < -pi then errorAngle + 2 * pi else errorAngle

/-- The two corrections, with the rows of `Pid_List` for the angle and the distance. -/
noncomputable def correct (angleRow distanceRow : Fin 30) (errorAngle errorDis : ℝ)
    (s : Controllers ℝ) : Controllers ℝ :=
  let (angle, s) := anglePID errorAngle (s.pidList angleRow) s
  let s := { s with vout := Function.update s.vout 0 (1000 * angle) }
  let (distance, s) := distancePID errorDis (s.pidList distanceRow) s
  { s with vout := Function.update s.vout 1 distance }

/-- The choice of the controllers' parameters, and of the camera's angle where the route
goes along a circle. -/
noncomputable def steer (input : Input) (errorAngle errorDis : ℝ) (s : Controllers ℝ) :
    Controllers ℝ :=
  if input.routeNum = 2 ∨ input.routeNum = 3 then
    if input.camFlag then
      let errorAngle := wrapAngle (input.camAngleLine * pi / 180 - input.camAngle)
      correct 12 13 errorAngle errorDis s
    else correct 6 7 errorAngle errorDis s
  else if input.routeNum = 5 then
    if input.camFlag then correct 12 7 errorAngle errorDis s
    else correct 6 7 errorAngle errorDis s
  else correct 6 7 errorAngle errorDis s

/-- Limit `Vout[0]` to 300 in both directions. -/
noncomputable def limitRotation (s : Controllers ℝ) : Controllers ℝ :=
  let rotation := if s.vout 0 > 300 then 300 else s.vout 0
  let rotation := if rotation < -300 then -300 else rotation
  { s with vout := Function.update s.vout 0 rotation }

/-- The target that the search of `GoPointPath` selects. -/
noncomputable def nextPoint (pointRoute : Int → PathPoint) (position : Point) (f : Follower) :
    Int :=
  f.pointNowNum + countDelta (nearer pointRoute position) f.pointNowNum f.pointEndNum 9 0 0

/-- The function `GoPointPath`. -/
noncomputable def goPointPath (pointRoute : Int → PathPoint) (input : Input) (f : Follower) :
    Follower :=
  let now := nextPoint pointRoute input.gps.position f
  let target := pointRoute now
  let errorAngle := wrapAngle (target.selfdir - input.gps.radian)
  let errorDis := (input.gps.position.x - target.position.x) * Real.sin target.speeddir -
    (input.gps.position.y - target.position.y) * Real.cos target.speeddir
  let controllers := limitRotation (steer input errorAngle errorDis f.controllers)
  let vErrX := if input.pidFlag then -(controllers.vout 1 * Real.sin target.speeddir) else 0
  let vErrY := if input.pidFlag then controllers.vout 1 * Real.cos target.speeddir else 0
  let speedX := target.speed * Real.cos target.speeddir + vErrX
  let speedY := target.speed * Real.sin target.speeddir + vErrY
  let phi := input.gps.radian
  { f with
    pointNowNum := now
    controllers := controllers
    speedX := speedX * Real.cos phi + speedY * Real.sin phi
    speedY := -speedX * Real.sin phi + speedY * Real.cos phi
    speedRotation := controllers.vout 0 }

/-- The points that a call of `GoPointPath` reads: those of the search, and the target. -/
noncomputable def pointReads (pointRoute : Int → PathPoint) (input : Input) (f : Follower) :
    List Int :=
  searchReads f.pointNowNum f.pointEndNum 9 0 ++ [nextPoint pointRoute input.gps.position f]

end BadmintonRobot.Path
