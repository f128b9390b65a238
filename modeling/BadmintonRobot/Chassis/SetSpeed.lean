import Mathlib
import BadmintonRobot.General.Mymath

/-!
# The chassis command

`SetSpeed` limits the speed of the robot so that its wheels do not slip, splits it over
the four wheels, turns the speeds of the wheels into duty cycles and scales these into the
range that the drivers accept. Numbers are exact.
-/

namespace BadmintonRobot.Chassis

open General

/-- The wheels: front left, front right, back left, back right. -/
inductive Wheel where
  | fl
  | fr
  | bl
  | br
deriving DecidableEq, Repr

/-- The fields of `Swedish_State`, for each wheel, and the other variables that `SetSpeed`
reads. -/
structure Settings where
  port : Wheel → Int
  arg : Wheel → Int
  rate : ℝ
  realspe : ℝ
  sweAcc : Int
  sweAccD : Int

/-- The values that the variables are initialised with. -/
noncomputable def robotSettings (realspe : ℝ) : Settings where
  port
    | .fl => 3
    | .fr => 2
    | .bl => 1
    | .br => 4
  arg
    | .fl => -1
    | .fr => 1
    | .bl => -1
    | .br => 1
  rate := 0.14297486
  realspe := realspe
  sweAcc := 6
  sweAccD := 50

/-- The constant `ACC`. -/
def acc : ℝ := 500

/-- The constant `Acc_Limit_Enable`. -/
def accLimitEnable : Nat := 0

/-- The largest size of four numbers, one for each wheel. -/
noncomputable def maxAbs (values : Wheel → ℝ) : ℝ :=
  maxFour (abs' (values .fl)) (abs' (values .fr)) (abs' (values .bl)) (abs' (values .br))

/-- The limit against slipping. Below `realspe` the speed stays as it is; the branch there
only changes a variable that is not read again. -/
noncomputable def antiSlip (realspe speedX speedY : ℝ) : ℝ × ℝ :=
  let speedRep := √(speedX ^ 2 + speedY ^ 2)
  let rateX := if speedRep ≠ 0 then speedX / speedRep else 1
  let rateY := if speedRep ≠ 0 then speedY / speedRep else 1
  if speedRep - realspe ≥ 0 then
    if speedRep - realspe ≥ acc then ((realspe + acc) * rateX, (realspe + acc) * rateY)
    else (speedX, speedY)
  else (speedX, speedY)

/-- The coefficients `coeff_x` and `coeff_y`. -/
noncomputable def coeffXY : ℝ := 0.70684

/-- The coefficient `coeff_r`. -/
noncomputable def coeffR : ℝ := 39.07974580567134

/-- The speed of each wheel for a speed of the robot. -/
noncomputable def wheelSpeed (speedX speedY speedRotation : ℝ) : Wheel → ℝ
  | .fl => coeffXY * speedX + coeffXY * speedY - coeffR * speedRotation / 100
  | .fr => -coeffXY * speedX + coeffXY * speedY + coeffR * speedRotation / 100
  | .bl => -coeffXY * speedX + coeffXY * speedY - coeffR * speedRotation / 100
  | .br => coeffXY * speedX + coeffXY * speedY + coeffR * speedRotation / 100

/-- The limit of the acceleration, which `Acc_Limit_Enable` switches off: the new values of
the variables that keep the wheels' speeds. -/
noncomputable def limitAcceleration (s : Settings) (last speed : Wheel → ℝ) : Wheel → ℝ :=
  let delta := fun wheel => speed wheel - last wheel
  let deltaMax := maxAbs delta
  if deltaMax ≥ s.sweAcc ∧ accLimitEnable = 1 then
    fun wheel => last wheel + s.sweAcc * (delta wheel / deltaMax)
  else if -deltaMax ≤ -s.sweAccD ∧ accLimitEnable = 1 then
    fun wheel => last wheel - s.sweAccD * (delta wheel / deltaMax)
  else speed

/-- The duty cycle for a wheel's speed. -/
noncomputable def pwm (s : Settings) (last : Wheel → ℝ) (wheel : Wheel) : ℝ :=
  50 / 6000 * 14 * ((last wheel * s.arg wheel) * s.rate) + 50

/-- Scale the duty cycles if one of them is too far from 50. -/
noncomputable def limitPwm (duty : Wheel → ℝ) : Wheel → ℝ :=
  let pwmMax := maxAbs fun wheel => duty wheel - 50
  if pwmMax ≥ 48 then fun wheel => 48 * (duty wheel - 50) / pwmMax + 50 else duty

/-- What a call of `SetSpeed` does: the wheels' speeds it keeps for the next call, and the
duty cycle that `PWM_SetDuty` gets for each wheel's port. -/
structure Command where
  last : Wheel → ℝ
  duty : Wheel → ℝ

/-- The function `SetSpeed`. -/
noncomputable def setSpeed (s : Settings) (last : Wheel → ℝ)
    (speedX speedY speedRotation : ℝ) : Command :=
  let (speedX, speedY) := antiSlip s.realspe speedX speedY
  let last := limitAcceleration s last (wheelSpeed speedX speedY speedRotation)
  { last := last, duty := limitPwm (pwm s last) }

/-- The calls of `PWM_SetDuty`, in their order. -/
noncomputable def Command.setDuty (s : Settings) (command : Command) : List (Int × ℝ) :=
  [.fl, .fr, .bl, .br].map fun wheel => (s.port wheel, command.duty wheel)

end BadmintonRobot.Chassis
