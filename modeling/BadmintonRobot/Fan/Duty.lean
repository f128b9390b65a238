import Mathlib
import BadmintonRobot.Control.Pid
import BadmintonRobot.General.Mymath
import BadmintonRobot.Numeric.Saturation

/-!
# The ducted fans

Four fans push the robot, one towards each side. `pwm_duty` holds their duty cycles, of
which 20 is rest and 43 full speed, and every function of `fan.c` sends all four of them
with `W_PWM_FUNC`. Which fan stands on which side is configured. Numbers are exact.
-/

namespace BadmintonRobot.Fan

open Control General Numeric
open scoped NNReal

/-- The sides of the robot at which the fans are, with the names of their channels. -/
inductive Side where
  /-- `F_CH` -/
  | front
  /-- `R_CH` -/
  | right
  /-- `L_CH` -/
  | left
  /-- `B_CH` -/
  | back
deriving DecidableEq, Repr

/-- The assignment of the channels to the sides: a place of `pwm_duty` for each side. -/
abbrev Channels := Side ≃ Fin 4

/-- A conversion to `uint16_t`, which the language defines only for values that fit. -/
noncomputable def toU16 (value : ℝ) : Option Nat :=
  if -1 < value ∧ value < 65536 then some ⌊value⌋₊ else none

/-- The words that `W_PWM_FUNC` sends. -/
noncomputable def wPwmFunc (pwm : Fin 4 → ℝ) : Fin 4 → Option Nat := fun i => toU16 (pwm i * 10)

/-- The variables of `fan.c` and of the controllers it calls. `sent` are the words that were
transmitted, and a program that has failed an assertion is halted. -/
structure Fans where
  pwmDuty : Fin 4 → ℝ
  controllers : Controllers ℝ
  sent : List (Fin 4 → Option Nat)
  halted : Bool

namespace Fans

/-- The fans at power-on. -/
def initial (controllers : Controllers ℝ) : Fans where
  pwmDuty _ := 20
  controllers := controllers
  sent := []
  halted := false

/-- Send the duty cycles. -/
noncomputable def send (s : Fans) : Fans := { s with sent := s.sent ++ [wPwmFunc s.pwmDuty] }

/-- Assign the duty cycles one after another. -/
def assign (channels : Channels) (effect : Side → ℝ → ℝ) (order : List Side) (s : Fans) : Fans :=
  { s with
    pwmDuty := order.foldl (fun pwmDuty side =>
      Function.update pwmDuty (channels side) (effect side (pwmDuty (channels side)))) s.pwmDuty }

/-- The order in which most functions assign. -/
def order : List Side := [.front, .right, .left, .back]

/-- `Fan_Set_Max` -/
noncomputable def fanSetMax (channels : Channels) (s : Fans) : Fans :=
  (s.assign channels (fun _ _ => 43) order).send

/-- `Fan_Set_Min` -/
noncomputable def fanSetMin (channels : Channels) (s : Fans) : Fans :=
  (s.assign channels (fun _ _ => 20) order).send

/-- `Fan_Duty_Up` -/
noncomputable def fanDutyUp (channels : Channels) (delt : ℝ) (s : Fans) : Fans :=
  (s.assign channels (fun _ duty => if duty + delt > 43 then 43 else duty + delt) order).send

/-- `Fan_Duty_Dn` -/
noncomputable def fanDutyDn (channels : Channels) (delt : ℝ) (s : Fans) : Fans :=
  (s.assign channels (fun _ duty => if duty - delt < 20 then 20 else duty - delt) order).send

/-- `Fan_Duty`, for the channel `pwm_chx - 1`. The assertion comes before the limitation. -/
noncomputable def fanDuty (pwmChx : Fin 4) (duty : ℝ) (s : Fans) : Fans :=
  if ¬duty ≤ 100 then { s with halted := true }
  else if duty > 100 then { s with pwmDuty := Function.update s.pwmDuty pwmChx 43 }.send
  else if duty < 0 then { s with pwmDuty := Function.update s.pwmDuty pwmChx 20 }.send
  else { s with
    pwmDuty := Function.update s.pwmDuty pwmChx (20 + duty * (43 - 20) / 100) }.send

end Fans

/-- Scale two speeds if the first one is out of range: the first one becomes 100 or -100. -/
noncomputable def rescale (main other : ℝ) : ℝ × ℝ :=
  if main > 100 ∨ main < -100 then (main * (100 / abs' main), other * (100 / abs' main))
  else (main, other)

/-- The speeds of the fans in `FanAccelerate` after both have been scaled. -/
noncomputable def fanSpeeds (speedX speedY : ℝ) : ℝ × ℝ :=
  let first := rescale speedY speedX
  rescale first.2 first.1

/-- The percentages of the four fans. -/
noncomputable def percentages (fanX fanY : ℝ) : Side → ℝ
  | .back => if fanY > 0 then fanY else 0
  | .front => if fanY > 0 then 0 else -fanY
  | .left => if fanX > 0 then fanX else 0
  | .right => if fanX > 0 then 0 else -fanX

/-- `FanAccelerate`. The speeds that it computes from the heading are overwritten before they
are used, and what is left of them is the call of `AnglePID`. -/
noncomputable def Fans.fanAccelerate (channels : Channels) (atan2 : ℝ → ℝ → ℝ) (radian : ℝ)
    (speedX speedY : ℝ) (s : Fans) : Fans :=
  let errorAngle := atan2 speedY speedX - radian
  let called := anglePID errorAngle (s.controllers.pidList 29) s.controllers
  let fan := fanSpeeds speedX speedY
  let assigned := { s with controllers := called.2 }.assign channels
    (fun side _ => percentages fan.1 fan.2 side) [.back, .front, .left, .right]
  { assigned with pwmDuty := fun i => 20 + assigned.pwmDuty i * (43 - 20) / 100 }.send

/-- The calls of the functions of `fan.c`. -/
inductive Call where
  | setMax
  | setMin
  | dutyUp (delt : ℝ≥0)
  | dutyDn (delt : ℝ≥0)
  | duty (pwmChx : Fin 4) (duty : ℝ)
  | accelerate (radian speedX speedY : ℝ)

/-- A call, if the program has not been halted. -/
noncomputable def Fans.call (channels : Channels) (atan2 : ℝ → ℝ → ℝ) (s : Fans) (call : Call) :
    Fans :=
  if s.halted then s
  else match call with
    | .setMax => s.fanSetMax channels
    | .setMin => s.fanSetMin channels
    | .dutyUp delt => s.fanDutyUp channels delt
    | .dutyDn delt => s.fanDutyDn channels delt
    | .duty pwmChx duty => s.fanDuty pwmChx duty
    | .accelerate radian speedX speedY => s.fanAccelerate channels atan2 radian speedX speedY

/-- The fans after some calls from power-on. -/
noncomputable def Fans.after (channels : Channels) (atan2 : ℝ → ℝ → ℝ)
    (controllers : Controllers ℝ) (calls : List Call) : Fans :=
  calls.foldl (Fans.call channels atan2) (.initial controllers)

end BadmintonRobot.Fan
