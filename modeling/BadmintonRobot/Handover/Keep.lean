import Mathlib
import BadmintonRobot.Control.Pid
import BadmintonRobot.Numeric.Interpolation

/-!
# Keeping the position of the hand-over

`Keep_Handover` is called again and again while the robots hand over. It steers the chassis
and motors 1 and 2 by the errors that the camera sees. It stops them if the joystick
is lost, if the camera is silent, or if it is called for another place. The screen and the log
are left out. Numbers are exact, in any ordered field.
-/

namespace BadmintonRobot.Handover

open Control Numeric

variable {K : Type}

/-- The motors of the upper layer that the hand-over moves. -/
inductive Motor where
  | one
  | two
deriving DecidableEq, Repr

/-- The commands of `Moto_Stop` and `Moto_Set_GSpeed`. -/
inductive MotorCommand where
  | stop
  | gSpeed (speed : Int)
deriving DecidableEq, Repr

/-- What a call reads and does not write. Of the arrays `Aim_X_Handover` to `Aim_A_Handover` it
reads the elements of its place. -/
structure Input (K : Type) where
  place : Int
  camX : Int
  camY : Int
  camZ : Int
  camA : Int
  aimX : Int
  aimY : Int
  aimZ : Int
  aimA : Int
  handleTimeoutFlag : Bool
  /-- `camera_data5.time_flag` -/
  timeFlag : Int
  /-- `MISO_SWITCH[0]` -/
  misoSwitch : Nat
  handoverZDisable : Bool
  handoverR : K

/-- The variables that `Keep_Handover` writes, and the motor commands so far. -/
structure Rig (K : Type) where
  controllers : Controllers K
  /-- The static variable `flag`. -/
  flag : Bool
  cannotSeeFlag : Bool
  buzzer : Bool
  camLed : Bool
  speedX : K
  speedY : K
  speedRotation : K
  sent : List (Motor × MotorCommand)

def aimSs : Int := 0

def aimPw : Int := 1

def aimSw : Int := 2

/-- The conversion to `s16`. -/
def toS16 (value : Int) : Int := value.bmod 65536

theorem toS16_of_mem {value : Int} (low : -32768 ≤ value) (high : value ≤ 32767) :
    toS16 value = value := by
  rw [toS16, Int.bmod_eq_of_le] <;> omega

namespace Input

variable (input : Input K)

/-- The macro `SA_READ`. -/
def saRead (a : Nat) : Nat := (input.misoSwitch >>> (a - 1)) &&& 1

def errorX : Int := toS16 (input.camX - input.aimX)

def errorY : Int := toS16 (input.camY - input.aimY)

def errorZ : Int := toS16 (input.camZ - input.aimZ)

def errorA : Int :=
  let errorA := toS16 (input.camA - input.aimA)
  let errorA := if errorA > 180 then toS16 (errorA - 360) else errorA
  if errorA < -180 then toS16 (errorA + 360) else errorA

/-- The test for which motor 2 is to stand still. -/
def Blocked : Prop := |input.errorZ| < 5 ∨ input.saRead 3 = 0 ∨ input.saRead 4 = 0

instance : Decidable input.Blocked := by
  unfold Blocked
  infer_instance

end Input

section Field

variable [Field K] [LinearOrder K]

/-- The macro `MAX_SPEED`. -/
def maxSpeed : K := 2000

/-- The array `V_Max_Z`. -/
def vMaxZ : Fin 2 → K := ![4000, 2000]

/-- Store an element of `Vout`. -/
def setVout (i : Fin 5) (value : K) (s : Controllers K) : Controllers K :=
  { s with vout := Function.update s.vout i value }

/-- Store the result of a controller. -/
def setControlled (i : Fin 5) (controller : Controllers K → K × Controllers K)
    (s : Controllers K) : Controllers K :=
  setVout i (controller s).1 (controller s).2

/-- Limit an element of `Vout` in both directions. -/
def limitVout (i : Fin 5) (bound : K) (s : Controllers K) : Controllers K :=
  let s := if s.vout i > bound then setVout i bound s else s
  if s.vout i < -bound then setVout i (-bound) s else s

/-- The corrections at the seesaw and at the poles. -/
def correctSsPw (input : Input K) (s : Controllers K) : Controllers K :=
  let s := if |input.errorY| < 5 then setVout 2 0 s
    else setControlled 2 (camYPID input.errorY (s.pidList 14)) s
  let s := limitVout 2 maxSpeed s
  let s := if |input.errorX| < 5 then setVout 4 0 s
    else setControlled 4 (camXPID input.errorX (s.pidList 15)) s
  let s := if input.Blocked then setVout 3 0 s
    else setControlled 3 (camZPID input.errorZ (s.pidList 16)) s
  limitVout 3 (vMaxZ 0) s

/-- The corrections at the swing. There is no `else` before the controller of `Vout[3]`, which
is called in any case. -/
def correctSw (input : Input K) (s : Controllers K) : Controllers K :=
  let s := if |input.errorY| < 5 then setVout 4 0 s
    else setControlled 4 (camYPID input.errorY (s.pidList 24)) s
  let s := if |input.errorX| < 5 then setVout 2 0 s
    else setControlled 2 (camXPID input.errorX (s.pidList 23)) s
  let s := limitVout 2 maxSpeed s
  let s := if input.Blocked then setVout 3 0 s else s
  let s := setControlled 3 (camZPID input.errorZ (s.pidList 25)) s
  limitVout 3 (vMaxZ 1) s

/-- The correction of the angle. -/
def correctAngle (input : Input K) (s : Controllers K) : Controllers K :=
  if |input.errorA| < 4 then setVout 1 0 s
  else setControlled 1 (camAPID input.errorA (s.pidList 17)) s

namespace Rig

/-- The macro `SPEED_STOP`. -/
def speedStop (s : Rig K) : Rig K := { s with speedX := 0, speedY := 0, speedRotation := 0 }

/-- The function `Moto_Stop`. -/
def motoStop (motor : Motor) (s : Rig K) : Rig K := { s with sent := s.sent ++ [(motor, .stop)] }

/-- The variables when the program starts. -/
def initial : Rig K where
  controllers := .initial
  flag := false
  cannotSeeFlag := false
  buzzer := false
  camLed := false
  speedX := 0
  speedY := 0
  speedRotation := 0
  sent := []

variable [FloorRing K]

/-- The function `Moto_Set_GSpeed`, with the conversion of its argument. -/
def motoSetGSpeed (motor : Motor) (speed : K) (s : Rig K) : Rig K :=
  { s with sent := s.sent ++ [(motor, .gSpeed (toS16 (truncate speed)))] }

/-- Send the elements of `Vout` to the motors and to the chassis. -/
def command (input : Input K) (s : Rig K) : Rig K :=
  let s := s.motoSetGSpeed .one (s.controllers.vout 2)
  let s := if input.handoverZDisable then s else s.motoSetGSpeed .two (s.controllers.vout 3)
  { s with
    speedY := s.controllers.vout 4 + s.controllers.vout 1
    speedX := 0
    speedRotation := 100 * s.controllers.vout 1 / input.handoverR }

/-- The branch for a camera that is not silent. -/
def see (input : Input K) (s : Rig K) : Rig K :=
  let s := { s with flag := false, buzzer := false, camLed := false, cannotSeeFlag := false }
  if input.place = aimSs ∨ input.place = aimPw ∨ input.place = aimSw then
    let correct := if input.place = aimSs ∨ input.place = aimPw then correctSsPw input
      else correctSw input
    command input { s with controllers := correctAngle input (correct s.controllers) }
  else ((s.speedStop).motoStop .two).motoStop .one

/-- The branch for a silent camera. It stops the motors once. -/
def missSight (s : Rig K) : Rig K :=
  let s := { s with buzzer := true, camLed := !s.camLed, cannotSeeFlag := true }
  if !s.flag then { ((s.speedStop).motoStop .one).motoStop .two with flag := true } else s

/-- The function `Keep_Handover`. -/
def keepHandover (input : Input K) (s : Rig K) : Rig K :=
  if input.handleTimeoutFlag then s.speedStop
  else if input.timeFlag < 100 then s.see input
  else s.missSight

end Rig

end Field

end BadmintonRobot.Handover
