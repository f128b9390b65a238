import Mathlib.Algebra.Order.Ring.Unbundled.Rat
import Mathlib.Data.Fintype.Basic
import Mathlib.Tactic.Simps.Basic
import BadmintonRobot.Numeric.Literal
import BadmintonRobot.Semantics.Thread

/-!
# The state shared by the mission threads

The auto thread drives the chassis along a route (`goroute.c`), the arm thread works
the upper body (`armaction.c`), and they hand a stage number to each other through
`Mb_Auto` and `Mb_Arm`. `Handshake` is the part of the state that this handshake uses.
It also keeps a log of what the two threads have done. `Board` adds the variables of
the two files that the handshake does not read. Sensor readings, keys and the values
that the control loops compute are `Sensors`, one record for each step.

Floating-point variables are exact rationals here. The screen, the status lights, the
SD card log and the memory of the PID controllers are left out.
-/

namespace BadmintonRobot.Mission

open Semantics

/-- The two threads of the mission. -/
inductive Party where
  | auto
  | arm
deriving DecidableEq, Repr

/-- The chassis set-points `Speed_X`, `Speed_Y` and `Speed_Rotation`. -/
inductive Axis where
  | x
  | y
  | rotation
deriving DecidableEq, Repr

/-- The options of a mission. Most are edited in the list that the route menu shows
before it posts the first stage. The indices are those of the source: `Circle_ss1` is
0, `Circle_pw` is 2 and `Circle_jg` is 3, and `Aim_ss` is 0 and `Aim_pw` is 1. -/
structure Settings where
  circleDynFlag : Bool
  circleFlag : Fin 4 → Bool
  laserFlag : Fin 3 → Bool
  walkGround : Bool
  handoverFlag : Fin 3 → Bool
  poleFlag : Bool
  swingFlag : Bool
  debug : Bool
  accP : ℚ
  vMax : ℚ
  accN : ℚ
  switchNum : Int
  motor1Speed : Int

/-- What a mission thread or the operator does that the handshake is about. -/
inductive Event where
  /-- The route menu posts the first stage to `Mb_Auto`. -/
  | routeGo (stage : Nat)
  /-- The arm test of the menu posts a stage to `Mb_Arm`. -/
  | armTest (stage : Nat)
  /-- The emergency thread empties both mailboxes and starts both threads again. -/
  | emergency
  /-- A thread takes a message out of its mailbox. -/
  | receives (party : Party) (stage : Nat)
  /-- `GoRoute` or `armaction` of a stage is called. -/
  | starts (party : Party) (stage : Nat)
  /-- A thread posts to the mailbox of the other one. -/
  | posts (party : Party) (stage : Nat)
  /-- The running route writes a chassis set-point. -/
  | speed (axis : Axis) (value : ℚ)
  /-- The arm action leaves its initial waiting loop. -/
  | leavesWait (stage : Nat)
  /-- `GoRoute` or `armaction` of a stage returns. -/
  | returns (party : Party) (stage : Nat)
deriving DecidableEq

/-- The variables of the handshake. `RouteFinish` and `CircleFinish` are true until
the motion they speak about is over. -/
structure Handshake where
  mbAuto : List Nat
  mbArm : List Nat
  autoMsg : Nat
  armMsg : Nat
  routeFinish : Bool
  circleFinish : Bool
  armtestFlag : Bool
  settings : Settings
  log : List Event

/-- Commands to the motors, valves and cameras. -/
inductive Command where
  | motorOld (motor : Fin 3) (rotation : ℚ) (speed : Int)
  | setGPos (motor : Fin 3) (rotation : ℚ)
  | motoStop (motor : Fin 3)
  | mtLine (startPos aimPos first second : ℚ) (startPwm maxPwm endPwm : Int)
  | handOpen | handClose | handTurnRight | handRaise
  | gunOn | gunOff | fireOn | fireOff | fireClear | bufferOn | bufferOff
  | hallSend (data : Nat)
  | chooseFunction (function : Nat)
  | sensorStart (message : Nat)
deriving DecidableEq

/-- The readings that one step may use, and the values computed from readings. -/
structure Sensors where
  /-- Whether path point `p + 1` is at most as far from the robot as point `p`. -/
  nearer : Int → Bool
  /-- The output of a control loop. -/
  speed : ℚ
  gyroAngle : ℚ
  /-- `Aim_Dist` minus the distance that the camera reports. -/
  distError : ℚ
  /-- `Aim_Angle` minus the angle that the camera reports, in radians. -/
  angleError : ℚ
  /-- The age `camera_data1.time_flag` of the last camera frame. -/
  cameraTime : Nat
  /-- The distance to the end of the line that is driven. -/
  lineLeft : ℚ
  key : Option Nat
  sensorEnd : Option Nat
  button8 : Bool
  childOn : Bool
  motorPos : Fin 3 → ℚ
  motorRealAim : Fin 3 → ℚ
  /-- `M_IO_READ` of motor 3 at the port asked for. -/
  motor3Io : Nat → Bool
  /-- The exit condition of `CamCircle_Static`. -/
  circleReached : Bool
  /-- Whether a camera task that is only outlined here has come to its end. -/
  taskDone : Bool
  runTime : Int

/-- The local variables of `GoRoute` and of the camera routine it calls. -/
structure RouteLocals where
  accFlag : Bool
  flag1 : Bool
  flag2 : Bool
  flag : Bool
  msg : Nat
  tempState : Bool

/-- The local variables of `armaction` and of the routines it calls. -/
structure ArmLocals where
  flag : Bool
  flag1 : Bool
  flag2 : Bool
  flag3 : Bool
  delayFlag : Nat
  buttonState : Bool
  tempState : Bool

/-- The state shared by the two mission threads. -/
structure Board where
  handshake : Handshake
  routeNum : Nat
  pointStartNum : Int
  pointNowNum : Int
  pointEndNum : Int
  speed : Axis → ℚ
  /-- The static `flag` of `Go_CamCircle`. -/
  camCircleFlag : Bool
  route : RouteLocals
  arm : ArmLocals
  retry : Bool
  autoFlag : Bool
  tempButton8State : Bool
  fanFlag : Bool
  timeOnFlag : Bool
  motor1AimPos : Fin 6 → ℚ
  motor2AimPos : Fin 6 → ℚ
  motor3AimPos : Fin 2 → ℚ
  routeTime : Fin 7 → Int
  segmentTime : Fin 7 → Int
  commands : List Command

/-- The number of messages that a mailbox holds. -/
def mailboxSize : Nat := 32

/-- `rt_mb_send`: a full mailbox refuses the message and the result is ignored. -/
def rtMbSend (box : List Nat) (message : Nat) : List Nat :=
  if box.length < mailboxSize then box ++ [message] else box

namespace Handshake

/-- Add an event to the log. -/
@[simps]
def record (m : Handshake) (event : Event) : Handshake :=
  { m with log := m.log ++ [event] }

end Handshake

namespace Board

/-- Change the handshake variables. -/
def onHandshake (change : Handshake → Handshake) (b : Board) : Board :=
  { b with handshake := change b.handshake }

/-- A thread stores a set-point. The log keeps the stores of the route. -/
def store (party : Party) (axis : Axis) (value : ℚ) (b : Board) : Board :=
  let stored := { b with speed := Function.update b.speed axis value }
  match party with
  | .auto => stored.onHandshake (·.record (.speed axis value))
  | .arm => stored

end Board

/-- The programs of the mission threads. -/
abbrev Code := Stmt Sensors Board

namespace Code

/-- An assignment that reads no sensor. -/
def assign (effect : Board → Board) : Code := .update fun _ b => effect b

/-- A point of the program that the log records. -/
def mark (event : Event) : Code := assign (Board.onHandshake (·.record event))

/-- `Delay_ms`: the thread sleeps. Every interleaving is allowed at every step
already, so nothing else happens. -/
def delayMs (_ms : Nat) : Code := .skip

/-- An `if` without `else`. -/
def ifThen (condition : Sensors → Board → Bool) (body : Code) : Code :=
  .when condition body .skip

/-- Give a command to a device. -/
def issue (command : Command) : Code :=
  assign fun b => { b with commands := b.commands ++ [command] }

/-- Store a value in one set-point. -/
def store (party : Party) (axis : Axis) (value : Sensors → Board → ℚ) : Code :=
  .update fun input b => b.store party axis (value input b)

/-- The macro `SPEED_STOP`, a chained assignment. -/
def speedStop (party : Party) : Code :=
  .block [store party .rotation fun _ _ => 0, store party .y fun _ _ => 0,
    store party .x fun _ _ => 0]

/-- Take a stage number out of the thread's mailbox, waiting for one forever. -/
def rtMbRecv : Party → Code
  | .auto => .act fun _ b =>
    match b.handshake.mbAuto with
    | [] => none
    | message :: rest => some (b.onHandshake fun m =>
        { m with mbAuto := rest, autoMsg := message }.record (.receives .auto message))
  | .arm => .act fun _ b =>
    match b.handshake.mbArm with
    | [] => none
    | message :: rest => some (b.onHandshake fun m =>
        { m with mbArm := rest, armMsg := message }.record (.receives .arm message))

/-- Post a stage number to the mailbox of the other thread. -/
def post : Party → Nat → Code
  | .auto, stage => assign <| Board.onHandshake fun m =>
      { m with mbArm := rtMbSend m.mbArm stage }.record (.posts .auto stage)
  | .arm, stage => assign <| Board.onHandshake fun m =>
      { m with mbAuto := rtMbSend m.mbAuto stage }.record (.posts .arm stage)

/-- A call that ends in one `switch` on the received message. -/
def switch (message : Handshake → Nat) : List (Nat × Code) → Code
  | [] => .skip
  | (value, body) :: rest =>
    .when (fun _ b => message b.handshake == value) body (switch message rest)

end Code

end BadmintonRobot.Mission
