import Mathlib
import BadmintonRobot.Can.Table
import BadmintonRobot.Control.Pid
import BadmintonRobot.Semantics.Thread

/-!
# What the joystick threads do with a frame

The robot is driven with two joysticks, each with a thread of its own. `workX` and `workY`
are what the threads do when their joystick works, from the reading of the frame on, and
`stopAll` is what they do in an emergency. A thread sees the frame of its joystick and the
flag `time_flag` of the other one, which is zero for a joystick that is lost. Numbers are
exact, in any ordered field.
-/

namespace BadmintonRobot.Joystick

open Can Control Semantics

/-- The two joysticks. -/
inductive Hand where
  | x
  | y
deriving DecidableEq, Repr

def Hand.other : Hand → Hand
  | .x => .y
  | .y => .x

@[simp] theorem Hand.other_other (which : Hand) : which.other.other = which := by
  cases which <;> rfl

theorem Hand.other_ne (which : Hand) : which.other ≠ which := by
  cases which <;> decide

theorem Hand.eq_or_eq_other (first second : Hand) : first = second ∨ first = second.other := by
  cases first <;> cases second <;> simp [Hand.other]

/-- The fields of `Handle_Data` behind the frame head. -/
structure HandleData where
  ud : UInt16
  lr : UInt16
  turn : UInt16
  rest : Fin 9 → UInt8

namespace HandleData

/-- Some bits of the second byte of `rest` have the given value. -/
def bits (data : HandleData) (mask value : UInt8) : Bool := data.rest 1 &&& mask == value

@[inherit_doc bits] def button6Up (data : HandleData) : Bool := data.bits 0x0c 0x04
@[inherit_doc bits] def button7Off (data : HandleData) : Bool := data.bits 0x80 0
@[inherit_doc bits] def button9On (data : HandleData) : Bool := data.bits 0x20 0x20
@[inherit_doc bits] def button9Off (data : HandleData) : Bool := data.bits 0x20 0
@[inherit_doc bits] def button10On (data : HandleData) : Bool := data.bits 0x10 0x10

/-- All sticks in their middle and no button pressed. -/
def centred : HandleData where
  ud := 12288
  lr := 12288
  turn := 12288
  rest _ := 0

end HandleData

/-- How far a stick is from its middle. -/
def deflection (value : UInt16) : Int := value.toNat - 12288

/-- What a joystick thread reads besides the board. -/
structure View where
  data : HandleData
  otherFlag : Nat

/-- The calls that move the robot. -/
inductive Command (K : Type) where
  | setSpeed (hand : Hand) (x y rotation : K)
  | motoStop (hand : Hand) (motor : IdNumdef)
  | fanAccelerate (x y : K)

/-- The functions of the mathematical library. -/
structure Maths (K : Type) where
  sin : K → K
  cos : K → K
  atan2 : K → K → K

/-- The variables that other threads write too. -/
structure Shared (K : Type) where
  speedX : K
  speedY : K
  speedRotation : K
  radian : K
  single : Bool
  fantest : Bool
  fanmax : K
  controllers : Controllers K

/-- The local variables of a joystick thread. The thread of the X joystick has the first
ones only, without `Handle_Speed_X2`. -/
structure Locals (K : Type) where
  handleSpeedX2 : K
  handleSpeedY2 : K
  handleSpeedRotation : K
  speedM : Int
  nowspeedX : K
  nowspeedY : K
  errorAngleThis : K
  voutAa : K

/-- The variables that the joystick threads compute with, and the calls they made. -/
structure Board (K : Type) where
  shared : Shared K
  onlyXY : Bool
  handleSpeedX : K
  handleSpeedY : K
  lastspeedX : K
  lastspeedY : K
  locals : Hand → Locals K
  commands : List (Command K)

section Work

variable {K : Type} [Field K] [LinearOrder K]

/-- The constant `pi` of `mymath.h`. -/
def pi : K := 314159265359 / 100000000000

/-- The macro `Abs`. -/
def abs' (a : K) : K := if a > 0 then a else -a

def Board.record (b : Board K) (command : Command K) : Board K :=
  { b with commands := b.commands ++ [command] }

/-- Assign a local variable of a thread. -/
def Board.assign (b : Board K) (hand : Hand) (change : Locals K → Locals K) : Board K :=
  { b with locals := Function.update b.locals hand (change (b.locals hand)) }

/-- A statement with the frame and the other flag. -/
abbrev Code (K : Type) := Stmt View (Board K)

/-- `SPEED_STOP`, `SetSpeed(0,0,0)` and `Moto_Stop` of the first two motors. -/
def stopAll (hand : Hand) : Code K :=
  .block [
    .update fun _ b =>
      { b with shared := { b.shared with speedX := 0, speedY := 0, speedRotation := 0 } },
    .update fun _ b => b.record (.setSpeed hand 0 0 0),
    .update fun _ b => b.record (.motoStop hand .wMotor1OldId),
    .update fun _ b => b.record (.motoStop hand .wMotor2OldId) ]

/-- Both threads: read the sticks but for `lr`, and let one joystick drive alone if button 9
is on or the other joystick is lost. `fine` is the speed that button 10 divides by ten and
`alone` the call of `SetSpeed`. -/
def readSticks (hand : Hand) : Code K :=
  .block [
    .update fun v b =>
      b.assign hand fun l => { l with handleSpeedY2 := (deflection v.data.ud : K) },
    .update fun v b =>
      b.assign hand fun l => { l with handleSpeedRotation := (deflection v.data.turn : K) / 10 } ]

@[inherit_doc readSticks]
def setScale (hand : Hand) (fine : Board K → Board K) : Code K :=
  .when (fun v _ => v.data.button10On && v.data.button7Off)
    (.block [
      .update fun _ b => fine b,
      .update fun _ b => b.assign hand fun l => { l with speedM := 150 } ])
    (.update fun _ b => b.assign hand fun l => { l with speedM := 500 })

@[inherit_doc readSticks]
def takeOver (alone : Board K → Board K) : Code K :=
  .block [
    .when (fun v _ => v.data.button9On || v.otherFlag == 0)
      (.block [ .update fun _ b => { b with onlyXY := false }, .update fun _ b => alone b ]) .skip,
    .when (fun v _ => v.data.button9Off && v.otherFlag != 0)
      (.update fun _ b => { b with onlyXY := true }) .skip ]

/-- The thread of the X joystick, from the assignment of `Handle_Speed_X` on. -/
def workX : Code K :=
  .block [
    .update fun v b => { b with handleSpeedX := (deflection v.data.lr : K) },
    readSticks .x,
    setScale .x fun b => { b with handleSpeedX := b.handleSpeedX / 10 },
    takeOver fun b =>
      b.record (.setSpeed .x (b.shared.speedX + b.handleSpeedX)
        (b.shared.speedY + (b.locals .x).handleSpeedY2)
        (b.shared.speedRotation + (b.locals .x).handleSpeedRotation)),
    .when (fun v _ => v.data.button6Up) (stopAll .x) .skip ]

/-- The speed with which the robot is driven with one joystick follows the requested one in
steps of `fanmax`. -/
def limitChange : Code K :=
  .when (fun _ b => abs' (b.lastspeedX - (b.locals .y).nowspeedX) > b.shared.fanmax)
    (.block [
      .update fun _ b => { b with lastspeedY := (b.locals .y).nowspeedY },
      .update fun _ b =>
        { b with
          lastspeedX := b.lastspeedX + abs' (b.lastspeedX - (b.locals .y).nowspeedX) /
            (b.lastspeedX - (b.locals .y).nowspeedX) * b.shared.fanmax } ])
    (.when (fun _ b => abs' (b.lastspeedY - (b.locals .y).nowspeedY) > b.shared.fanmax)
      (.block [
        .update fun _ b => { b with lastspeedX := (b.locals .y).nowspeedX },
        .update fun _ b =>
          { b with
            lastspeedY := b.lastspeedY + abs' (b.lastspeedY - (b.locals .y).nowspeedY) /
              (b.lastspeedY - (b.locals .y).nowspeedY) * b.shared.fanmax } ])
      (.block [
        .update fun _ b => { b with lastspeedX := (b.locals .y).nowspeedX },
        .update fun _ b => { b with lastspeedY := (b.locals .y).nowspeedY } ]))

/-- A call of `FanAccelerate`, which also calls `AnglePID`. -/
def fanAccelerate (maths : Maths K) (x y : K) (b : Board K) : Board K :=
  let pid := b.shared.controllers.pidList 29
  let called := anglePID (maths.atan2 y x - b.shared.radian) pid b.shared.controllers
  { b with shared := { b.shared with controllers := called.2 } }.record (.fanAccelerate x y)

/-- The branch `if(single)`. -/
def driveAlone (maths : Maths K) : Code K :=
  .block [
    .update fun v b => { b with handleSpeedX := (deflection v.data.lr : K) },
    .when (fun v _ => v.data.button10On && v.data.button7Off)
      (.update fun _ b => { b with handleSpeedX := b.handleSpeedX / 10 }) .skip,
    .update fun _ b =>
      b.assign .y fun l => { l with nowspeedX := b.shared.speedX + b.handleSpeedX },
    .update fun _ b =>
      b.assign .y fun l => { l with nowspeedY := b.shared.speedY + b.handleSpeedY },
    limitChange,
    .when (fun _ b => b.shared.fantest)
      (.update fun _ b =>
        fanAccelerate maths (((b.locals .y).nowspeedX - b.lastspeedX) / (4095 / 10000))
          (((b.locals .y).nowspeedY - b.lastspeedY) / (4095 / 10000)) b) .skip,
    .update fun _ b =>
      b.record (.setSpeed .y (b.locals .y).nowspeedX (b.locals .y).nowspeedY
        (-2 * b.shared.speedRotation)) ]

/-- The parameters `pid_Keep`. -/
def pidKeep : Pid K := .gains (-6) 1000000 5

/-- The branch `else if(Only_XY == 1)`: the robot keeps its heading. -/
def keepHeading (maths : Maths K) : Code K :=
  .block [
    .update fun _ b => b.assign .y fun l => { l with errorAngleThis := 0 - b.shared.radian },
    .when (fun _ b => (b.locals .y).errorAngleThis > pi)
      (.update fun _ b =>
        b.assign .y fun l => { l with errorAngleThis := l.errorAngleThis - 2 * pi }) .skip,
    .when (fun _ b => (b.locals .y).errorAngleThis < -pi)
      (.update fun _ b =>
        b.assign .y fun l => { l with errorAngleThis := l.errorAngleThis + 2 * pi }) .skip,
    .when (fun _ b => abs' (b.locals .y).errorAngleThis < 2 / 1000)
      (.update fun _ b => { b with shared := { b.shared with speedRotation := 0 } })
      (.block [
        .update fun _ b =>
          let called := anglePID (b.locals .y).errorAngleThis pidKeep b.shared.controllers
          { b with shared := { b.shared with controllers := called.2 } }.assign .y
            fun l => { l with voutAa := 100 * called.1 },
        .update fun _ b =>
          { b with shared := { b.shared with speedRotation := (b.locals .y).voutAa } } ]),
    .update fun _ b =>
      b.record (.setSpeed .y
        (b.shared.speedX + b.handleSpeedX * maths.cos b.shared.radian +
          b.handleSpeedY * maths.sin b.shared.radian)
        (b.shared.speedY + b.handleSpeedY * maths.cos b.shared.radian -
          b.handleSpeedX * maths.sin b.shared.radian)
        (-b.shared.speedRotation)) ]

/-- The thread of the Y joystick, from the assignment of `Handle_Speed_Y` on. -/
def workY (maths : Maths K) : Code K :=
  .block [
    .update fun v b => { b with handleSpeedY := (deflection v.data.lr : K) },
    .update fun v b =>
      b.assign .y fun l => { l with handleSpeedX2 := (deflection v.data.lr : K) },
    readSticks .y,
    setScale .y fun b => { b with handleSpeedY := b.handleSpeedY / 10 },
    takeOver fun b =>
      b.record (.setSpeed .y (b.shared.speedX + (b.locals .y).handleSpeedX2)
        (b.shared.speedY + (b.locals .y).handleSpeedY2)
        (b.shared.speedRotation + (b.locals .y).handleSpeedRotation)),
    .when (fun v _ => v.data.button6Up) (stopAll .y) .skip,
    .when (fun _ b => b.shared.single) (driveAlone maths)
      (.when (fun _ b => b.onlyXY) (keepHeading maths) .skip) ]

/-- What a joystick thread does with a frame. -/
def work (maths : Maths K) : Hand → Code K
  | .x => workX
  | .y => workY maths

end Work

end BadmintonRobot.Joystick
