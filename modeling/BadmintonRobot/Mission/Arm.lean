import Mathlib
import BadmintonRobot.Mission.Route

/-!
# The arm thread

`armaction1` to `armaction7` of `armaction.c` with the routines they call, and the entry
function of `t_arm.c`. Each action first waits for the route of its stage and then
works through motors, valves, buttons and cameras. The actions of stages 1 to 6 end by
posting the next stage to the auto thread.

The camera routines `CamRecode`, `Handover`, `PolePut` and `CamWhiteTape` and the motor
profile `mt_line` are outlined: they may move the chassis and take any number of turns.
-/

namespace BadmintonRobot.Mission

open Semantics Code

/-- A stop command to a motor. -/
def motoStop (motor : Fin 3) : Code := issue (.motoStop motor)

/-- Leave the loop when a key has been pressed. -/
def leaveOnKey : Code := ifThen (fun input _ => input.key.isSome) .leave

/-- `HandFB`: motor 1 goes to a position, and with `WAIT` the thread waits for it. -/
def handFB (rotation : Board → ℚ) (wait : Bool) (speed : Board → Int) : Code :=
  .block
    [ assign fun b => { b with commands := b.commands ++ [.motorOld 0 (rotation b) (speed b)] },
      if wait then
        .block
          [ .whilst (fun input b => |input.motorPos 0 - rotation b| > 1 / 20) <|
              .block [leaveOnKey, delayMs 5],
            motoStop 0 ]
      else .skip ]

/-- `HandUD`: motor 2 goes to a position; the command is repeated while the thread
waits and the motor reports another aim. -/
def handUD (rotation : Board → ℚ) (wait : Bool) : Code :=
  let command := assign fun b =>
    { b with commands := b.commands ++ [.motorOld 1 (rotation b) 10000] }
  .block
    [ command,
      if wait then
        .block
          [ .whilst (fun input b => |input.motorPos 1 - rotation b| > 1 / 20) <|
              .block
                [ ifThen (fun input b => |input.motorRealAim 1 / 1000 - rotation b| > 1 / 20)
                    command,
                  leaveOnKey,
                  delayMs 5 ],
            motoStop 1 ]
      else .skip ]

/-- `Motor3` without waiting, as the arm actions call it. -/
def motor3 (rotation : ℚ) : Code := issue (.motorOld 2 rotation 6000)

/-- The speed of motor 1 that most actions use. -/
def motor1Speed (b : Board) : Int := b.handshake.settings.motor1Speed

/-- `Wait_Button8_Change`. -/
def waitButton8Change : Code :=
  .block
    [ .update fun input b => { b with arm := { b.arm with buttonState := input.button8 } },
      .whilst (fun input b => input.button8 == b.arm.buttonState) (delayMs 5) ]

/-- A screen that is shown until a key is pressed. -/
def waitKey : Code := .whilst (fun input _ => input.key.isNone) (delayMs 20)

/-- `while(CHILD_ON)`: wait until the child robot has come off the hand. -/
def waitChildOff : Code := .whilst (fun input _ => input.childOn) (delayMs 5)

/-- `while(CHILD_OFF)`: wait until the hand holds the child robot. -/
def waitChildOn : Code := .whilst (fun input _ => !input.childOn) (delayMs 5)

/-- A camera routine of the arm thread, in outline. -/
def cameraTask : Code :=
  .block
    [ .whilst (fun input _ => !input.taskDone) <| .block [goLine .arm, delayMs 5],
      speedStop .arm ]

/-- `mt_line` on motor 3, in outline. -/
def mtLine (aim : Fin 2) (first second : ℚ) (startPwm maxPwm endPwm : Int) : Code :=
  .block
    [ .update fun input b =>
        { b with commands := b.commands ++
            [.mtLine (input.motorPos 2) (b.motor3AimPos aim) first second startPwm maxPwm endPwm] },
      .whilst (fun input _ => !input.taskDone) (delayMs 5) ]

/-- Drive along a line to its end. -/
def driveLine (turn : Code) : Code :=
  .forever <| .block
    [ goLine .arm,
      turn,
      ifThen (fun input _ => input.lineLeft < 10) (.block [speedStop .arm, .leave]),
      delayMs 5 ]

/-- Note a change of button 8 in `Auto_flag`. -/
def noteButton8 : Code :=
  ifThen (fun input b => b.tempButton8State != input.button8)
    (.block
      [ assign ({ · with autoFlag := false }),
        .update fun input b => { b with tempButton8State := input.button8 } ])

/-- Wait for button 8 unless it changed on the way, and forget that it did. -/
def waitUnlessNoted : Code :=
  .block [ifThen (fun _ b => b.autoFlag) waitButton8Change, assign ({ · with autoFlag := true })]

/-- Record the run time in `RouteTime`. -/
def recordRouteTime (i : Fin 7) : Code :=
  .update fun input b => { b with routeTime := Function.update b.routeTime i input.runTime }

/-- Record the run time in `SegmentTime`. -/
def recordSegmentTime (i : Fin 7) : Code :=
  .update fun input b => { b with segmentTime := Function.update b.segmentTime i input.runTime }

/-- Take over the position of motor 1 as the aim of a place. -/
def recordMotor1 (i : Fin 6) : Code :=
  .update fun input b =>
    { b with motor1AimPos := Function.update b.motor1AimPos i (input.motorPos 0) }

/-- Take over the position of motor 2 as the aim of a place. -/
def recordMotor2 (i : Fin 6) : Code :=
  .update fun input b =>
    { b with motor2AimPos := Function.update b.motor2AimPos i (input.motorPos 1) }

/-- Take over the position of motor 3 as an aim of the seesaw. -/
def recordMotor3 (i : Fin 2) : Code :=
  .update fun input b =>
    { b with motor3AimPos := Function.update b.motor3AimPos i (input.motorPos 2) }

/-- The option `WalkGround`: a run that records the aims. -/
def walkGround (body : List Code) : Code :=
  ifThen (fun _ b => b.handshake.settings.walkGround) (.block body)

/-- The option `debug`: wait for button 8 between the actions. -/
def debugWait : Code := ifThen (fun _ b => b.handshake.settings.debug) waitButton8Change

/-- `while(RouteFinish)`, the initial waiting loop. The log records that it ends. -/
def waitRoute (stage : Nat) (body : Code) : Code :=
  .loop (fun _ b =>
      if b.handshake.routeFinish then (true, b)
      else (false, b.onHandshake (·.record (.leavesWait stage))))
    body

/-- The local `flag` of an action starts at 0. -/
def clearFlag : Code := assign fun b => { b with arm := { b.arm with flag := false } }

/-- Do something once when the path has come past a point. -/
def oncePast (point : Int) (body : List Code) : Code :=
  ifThen (fun _ b => b.pointNowNum > point && !b.arm.flag)
    (.block (assign (fun b => { b with arm := { b.arm with flag := true } }) :: body))

/-- Post the next stage to the auto thread if `armtest_flag` is set. -/
def answer (stage : Nat) : Code :=
  ifThen (fun _ b => b.handshake.armtestFlag) (post .arm (stage + 1))

/-- The parts of an arm action: what it does before the waiting loop, the loop, the
work after it, and how it ends. -/
def armAction (stage : Nat) (setup : List Code) (wait : Code) (work finish : List Code) : Code :=
  .block
    [ mark (.starts .arm stage),
      .block setup,
      wait,
      .block work,
      .block finish,
      mark (.returns .arm stage) ]

/-- Put the child robot on the seesaw. -/
def armaction1 : Code :=
  armAction 1 [clearFlag]
    (waitRoute 1 <| .block
      [ oncePast (routePoint 1 - 500)
          [ handFB (fun b => 3 / 4 * b.motor1AimPos 0) false motor1Speed,
            handUD (fun _ => 1 / 2) true ],
        delayMs 5 ])
    [ recordRouteTime 0,
      walkGround [waitKey, recordMotor1 0, recordMotor2 0],
      ifThen (fun _ b => b.retry)
        (.block
          [ assign ({ · with retry := false }),
            handFB (fun b => b.motor1AimPos 0) true motor1Speed ]),
      handFB (fun b => b.motor1AimPos 0) false motor1Speed,
      handUD (fun b => b.motor2AimPos 0) true,
      waitButton8Change,
      issue .handOpen,
      waitChildOff,
      handUD (fun _ => 1) true,
      handFB (fun _ => 36 / 10) false motor1Speed,
      debugWait ]
    [answer 1, recordSegmentTime 0]

/-- Motor 3 gets into place while the robot moves along the seesaw. -/
def prepareSeesaw (height : ℚ) : Code :=
  .block
    [ assign fun b => { b with arm := { b.arm with flag := true } },
      handFB (fun _ => 36 / 10) false motor1Speed,
      handUD (fun _ => height) false,
      motor3 (5 / 2) ]

/-- The initial waiting loop of `armaction2`. When the circle is followed in motion it
waits for `CircleFinish` and not for `RouteFinish`. -/
def waitSeesaw : Code :=
  .when (fun _ b => b.handshake.settings.circleDynFlag)
    (.forever <| .block
      [ ifThen (fun input b => input.gyroAngle < 20 && !b.arm.flag) (prepareSeesaw (7 / 2)),
        delayMs 5,
        .ite (fun _ b =>
            if b.handshake.circleFinish then (false, b)
            else (true, b.onHandshake (·.record (.leavesWait 2))))
          .leave .skip ])
    (waitRoute 2 <| .block
      [ ifThen (fun _ b => b.pointNowNum > routePoint 1 + 100 && !b.arm.flag)
          (prepareSeesaw (17 / 10)),
        delayMs 5 ])

/-- Press the seesaw down and let it up three times with motor 3. -/
def armaction2 : Code :=
  armAction 2 [clearFlag] waitSeesaw
    [ recordRouteTime 1,
      walkGround [waitKey, recordMotor3 0, waitKey, recordMotor3 1],
      waitButton8Change,
      .update fun input b => { b with tempButton8State := input.button8 },
      mtLine 1 0 (3 / 10) 100 100 50,
      mtLine 0 (3 / 10) (3 / 10) (-50) (-100) (-50),
      mtLine 1 0 (3 / 10) 100 100 50,
      mtLine 0 (3 / 10) (3 / 10) (-50) (-100) (-50),
      mtLine 1 0 (3 / 10) 100 100 50,
      mtLine 0 (3 / 10) (3 / 10) (-50) (-100) (-50),
      motor3 0,
      .forever <| .block
        [ ifThen (fun input _ => |input.motorRealAim 2 / 1000| > 1 / 20) (issue (.setGPos 2 0)),
          leaveOnKey,
          ifThen (fun input _ => !input.motor3Io 3) .leave,
          noteButton8,
          ifThen (fun input b => |input.motorPos 2| < |b.motor3AimPos 0|) .leave,
          delayMs 5 ],
      waitUnlessNoted ]
    [answer 2, recordSegmentTime 1]

/-- Take hold of the child robot: wait for it, stop motor 2 and close the hand. -/
def graspChild (ms : Nat) : Code :=
  .block [waitChildOn, motoStop 1, issue .handClose, delayMs ms]

/-- Take the child robot from the seesaw. -/
def armaction3 : Code :=
  armAction 3 [clearFlag]
    (waitRoute 3 <| .block
      [ oncePast ((routePoint 2 + routePoint 3) / 2)
          [ handFB (fun b => b.motor1AimPos 1) false motor1Speed, handUD (fun _ => 1) true ],
        delayMs 5 ])
    [ recordRouteTime 2,
      walkGround [waitKey, recordMotor1 1, cameraTask],
      .when (fun _ b => b.handshake.settings.handoverFlag 0)
        (.block [handUD (fun b => b.motor2AimPos 1) true, cameraTask])
        (.block [waitButton8Change, handUD (fun b => b.motor2AimPos 1 + 3 / 2) false]),
      graspChild 50,
      handUD (fun _ => 3 / 2) false,
      delayMs 200,
      debugWait ]
    [answer 3, recordSegmentTime 2]

/-- Put the child robot on the poles. -/
def armaction4 : Code :=
  armAction 4 [clearFlag]
    (waitRoute 4 <| .block
      [ oncePast (routePoint 3 + 10)
          [ handUD (fun _ => 3 / 2) true,
            handFB (fun _ => 8 / 10) true motor1Speed,
            handUD (fun b => b.motor2AimPos 2) true ],
        delayMs 5 ])
    [ recordRouteTime 3,
      ifThen (fun _ b => b.handshake.settings.circleFlag 2)
        (.block [waitButton8Change, camCircleStatic .arm 2]),
      walkGround [cameraTask, waitKey, recordMotor1 2],
      debugWait,
      ifThen (fun _ b => b.retry)
        (.block
          [assign ({ · with retry := false }), handUD (fun b => b.motor2AimPos 2) true]),
      handFB (fun b => b.motor1AimPos 2) true motor1Speed,
      .when (fun _ b => b.handshake.settings.poleFlag)
        (.block [waitButton8Change, cameraTask])
        (ifThen (fun _ b => b.handshake.settings.laserFlag 1)
          (.block
            [ waitButton8Change,
              store .arm .y fun _ _ => -100,
              waitButton8Change,
              speedStop .arm,
              issue (.hallSend 3) ])),
      waitButton8Change,
      issue .handOpen,
      delayMs 50,
      handUD (fun _ => 3 / 2) false ]
    [answer 4, recordSegmentTime 3]

/-- Take the child robot from the poles. -/
def armaction5 : Code :=
  armAction 5 [clearFlag]
    (waitRoute 5 <| .block
      [oncePast (routePoint 4 + 10) [handUD (fun _ => 3 / 2) false], delayMs 5])
    [ recordRouteTime 4,
      walkGround [waitKey, recordMotor1 3, cameraTask],
      waitButton8Change,
      .when (fun _ b => b.handshake.settings.handoverFlag 1)
        (.block [handUD (fun b => b.motor2AimPos 3) true, cameraTask])
        (.block [waitButton8Change, handUD (fun b => b.motor2AimPos 3 + 3 / 2) false]),
      graspChild 50,
      debugWait ]
    [answer 5, recordSegmentTime 4]

/-- The stages of the preparation in `armaction6`, each done once on the way. -/
def prepareSwing : Code :=
  .block
    [ noteButton8,
      ifThen (fun _ b => b.pointNowNum > routePoint 5 + 200 && !b.arm.flag1)
        (.block
          [ assign fun b => { b with arm := { b.arm with flag1 := true } },
            issue .handTurnRight,
            delayMs 600,
            handFB (fun _ => 0) false motor1Speed,
            handUD (fun _ => 3) false,
            issue .gunOn ]),
      ifThen (fun _ b => b.pointNowNum > routePoint 7 - 400 && !b.arm.flag2)
        (.block
          [ assign fun b => { b with arm := { b.arm with flag2 := true } },
            assign ({ · with fanFlag := false }) ]),
      ifThen (fun _ b => b.pointNowNum > routePoint 7 - 200 && !b.arm.flag3)
        (.block
          [ assign fun b => { b with arm := { b.arm with flag3 := true } },
            handUD (fun _ => 0) false ]),
      delayMs 5 ]

/-- Close the fire valve once, a hundred turns after the shot. -/
def fireOffLater : Code :=
  .block
    [ ifThen (fun _ b => b.arm.delayFlag != 0)
        (assign fun b => { b with arm := { b.arm with delayFlag := b.arm.delayFlag + 1 } }),
      ifThen (fun _ b => b.arm.delayFlag > 100)
        (.block
          [ assign fun b => { b with arm := { b.arm with delayFlag := 0 } },
            issue .fireOff ]) ]

/-- Put the child robot on the swing, fire, and take it back. -/
def armaction6 : Code :=
  armAction 6
    [ assign fun b => { b with arm := { b.arm with flag1 := false } },
      assign fun b => { b with arm := { b.arm with flag2 := false } },
      assign fun b => { b with arm := { b.arm with flag3 := false } },
      assign fun b => { b with arm := { b.arm with delayFlag := 1 } },
      ifThen (fun _ b => b.handshake.armtestFlag && !b.retry)
        (.block
          [handFB (fun _ => 1) true motor1Speed, handUD (fun _ => 178 / 100) true]),
      .update fun input b => { b with tempButton8State := input.button8 } ]
    (waitRoute 6 prepareSwing)
    [ assign ({ · with retry := false }),
      assign ({ · with fanFlag := true }),
      recordRouteTime 5,
      walkGround [cameraTask],
      waitUnlessNoted,
      .when (fun _ b => b.handshake.settings.swingFlag)
        (.block [issue (.chooseFunction 0xff), cameraTask])
        (handFB (fun b => b.motor1AimPos 4) true motor1Speed),
      delayMs 100,
      handUD (fun b => b.motor2AimPos 4) true,
      walkGround [waitKey, recordMotor1 4, recordMotor2 4],
      waitButton8Change,
      issue .handOpen,
      waitChildOff,
      handUD (fun _ => 0) true,
      issue .handClose,
      handFB (fun _ => 0) false motor1Speed,
      debugWait,
      waitButton8Change,
      issue .fireOn,
      delayMs 100,
      driveLine fireOffLater,
      issue .fireClear,
      delayMs 50,
      issue .bufferOn,
      delayMs 500,
      issue .bufferOff,
      waitButton8Change,
      handFB (fun b => b.motor1AimPos 4) false motor1Speed,
      driveLine .skip,
      handUD (fun _ => 1 / 2) false,
      issue .handOpen,
      delayMs 300,
      issue .fireOff,
      issue .bufferOn,
      waitButton8Change,
      handUD (fun _ => 125 / 100) false,
      graspChild 100,
      handUD (fun _ => 0) true,
      handFB (fun _ => 0) false (fun _ => 5000),
      waitButton8Change ]
    [answer 6, recordSegmentTime 5]

/-- Put the child robot on the stairs. This is the last stage, so nothing is posted. -/
def armaction7 : Code :=
  armAction 7 [clearFlag, issue .gunOff]
    (waitRoute 7 <| .block
      [ oncePast (routePoint 8 + 350)
          [ handUD (fun _ => 1) true,
            issue .handRaise,
            delayMs 600,
            handFB (fun _ => 1) true motor1Speed ],
        delayMs 10 ])
    [ assign ({ · with retry := false }),
      recordRouteTime 6,
      walkGround
        [ cameraTask,
          ifThen (fun _ b => b.handshake.settings.circleFlag 3)
            (.block [waitButton8Change, camCircleStatic .arm 3]),
          waitKey,
          recordMotor1 5,
          recordMotor2 5 ],
      handUD (fun b => b.motor2AimPos 5) true,
      handFB (fun b => b.motor1AimPos 5) true motor1Speed,
      waitButton8Change,
      issue .handOpen,
      delayMs 50,
      handFB (fun _ => 0) false (fun _ => 5000),
      delayMs 200,
      driveLine .skip,
      .update fun input b => { b with tempButton8State := input.button8 },
      .whilst (fun input b => b.tempButton8State == input.button8) (delayMs 5),
      assign ({ · with timeOnFlag := false }) ]
    [recordSegmentTime 6]

/-- The arm actions by stage. -/
def armActions : List (Nat × Code) :=
  [(1, armaction1), (2, armaction2), (3, armaction3), (4, armaction4), (5, armaction5),
    (6, armaction6), (7, armaction7)]

/-- The entry function of the arm thread. -/
def rtThreadEntryArm : Code :=
  .forever (.block [rtMbRecv .arm, switch (·.armMsg) armActions])

end BadmintonRobot.Mission
