import Mathlib
import BadmintonRobot.Mission.Board

/-!
# The auto thread

`GoRoute1` to `GoRoute7` of `goroute.c` with the routines they call, and the entry
function of `t_auto.c`. A route sets up its path and `RouteFinish`, posts its stage to
the arm thread and then drives until the end of the path is near.
-/

namespace BadmintonRobot.Mission

open Semantics Code

/-- The table `Route` of path point numbers. -/
def routeTable : List Int := [0, 818, 1619, 2420, 3091, 3189, 3994, 4641, 4704, 5400]

/-- An entry of `Route`. -/
def routePoint (i : Nat) : Int := routeTable.getD i 0

/-- The route's flag `RouteFinish`, which is 0 when the path is over. -/
def setRouteFinish (value : Bool) : Code :=
  assign (Board.onHandshake ({ · with routeFinish := value }))

/-- `SetPointPath`. -/
def setPointPath (staNum endNum : Int) : Code :=
  .block
    [ assign ({ · with pointStartNum := staNum }),
      assign ({ · with pointEndNum := endNum }),
      assign ({ · with pointNowNum := staNum }),
      setRouteFinish true ]

/-- The search loop of `GoPointPath`: the last of at most nine steps ahead that brings
the robot nearer. -/
def countDelta (nearer : Int → Bool) (now last : Int) : (left i delta : Nat) → Nat
  | 0, _, delta => delta
  | left + 1, i, delta =>
    if now + i ≥ last then delta
    else countDelta nearer now last left (i + 1) (if nearer (now + i) then i + 1 else delta)

/-- `GoPointPath`: search the next path point and store the speeds towards it. -/
def goPointPath : Code :=
  .block
    [ .update fun input b =>
        { b with pointNowNum := b.pointNowNum +
            countDelta input.nearer b.pointNowNum b.pointEndNum 9 0 0 },
      store .auto .x fun input _ => input.speed,
      store .auto .y fun input _ => input.speed,
      store .auto .rotation fun input _ => input.speed ]

/-- `GoLine`. -/
def goLine (party : Party) : Code :=
  .block
    [ store party .x fun input _ => input.speed,
      store party .y fun input _ => input.speed,
      store party .rotation fun input _ => input.speed ]

/-- `Go_CamCircle`: steer by the camera, and stop once if its data are too old. -/
def goCamCircle : Code :=
  .when (fun input _ => input.cameraTime < 100)
    (.block
      [ store .auto .x fun input _ => input.speed,
        store .auto .rotation fun input _ => input.speed ])
    (ifThen (fun _ b => !b.camCircleFlag)
      (.block [assign ({ · with camCircleFlag := true }), speedStop .auto]))

/-- `Keep_Circle`. The outputs of the control loops, 0 inside the dead band, are the
input; the rotation is limited to 300. -/
def keepCircle (party : Party) (place : Nat) : Code :=
  if place ≥ 4 then speedStop party
  else
    .when (fun input _ => input.cameraTime < 100)
      (.block
        [ store party .rotation fun input _ => input.speed,
          ifThen (fun _ b => b.speed .rotation > 300) (store party .rotation fun _ _ => 300),
          ifThen (fun _ b => b.speed .rotation < -300) (store party .rotation fun _ _ => -300),
          store party .x fun input _ => input.speed,
          store party .y fun input _ => input.speed ])
      (speedStop party)

/-- The variable `temp_state` of `CamCircle_Static` in the calling thread. -/
def tempState (b : Board) : Party → Bool
  | .auto => b.route.tempState
  | .arm => b.arm.tempState

/-- Store `temp_state` of the calling thread. -/
def setTempState (b : Board) (value : Bool) : Party → Board
  | .auto => { b with route := { b.route with tempState := value } }
  | .arm => { b with arm := { b.arm with tempState := value } }

/-- `CamCircle_Static(ARMACTION, place)`. -/
def camCircleStatic (party : Party) (place : Nat) : Code :=
  .block
    [ issue (.chooseFunction 0),
      .update fun input b => setTempState b input.button8 party,
      .forever <| .block
        [ keepCircle party place,
          ifThen (fun input _ => input.circleReached) .leave,
          ifThen (fun input b => tempState b party != input.button8) .leave,
          delayMs 5 ],
      speedStop party ]

/-- The end of a path: `RouteFinish=0; SPEED_STOP; break;`. -/
def finishRoute : Code :=
  .block [setRouteFinish false, speedStop .auto, .leave]

/-- The test `Point_NowNum>Point_EndNum-2` that ends a path. -/
def nearEnd (_ : Sensors) (b : Board) : Bool := b.pointNowNum > b.pointEndNum - 2

/-- A route with a plain path: stages 1, 3 and 6. -/
def pathRoute (stage : Nat) (staNum endNum : Int) : Code :=
  .block
    [ mark (.starts .auto stage),
      assign ({ · with routeNum := stage }),
      setPointPath staNum endNum,
      post .auto stage,
      .forever <| .block [goPointPath, ifThen nearEnd finishRoute, delayMs 5],
      mark (.returns .auto stage) ]

/-- From the start to the seesaw. -/
def goRoute1 : Code := pathRoute 1 (routePoint 0) (routePoint 1)

/-- `Speed_Y==0` and the camera sees the circle where it should be. -/
def circleAligned (input : Sensors) (b : Board) : Bool :=
  b.speed .y == 0 && |input.distError| < 5 && |input.angleError| < 3 / 100

/-- One turn of the loop of `GoRoute2` that follows the circle in motion. The interval
of the loop is 5 ms. -/
def circleTurn : Code :=
  .block
    [ goCamCircle,
      delayMs 5,
      ifThen (fun _ b => !b.route.accFlag)
        (store .auto .y fun _ b => b.speed .y + 5 * b.handshake.settings.accP / 1000),
      ifThen (fun _ b => b.speed .y > b.handshake.settings.vMax)
        (store .auto .y fun _ b => b.handshake.settings.vMax),
      ifThen (fun input b => input.gyroAngle < -135 + 30 && !b.route.flag1)
        (.block
          [ assign fun b => { b with route := { b.route with flag1 := true } },
            assign fun b => { b with route := { b.route with accFlag := true } } ]),
      ifThen (fun input b => input.gyroAngle ≤ -135 && !b.route.flag2)
        (.block
          [ assign fun b => { b with route := { b.route with flag2 := true } },
            speedStop .auto ]),
      ifThen (fun _ b => b.route.accFlag)
        (store .auto .y fun _ b => b.speed .y - 5 * b.handshake.settings.accN / 1000),
      ifThen (fun _ b => b.speed .y ≤ 0)
        (.block
          [ store .auto .y fun _ _ => 0,
            assign fun b => { b with route := { b.route with accFlag := false } } ]),
      ifThen circleAligned
        (.block [assign (Board.onHandshake ({ · with circleFinish := false })), .leave]) ]

/-- The camera takes over near the end of the path: `RouteFinish=0; break;` without a
stop. -/
def handToCamera : Code :=
  .block
    [ issue (.chooseFunction 0),
      ifThen (fun input b => b.pointNowNum > b.pointEndNum - b.handshake.settings.switchNum &&
          input.cameraTime < 100)
        (.block [setRouteFinish false, .leave]) ]

/-- One turn of the path loop of `GoRoute2`. -/
def seesawTurn : Code :=
  .block
    [ goPointPath,
      .when (fun _ b => b.handshake.settings.laserFlag 0)
        (ifThen (fun _ b => b.pointNowNum > 1550) finishRoute)
        (.block
          [ ifThen (fun _ b => !b.handshake.settings.walkGround && b.handshake.settings.circleFlag 0)
              handToCamera,
            ifThen nearEnd (.block [speedStop .auto, setRouteFinish false, .leave]) ]),
      delayMs 5 ]

/-- From one end of the seesaw to the other. -/
def goRoute2 : Code :=
  .block
    [ mark (.starts .auto 2),
      assign fun b => { b with route := { b.route with accFlag := false } },
      assign fun b => { b with route := { b.route with flag1 := false } },
      assign fun b => { b with route := { b.route with flag2 := false } },
      assign ({ · with routeNum := 2 }),
      setPointPath (routePoint 1 + 1) (routePoint 2),
      post .auto 2,
      .when (fun _ b => b.handshake.settings.circleDynFlag)
        (.block [issue (.chooseFunction 0), .forever circleTurn, speedStop .auto])
        (.block
          [ .forever seesawTurn,
            ifThen (fun _ b => !b.handshake.settings.walkGround && b.handshake.settings.circleFlag 0)
              (camCircleStatic .auto 0) ]),
      mark (.returns .auto 2) ]

/-- From the seesaw back again. -/
def goRoute3 : Code := pathRoute 3 (routePoint 2) (routePoint 3)

/-- Ask the laser for the place to stop at once the path has only 200 points left. -/
def startLaser (laser : Fin 3) (start : Nat) : Code :=
  ifThen (fun _ b => b.pointNowNum > b.pointEndNum - 200 &&
      b.handshake.settings.laserFlag laser && b.route.flag)
    (.block
      [ assign fun b => { b with route := { b.route with flag := false } },
        issue (.sensorStart start) ])

/-- Stop when the laser thread has found the place: after the message `found` wait for
the next one, and end the path if it is `ended`. -/
def stopAtLaser (found ended : Nat) : Code :=
  .ite (fun input b =>
      (input.sensorEnd.isSome,
        { b with route := { b.route with msg := input.sensorEnd.getD b.route.msg } }))
    (ifThen (fun _ b => b.route.msg == found)
      (.block
        [ .act fun input b => input.sensorEnd.map fun message =>
            { b with route := { b.route with msg := message } },
          ifThen (fun _ b => b.route.msg == ended) finishRoute ]))
    .skip

/-- From the seesaw to the poles. -/
def goRoute4 : Code :=
  .block
    [ mark (.starts .auto 4),
      assign fun b => { b with route := { b.route with flag := true } },
      assign ({ · with routeNum := 4 }),
      setPointPath (routePoint 3 + 1) (routePoint 4),
      post .auto 4,
      .whilst (fun _ b => b.handshake.routeFinish) <| .block
        [ goPointPath, startLaser 1 4, stopAtLaser 5 6, ifThen nearEnd finishRoute, delayMs 5 ],
      mark (.returns .auto 4) ]

/-- From one end of the poles to the other, along a line. -/
def goRoute5 : Code :=
  .block
    [ mark (.starts .auto 5),
      assign ({ · with routeNum := 5 }),
      setRouteFinish true,
      delayMs 50,
      post .auto 5,
      .whilst (fun _ b => b.handshake.routeFinish) <| .block
        [ goLine .auto, ifThen (fun input _ => input.lineLeft < 10) finishRoute, delayMs 5 ],
      mark (.returns .auto 5) ]

/-- From the poles to the swing. -/
def goRoute6 : Code := pathRoute 6 (routePoint 5 + 1) (routePoint 7)

/-- From the swing to the stairs. -/
def goRoute7 : Code :=
  .block
    [ mark (.starts .auto 7),
      assign fun b => { b with route := { b.route with flag := true } },
      assign ({ · with routeNum := 7 }),
      setPointPath (routePoint 8 + 1) (routePoint 9),
      post .auto 7,
      .whilst (fun _ b => b.handshake.routeFinish) <| .block
        [ goPointPath,
          startLaser 2 1,
          stopAtLaser 2 3,
          ifThen (fun _ b => !b.handshake.settings.walkGround && b.handshake.settings.circleFlag 3)
            handToCamera,
          ifThen nearEnd finishRoute,
          delayMs 5 ],
      ifThen (fun _ b => !b.handshake.settings.walkGround && b.handshake.settings.circleFlag 3)
        (camCircleStatic .auto 3),
      mark (.returns .auto 7) ]

/-- The routes by stage. -/
def routes : List (Nat × Code) :=
  [(1, goRoute1), (2, goRoute2), (3, goRoute3), (4, goRoute4), (5, goRoute5), (6, goRoute6),
    (7, goRoute7)]

/-- The entry function of the auto thread. -/
def rtThreadEntryAuto : Code :=
  .forever (.block [rtMbRecv .auto, switch (·.autoMsg) routes])

end BadmintonRobot.Mission
