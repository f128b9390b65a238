import Mathlib
import BadmintonRobot.Joystick.Polling
import BadmintonRobot.Mission.System
import BadmintonRobot.Semantics.Run

/-!
# The emergency stop

The mission threads, the joystick threads and the keyboard thread together. They share the
set-points `Speed_X`, `Speed_Y` and `Speed_Rotation`, which both halves of the model hold.
`rt_thread_entry_emergency` handles a message with the interrupts off: it empties `Mb_Auto`
and `Mb_Arm`, starts threads again and stops the chassis and the motors. The thread of the
Y joystick goes on where it was, and so does what waits in `Mb_Key`.

What the menu does with a key is arbitrary. Numbers are exact rationals, as in the mission. The
initialisation of the devices at the first start of the keyboard thread and the menu shown are
left out.
-/

namespace BadmintonRobot.Emergency

open Semantics Joystick
open Mission (Axis System Sensors rtMbSend)

/-- Where the keyboard thread is. -/
inductive Keyboard where
  /-- at the start of its entry function -/
  | entry
  /-- in its loop, before `rt_mb_recv` on `Mb_Key` -/
  | waiting
  /-- in `KeyNumOperate` -/
  | operating
deriving DecidableEq, Repr

/-- The threads. `handleEntry` says that the thread of the X joystick is at the start of its
entry function. -/
structure Robot where
  system : System
  cockpit : Cockpit ℚ
  handleEntry : Bool
  keyboard : Keyboard
  mbKey : List Nat

/-- What can happen: a statement of a thread, a tick, a received frame, a change of
what the sensors and the controllers say, something that the menu does with a key or its
return, a key, an emergency. -/
inductive Label where
  | auto (input : Sensors)
  | arm (input : Sensors)
  | handle (which : Hand) (late : Nat)
  | tick
  | receive (which : Hand) (data : HandleData)
  | world (radian fanmax : ℚ) (fantest : Bool) (controllers : Control.Controllers ℚ)
  | keyboard
  | operate (board : Mission.Board) (work : Joystick.Board ℚ)
  | operated
  | key (value : Nat)
  | emergency (message : Nat)

/-- The set-points as the joystick threads see them. -/
def chassis (shared : Shared ℚ) : Axis → ℚ
  | .x => shared.speedX
  | .y => shared.speedY
  | .rotation => shared.speedRotation

def withChassis (speed : Axis → ℚ) (s : Cockpit ℚ) : Cockpit ℚ :=
  { s with board := { s.board with shared := { s.board.shared with
      speedX := speed .x
      speedY := speed .y
      speedRotation := speed .rotation } } }

namespace Robot

/-- A mission thread has taken a step. -/
def withSystem (s : Robot) (system : System) : Robot :=
  { s with system := system, cockpit := withChassis system.board.speed s.cockpit }

/-- A joystick thread has taken a step. -/
def withCockpit (s : Robot) (cockpit : Cockpit ℚ) : Robot :=
  { s with
    cockpit := cockpit
    system := { s.system with
      board := { s.system.board with speed := chassis cockpit.board.shared } } }

/-- `rt_thread_entry_handle` up to its loop. -/
def enterHandle (s : Robot) : Robot :=
  let board := { s.cockpit.board with handleSpeedX := 0 }.assign .x fun l => { l with speedM := 500 }
  { s with
    handleEntry := false
    cockpit := { s.cockpit with board := board }.put .x
      { s.cockpit.hand .x with handleoffFlag := true, pc := .top } }

/-- The emergency thread starts the keyboard thread and the thread of the X joystick again. -/
def restarts (s : Robot) (message : Nat) : Bool :=
  message == 6 || !s.system.board.handshake.settings.walkGround && !s.system.board.retry

/-- One step. -/
def step (maths : Maths ℚ) (s : Robot) : Label → Option Robot
  | .auto input => (s.system.step (.auto input)).map s.withSystem
  | .arm input => (s.system.step (.arm input)).map s.withSystem
  | .handle which late =>
    if which = .x ∧ s.handleEntry = true then some s.enterHandle
    else (s.cockpit.step maths (.thread which late)).map s.withCockpit
  | .tick => (s.cockpit.step maths .tick).map s.withCockpit
  | .receive which data => (s.cockpit.step maths (.receive which data)).map s.withCockpit
  | .world radian fanmax fantest controllers =>
    (s.cockpit.step maths (.outside { s.cockpit.board.shared with
      radian := radian
      fanmax := fanmax
      fantest := fantest
      controllers := controllers })).map s.withCockpit
  | .keyboard =>
    match s.keyboard, s.mbKey with
    | .entry, _ => some { s with keyboard := .waiting }
    | .waiting, [] => none
    | .waiting, _ :: rest => some { s with keyboard := .operating, mbKey := rest }
    | .operating, _ => none
  | .operate board work =>
    if s.keyboard = .operating then
      some (({ s with system := { s.system with board := board } }).withCockpit
        { s.cockpit with board := work })
    else none
  | .operated => if s.keyboard = .operating then some { s with keyboard := .waiting } else none
  | .key value => some { s with mbKey := rtMbSend s.mbKey value }
  | .emergency message =>
    (s.system.step (.emergency message)).map fun system =>
      { s.withSystem system with
        handleEntry := s.handleEntry || s.restarts message
        keyboard := if s.restarts message then .entry else s.keyboard }

end Robot

end BadmintonRobot.Emergency
