import Mathlib
import BadmintonRobot.Mission.Arm
import BadmintonRobot.Mission.Contract

/-!
# What the statements of the threads touch

Most statements of the two programs leave the handshake alone. The statements of a route
between its post and its end add nothing to it but set-points.
-/

namespace BadmintonRobot.Mission

open Semantics Code

/-- The handshake does not change. -/
def Silent (b next : Board) : Prop := next.handshake = b.handshake

/-- At most one set-point of the route is written. -/
def Drives (b next : Board) : Prop :=
  Silent b next ∨ ∃ axis value, next.handshake = b.handshake.record (.speed axis value)

/-- At most one set-point of the route is written, and it is 0. -/
def Stops (b next : Board) : Prop :=
  Silent b next ∨ ∃ axis, next.handshake = b.handshake.record (.speed axis 0)

instance : Std.Refl Silent := ⟨fun _ => rfl⟩

instance : Std.Refl Drives := ⟨fun _ => .inl rfl⟩

instance : Std.Refl Stops := ⟨fun _ => .inl rfl⟩

theorem Silent.drives {b next : Board} (silent : Silent b next) : Drives b next := .inl silent

theorem Silent.stops {b next : Board} (silent : Silent b next) : Stops b next := .inl silent

theorem Stops.drives {b next : Board} (stops : Stops b next) : Drives b next :=
  stops.imp_right fun ⟨axis, same⟩ => ⟨axis, 0, same⟩

section Statements

variable {Effect : Board → Board → Prop} [Std.Refl Effect]

@[simp]
theorem within_ifThen {condition : Sensors → Board → Bool} {body : Code} :
    (ifThen condition body).Within Effect ↔ body.Within Effect := by
  simp [ifThen, Stmt.within_when, Stmt.Within]

@[simp]
theorem within_forever {body : Code} :
    (Stmt.forever body).Within Effect ↔ body.Within Effect := by
  simp [Stmt.forever, Stmt.within_whilst]

end Statements

theorem within_assign {Effect : Board → Board → Prop} {effect : Board → Board}
    (inside : ∀ b, Effect b (effect b)) : (assign effect).Within Effect :=
  Stmt.within_update.mpr fun _ => inside

@[simp]
theorem within_delayMs {Effect : Board → Board → Prop} (ms : Nat) : (delayMs ms).Within Effect :=
  trivial

@[simp]
theorem within_issue (command : Command) : (issue command).Within Silent :=
  within_assign fun _ => rfl

section Handles

variable {Effect : Board → Board → Prop}

/-- A relation that allows what the routines of the arm thread do: store a set-point, give a command
to a motor and note the state of button 8. -/
structure Handles (Effect : Board → Board → Prop) : Prop where
  store : ∀ axis value b, Effect b (b.store .arm axis value)
  drive : ∀ motor rotation speed b,
    Effect b { b with commands := b.commands ++ [.motorOld motor rotation speed] }
  stop : ∀ motor b, Effect b { b with commands := b.commands ++ [.motoStop motor] }
  button : ∀ state b, Effect b { b with arm := { b.arm with buttonState := state } }

namespace Handles

theorem within_store (handles : Handles Effect) (axis : Axis) (value : Sensors → Board → ℚ) :
    (Code.store .arm axis value).Within Effect :=
  Stmt.within_update.mpr fun _ _ => handles.store axis _ _

theorem within_goLine (handles : Handles Effect) : (goLine .arm).Within Effect := by
  simp [goLine, handles.within_store]

theorem within_speedStop (handles : Handles Effect) : (speedStop .arm).Within Effect := by
  simp [speedStop, handles.within_store]

theorem within_motoStop (handles : Handles Effect) (motor : Fin 3) :
    (motoStop motor).Within Effect :=
  within_assign fun b => handles.stop motor b

variable [Std.Refl Effect]

theorem within_handFB (handles : Handles Effect) (rotation : Board → ℚ) (wait : Bool)
    (speed : Board → Int) : (handFB rotation wait speed).Within Effect := by
  have command : (assign fun b =>
      { b with commands := b.commands ++ [.motorOld 0 (rotation b) (speed b)] }).Within Effect :=
    within_assign fun b => handles.drive 0 _ _ b
  cases wait <;> simp [handFB, leaveOnKey, command, handles.within_motoStop]

theorem within_handUD (handles : Handles Effect) (rotation : Board → ℚ) (wait : Bool) :
    (handUD rotation wait).Within Effect := by
  have command : (assign fun b =>
      { b with commands := b.commands ++ [.motorOld 1 (rotation b) 10000] }).Within Effect :=
    within_assign fun b => handles.drive 1 _ _ b
  cases wait <;> simp [handUD, leaveOnKey, command, handles.within_motoStop]

theorem within_waitButton8Change (handles : Handles Effect) : waitButton8Change.Within Effect := by
  simp [waitButton8Change, Stmt.within_update, handles.button]

theorem within_cameraTask (handles : Handles Effect) : cameraTask.Within Effect := by
  simp [cameraTask, handles.within_goLine, handles.within_speedStop]

theorem within_driveLine (handles : Handles Effect) {turn : Code} (inside : turn.Within Effect) :
    (driveLine turn).Within Effect := by
  simp [driveLine, handles.within_goLine, handles.within_speedStop, inside]

end Handles

theorem silent_handles : Handles Silent where
  store _ _ _ := rfl
  drive _ _ _ _ := rfl
  stop _ _ := rfl
  button _ _ := rfl

end Handles

theorem within_store_auto (axis : Axis) (value : Sensors → Board → ℚ) :
    (store .auto axis value).Within Drives :=
  Stmt.within_update.mpr fun _ _ => .inr ⟨_, _, rfl⟩

@[simp]
theorem within_store_arm (axis : Axis) (value : Sensors → Board → ℚ) :
    (store .arm axis value).Within Silent :=
  silent_handles.within_store axis value

theorem within_speedStop_auto : (speedStop .auto).Within Stops := by
  have zero : ∀ axis, (store .auto axis fun _ _ => 0).Within Stops :=
    fun axis => Stmt.within_update.mpr fun _ _ => .inr ⟨axis, rfl⟩
  simp [speedStop, Stmt.within_block, zero]

@[simp]
theorem within_speedStop_arm : (speedStop .arm).Within Silent := silent_handles.within_speedStop

section Route

theorem within_goPointPath : goPointPath.Within Drives := by
  have search : ∀ effect : Sensors → Board → Int,
      (Stmt.update fun input b => { b with pointNowNum := effect input b }).Within Drives :=
    fun _ => Stmt.within_update.mpr fun _ _ => .inl rfl
  simp [goPointPath, Stmt.within_block, within_store_auto, search]

theorem within_goLine_auto : (goLine .auto).Within Drives := by
  simp [goLine, Stmt.within_block, within_store_auto]

@[simp]
theorem within_goLine_arm : (goLine .arm).Within Silent := silent_handles.within_goLine

theorem within_goCamCircle : goCamCircle.Within Drives := by
  have once : (assign ({ · with camCircleFlag := true })).Within Drives :=
    within_assign fun _ => .inl rfl
  have stop := within_speedStop_auto.mono fun _ _ => Stops.drives
  simp [goCamCircle, Stmt.within_when, Stmt.within_block, within_ifThen, within_store_auto, once,
    stop]

/-- Keeping the circle and the loop around it store set-points and nothing else. -/
theorem within_camCircleStatic {party : Party} {Effect : Board → Board → Prop}
    [Std.Refl Effect] (quiet : ∀ b next, Silent b next → Effect b next)
    (stores : ∀ axis value, (store party axis value).Within Effect) (place : Nat) :
    (camCircleStatic party place).Within Effect := by
  have stop : (speedStop party).Within Effect := by simp [speedStop, Stmt.within_block, stores]
  have keep : (keepCircle party place).Within Effect := by
    unfold keepCircle
    split
    · exact stop
    · simp [Stmt.within_when, Stmt.within_block, within_ifThen, stores, stop]
  have choose := (within_issue (.chooseFunction 0)).mono quiet
  have remember : (Stmt.update fun (input : Sensors) b =>
      setTempState b input.button8 party).Within Effect := by
    refine Stmt.within_update.mpr fun input b => quiet _ _ ?_
    cases party <;> rfl
  simp [camCircleStatic, Stmt.within_block, within_forever, within_ifThen, delayMs, Stmt.Within,
    choose, remember, keep, stop]

theorem within_camCircleStatic_auto (place : Nat) : (camCircleStatic .auto place).Within Drives :=
  within_camCircleStatic (fun _ _ => Silent.drives) within_store_auto place

@[simp]
theorem within_camCircleStatic_arm (place : Nat) : (camCircleStatic .arm place).Within Silent :=
  within_camCircleStatic (fun _ _ => id) within_store_arm place

theorem within_startLaser (laser : Fin 3) (start : Nat) : (startLaser laser start).Within Silent := by
  have clear : (assign fun b => { b with route := { b.route with flag := false } }).Within Silent :=
    within_assign fun _ => rfl
  simp [startLaser, within_ifThen, Stmt.within_block, within_issue, clear]

end Route

section Arm

@[simp]
theorem within_update_silent {effect : Sensors → Board → Board} :
    (Stmt.update effect).Within Silent ↔ ∀ input b, (effect input b).handshake = b.handshake :=
  Stmt.within_update

@[simp]
theorem within_assign_silent {effect : Board → Board}
    (same : ∀ b, (effect b).handshake = b.handshake) : (assign effect).Within Silent :=
  within_assign same

@[simp]
theorem within_motoStop (motor : Fin 3) : (motoStop motor).Within Silent :=
  silent_handles.within_motoStop motor

@[simp]
theorem within_leaveOnKey : leaveOnKey.Within Silent := by
  simp [leaveOnKey, within_ifThen, Stmt.Within]

@[simp]
theorem within_handFB (rotation : Board → ℚ) (wait : Bool) (speed : Board → Int) :
    (handFB rotation wait speed).Within Silent :=
  silent_handles.within_handFB rotation wait speed

@[simp]
theorem within_handUD (rotation : Board → ℚ) (wait : Bool) :
    (handUD rotation wait).Within Silent :=
  silent_handles.within_handUD rotation wait

@[simp]
theorem within_motor3 (rotation : ℚ) : (motor3 rotation).Within Silent := within_issue _

@[simp]
theorem within_waitButton8Change : waitButton8Change.Within Silent :=
  silent_handles.within_waitButton8Change

@[simp]
theorem within_waitKey : waitKey.Within Silent := Stmt.within_whilst.mpr trivial

@[simp]
theorem within_waitChildOff : waitChildOff.Within Silent := Stmt.within_whilst.mpr trivial

@[simp]
theorem within_waitChildOn : waitChildOn.Within Silent := Stmt.within_whilst.mpr trivial

@[simp]
theorem within_cameraTask : cameraTask.Within Silent := silent_handles.within_cameraTask

@[simp]
theorem within_mtLine (aim : Fin 2) (first second : ℚ) (startPwm maxPwm endPwm : Int) :
    (mtLine aim first second startPwm maxPwm endPwm).Within Silent :=
  ⟨Stmt.within_update.mpr fun _ _ => rfl, Stmt.within_whilst.mpr trivial, trivial⟩

@[simp]
theorem within_driveLine {turn : Code} (inside : turn.Within Silent) :
    (driveLine turn).Within Silent :=
  silent_handles.within_driveLine inside

@[simp]
theorem within_noteButton8 : noteButton8.Within Silent :=
  within_ifThen.mpr
    ⟨within_assign fun _ => rfl, Stmt.within_update.mpr fun _ _ => rfl, trivial⟩

@[simp]
theorem within_waitUnlessNoted : waitUnlessNoted.Within Silent :=
  ⟨within_ifThen.mpr within_waitButton8Change, within_assign fun _ => rfl, trivial⟩

@[simp]
theorem within_recordRouteTime (i : Fin 7) : (recordRouteTime i).Within Silent :=
  Stmt.within_update.mpr fun _ _ => rfl

@[simp]
theorem within_recordSegmentTime (i : Fin 7) : (recordSegmentTime i).Within Silent :=
  Stmt.within_update.mpr fun _ _ => rfl

@[simp]
theorem within_recordMotor1 (i : Fin 6) : (recordMotor1 i).Within Silent :=
  Stmt.within_update.mpr fun _ _ => rfl

@[simp]
theorem within_recordMotor2 (i : Fin 6) : (recordMotor2 i).Within Silent :=
  Stmt.within_update.mpr fun _ _ => rfl

@[simp]
theorem within_recordMotor3 (i : Fin 2) : (recordMotor3 i).Within Silent :=
  Stmt.within_update.mpr fun _ _ => rfl

@[simp]
theorem within_walkGround {body : List Code} :
    (walkGround body).Within Silent ↔ ∀ statement ∈ body, statement.Within Silent := by
  rw [walkGround, within_ifThen, Stmt.within_block]

@[simp]
theorem within_debugWait : debugWait.Within Silent := within_ifThen.mpr within_waitButton8Change

@[simp]
theorem within_clearFlag : clearFlag.Within Silent := within_assign fun _ => rfl

@[simp]
theorem within_oncePast {point : Int} {body : List Code} :
    (oncePast point body).Within Silent ↔ ∀ statement ∈ body, statement.Within Silent := by
  have once : (assign fun b => { b with arm := { b.arm with flag := true } }).Within Silent :=
    within_assign fun _ => rfl
  simp [oncePast, within_ifThen, Stmt.within_block, once]

@[simp]
theorem within_graspChild (ms : Nat) : (graspChild ms).Within Silent :=
  ⟨within_waitChildOn, within_motoStop 1, within_issue _, trivial, trivial⟩

end Arm

end BadmintonRobot.Mission
