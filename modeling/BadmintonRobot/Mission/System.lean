import Mathlib
import BadmintonRobot.Mission.Acting
import BadmintonRobot.Mission.Driving

/-!
# The mission as a whole

The two threads run in any interleaving. The operator starts a mission or an arm test
from the menu, which then stays busy, and the emergency thread can throw everything back
to the start at any moment. `Verified` is the invariant of all runs: both threads keep
their contracts, and the log is a run of the protocol.
-/

namespace BadmintonRobot.Mission

open Semantics Code

/-- The mission threads with what they have left to do, and whether the menu accepts a
start. -/
structure System where
  board : Board
  auto : List (Task Sensors Board)
  arm : List (Task Sensors Board)
  menuOpen : Bool

/-- The steps of the system. -/
inductive Label where
  | auto (input : Sensors)
  | arm (input : Sensors)
  | routeGo (stage : Nat) (settings : Settings)
  | armTest (stage : Nat)
  | emergency (message : Nat)

/-- A step of one of the two mission threads. -/
def Label.IsThread : Label → Prop
  | .auto _ => True
  | .arm _ => True
  | _ => False

/-- A mission thread in its entry function, before anything has happened. -/
def fresh : Party → List (Task Sensors Board)
  | .auto => [.run rtThreadEntryAuto]
  | .arm => [.run rtThreadEntryArm]

/-- A mission thread that waits for a message. -/
def parked : Party → List (Task Sensors Board)
  | .auto =>
    [ .run (rtMbRecv .auto), .run (.block [switch (·.autoMsg) routes]),
      .again (fun _ b => (true, b)) (.block [rtMbRecv .auto, switch (·.autoMsg) routes]) ]
  | .arm =>
    [ .run (rtMbRecv .arm), .run (.block [switch (·.armMsg) armActions]),
      .again (fun _ b => (true, b)) (.block [rtMbRecv .arm, switch (·.armMsg) armActions]) ]

/-- `RouteTest` after its list has been edited and the buttons pressed: the options are
set and the first stage is posted. -/
def routeGo (stage : Nat) (settings : Settings) (b : Board) : Board :=
  { b with
    routeNum := stage
    timeOnFlag := if stage = 1 then true else b.timeOnFlag
    handshake := { b.handshake with
      settings := settings
      mbAuto := rtMbSend b.handshake.mbAuto stage }.record (.routeGo stage) }

/-- `ArmTest`. -/
def armTest (stage : Nat) (b : Board) : Board :=
  { b with
    handshake := { b.handshake with
      armtestFlag := false
      routeFinish := false
      mbArm := rtMbSend b.handshake.mbArm stage }.record (.armTest stage) }

/-- What the emergency thread does to the board, with interrupts off. -/
def emergency (b : Board) : Board :=
  { b with
    speed := fun _ => 0
    commands := b.commands ++ [Command.motoStop 0, Command.motoStop 1, Command.motoStop 2]
    handshake := { b.handshake with
      mbAuto := []
      mbArm := []
      armtestFlag := true }.record .emergency }

/-- What one step of the system does to the handshake. -/
def Changes (careful : Prop) (h next : Handshake) : Prop :=
  AutoStep careful h next ∨ ArmStep h next ∨ MenuStep h next ∨ next.log = h.log ++ [Event.emergency]

/-- A mission thread has nothing to do when the menu is open. -/
theorem not_legal_at_rest {p : Protocol} {event : Event} {party : Party}
    (token : p.token = .absent) (route : p.route = none) (action : p.action = none)
    (own : event.owner = some party) : ¬p.Legal event := by
  cases event with
  | receives other _ | starts other _ | posts other _ | returns other _ =>
    cases other <;> simp [Protocol.Legal, token, route, action]
  | _ => simp_all [Protocol.Legal, Event.owner]

theorem Moves.steps {party : Party} {h after : Handshake} (moves : Moves party h after)
    (prior : Steps Protocol.Step .rest h.log h.view) :
    Steps Protocol.Step .rest after.log after.view := by
  rcases moves with ⟨log, -⟩ | ⟨event, -, legal, log, -⟩
  · rw [Handshake.view_eq log, log]
    exact prior
  · rw [Handshake.view_snoc log, log]
    exact prior.step ⟨legal, rfl⟩

theorem Moves.view_at_rest {party : Party} {h after : Handshake} (moves : Moves party h after)
    (token : h.view.token = .absent) (route : h.view.route = none)
    (action : h.view.action = none) : after.view = h.view := by
  rcases moves with ⟨log, -⟩ | ⟨event, own, legal, -⟩
  · exact Handshake.view_eq log
  · exact absurd legal (not_legal_at_rest token route action own)

theorem MenuStep.steps {h after : Handshake} (step : MenuStep h after)
    (prior : Steps Protocol.Step .rest h.log h.view) :
    Steps Protocol.Step .rest after.log after.view := by
  obtain ⟨_, event, -, legal, log, -⟩ := step
  rw [Handshake.view_snoc log, log]
  exact prior.step ⟨legal, rfl⟩

namespace System

/-- One step. The emergency thread starts the keyboard thread, which runs the menu, again
if the message is 6 or neither `WalkGround` nor `Retry` is set. -/
def step (s : System) : Label → Option System
  | .auto input =>
    (advance input s.auto s.board).map fun next => { s with auto := next.1, board := next.2 }
  | .arm input =>
    (advance input s.arm s.board).map fun next => { s with arm := next.1, board := next.2 }
  | .routeGo stage settings =>
    if s.menuOpen then some { s with board := routeGo stage settings s.board, menuOpen := false }
    else none
  | .armTest stage =>
    if s.menuOpen then some { s with board := armTest stage s.board, menuOpen := false } else none
  | .emergency message =>
    some
      { board := emergency s.board
        auto := fresh .auto
        arm := fresh .arm
        menuOpen := s.menuOpen || message == 6 ||
          !s.board.handshake.settings.walkGround && !s.board.retry }

/-- The log of the mission threads and the operator. -/
def log (s : System) : List Event := s.board.handshake.log

/-- Power-on: both threads are in their entry functions, the mailboxes are empty and
`CircleFinish` has its initial value 1. -/
structure PowerOn (s : System) : Prop where
  auto : s.auto = fresh .auto
  arm : s.arm = fresh .arm
  menuOpen : s.menuOpen = true
  mbAuto : s.board.handshake.mbAuto = []
  mbArm : s.board.handshake.mbArm = []
  circleFinish : s.board.handshake.circleFinish = true
  log : s.log = []

/-- Both threads wait, both mailboxes are empty but for one stage posted to `Mb_Auto`, and
the log begins with this post. The menu is busy after it. -/
structure Posted (stage : Nat) (s : System) : Prop where
  menuOpen : s.menuOpen = false
  auto : s.auto = fresh .auto ∨ s.auto = parked .auto
  arm : s.arm = fresh .arm ∨ s.arm = parked .arm
  mbAuto : s.board.handshake.mbAuto = [stage]
  mbArm : s.board.handshake.mbArm = []
  log : s.log = [.routeGo stage]

/-- Every route that is about to start is fit for it. -/
def Fit (s : System) : Prop :=
  ∀ stage, s.board.handshake.view.token = .received .auto stage → s.board.handshake.Fit stage

instance (s : System) : Decidable s.Fit :=
  match token : s.board.handshake.view.token with
  | .received .auto stage => decidable_of_iff (s.board.handshake.Fit stage) (by simp [Fit, token])
  | .received .arm _ | .absent | .posted _ _ | .started _ _ => isTrue (by simp [Fit, token])

/-- The robot stands at the end of a route, and nothing moves. -/
def stillSensors : Sensors where
  nearer _ := false
  speed := 1
  gyroAngle := -135
  distError := 0
  angleError := 0
  cameraTime := 0
  lineLeft := 0
  key := none
  sensorEnd := none
  button8 := false
  childOn := false
  motorPos _ := 0
  motorRealAim _ := 0
  motor3Io _ := false
  circleReached := false
  taskDone := false
  runTime := 0

/-- Every option off but the dynamic circle, as given. -/
def plainSettings (circleDynFlag : Bool) : Settings where
  circleDynFlag := circleDynFlag
  circleFlag _ := false
  laserFlag _ := false
  walkGround := false
  handoverFlag _ := false
  poleFlag := false
  swingFlag := false
  debug := false
  accP := 0
  vMax := 0
  accN := 0
  switchNum := 40
  motor1Speed := 3500

/-- The system after power-on. -/
def powered : System where
  board :=
    { handshake :=
        { mbAuto := [], mbArm := [], autoMsg := 0, armMsg := 0, routeFinish := false
          circleFinish := true, armtestFlag := true, settings := plainSettings false, log := [] }
      routeNum := 1
      pointStartNum := 0
      pointNowNum := 0
      pointEndNum := 0
      speed := fun _ => 0
      camCircleFlag := false
      route := ⟨false, false, false, false, 0, false⟩
      arm := ⟨false, false, false, false, 0, false, false⟩
      retry := false
      autoFlag := true
      tempButton8State := false
      fanFlag := false
      timeOnFlag := true
      motor1AimPos := fun _ => 0
      motor2AimPos := fun _ => 0
      motor3AimPos := fun _ => 0
      routeTime := fun _ => 0
      segmentTime := fun _ => 0
      commands := [] }
  auto := fresh .auto
  arm := fresh .arm
  menuOpen := true

theorem powered_powerOn : powered.PowerOn := ⟨rfl, rfl, rfl, rfl, rfl, rfl, rfl⟩

/-- The steps of the auto thread, then of the arm thread, with still sensors. -/
def stillSteps (auto arm : Nat) : List Label :=
  List.replicate auto (Label.auto stillSensors) ++ List.replicate arm (Label.arm stillSensors)

/-- The invariant of all runs. -/
structure Verified (careful : Prop) (s : System) : Prop where
  auto : Stays (autoContract careful) s.auto s.board
  arm : Stays (armContract careful) s.arm s.board
  agrees : s.board.handshake.Agrees
  steps : Steps Protocol.Step .rest s.log s.board.handshake.view
  atRest : s.menuOpen = true → s.board.handshake.view.token = .absent ∧
    s.board.handshake.view.route = none ∧ s.board.handshake.view.action = none

section Step

variable {careful : Prop} {s next : System} {label : Label}

theorem Verified.step_auto {input : Sensors} (verified : s.Verified careful)
    (fit : careful → s.Fit) (taken : s.step (.auto input) = some next) :
    next.Verified careful ∧ AutoStep careful s.board.handshake next.board.handshake := by
  obtain ⟨⟨rest, board⟩, advanced, rfl⟩ := Option.map_eq_some_iff.mp taken
  obtain ⟨step, stays⟩ := verified.auto.own fit advanced
  replace step : AutoStep careful s.board.handshake board.handshake := step
  refine ⟨⟨stays, verified.arm.other (.inl step), step.moves.agrees verified.agrees,
    step.moves.steps verified.steps, fun opened => ?_⟩, step⟩
  obtain ⟨token, route, action⟩ := verified.atRest opened
  rw [step.moves.view_at_rest token route action]
  exact ⟨token, route, action⟩

theorem Verified.step_arm {input : Sensors} (verified : s.Verified careful)
    (taken : s.step (.arm input) = some next) :
    next.Verified careful ∧ ArmStep s.board.handshake next.board.handshake := by
  obtain ⟨⟨rest, board⟩, advanced, rfl⟩ := Option.map_eq_some_iff.mp taken
  obtain ⟨step, stays⟩ := verified.arm.own trivial advanced
  replace step : ArmStep s.board.handshake board.handshake := step
  refine ⟨⟨verified.auto.other (.inl step), stays, step.moves.agrees verified.agrees,
    step.moves.steps verified.steps, fun opened => ?_⟩, step⟩
  obtain ⟨token, route, action⟩ := verified.atRest opened
  rw [step.moves.view_at_rest token route action]
  exact ⟨token, route, action⟩

/-- A start from the menu, which is closed afterwards. -/
theorem Verified.step_menu {board : Board} (verified : s.Verified careful)
    (step : MenuStep s.board.handshake board.handshake) :
    Verified careful { s with board := board, menuOpen := false } where
  auto := verified.auto.other (.inr step)
  arm := verified.arm.other (.inr step)
  agrees := step.autoKeeps.agrees
  steps := step.steps verified.steps
  atRest := by simp

theorem Verified.menuStep_routeGo (verified : s.Verified careful) (opened : s.menuOpen = true)
    (stage : Nat) (settings : Settings) :
    MenuStep s.board.handshake (Mission.routeGo stage settings s.board).handshake := by
  obtain ⟨token, route, action⟩ := verified.atRest opened
  have empty : s.board.handshake.mbAuto = [] := by simp [verified.agrees.mbAuto, token, Token.box]
  refine ⟨stage, .routeGo stage, .inl rfl, ⟨token, route, action⟩, rfl, ?_⟩
  refine .of_event (h := s.board.handshake) (.routeGo stage) rfl ?_ ?_ ?_ ?_
  · simp [Mission.routeGo, empty, rtMbSend, mailboxSize, Protocol.after, Token.box]
  · simp [Mission.routeGo, Protocol.after, Token.box, verified.agrees.mbArm, token]
  · simp [Protocol.after]
  · simp [Protocol.after]

theorem Verified.menuStep_armTest (verified : s.Verified careful) (opened : s.menuOpen = true)
    (stage : Nat) : MenuStep s.board.handshake (Mission.armTest stage s.board).handshake := by
  obtain ⟨token, route, action⟩ := verified.atRest opened
  have empty : s.board.handshake.mbArm = [] := by simp [verified.agrees.mbArm, token, Token.box]
  refine ⟨stage, .armTest stage, .inr rfl, ⟨token, route, action⟩, rfl, ?_⟩
  refine .of_event (h := s.board.handshake) (.armTest stage) rfl ?_ ?_ ?_ ?_
  · simp [Mission.armTest, Protocol.after, Token.box, verified.agrees.mbAuto, token]
  · simp [Mission.armTest, empty, rtMbSend, mailboxSize, Protocol.after, Token.box]
  · simp [Protocol.after]
  · simp [Protocol.after]

/-- Both threads keep their contracts from their entry functions on. -/
theorem verified_fresh {board : Board} {menuOpen : Bool} (agrees : board.handshake.Agrees)
    (steps : Steps Protocol.Step .rest board.handshake.log board.handshake.view)
    (route : board.handshake.view.route = none) (action : board.handshake.view.action = none)
    (atRest : menuOpen = true → board.handshake.view.token = .absent) :
    Verified careful
      { board := board, auto := fresh .auto, arm := fresh .arm, menuOpen := menuOpen } where
  auto := rtThreadEntryAuto_triple.stays ⟨agrees, route⟩
  arm := rtThreadEntryArm_triple.stays ⟨agrees, action⟩
  agrees := agrees
  steps := steps
  atRest opened := ⟨atRest opened, route, action⟩

theorem Verified.step_emergency {message : Nat} (verified : s.Verified careful)
    (taken : s.step (.emergency message) = some next) : next.Verified careful := by
  obtain rfl := Option.some.inj taken
  have view : (Mission.emergency s.board).handshake.view = s.board.handshake.view.after .emergency :=
    Handshake.view_snoc rfl
  refine verified_fresh ?_ ?_ ?_ ?_ ?_
  · exact .of_event (h := s.board.handshake) .emergency rfl rfl rfl nofun nofun
  · rw [view]
    exact verified.steps.step ⟨trivial, rfl⟩
  · rw [view]
    rfl
  · rw [view]
    rfl
  · rw [view]
    exact fun _ => rfl

/-- Every step keeps the invariant, and is one of the steps that the contracts speak
about. -/
theorem Verified.step (verified : s.Verified careful) (fit : careful → s.Fit)
    (taken : s.step label = some next) :
    next.Verified careful ∧ Changes careful s.board.handshake next.board.handshake := by
  cases label with
  | auto input =>
    obtain ⟨kept, step⟩ := verified.step_auto fit taken
    exact ⟨kept, .inl step⟩
  | arm input =>
    obtain ⟨kept, step⟩ := verified.step_arm taken
    exact ⟨kept, .inr (.inl step)⟩
  | routeGo stage settings =>
    obtain ⟨opened, rfl⟩ : s.menuOpen = true ∧
        { s with board := Mission.routeGo stage settings s.board, menuOpen := false } = next := by
      simpa [System.step] using taken
    have step := verified.menuStep_routeGo opened stage settings
    exact ⟨verified.step_menu step, .inr (.inr (.inl step))⟩
  | armTest stage =>
    obtain ⟨opened, rfl⟩ : s.menuOpen = true ∧
        { s with board := Mission.armTest stage s.board, menuOpen := false } = next := by
      simpa [System.step] using taken
    have step := verified.menuStep_armTest opened stage
    exact ⟨verified.step_menu step, .inr (.inr (.inl step))⟩
  | emergency message =>
    refine ⟨verified.step_emergency taken, .inr (.inr (.inr ?_))⟩
    obtain rfl := Option.some.inj taken
    rfl

end Step

end System

end BadmintonRobot.Mission
