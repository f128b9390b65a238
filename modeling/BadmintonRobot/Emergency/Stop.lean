import Mathlib
import BadmintonRobot.Emergency.Robot
import BadmintonRobot.Joystick.Ownership
import BadmintonRobot.Joystick.Stillness

/-!
# What an emergency guarantees

When the emergency thread has handled message 6, the mailboxes are empty, the threads that it
starts again are at the start of their entry functions and the motors have been told to stop.
The robot then stands still as long as nobody touches the joysticks and the keys, provided that
the thread of the Y joystick was not in the middle of a frame, that it does not read a stale
`Handle_Speed_X`, that no key was waiting, and that its heading hold finds nothing to correct.
-/

namespace BadmintonRobot.Emergency

open Semantics Joystick
open Mission (Axis System Sensors Party fresh parked Code.rtMbRecv)

/-- What holds when the emergency thread turns the interrupts on again. -/
structure Reset (s next : Robot) : Prop where
  mbAuto : next.system.board.handshake.mbAuto = []
  mbArm : next.system.board.handshake.mbArm = []
  auto : next.system.auto = fresh .auto
  arm : next.system.arm = fresh .arm
  keyboard : next.keyboard = .entry
  handle : next.handleEntry = true
  stops : next.system.board.commands =
    s.system.board.commands ++
      [Mission.Command.motoStop 0, Mission.Command.motoStop 1, Mission.Command.motoStop 2]

theorem reset_of_emergency {maths : Maths ℚ} {s next : Robot}
    (taken : s.step maths (.emergency 6) = some next) : Reset s next := by
  have restarts : s.restarts 6 = true := by simp [Robot.restarts]
  simp only [Robot.step, System.step, Option.map_some, Option.some.injEq, restarts, Bool.or_true,
    if_true] at taken
  subst taken
  exact ⟨rfl, rfl, rfl, rfl, rfl, rfl, rfl⟩

/-- A mission thread on its way to its mailbox. -/
def Waits (party : Party) (tasks : List (Task Sensors Mission.Board)) : Prop :=
  tasks = fresh party ∨ tasks = parked party ∨
    ∃ body, fresh party = [.run (.forever body)] ∧
      tasks = [.run body, .again (fun _ b => (true, b)) body]

/-- The mailbox of a mission thread. -/
def mailbox (board : Mission.Board) : Party → List Nat
  | .auto => board.handshake.mbAuto
  | .arm => board.handshake.mbArm

theorem Waits.advance {party : Party} {input : Sensors} {board after : Mission.Board}
    {tasks rest : List (Task Sensors Mission.Board)} (waits : Waits party tasks)
    (empty : mailbox board party = [])
    (taken : Semantics.advance input tasks board = some (rest, after)) :
    Waits party rest ∧ after = board := by
  rcases waits with rfl | rfl | ⟨body, same, rfl⟩
  · cases party with
    | auto =>
      cases taken
      exact ⟨.inr (.inr ⟨_, rfl, rfl⟩), rfl⟩
    | arm =>
      cases taken
      exact ⟨.inr (.inr ⟨_, rfl, rfl⟩), rfl⟩
  · cases party with
    | auto =>
      simp only [mailbox] at empty
      simp [parked, Code.rtMbRecv, Semantics.advance, empty] at taken
    | arm =>
      simp only [mailbox] at empty
      simp [parked, Code.rtMbRecv, Semantics.advance, empty] at taken
  · cases party with
    | auto =>
      cases same
      cases taken
      exact ⟨.inr (.inl rfl), rfl⟩
    | arm =>
      cases same
      cases taken
      exact ⟨.inr (.inl rfl), rfl⟩

/-- The state in which the emergency comes: the thread of the Y joystick is not in the middle of
a frame, the last frames are centred, and no key is waiting. -/
structure Ready (s : Robot) : Prop where
  between : ∀ tasks lost, (s.cockpit.hand .y).pc ≠ .busy tasks lost
  centred : ∀ which, (s.cockpit.hand which).data = .centred
  single : s.cockpit.board.shared.single = false
  mbKey : s.mbKey = []

/-- Nobody touches the joysticks and the keys. -/
def Quiet : Label → Prop
  | .receive _ data => data = .centred
  | .key _ => False
  | _ => True

instance (data : HandleData) : Decidable (data = .centred) :=
  decidable_of_iff
    (data.ud = 12288 ∧ data.lr = 12288 ∧ data.turn = 12288 ∧ ∀ byte, data.rest byte = 0) <| by
    obtain ⟨ud, lr, turn, rest⟩ := data
    simp [HandleData.centred, funext_iff]

instance : DecidablePred Quiet
  | .receive _ data => inferInstanceAs (Decidable (data = .centred))
  | .key _ => .isFalse id
  | .auto _ | .arm _ | .handle _ _ | .tick | .world _ _ _ _ | .keyboard | .operate _ _ | .operated
  | .emergency _ => .isTrue trivial

/-- The thread of the Y joystick does not run before a `Handle_Speed_X` from before the emergency
has been cleared. -/
def Cleared (s : Robot) : Label → Prop
  | .handle .y _ => s.handleEntry = true → s.cockpit.board.handleSpeedX = 0
  | _ => True

instance (s : Robot) : DecidablePred (Cleared s)
  | .handle .y _ => inferInstanceAs (Decidable (_ → _))
  | .handle .x _ | .auto _ | .arm _ | .tick | .receive _ _ | .world _ _ _ _ | .keyboard
  | .operate _ _ | .operated | .key _ | .emergency _ => .isTrue trivial

/-- Nobody touches the joysticks and the keys, the heading hold finds nothing to correct, and
`Handle_Speed_X` is not stale. -/
structure Undisturbed (s : Robot) (label : Label) : Prop where
  quiet : Quiet label
  level : Level s.cockpit.board.shared.radian
  cleared : Cleared s label

instance (radian : ℚ) : Decidable (Level radian) := inferInstanceAs (Decidable (_ < _))

instance (s : Robot) (label : Label) : Decidable (Undisturbed s label) :=
  decidable_of_iff (Quiet label ∧ Level s.cockpit.board.shared.radian ∧ Cleared s label)
    ⟨fun h => ⟨h.1, h.2.1, h.2.2⟩, fun h => ⟨h.quiet, h.level, h.cleared⟩⟩

/-- The joysticks after the emergency. `issued` are the calls before it, and `entry` says that
the thread of the X joystick is at the start of its entry function. -/
structure Resting (issued : List (Joystick.Command ℚ)) (entry : Bool) (s : Cockpit ℚ) :
    Prop where
  zero : s.board.Zero
  handleSpeedX : entry = false → s.board.handleSpeedX = 0
  centred : ∀ which, (s.hand which).data = .centred
  busy : ∀ which, (which = .x → entry = false) → ∀ tasks lost,
    (s.hand which).pc = .busy tasks lost →
      Stays (stillness which) (tasks.map (Task.comap (Subtype.val : Centred → View))) s.board
  commands : ∃ new, s.board.commands = issued ++ new ∧ ∀ command ∈ new, command.Still

namespace Resting

variable {maths : Maths ℚ} {issued : List (Joystick.Command ℚ)} {entry : Bool}
  {s next : Cockpit ℚ}

/-- The field `busy` for one thread. -/
def Working (entry : Bool) (b : Joystick.Board ℚ) (which : Hand) (h : Handle ℚ) : Prop :=
  (which = .x → entry = false) → ∀ tasks lost, h.pc = .busy tasks lost →
    Stays (stillness which) (tasks.map (Task.comap (Subtype.val : Centred → View))) b

theorem stays_stopAll (which : Hand) (b : Joystick.Board ℚ) :
    Stays (stillness which)
      ([Task.run (stopAll which)].map (Task.comap (Subtype.val : Centred → View))) b := by
  have triple : Triple (stillness which) (.any _)
      ((stopAll which : Joystick.Code ℚ).comap (Subtype.val : Centred → View)) (.any _) (.any _) :=
    .within (fun _ _ _ _ keeps => ⟨keeps, trivial⟩)
      (within_comap _ (stopAll_keepsStill which which))
  exact triple.stays trivial

/-- A change of the shared variables that leaves the set-points at zero. -/
theorem shared (resting : Resting issued entry s) {shared : Shared ℚ}
    (zero : { s.board with shared := shared }.Zero) :
    Resting issued entry { s with board := { s.board with shared := shared } } where
  zero := zero
  handleSpeedX := resting.handleSpeedX
  centred := resting.centred
  busy which entered tasks lost pc := by
    refine (resting.busy which entered tasks lost pc).other ⟨rfl, ?_⟩
    cases which <;> rfl
  commands := resting.commands

theorem raise (resting : Resting issued entry s) : Resting issued true s where
  zero := resting.zero
  handleSpeedX := nofun
  centred := resting.centred
  busy which entered := by
    refine resting.busy which fun x => ?_
    exact absurd (entered x) (by decide)
  commands := resting.commands

theorem tick (resting : Resting issued entry s) (taken : s.step maths .tick = some next) :
    Resting issued entry next := by
  cases taken
  exact ⟨resting.zero, resting.handleSpeedX, resting.centred,
    fun which entered tasks lost pc => resting.busy which entered tasks lost pc, resting.commands⟩

theorem receive (resting : Resting issued entry s) {which : Hand}
    (taken : s.step maths (.receive which .centred) = some next) : Resting issued entry next := by
  have kept := Cockpit.pc_of_receive taken
  cases taken
  refine ⟨resting.zero, resting.handleSpeedX, ?_, ?_, resting.commands⟩
  · refine Cockpit.forall_put_hand (P := fun _ h => h.data = .centred) ?_
      fun third _ => resting.centred third
    rfl
  · intro third entered tasks lost pc
    rw [kept third] at pc
    exact resting.busy third entered tasks lost pc

/-- A statement of a thread that has been entered. -/
theorem thread (resting : Resting issued entry s) {which : Hand} {late : Nat}
    (level : Level s.board.shared.radian) (entered : which = .x → entry = false)
    (cleared : which = .y → s.board.handleSpeedX = 0)
    (taken : s.step maths (.thread which late) = some next) : Resting issued entry next := by
  cases Cockpit.threadStep_of_advance taken with
  | own h idle advanced =>
    refine ⟨resting.zero, resting.handleSpeedX, ?_, ?_, resting.commands⟩
    · refine Cockpit.forall_put_hand (P := fun _ h => h.data = .centred) ?_
        fun third _ => resting.centred third
      rw [Handle.data_of_advance advanced]
      exact resting.centred which
    · refine Cockpit.forall_put_hand (P := Working entry s.board) ?_
        fun third _ => resting.busy third
      intro _ tasks lost pc
      rcases Handle.busy_of_advance advanced pc with ⟨-, rfl, -⟩ | ⟨-, -, rfl, -⟩
      · exact (triple_still maths which).stays trivial
      · exact stays_stopAll which s.board
  | work task tasks rest lost board pc advanced =>
    let view : Centred := ⟨s.view which, resting.centred which⟩
    have seen : Semantics.advance view.val (task :: tasks) s.board = some (rest, board) := advanced
    obtain ⟨keeps, stays⟩ := (resting.busy which entered _ _ pc).own_comap Subtype.val
      ⟨resting.zero, level, cleared⟩ seen
    obtain ⟨new, grown, still⟩ := keeps.commands
    obtain ⟨before, same, earlier⟩ := resting.commands
    refine ⟨keeps.zero resting.zero, ?_, ?_, ?_, before ++ new, ?_, ?_⟩
    · intro off
      cases which with
      | x => exact keeps.own (resting.handleSpeedX off)
      | y => exact keeps.other.trans (resting.handleSpeedX off)
    · exact Cockpit.forall_put_hand (P := fun _ h => h.data = .centred) (resting.centred which)
        fun third _ => resting.centred third
    · refine Cockpit.forall_put_hand (P := Working entry board) ?_ ?_
      · intro _ others gone busy
        cases busy
        exact stays
      · intro third apart enters others gone busy
        have other : third = which.other := (third.eq_or_eq_other which).resolve_left apart
        subst other
        exact (resting.busy _ enters others gone busy).other ⟨keeps.locals, keeps.other⟩
    · change board.commands = _
      rw [grown, same, List.append_assoc]
    · intro command member
      rcases List.mem_append.mp member with old | recent
      · exact earlier command old
      · exact still command recent

end Resting

/-- The mission threads and the keyboard thread after the emergency: they wait. -/
structure Idle (s : Robot) : Prop where
  auto : Waits .auto s.system.auto
  arm : Waits .arm s.system.arm
  mailboxes : ∀ party, mailbox s.system.board party = []
  keyboard : s.keyboard ≠ .operating
  mbKey : s.mbKey = []

/-- The invariant of the time after the emergency. -/
structure Calm (issued : List (Joystick.Command ℚ)) (s : Robot) : Prop where
  resting : Resting issued s.handleEntry s.cockpit
  idle : Idle s
  speed : s.system.board.speed = fun _ => 0

namespace Calm

variable {maths : Maths ℚ} {issued : List (Joystick.Command ℚ)} {s next : Robot}

theorem chassis_zero {board : Joystick.Board ℚ} (zero : board.Zero) :
    chassis board.shared = fun _ => 0 := by
  funext axis
  cases axis with
  | x => exact zero.speedX
  | y => exact zero.speedY
  | rotation => exact zero.speedRotation

/-- A step of the joysticks. -/
theorem withCockpit (calm : Calm issued s) {cockpit : Cockpit ℚ}
    (resting : Resting issued s.handleEntry cockpit) : Calm issued (s.withCockpit cockpit) where
  resting := resting
  idle := ⟨calm.idle.auto, calm.idle.arm, fun party => by
    have empty := calm.idle.mailboxes party
    cases party <;> exact empty, calm.idle.keyboard, calm.idle.mbKey⟩
  speed := chassis_zero resting.zero

/-- The mission has zero set-points. -/
theorem resting_withChassis {entry : Bool} {cockpit : Cockpit ℚ} {speed : Axis → ℚ}
    (resting : Resting issued entry cockpit) (zero : speed = fun _ => 0) :
    Resting issued entry (withChassis speed cockpit) := by
  subst zero
  exact resting.shared ⟨rfl, rfl, rfl, resting.zero.single⟩

/-- The thread of the X joystick enters its loop. The variables that it sets are its own. -/
theorem enterHandle (calm : Calm issued s) : Calm issued s.enterHandle where
  resting := by
    have zero := calm.resting.zero
    refine ⟨⟨zero.speedX, zero.speedY, zero.speedRotation, zero.single⟩, fun _ => rfl, ?_, ?_,
      calm.resting.commands⟩
    · intro which
      cases which with
      | x => exact calm.resting.centred .x
      | y => exact calm.resting.centred .y
    · intro which _ tasks lost pc
      cases which with
      | x => cases pc
      | y => exact (calm.resting.busy .y nofun tasks lost pc).other ⟨rfl, rfl⟩
  idle := ⟨calm.idle.auto, calm.idle.arm, calm.idle.mailboxes, calm.idle.keyboard,
    calm.idle.mbKey⟩
  speed := calm.speed

theorem handle (calm : Calm issued s) {which : Hand} {late : Nat}
    (undisturbed : Undisturbed s (.handle which late))
    (taken : s.step maths (.handle which late) = some next) : Calm issued next := by
  rw [Robot.step] at taken
  split_ifs at taken with entry
  · cases taken
    exact calm.enterHandle
  · obtain ⟨cockpit, moved, rfl⟩ := Option.map_eq_some_iff.mp taken
    refine calm.withCockpit (calm.resting.thread undisturbed.level ?_ ?_ moved)
    · rintro rfl
      simpa using entry
    · rintro rfl
      cases off : s.handleEntry with
      | true => exact undisturbed.cleared off
      | false => exact calm.resting.handleSpeedX off

/-- A statement of a mission thread that waits. -/
theorem withSystem (calm : Calm issued s) {system : System}
    (same : system.board = s.system.board) (auto : Waits .auto system.auto)
    (arm : Waits .arm system.arm) : Calm issued (s.withSystem system) := by
  have speed : system.board.speed = fun _ => 0 := by
    rw [same]
    exact calm.speed
  refine ⟨resting_withChassis calm.resting speed, ⟨auto, arm, ?_, calm.idle.keyboard,
    calm.idle.mbKey⟩, speed⟩
  change ∀ party, mailbox system.board party = []
  rw [same]
  exact calm.idle.mailboxes

/-- The keyboard thread has nothing to do but to enter its loop. -/
theorem keyboard (calm : Calm issued s) (taken : s.step maths .keyboard = some next) :
    Calm issued next := by
  rw [Robot.step] at taken
  cases place : s.keyboard with
  | entry =>
    rw [place] at taken
    cases taken
    exact ⟨calm.resting, ⟨calm.idle.auto, calm.idle.arm, calm.idle.mailboxes, nofun,
      calm.idle.mbKey⟩, calm.speed⟩
  | waiting =>
    rw [place, calm.idle.mbKey] at taken
    cases taken
  | operating => exact absurd place calm.idle.keyboard

/-- A further emergency. -/
theorem emergency (calm : Calm issued s) {message : Nat}
    (taken : s.step maths (.emergency message) = some next) : Calm issued next := by
  cases taken
  have stopped : Resting issued s.handleEntry (withChassis (fun _ => 0) s.cockpit) :=
    resting_withChassis calm.resting rfl
  refine ⟨?_, ⟨.inl rfl, .inl rfl, fun party => by cases party <;> rfl, ?_, calm.idle.mbKey⟩, rfl⟩
  · cases again : s.restarts message with
    | true =>
      rw [Bool.or_true]
      exact stopped.raise
    | false =>
      rw [Bool.or_false]
      exact stopped
  · change (if s.restarts message then Keyboard.entry else s.keyboard) ≠ _
    split_ifs
    · exact nofun
    · exact calm.idle.keyboard

/-- What the sensors and the controllers say does not touch the set-points. -/
theorem world (calm : Calm issued s) {radian fanmax : ℚ} {fantest : Bool}
    {controllers : Control.Controllers ℚ}
    (taken : s.step maths (.world radian fanmax fantest controllers) = some next) :
    Calm issued next := by
  cases taken
  have zero := calm.resting.zero
  exact calm.withCockpit (calm.resting.shared
    ⟨zero.speedX, zero.speedY, zero.speedRotation, zero.single⟩)

theorem step {label : Label} (calm : Calm issued s) (undisturbed : Undisturbed s label)
    (taken : s.step maths label = some next) : Calm issued next := by
  cases label with
  | auto input =>
    rw [Robot.step, System.step, Option.map_map] at taken
    obtain ⟨⟨rest, board⟩, advanced, rfl⟩ := Option.map_eq_some_iff.mp taken
    obtain ⟨waits, rfl⟩ := calm.idle.auto.advance (calm.idle.mailboxes .auto) advanced
    exact calm.withSystem rfl waits calm.idle.arm
  | arm input =>
    rw [Robot.step, System.step, Option.map_map] at taken
    obtain ⟨⟨rest, board⟩, advanced, rfl⟩ := Option.map_eq_some_iff.mp taken
    obtain ⟨waits, rfl⟩ := calm.idle.arm.advance (calm.idle.mailboxes .arm) advanced
    exact calm.withSystem rfl calm.idle.auto waits
  | handle which late => exact calm.handle undisturbed taken
  | tick =>
    rw [Robot.step] at taken
    obtain ⟨cockpit, moved, rfl⟩ := Option.map_eq_some_iff.mp taken
    exact calm.withCockpit (calm.resting.tick moved)
  | receive which data =>
    obtain rfl : data = .centred := undisturbed.quiet
    rw [Robot.step] at taken
    obtain ⟨cockpit, moved, rfl⟩ := Option.map_eq_some_iff.mp taken
    exact calm.withCockpit (calm.resting.receive moved)
  | world radian fanmax fantest controllers => exact calm.world taken
  | keyboard => exact calm.keyboard taken
  | operate board work =>
    rw [Robot.step, if_neg calm.idle.keyboard] at taken
    cases taken
  | operated =>
    rw [Robot.step, if_neg calm.idle.keyboard] at taken
    cases taken
  | key value => exact undisturbed.quiet.elim
  | emergency message => exact calm.emergency taken

theorem run {labels : List Label} {final : Robot} (calm : Calm issued s)
    (steps : Steps (TakesWhen Undisturbed (Robot.step maths)) s labels final) :
    Calm issued final := by
  induction steps with
  | refl => exact calm
  | step _ taken ih => exact ih.step taken.1 taken.2

end Calm

/-- The emergency thread stops everything that the joysticks do not hold. -/
theorem calm_of_emergency {maths : Maths ℚ} {s next : Robot} (ready : Ready s)
    (taken : s.step maths (.emergency 6) = some next) :
    Calm next.cockpit.board.commands next := by
  have restarts : s.restarts 6 = true := by simp [Robot.restarts]
  simp only [Robot.step, System.step, Option.map_some, Option.some.injEq, restarts, Bool.or_true,
    if_true] at taken
  subst taken
  refine ⟨⟨⟨rfl, rfl, rfl, ready.single⟩, Bool.noConfusion, ready.centred, ?_, [], by simp⟩,
    ⟨.inl rfl, .inl rfl, fun party => by cases party <;> rfl, by simp, ready.mbKey⟩, rfl⟩
  intro which entered tasks lost pc
  cases which with
  | x => exact Bool.noConfusion (entered rfl)
  | y => exact absurd pc (ready.between tasks lost)

/-- The calls that the joystick threads have made since a state was left. -/
def calls (s final : Robot) : List (Joystick.Command ℚ) :=
  final.cockpit.board.commands.drop s.cockpit.board.commands.length

/-- An emergency resets the threads, whatever they were doing, and the robot stands still after
it as long as it is not disturbed. -/
theorem emergency_still {maths : Maths ℚ} {s next final : Robot} {labels : List Label}
    (taken : s.step maths (.emergency 6) = some next) :
    Reset s next ∧
      (Ready s → Steps (TakesWhen Undisturbed (Robot.step maths)) next labels final →
        ∀ command ∈ calls next final, command.Still) := by
  refine ⟨reset_of_emergency taken, fun ready steps => ?_⟩
  obtain ⟨new, grown, still⟩ := ((calm_of_emergency ready taken).run steps).resting.commands
  rw [calls, grown, List.drop_left]
  exact still

/-- A robot that has been switched on and stands somewhere. -/
def standing (board : Joystick.Board ℚ) : Robot where
  system := .powered
  cockpit := .start board
  handleEntry := true
  keyboard := .entry
  mbKey := []

/-- Each joystick sends a frame with its sticks in the middle. -/
def bothFrames : List Label := [Label.receive .x .centred, Label.receive .y .centred]

/-- The threads enter their loops, and the one of the Y joystick takes some statements after
another such frame. -/
def entering (count : Nat) : List Label :=
  [Label.handle .x 0, Label.keyboard] ++ List.replicate 4 (Label.handle .y 0) ++
    [Label.receive .y .centred, Label.tick] ++ List.replicate count (Label.handle .y 0)

theorem emergency_still_standing :
    ∃ s next final, Steps (Takes (Robot.step stillMaths)) (standing stillBoard) bothFrames s ∧
      s.step stillMaths (.emergency 6) = some next ∧
      Steps (TakesWhen Undisturbed (Robot.step stillMaths)) next (entering 51) final ∧
      Reset s next ∧ calls next final ≠ [] ∧ ∀ command ∈ calls next final, command.Still := by
  have reached : ((run (Robot.step stillMaths) (standing stillBoard) bothFrames).bind fun s =>
      (s.step stillMaths (.emergency 6)).bind fun next =>
        (run (guarded Undisturbed (Robot.step stillMaths)) next (entering 51)).map fun final =>
          decide ((calls next final).length ≠ 0)) = some true := by decide +kernel
  obtain ⟨s, frames, reached⟩ := Option.bind_eq_some_iff.mp reached
  obtain ⟨next, taken, reached⟩ := Option.bind_eq_some_iff.mp reached
  obtain ⟨final, ran, called⟩ := Option.map_eq_some_iff.mp reached
  have steps := stepsWhen_of_guarded ran
  have ready : Ready s := by
    cases frames
    exact ⟨nofun, fun which => by cases which <;> rfl, rfl, rfl⟩
  obtain ⟨reset, still⟩ := emergency_still taken
  refine ⟨s, next, final, steps_of_run frames, taken, steps, reset, ?_, still ready steps⟩
  simpa using called

/-- A call that turns the robot. -/
def Turns : Joystick.Command ℚ → Bool
  | .setSpeed _ _ _ rotation => rotation != 0
  | _ => false

/-- A robot that does not stand on its heading is turned by the next frame after the emergency,
with nobody touching a joystick or a key. -/
theorem not_still_turned :
    ∃ s next final, Steps (Takes (Robot.step stillMaths)) (standing turnedBoard) bothFrames s ∧
      s.step stillMaths (.emergency 6) = some next ∧
      Steps (TakesWhen (fun _ => Quiet) (Robot.step stillMaths)) next (entering 51) final ∧
      ∃ command ∈ calls next final, ¬command.Still := by
  have reached : ((run (Robot.step stillMaths) (standing turnedBoard) bothFrames).bind fun s =>
      (s.step stillMaths (.emergency 6)).bind fun next =>
        (run (guarded (fun _ => Quiet) (Robot.step stillMaths)) next (entering 51)).map fun final =>
          (calls next final).any Turns) = some true := by decide +kernel
  obtain ⟨s, frames, reached⟩ := Option.bind_eq_some_iff.mp reached
  obtain ⟨next, taken, reached⟩ := Option.bind_eq_some_iff.mp reached
  obtain ⟨final, ran, turned⟩ := Option.map_eq_some_iff.mp reached
  obtain ⟨command, member, turns⟩ := List.any_eq_true.mp turned
  refine ⟨s, next, final, steps_of_run frames, taken, stepsWhen_of_guarded ran, command, member, ?_⟩
  cases command with
  | setSpeed hand x y rotation =>
    rintro ⟨-, -, rfl⟩
    cases turns
  | motoStop hand motor => cases turns
  | fanAccelerate x y => cases turns

end BadmintonRobot.Emergency
