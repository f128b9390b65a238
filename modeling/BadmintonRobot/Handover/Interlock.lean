import Mathlib
import BadmintonRobot.Handover.Keep
import BadmintonRobot.Numeric.OrderedField
import BadmintonRobot.Semantics.Run

/-!
# The interlock of the hand-over

Motor 2 is to stand still at its limit switches, and everything is to stand still while the
joystick is lost or the camera is silent. The code falls short of this in two places: at the
swing the controller of motor 2 is called in any case, and a lost joystick does not stop the
motors. Away from these two places the interlock holds in every run of calls, because `flag` is
set only while everything stands still.
-/

namespace BadmintonRobot.Handover

open Control Numeric Semantics

attribute [local instance] isOrderedRing zeroLEOneClass

variable {K : Type}

/-- The joystick is lost or the camera is silent. -/
def Input.Failed (input : Input K) : Prop :=
  input.handleTimeoutFlag = true ∨ 100 ≤ input.timeFlag

/-- The bound of the speed of motor 2, by `V_Max_Z`. -/
def Input.zBound (input : Input K) : Int := if input.place = aimSw then 2000 else 4000

/-- The speeds of the motors are limited, and motor 2 moves only away from its limit switches
and for a large error. -/
structure Input.Allows (input : Input K) (issued : List (Motor × MotorCommand)) : Prop where
  one : ∀ speed, (Motor.one, MotorCommand.gSpeed speed) ∈ issued → |speed| ≤ 2000
  two : ∀ speed, (Motor.two, MotorCommand.gSpeed speed) ∈ issued → |speed| ≤ input.zBound
  free : ∀ speed, (Motor.two, MotorCommand.gSpeed speed) ∈ issued → speed ≠ 0 →
    input.saRead 3 ≠ 0 ∧ input.saRead 4 ≠ 0 ∧ 5 ≤ |input.errorZ|

theorem Input.free_of_not_blocked {input : Input K} (free : ¬input.Blocked) :
    input.saRead 3 ≠ 0 ∧ input.saRead 4 ≠ 0 ∧ 5 ≤ |input.errorZ| := by
  rw [Blocked, not_or, not_or, not_lt] at free
  exact ⟨free.2.1, free.2.2, free.1⟩

/-- A list without speeds is allowed. -/
theorem Input.allows_stops (input : Input K) {issued : List (Motor × MotorCommand)}
    (stops : ∀ command ∈ issued, command.2 = .stop) : input.Allows issued := by
  have none : ∀ motor speed, (motor, MotorCommand.gSpeed speed) ∉ issued := by
    intro motor speed sent
    simpa using stops _ sent
  constructor
  · intro speed sent
    exact absurd sent (none _ _)
  · intro speed sent
    exact absurd sent (none _ _)
  · intro speed sent
    exact absurd sent (none _ _)

namespace Rig

/-- The last command to a motor. -/
def last (s : Rig K) (motor : Motor) : Option MotorCommand :=
  (s.sent.reverse.find? fun command => command.1 = motor).map Prod.snd

/-- The last command to each motor is a stop. -/
def MotorsStopped (s : Rig K) : Prop := ∀ motor, s.last motor = some .stop

theorem last_motoStop (s : Rig K) (motor : Motor) :
    (s.motoStop motor).last motor = some .stop := by
  simp [last, motoStop]

theorem last_motoStop_of_ne {motor other : Motor} (apart : other ≠ motor) (s : Rig K) :
    (s.motoStop motor).last other = s.last other := by
  simp [last, motoStop, apart.symm]

variable [Field K]

/-- Everything stands still. -/
structure Stopped (s : Rig K) : Prop where
  speedX : s.speedX = 0
  speedY : s.speedY = 0
  speedRotation : s.speedRotation = 0
  motors : s.MotorsStopped

/-- A call obeys the interlock. -/
structure Interlocked (input : Input K) (s next : Rig K) : Prop where
  issued : ∃ issued, next.sent = s.sent ++ issued ∧ input.Allows issued
  stopped : input.Failed → next.Stopped

/-- The condition on a call: at the swing, motor 2 need not stand still unless it gets no
commands, and the joystick gets lost only while the motors are stopped. -/
structure Ready (s : Rig K) (input : Input K) : Prop where
  swing : ¬input.Failed → input.place = aimSw → input.handoverZDisable = false → ¬input.Blocked
  joystick : input.handleTimeoutFlag = true → s.MotorsStopped

/-- The variable `flag` is set only while everything stands still. -/
def Latched (s : Rig K) : Prop := s.flag = true → s.Stopped

end Rig

section Vout

variable {i j : Fin 5} {s : Controllers K}

@[simp] theorem setVout_self (i : Fin 5) (value : K) (s : Controllers K) :
    (setVout i value s).vout i = value := by
  simp [setVout]

theorem setVout_of_ne (other : j ≠ i) (value : K) : (setVout i value s).vout j = s.vout j := by
  simp [setVout, other]

/-- A controller does not store in `Vout`. -/
def KeepsVout (controller : Controllers K → K × Controllers K) : Prop :=
  ∀ s, (controller s).2.vout = s.vout

theorem setControlled_of_ne (other : j ≠ i) {controller : Controllers K → K × Controllers K}
    (keeps : KeepsVout controller) : (setControlled i controller s).vout j = s.vout j := by
  rw [setControlled, setVout_of_ne other, keeps]

variable [Field K]

/-- A correction, with its range in which it is left out, stores in one element. -/
theorem ite_controlled_of_ne (other : j ≠ i) {idle : Prop} [Decidable idle]
    {controller : Controllers K → K × Controllers K} (keeps : KeepsVout controller) :
    (if idle then setVout i 0 s else setControlled i controller s).vout j = s.vout j := by
  split
  · exact setVout_of_ne other 0
  · exact setControlled_of_ne other keeps

variable [LinearOrder K]

theorem limitVout_of_ne (other : j ≠ i) (bound : K) : (limitVout i bound s).vout j = s.vout j := by
  simp only [limitVout]
  split_ifs <;> simp [setVout_of_ne other]

variable [IsStrictOrderedRing K]

theorem abs_limitVout_le {b : K} (nonneg : 0 ≤ b) : |(limitVout i b s).vout i| ≤ b := by
  have same := abs_of_nonneg nonneg
  simp only [limitVout]
  split_ifs with above below below
  · simp [same]
  · simp [same]
  · simp [same]
  · exact abs_le.mpr ⟨not_lt.mp below, not_lt.mp above⟩

theorem limitVout_eq_zero {bound : K} (nonneg : 0 ≤ bound) (zero : s.vout i = 0) :
    (limitVout i bound s).vout i = 0 := by
  have above : ¬s.vout i > bound := by
    rw [zero]
    exact not_lt.mpr nonneg
  have below : ¬s.vout i < -bound := by
    rw [zero]
    exact not_lt.mpr (neg_nonpos.mpr nonneg)
  rw [limitVout, if_neg above, if_neg below, zero]

end Vout

variable [Field K] [LinearOrder K]

section Correct

variable [IsStrictOrderedRing K] (input : Input K) (s : Controllers K)

omit [LinearOrder K] [IsStrictOrderedRing K] in
theorem correctAngle_of_ne {j : Fin 5} (other : j ≠ 1) :
    (correctAngle input s).vout j = s.vout j :=
  ite_controlled_of_ne other fun _ => rfl

theorem correctSsPw_vout_two : |(correctSsPw input s).vout 2| ≤ 2000 := by
  rw [correctSsPw, limitVout_of_ne (by decide), ite_controlled_of_ne (by decide) fun _ => rfl,
    ite_controlled_of_ne (by decide) fun _ => rfl]
  exact abs_limitVout_le (by simp [maxSpeed])

theorem correctSsPw_vout_three : |(correctSsPw input s).vout 3| ≤ 4000 :=
  abs_limitVout_le (b := vMaxZ 0) (by simp [vMaxZ])

theorem correctSsPw_blocked (blocked : input.Blocked) : (correctSsPw input s).vout 3 = 0 := by
  refine limitVout_eq_zero (by simp [vMaxZ]) ?_
  rw [if_pos blocked, setVout_self]

theorem correctSw_vout_two : |(correctSw input s).vout 2| ≤ 2000 := by
  rw [correctSw, limitVout_of_ne (by decide), setControlled_of_ne (by decide) fun _ => rfl]
  have kept : ∀ s : Controllers K,
      (if input.Blocked then setVout 3 0 s else s).vout 2 = s.vout 2 := by
    intro s
    split
    · exact setVout_of_ne (by decide) 0
    · rfl
  rw [kept]
  exact abs_limitVout_le (by simp [maxSpeed])

theorem correctSw_vout_three : |(correctSw input s).vout 3| ≤ 2000 :=
  abs_limitVout_le (b := vMaxZ 1) (by simp [vMaxZ])

end Correct

namespace Rig

section Stop

variable [FloorRing K] {s : Rig K}

theorem see_flag (input : Input K) (s : Rig K) : (s.see input).flag = false := by
  simp only [see]
  split
  · cases disabled : input.handoverZDisable <;> simp [command, motoSetGSpeed, disabled]
  · rfl

omit [LinearOrder K] [FloorRing K] in
/-- After the branch for a silent camera everything stands still: it either stops everything
or finds `flag` set. -/
theorem Latched.stopped_missSight (latched : s.Latched) : s.missSight.Stopped := by
  cases flag : s.flag with
  | true =>
    have stopped := latched flag
    simp only [missSight, flag]
    exact ⟨stopped.speedX, stopped.speedY, stopped.speedRotation, stopped.motors⟩
  | false =>
    simp only [missSight, flag, Bool.not_false, if_true]
    refine ⟨rfl, rfl, rfl, ?_⟩
    intro motor
    cases motor with
    | one => exact (last_motoStop_of_ne (by decide) _).trans (last_motoStop _ _)
    | two => exact last_motoStop _ _

theorem Latched.keepHandover (latched : s.Latched) (input : Input K) :
    (s.keepHandover input).Latched := by
  rw [Rig.keepHandover]
  split_ifs
  · intro flag
    exact ⟨rfl, rfl, rfl, (latched flag).motors⟩
  · intro flag
    exact absurd flag (by simp [see_flag])
  · intro _
    exact latched.stopped_missSight

end Stop

section Sent

variable [FloorRing K] [IsStrictOrderedRing K] {s : Rig K} {input : Input K}

theorem abs_toS16_truncate_le {value : K} {bound : Int} (small : bound ≤ 32767)
    (within : |value| ≤ bound) : |toS16 (truncate value)| ≤ bound := by
  have lower : -bound ≤ truncate value := by
    apply le_truncate
    rw [Int.cast_neg]
    exact (abs_le.mp within).1
  have upper : truncate value ≤ bound := truncate_le (abs_le.mp within).2
  rw [toS16_of_mem (by omega) (by omega), abs_le]
  exact ⟨lower, upper⟩

/-- The commands that send the elements of `Vout`. -/
def issued (input : Input K) (s : Rig K) : List (Motor × MotorCommand) :=
  (Motor.one, MotorCommand.gSpeed (toS16 (truncate (s.controllers.vout 2)))) ::
    if input.handoverZDisable then []
    else [(Motor.two, MotorCommand.gSpeed (toS16 (truncate (s.controllers.vout 3))))]

omit [IsStrictOrderedRing K] in
theorem command_sent (input : Input K) (s : Rig K) :
    (s.command input).sent = s.sent ++ issued input s := by
  cases disabled : input.handoverZDisable <;> simp [command, motoSetGSpeed, issued, disabled]

omit [IsStrictOrderedRing K] in
theorem one_mem_issued {speed : Int}
    (sent : (Motor.one, MotorCommand.gSpeed speed) ∈ issued input s) :
    speed = toS16 (truncate (s.controllers.vout 2)) := by
  rw [issued] at sent
  split at sent <;> simpa using sent

omit [IsStrictOrderedRing K] in
theorem two_mem_issued {speed : Int}
    (sent : (Motor.two, MotorCommand.gSpeed speed) ∈ issued input s) :
    input.handoverZDisable = false ∧ speed = toS16 (truncate (s.controllers.vout 3)) := by
  rw [issued] at sent
  split at sent
  · simp at sent
  · next enabled =>
    rw [Bool.not_eq_true] at enabled
    exact ⟨enabled, by simpa using sent⟩

/-- What the corrections leave in `Vout` is allowed. -/
theorem allows_command (two : |s.controllers.vout 2| ≤ 2000)
    (three : |s.controllers.vout 3| ≤ input.zBound)
    (still : input.handoverZDisable = false → input.Blocked → s.controllers.vout 3 = 0) :
    ∃ issued, (s.command input).sent = s.sent ++ issued ∧ input.Allows issued := by
  refine ⟨issued input s, command_sent input s, ?_⟩
  constructor
  · intro speed sent
    obtain rfl := one_mem_issued sent
    exact abs_toS16_truncate_le (by decide) (by exact_mod_cast two)
  · intro speed sent
    obtain ⟨-, rfl⟩ := two_mem_issued sent
    refine abs_toS16_truncate_le ?_ three
    rw [Input.zBound]
    split <;> decide
  · intro speed sent moving
    obtain ⟨enabled, rfl⟩ := two_mem_issued sent
    refine Input.free_of_not_blocked fun blocked => moving ?_
    rw [still enabled blocked]
    simp [truncate, toS16]

theorem allows_see (swing : input.place = aimSw → input.handoverZDisable = false →
      ¬input.Blocked) :
    ∃ issued, (s.see input).sent = s.sent ++ issued ∧ input.Allows issued := by
  simp only [see]
  split_ifs with place seesaw
  · have other : input.place ≠ aimSw := by
      rcases seesaw with same | same <;> rw [same] <;> decide
    apply allows_command
    · rw [correctAngle_of_ne _ _ (by decide)]
      exact correctSsPw_vout_two _ _
    · rw [correctAngle_of_ne _ _ (by decide), Input.zBound, if_neg other]
      exact_mod_cast correctSsPw_vout_three _ _
    · intro _ blocked
      rw [correctAngle_of_ne _ _ (by decide)]
      exact correctSsPw_blocked _ _ blocked
  · have same : input.place = aimSw := by tauto
    apply allows_command
    · rw [correctAngle_of_ne _ _ (by decide)]
      exact correctSw_vout_two _ _
    · rw [correctAngle_of_ne _ _ (by decide), Input.zBound, if_pos same]
      exact_mod_cast correctSw_vout_three _ _
    · intro enabled blocked
      exact absurd blocked (swing same enabled)
  · refine ⟨[(Motor.two, MotorCommand.stop), (Motor.one, MotorCommand.stop)], ?_,
      input.allows_stops (by simp)⟩
    simp [motoStop, speedStop]

omit [LinearOrder K] [FloorRing K] [IsStrictOrderedRing K] in
theorem allows_missSight :
    ∃ issued, s.missSight.sent = s.sent ++ issued ∧ input.Allows issued := by
  cases flag : s.flag with
  | true => exact ⟨[], by simp [missSight, flag], input.allows_stops (by simp)⟩
  | false =>
    refine ⟨[(Motor.one, MotorCommand.stop), (Motor.two, MotorCommand.stop)], ?_,
      input.allows_stops (by simp)⟩
    simp [missSight, motoStop, speedStop, flag]

/-- A call that meets the condition obeys the interlock. -/
theorem Latched.interlocked (latched : s.Latched) (ready : Ready s input) :
    Interlocked input s (s.keepHandover input) := by
  rw [Rig.keepHandover]
  split_ifs with lost seen
  · exact ⟨⟨[], by simp [speedStop], input.allows_stops (by simp)⟩,
      fun _ => ⟨rfl, rfl, rfl, ready.joystick lost⟩⟩
  · have working : ¬input.Failed := by
      rintro (gone | silent)
      · exact lost gone
      · omega
    exact ⟨allows_see (ready.swing working), fun failed => absurd failed working⟩
  · exact ⟨allows_missSight, fun _ => latched.stopped_missSight⟩

end Sent

section Run

variable [FloorRing K]

/-- A call as a step. -/
def call (s : Rig K) (input : Input K) : Option (Rig K) := some (s.keepHandover input)

theorem Latched.run {start s : Rig K} {inputs : List (Input K)} (latched : start.Latched)
    (steps : Steps (TakesWhen Ready call) start inputs s) : s.Latched := by
  refine steps.invariant latched ?_
  intro current input next inv transition
  cases transition.2
  exact inv.keepHandover input

variable [IsStrictOrderedRing K]

/-- In every run of calls that meet the condition, from a state with `flag` unset or everything
standing still, each call obeys the interlock. -/
theorem handover_interlocked {start s next : Rig K} {inputs : List (Input K)} {input : Input K}
    (latched : start.Latched) (steps : Steps (TakesWhen Ready call) start inputs s)
    (last : TakesWhen Ready call s input next) : Interlocked input s next := by
  have current := latched.run steps
  cases last.2
  exact current.interlocked last.1

/-- A call with the switches `misoSwitch` and an error of 100 along Z. -/
def distant (place : Int) (misoSwitch : Nat) (timeFlag : Int) (lost : Bool) : Input ℚ where
  place := place
  camX := 0
  camY := 0
  camZ := 100
  camA := 0
  aimX := 0
  aimY := 0
  aimZ := 0
  aimA := 0
  handleTimeoutFlag := lost
  timeFlag := timeFlag
  misoSwitch := misoSwitch
  handoverZDisable := false
  handoverR := -500

/-- A call at the swing moves motor 2 away from the switches, and the next one stops it
because the camera is silent. -/
theorem handover_interlocked_swing :
    Interlocked (distant aimSw 12 100 false) (initial.keepHandover (distant aimSw 12 0 false))
      ((initial.keepHandover (distant aimSw 12 0 false)).keepHandover
        (distant aimSw 12 100 false)) := by
  have latched : (initial : Rig ℚ).Latched := by simp [Latched, initial]
  have moves : Ready initial (distant aimSw 12 0 false) := by
    refine ⟨fun _ _ _ => by decide, by simp [distant]⟩
  have silent : Ready (initial.keepHandover (distant aimSw 12 0 false))
      (distant aimSw 12 100 false) :=
    ⟨fun working => absurd (.inr (by decide)) working, by simp [distant]⟩
  exact handover_interlocked latched (.single ⟨moves, rfl⟩) ⟨silent, rfl⟩

/-- At the swing motor 2 moves at its limit switches, and it keeps moving when the joystick is
lost. -/
theorem not_interlocked_swing :
    ¬Interlocked (distant aimSw 0 0 false) initial
        (initial.keepHandover (distant aimSw 0 0 false)) ∧
      ¬Interlocked (distant aimSw 12 0 true) (initial.keepHandover (distant aimSw 12 0 false))
        ((initial.keepHandover (distant aimSw 12 0 false)).keepHandover
          (distant aimSw 12 0 true)) := by
  constructor
  · intro interlocked
    obtain ⟨issued, sent, allows⟩ := interlocked.issued
    have speeds : (initial.keepHandover (distant aimSw 0 0 false)).sent =
        [(Motor.one, MotorCommand.gSpeed 0), (Motor.two, MotorCommand.gSpeed 2000)] := by decide +kernel
    have moving : (Motor.two, MotorCommand.gSpeed 2000) ∈ issued := by
      rw [speeds] at sent
      rw [← List.nil_append issued, ← show (initial : Rig ℚ).sent = [] from rfl, ← sent]
      simp
    exact absurd (allows.free _ moving (by decide)).1 (by decide)
  · intro interlocked
    have motors := (interlocked.stopped (.inl rfl)).motors .two
    exact absurd motors (by decide +kernel)

end Run

end Rig

end BadmintonRobot.Handover
