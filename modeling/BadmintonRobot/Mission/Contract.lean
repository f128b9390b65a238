import Mathlib
import BadmintonRobot.Mission.Protocol
import BadmintonRobot.Semantics.RelyGuarantee

/-!
# What the mission threads expect of each other

The contracts of the auto and the arm thread: each guarantees that its steps are legal
events of the protocol, and relies on the same of the other one. A careful auto thread
moreover writes no set-point other than 0 once the arm has left its waiting loop, provided
that each route starts in a state that is fit for it.
-/

namespace BadmintonRobot.Mission

open Semantics

namespace Handshake

/-- The state of the protocol after the events of the log. -/
def view (h : Handshake) : Protocol := h.log.foldl Protocol.after .rest

theorem view_snoc {h next : Handshake} {event : Event} (log : next.log = h.log ++ [event]) :
    next.view = h.view.after event := by
  simp [view, log]

theorem view_eq {h next : Handshake} (log : next.log = h.log) : next.view = h.view := by
  simp [view, log]

theorem view_record (h : Handshake) (event : Event) :
    (h.record event).view = h.view.after event :=
  view_snoc rfl

/-- The mailboxes and the received messages are what the protocol says. -/
structure Agrees (h : Handshake) : Prop where
  mbAuto : h.mbAuto = h.view.token.box .auto
  mbArm : h.mbArm = h.view.token.box .arm
  autoMsg : ∀ stage, h.view.token = .received .auto stage → h.autoMsg = stage
  armMsg : ∀ stage, h.view.token = .received .arm stage → h.armMsg = stage

/-- Mailboxes and messages after an event. -/
theorem Agrees.of_event {h next : Handshake} (event : Event) (log : next.log = h.log ++ [event])
    (mbAuto : next.mbAuto = (h.view.after event).token.box .auto)
    (mbArm : next.mbArm = (h.view.after event).token.box .arm)
    (autoMsg : ∀ stage, (h.view.after event).token = .received .auto stage → next.autoMsg = stage)
    (armMsg : ∀ stage, (h.view.after event).token = .received .arm stage → next.armMsg = stage) :
    next.Agrees := by
  have view := view_snoc log
  constructor
  · rw [view, mbAuto]
  · rw [view, mbArm]
  · rwa [view]
  · rwa [view]

/-- An event that leaves the message where it is. -/
theorem Agrees.record {h : Handshake} {event : Event} (agrees : h.Agrees)
    (token : (h.view.after event).token = h.view.token) : (h.record event).Agrees := by
  refine .of_event event rfl ?_ ?_ ?_ ?_
  · rw [token]
    exact agrees.mbAuto
  · rw [token]
    exact agrees.mbArm
  · rw [token]
    exact agrees.autoMsg
  · rw [token]
    exact agrees.armMsg

/-- The flag that the arm action of a stage waits for. -/
def flag (h : Handshake) (stage : Nat) : Bool :=
  if stage = 2 ∧ h.settings.circleDynFlag then h.circleFinish else h.routeFinish

end Handshake

/-- The camera does not take the chassis over when the path of the stage is done. -/
def Settings.Calm (s : Settings) (stage : Nat) : Prop :=
  (stage = 2 → s.circleDynFlag ∨ s.walkGround ∨ ¬s.circleFlag 0) ∧
    (stage = 7 → s.walkGround ∨ ¬s.circleFlag 3)

instance (s : Settings) (stage : Nat) : Decidable (s.Calm stage) :=
  inferInstanceAs (Decidable (_ ∧ _))

/-- The route of a stage may start: the camera will not take over at its end, and if
the arm will wait for `CircleFinish`, then that flag is up. -/
def Handshake.Fit (h : Handshake) (stage : Nat) : Prop :=
  h.settings.Calm stage ∧ (stage = 2 → h.settings.circleDynFlag → h.circleFinish)

instance (h : Handshake) (stage : Nat) : Decidable (h.Fit stage) :=
  inferInstanceAs (Decidable (_ ∧ _))

/-- Nothing of the handshake happens, or one legal event of the party. -/
def Moves (party : Party) (h next : Handshake) : Prop :=
  (next.log = h.log ∧ next.mbAuto = h.mbAuto ∧ next.mbArm = h.mbArm ∧
      next.autoMsg = h.autoMsg ∧ next.armMsg = h.armMsg) ∨
    ∃ event, event.owner = some party ∧ h.view.Legal event ∧ next.log = h.log ++ [event] ∧
      next.Agrees

/-- A step of the auto thread. -/
structure AutoStep (careful : Prop) (h next : Handshake) : Prop where
  settings : next.settings = h.settings
  armtestFlag : next.armtestFlag = h.armtestFlag
  moves : Moves .auto h next
  rests : careful → ∀ axis value, next.log = h.log ++ [Event.speed axis value] →
    value = 0 ∨ h.view.arrived = false

/-- A step of the arm thread. -/
structure ArmStep (h next : Handshake) : Prop where
  settings : next.settings = h.settings
  armtestFlag : next.armtestFlag = h.armtestFlag
  routeFinish : next.routeFinish = h.routeFinish
  circleFinish : next.circleFinish = h.circleFinish
  moves : Moves .arm h next
  waits : ∀ stage, next.log = h.log ++ [Event.leavesWait stage] → h.flag stage = false

/-- The operator starts a mission or an arm test from the menu. -/
def MenuStep (h next : Handshake) : Prop :=
  ∃ stage event, (event = .routeGo stage ∨ event = .armTest stage) ∧ h.view.Legal event ∧
    next.log = h.log ++ [event] ∧ next.Agrees

/-- The contract of the auto thread. -/
def autoContract (careful : Prop) : Contract Board where
  premise b := careful → ∀ stage, b.handshake.view.token = .received .auto stage →
    b.handshake.Fit stage
  rely b next := ArmStep b.handshake next.handshake ∨ MenuStep b.handshake next.handshake
  guarantee b next := AutoStep careful b.handshake next.handshake
  idle _ := ⟨rfl, rfl, .inl ⟨rfl, rfl, rfl, rfl, rfl⟩, fun _ _ _ same => by simp at same⟩

/-- The contract of the arm thread. -/
def armContract (careful : Prop) : Contract Board where
  premise _ := True
  rely b next := AutoStep careful b.handshake next.handshake ∨ MenuStep b.handshake next.handshake
  guarantee b next := ArmStep b.handshake next.handshake
  idle _ := ⟨rfl, rfl, rfl, rfl, .inl ⟨rfl, rfl, rfl, rfl, rfl⟩, fun _ same => by simp at same⟩

namespace Protocol

variable {p : Protocol} {event : Event} {stage : Nat}

theorem after_arm_route (own : event.owner = some .arm) : (p.after event).route = p.route := by
  cases event with
  | receives party _ | starts party _ | posts party _ | returns party _ =>
    cases party <;> simp_all [Event.owner, after]
  | _ => simp_all [Event.owner, after]

theorem after_auto_action (own : event.owner = some .auto) :
    (p.after event).action = p.action := by
  cases event with
  | receives party _ | starts party _ | posts party _ | returns party _ =>
    cases party <;> simp_all [Event.owner, after]
  | _ => simp_all [Event.owner, after]

/-- A thread does not take the message out of the hands of the other one. -/
theorem after_token {holder other : Party} (different : holder ≠ other)
    (own : event.owner = some other) (legal : p.Legal event)
    (holds : p.token.holder = some holder) : (p.after event).token = p.token := by
  cases event with
  | posts party _ =>
    cases party with
    | auto => cases holder <;> simp_all [Event.owner, Legal, Token.holder]
    | arm =>
      obtain ⟨last, -, -, token⟩ := legal
      cases holder <;> simp_all [Event.owner, Token.holder]
  | receives party _ | starts party _ | returns party _ =>
    cases party <;> cases holder <;> simp_all [Event.owner, after, Legal, Token.holder]
  | _ => simp_all [Event.owner, after]

/-- The arm thread brings the message of a stage to its answer. -/
theorem beyond_after_arm (own : event.owner = some .arm) (legal : p.Legal event)
    (beyond : p.token.Beyond stage) : (p.after event).token.Beyond stage := by
  cases event with
  | receives party _ | starts party _ | posts party _ | returns party _ =>
    cases party <;> rcases beyond with token | token | token | token <;>
      simp_all [Event.owner, after, Legal, Token.Beyond]
  | _ => simp_all [Event.owner, after]

theorem arrived_after_arm (own : event.owner = some .arm)
    (before : p.arrived = false) (now : (p.after event).arrived = true) :
    ∃ stage, event = .leavesWait stage := by
  cases event with
  | receives party _ | starts party _ | posts party _ | returns party _ =>
    cases party <;> simp_all [Event.owner, after]
  | _ => simp_all [Event.owner, after]

end Protocol

section Rely

variable {h next : Handshake} {careful : Prop}

theorem Moves.agrees {party : Party} (moves : Moves party h next) (agrees : h.Agrees) :
    next.Agrees := by
  rcases moves with ⟨log, mbAuto, mbArm, autoMsg, armMsg⟩ | ⟨-, -, -, -, reached⟩
  · have view := Handshake.view_eq log
    exact
      { mbAuto := by rw [mbAuto, view, agrees.mbAuto]
        mbArm := by rw [mbArm, view, agrees.mbArm]
        autoMsg := by rw [autoMsg, view]; exact agrees.autoMsg
        armMsg := by rw [armMsg, view]; exact agrees.armMsg }
  · exact reached

/-- What the steps of the others leave to the auto thread. -/
structure AutoKeeps (h next : Handshake) : Prop where
  agrees : next.Agrees
  route : next.view.route = h.view.route
  token : h.view.token.holder = some .auto → next.view.token = h.view.token
  beyond : ∀ stage, h.view.token.Beyond stage → next.view.token.Beyond stage
  settings : h.view.token ≠ .absent → next.settings = h.settings
  routeFinish : h.view.token ≠ .absent → next.routeFinish = h.routeFinish
  circleFinish : h.view.token ≠ .absent → next.circleFinish = h.circleFinish
  arrived : ∀ stage, h.view.token.Beyond stage → h.flag stage = true →
    h.view.arrived = false → next.view.arrived = false
  unseen : h.view.token.holder = some .auto → h.view.arrived = false → next.view.arrived = false

private theorem beyond_started {stage other : Nat} {token : Token} (beyond : token.Beyond stage)
    (started : token = .started .arm other) : other = stage := by
  rcases beyond with same | same | same | same <;> simp_all

theorem ArmStep.autoKeeps (step : ArmStep h next) (agrees : h.Agrees) : AutoKeeps h next := by
  have reached := step.moves.agrees agrees
  rcases step.moves with ⟨log, -⟩ | ⟨event, own, legal, log, -⟩
  · have view := Handshake.view_eq log
    constructor <;> simp_all [step.settings, step.routeFinish, step.circleFinish]
  · have view := Handshake.view_snoc log
    -- the only event that reports the arm's arrival is legal with the flag down
    have reports : h.view.arrived = false → next.view.arrived = true →
        ∃ stage, h.view.token = .started .arm stage ∧ h.flag stage = false := by
      intro before now
      rw [view] at now
      obtain ⟨stage, rfl⟩ := Protocol.arrived_after_arm own before now
      exact ⟨stage, legal, step.waits stage log⟩
    constructor
    · exact reached
    · rw [view, Protocol.after_arm_route own]
    · rw [view]
      exact Protocol.after_token (by decide) own legal
    · intro stage beyond
      rw [view]
      exact Protocol.beyond_after_arm own legal beyond
    · exact fun _ => step.settings
    · exact fun _ => step.routeFinish
    · exact fun _ => step.circleFinish
    · intro stage beyond up before
      by_contra now
      obtain ⟨other, started, down⟩ := reports before (by simpa using now)
      rw [beyond_started beyond started] at down
      simp [up] at down
    · intro holds before
      by_contra now
      obtain ⟨other, started, -⟩ := reports before (by simpa using now)
      simp [started, Token.holder] at holds

theorem MenuStep.autoKeeps (step : MenuStep h next) : AutoKeeps h next := by
  obtain ⟨stage, event, either, legal, log, agrees⟩ := step
  have view := Handshake.view_snoc log
  have absent : h.view.token = .absent := by rcases either with rfl | rfl <;> exact legal.1
  have free : ∀ stage, ¬h.view.token.Beyond stage := by simp [absent, Token.Beyond]
  constructor
  · exact agrees
  · rw [view]
    rcases either with rfl | rfl <;> rfl
  · simp [absent, Token.holder]
  · exact fun other beyond => absurd beyond (free other)
  · exact fun present => absurd absent present
  · exact fun present => absurd absent present
  · exact fun present => absurd absent present
  · exact fun other beyond => absurd beyond (free other)
  · simp [absent, Token.holder]

/-- What the steps of the others leave to the arm thread. -/
structure ArmKeeps (h next : Handshake) : Prop where
  agrees : next.Agrees
  action : next.view.action = h.view.action
  token : h.view.token.holder = some .arm → next.view.token = h.view.token
  settings : h.view.token.holder = some .arm → next.settings = h.settings

theorem AutoStep.armKeeps (step : AutoStep careful h next) (agrees : h.Agrees) :
    ArmKeeps h next := by
  have reached := step.moves.agrees agrees
  rcases step.moves with ⟨log, -⟩ | ⟨event, own, legal, log, -⟩
  · have view := Handshake.view_eq log
    constructor <;> simp_all [step.settings]
  · have view := Handshake.view_snoc log
    constructor
    · exact reached
    · rw [view, Protocol.after_auto_action own]
    · rw [view]
      exact Protocol.after_token (by decide) own legal
    · exact fun _ => step.settings

theorem MenuStep.armKeeps (step : MenuStep h next) : ArmKeeps h next := by
  obtain ⟨stage, event, either, legal, log, agrees⟩ := step
  have view := Handshake.view_snoc log
  have absent : h.view.token = .absent := by rcases either with rfl | rfl <;> exact legal.1
  constructor
  · exact agrees
  · rw [view]
    rcases either with rfl | rfl <;> rfl
  · simp [absent, Token.holder]
  · simp [absent, Token.holder]

end Rely

end BadmintonRobot.Mission
