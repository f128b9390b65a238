import Mathlib
import BadmintonRobot.Mission.Effects

/-!
# The auto thread keeps its contract

A route goes through four situations: it has begun, its flag is up, it drives after its
post, and its motion is over. Each is a fact about the handshake that no step of the arm
thread or the operator changes. The routes are verified statement by statement against
these facts, for a careful run and for any run at once.
-/

namespace BadmintonRobot.Mission

open Semantics Code

/-- A fact about the handshake that only the auto thread changes. -/
structure AutoFact where
  holds : Handshake → Prop
  kept : ∀ h next, AutoKeeps h next → holds h → holds next

namespace AutoFact

/-- The fact, with a handshake that agrees with the protocol. -/
def assertion (fact : AutoFact) (careful : Prop) : Assertion (autoContract careful) where
  holds b := b.handshake.Agrees ∧ fact.holds b.handshake
  stable b next holds relied := by
    have keeps : AutoKeeps b.handshake next.handshake :=
      relied.elim (fun step => step.autoKeeps holds.1) MenuStep.autoKeeps
    exact ⟨keeps.agrees, fact.kept _ _ keeps holds.2⟩

/-- No route is running. -/
def waiting : AutoFact where
  holds h := h.view.route = none
  kept _ _ keeps holds := by rw [keeps.route, holds]

/-- The thread has taken a message out of its mailbox. -/
def taken : AutoFact where
  holds h := h.view.route = none ∧ ∃ stage, h.view.token = .received .auto stage
  kept := by
    rintro h next keeps ⟨route, stage, token⟩
    have same := keeps.token (by simp [token, Token.holder])
    exact ⟨by rw [keeps.route, route], stage, by rw [same, token]⟩

/-- The message has selected the route of its stage. -/
def selected (stage : Nat) : AutoFact where
  holds h := h.view.route = none ∧ h.view.token = .received .auto stage
  kept := by
    rintro h next keeps ⟨route, token⟩
    have same := keeps.token (by simp [token, Token.holder])
    exact ⟨by rw [keeps.route, route], by rw [same, token]⟩

/-- The route has begun and has not posted. -/
structure Begins (careful : Prop) (stage : Nat) (h : Handshake) : Prop where
  route : h.view.route = some stage
  token : h.view.token = .started .auto stage
  arrived : h.view.arrived = false
  fit : careful → h.Fit stage

theorem Begins.keep {careful : Prop} {stage : Nat} {h next : Handshake}
    (begins : Begins careful stage h) (keeps : AutoKeeps h next) : Begins careful stage next := by
  have held : h.view.token.holder = some .auto := by simp [begins.token, Token.holder]
  have present : h.view.token ≠ .absent := by simp [begins.token]
  constructor
  · rw [keeps.route, begins.route]
  · rw [keeps.token held, begins.token]
  · exact keeps.unseen held begins.arrived
  · intro care
    have fit := begins.fit care
    simpa [Handshake.Fit, keeps.settings present, keeps.circleFinish present] using fit

/-- The route has begun and has not posted. -/
def begun (careful : Prop) (stage : Nat) : AutoFact where
  holds := Begins careful stage
  kept _ _ keeps begins := begins.keep keeps

/-- The route has begun and `RouteFinish` is up. -/
def ready (careful : Prop) (stage : Nat) : AutoFact where
  holds h := Begins careful stage h ∧ h.routeFinish = true
  kept := by
    rintro h next keeps ⟨begins, up⟩
    exact ⟨begins.keep keeps, by rw [keeps.routeFinish (by simp [begins.token]), up]⟩

/-- The route has posted and its motion is over. The options are within limits that
hold for a careful run. -/
def ended (careful : Prop) (stage : Nat) (limits : Settings → Prop) : AutoFact where
  holds h := h.view.route = some stage ∧ h.view.token.Beyond stage ∧
    (careful → limits h.settings)
  kept := by
    rintro h next keeps ⟨route, beyond, calm⟩
    have present : h.view.token ≠ .absent := by
      rcases beyond with token | token | token | token <;> simp [token]
    exact ⟨by rw [keeps.route, route], keeps.beyond stage beyond,
      by rw [keeps.settings present]; exact calm⟩

/-- The route has posted and may move the chassis: its flag is up and the arm waits. -/
def driving (careful : Prop) (stage : Nat) (limits : Settings → Prop) : AutoFact where
  holds h := (ended careful stage limits).holds h ∧
    (careful → h.flag stage = true ∧ h.view.arrived = false)
  kept := by
    rintro h next keeps ⟨posted, waits⟩
    have beyond := posted.2.1
    have present : h.view.token ≠ .absent := by
      rcases beyond with token | token | token | token <;> simp [token]
    refine ⟨(ended careful stage limits).kept h next keeps posted, fun care => ?_⟩
    obtain ⟨up, unseen⟩ := waits care
    constructor
    · simpa [Handshake.flag, keeps.settings present, keeps.routeFinish present,
        keeps.circleFinish present] using up
    · exact keeps.arrived stage beyond up unseen

end AutoFact

section Rules

variable {careful : Prop} {stage : Nat} {limits : Settings → Prop}
  {broken : Assertion (autoContract careful)}

open AutoFact

/-- A step that changes neither log nor mailboxes. -/
theorem AutoStep.quiet {h next : Handshake} (settings : next.settings = h.settings)
    (armtestFlag : next.armtestFlag = h.armtestFlag) (log : next.log = h.log)
    (mbAuto : next.mbAuto = h.mbAuto) (mbArm : next.mbArm = h.mbArm)
    (autoMsg : next.autoMsg = h.autoMsg) (armMsg : next.armMsg = h.armMsg) :
    AutoStep careful h next where
  settings := settings
  armtestFlag := armtestFlag
  moves := .inl ⟨log, mbAuto, mbArm, autoMsg, armMsg⟩
  rests := fun _ _ _ grown => by simp [log] at grown

/-- A step that adds an event other than a set-point. -/
theorem AutoStep.event {h next : Handshake} (event : Event)
    (settings : next.settings = h.settings) (armtestFlag : next.armtestFlag = h.armtestFlag)
    (own : event.owner = some .auto) (legal : h.view.Legal event)
    (log : next.log = h.log ++ [event]) (agrees : next.Agrees)
    (other : ∀ axis value, event ≠ .speed axis value) : AutoStep careful h next where
  settings := settings
  armtestFlag := armtestFlag
  moves := .inr ⟨event, own, legal, log, agrees⟩
  rests := by
    intro _ axis value grown
    obtain rfl : event = .speed axis value := by simpa [log] using grown
    exact absurd rfl (other axis value)

/-- A set-point of the running route. -/
theorem AutoStep.speed {h : Handshake} {axis : Axis} {value : ℚ} (agrees : h.Agrees)
    (route : h.view.route = some stage)
    (rests : careful → value = 0 ∨ h.view.arrived = false) :
    AutoStep careful h (h.record (.speed axis value)) where
  settings := rfl
  armtestFlag := rfl
  moves := .inr ⟨_, rfl, by simp [Protocol.Legal, route], rfl, agrees.record rfl⟩
  rests := by
    intro care axis' value' grown
    obtain ⟨rfl, rfl⟩ : axis = axis' ∧ value = value' := by simpa [Handshake.record] using grown
    exact rests care

/-- Statements that leave the handshake alone keep every fact. -/
theorem silent (fact : AutoFact) {statement : Code} (inside : statement.Within Silent)
    (elsewhere : ∀ b, (fact.assertion careful).holds b → broken.holds b) :
    Triple (autoContract careful) (fact.assertion careful) statement (fact.assertion careful)
      broken := by
  refine (Triple.within (fun b next holds _ same => ?_) inside).weaken (fun _ => id) (fun _ => id)
    elsewhere
  replace same : next.handshake = b.handshake := same
  constructor
  · change AutoStep careful b.handshake next.handshake
    rw [same]
    exact (autoContract careful).idle b
  · change next.handshake.Agrees ∧ fact.holds next.handshake
    rw [same]
    exact holds

/-- While a route drives it may write any set-point. -/
theorem drives {statement : Code} (inside : statement.Within Drives) :
    Triple (autoContract careful) ((driving careful stage limits).assertion careful) statement
      ((driving careful stage limits).assertion careful) ((ended careful stage limits).assertion careful) := by
  refine (Triple.within (fun b next holds _ effect => ?_) inside).weaken (fun _ => id) (fun _ => id)
    (fun _ holds => ⟨holds.1, holds.2.1⟩)
  obtain ⟨agrees, ⟨route, beyond, calm⟩, waits⟩ := holds
  have step : AutoStep careful b.handshake next.handshake := by
    rcases effect with same | ⟨axis, value, same⟩
    · rw [show next.handshake = b.handshake from same]
      exact (autoContract careful).idle b
    · rw [same]
      exact .speed agrees route fun care => .inr (waits care).2
  refine ⟨step, step.moves.agrees agrees, ?_⟩
  rcases effect with same | ⟨axis, value, same⟩
  · rw [show next.handshake = b.handshake from same]
    exact ⟨⟨route, beyond, calm⟩, waits⟩
  · simp only [same, driving, ended, Handshake.flag, Handshake.view_record, Protocol.after]
    exact ⟨⟨route, beyond, calm⟩, waits⟩

/-- When the motion is over a route may still write 0. -/
theorem stops {statement : Code} (inside : statement.Within Stops) :
    Triple (autoContract careful) ((ended careful stage limits).assertion careful) statement
      ((ended careful stage limits).assertion careful) ((ended careful stage limits).assertion careful) := by
  refine Triple.within (fun b next holds _ effect => ?_) inside
  obtain ⟨agrees, route, beyond, calm⟩ := holds
  have step : AutoStep careful b.handshake next.handshake := by
    rcases effect with same | ⟨axis, same⟩
    · rw [show next.handshake = b.handshake from same]
      exact (autoContract careful).idle b
    · rw [same]
      exact .speed agrees route fun _ => .inl rfl
  refine ⟨step, step.moves.agrees agrees, ?_⟩
  rcases effect with same | ⟨axis, same⟩
  · rw [show next.handshake = b.handshake from same]
    exact ⟨route, beyond, calm⟩
  · simp only [same, ended, Handshake.view_record, Protocol.after]
    exact ⟨route, beyond, calm⟩

theorem recv_triple : Triple (autoContract careful) (waiting.assertion careful) (rtMbRecv .auto)
    (taken.assertion careful) broken := by
  refine Triple.act fun _ b next holds _ happens => ?_
  obtain ⟨agrees, route⟩ := holds
  have box := agrees.mbAuto
  cases token : b.handshake.view.token with
  | posted party stage =>
    cases party with
    | auto =>
      simp only [token, Token.box, if_true] at box
      simp only [box, Option.some.injEq] at happens
      subst happens
      have reached : ({ b.handshake with mbAuto := [], autoMsg := stage }.record
          (.receives .auto stage)).view = b.handshake.view.after (.receives .auto stage) :=
        Handshake.view_snoc rfl
      have fine : ({ b.handshake with mbAuto := [], autoMsg := stage }.record
          (.receives .auto stage)).Agrees := by
        refine .of_event (h := b.handshake) (.receives .auto stage) rfl rfl ?_ ?_ ?_
        · simp [Protocol.after, Token.box, agrees.mbArm, token]
        · simp [Protocol.after]
        · simp [Protocol.after]
      refine ⟨.event (.receives .auto stage) rfl rfl rfl ⟨token, route⟩ rfl fine (by simp), fine,
        ?_, stage, ?_⟩
      · exact reached ▸ route
      · exact reached ▸ rfl
    | arm => simp [box, token, Token.box] at happens
  | _ => simp [box, token, Token.box] at happens

theorem starts_triple : Triple (autoContract careful) ((selected stage).assertion careful)
    (mark (.starts .auto stage)) ((begun careful stage).assertion careful) broken := by
  refine Triple.update fun _ b holds premise => ?_
  obtain ⟨agrees, route, token⟩ := holds
  have fine : (b.handshake.record (.starts .auto stage)).Agrees := by
    refine .of_event (.starts .auto stage) rfl ?_ ?_ ?_ ?_
    · simp [Protocol.after, Token.box, agrees.mbAuto, token]
    · simp [Protocol.after, Token.box, agrees.mbArm, token]
    · simp [Protocol.after]
    · simp [Protocol.after]
  refine ⟨.event (.starts .auto stage) rfl rfl rfl ⟨token, route⟩ rfl fine (by simp), fine, ?_⟩
  have view := Handshake.view_record b.handshake (.starts .auto stage)
  exact ⟨view ▸ rfl, view ▸ rfl, view ▸ rfl, fun care => premise care stage token⟩

theorem raise_triple : Triple (autoContract careful) ((begun careful stage).assertion careful)
    (setRouteFinish true) ((ready careful stage).assertion careful) broken := by
  refine Triple.update fun _ b holds _ => ?_
  obtain ⟨agrees, begins⟩ := holds
  have step : AutoStep careful b.handshake { b.handshake with routeFinish := true } :=
    .quiet rfl rfl rfl rfl rfl rfl rfl
  exact ⟨step, step.moves.agrees agrees, ⟨begins.route, begins.token, begins.arrived, begins.fit⟩, rfl⟩

theorem setPointPath_triple (staNum endNum : Int) :
    Triple (autoContract careful) ((begun careful stage).assertion careful)
      (setPointPath staNum endNum) ((ready careful stage).assertion careful)
      (.any (autoContract careful)) := by
  unfold setPointPath
  refine Triple.block_cons (silent _ (within_assign fun _ => rfl) fun _ _ => trivial) ?_
  refine Triple.block_cons (silent _ (within_assign fun _ => rfl) fun _ _ => trivial) ?_
  refine Triple.block_cons (silent _ (within_assign fun _ => rfl) fun _ _ => trivial) ?_
  exact Triple.block_cons raise_triple Triple.block_nil

/-- The post hands the message over. The flag is up by now, so the arm will wait. -/
theorem post_triple : Triple (autoContract careful) ((ready careful stage).assertion careful)
    (post .auto stage) ((driving careful stage (·.Calm stage)).assertion careful) broken := by
  refine Triple.update fun _ b holds _ => ?_
  obtain ⟨agrees, begins, up⟩ := holds
  have empty : b.handshake.mbArm = [] := by simp [agrees.mbArm, begins.token, Token.box]
  have sent : rtMbSend b.handshake.mbArm stage = [stage] := by simp [empty, rtMbSend, mailboxSize]
  have reached : ({ b.handshake with mbArm := rtMbSend b.handshake.mbArm stage }.record
      (.posts .auto stage)).view = b.handshake.view.after (.posts .auto stage) :=
    Handshake.view_snoc rfl
  have fine : ({ b.handshake with mbArm := rtMbSend b.handshake.mbArm stage }.record
      (.posts .auto stage)).Agrees := by
    refine .of_event (h := b.handshake) (.posts .auto stage) rfl ?_ ?_ ?_ ?_
    · simp [Protocol.after, Token.box, agrees.mbAuto, begins.token]
    · simp [Protocol.after, Token.box, sent]
    · simp [Protocol.after]
    · simp [Protocol.after]
  refine ⟨.event (.posts .auto stage) rfl rfl rfl begins.token rfl fine (by simp), fine,
    ⟨?_, ?_, ?_⟩, ?_⟩
  · exact reached ▸ begins.route
  · exact .inl (reached ▸ rfl)
  · exact fun care => (begins.fit care).1
  · intro care
    obtain ⟨-, circle⟩ := begins.fit care
    constructor
    · simp only [Handshake.flag, Board.onHandshake, Handshake.record_settings,
        Handshake.record_circleFinish, Handshake.record_routeFinish]
      split
      case isTrue follows => exact circle follows.1 follows.2
      case isFalse => exact up
    · exact reached ▸ begins.arrived

theorem returns_triple :
    Triple (autoContract careful) ((ended careful stage (·.Calm stage)).assertion careful)
      (mark (.returns .auto stage)) (waiting.assertion careful) broken := by
  refine Triple.update fun _ b holds _ => ?_
  obtain ⟨agrees, route, beyond, -⟩ := holds
  have fine := agrees.record (show (b.handshake.view.after (.returns .auto stage)).token = _ from rfl)
  refine ⟨.event (.returns .auto stage) rfl rfl rfl ⟨route, beyond⟩ rfl fine (by simp), fine, ?_⟩
  exact congrArg Protocol.route (Handshake.view_record b.handshake (.returns .auto stage))

/-- The flags change: from here on the route counts as over. -/
theorem lower_triple (routeFinish circleFinish : Handshake → Bool) :
    Triple (autoContract careful) ((driving careful stage limits).assertion careful)
      (assign (Board.onHandshake fun h =>
        { h with routeFinish := routeFinish h, circleFinish := circleFinish h }))
      ((ended careful stage limits).assertion careful) broken := by
  refine Triple.update fun _ b holds _ => ?_
  obtain ⟨agrees, ⟨route, beyond, calm⟩, -⟩ := holds
  have step : AutoStep careful b.handshake
      { b.handshake with
        routeFinish := routeFinish b.handshake, circleFinish := circleFinish b.handshake } :=
    .quiet rfl rfl rfl rfl rfl rfl rfl
  exact ⟨step, step.moves.agrees agrees, route, beyond, calm⟩

theorem routeFinish_triple : Triple (autoContract careful) ((driving careful stage limits).assertion careful)
    (setRouteFinish false) ((ended careful stage limits).assertion careful) broken :=
  lower_triple (fun _ => false) (·.circleFinish)

theorem circleFinish_triple :
    Triple (autoContract careful) ((driving careful stage limits).assertion careful)
      (assign (Board.onHandshake ({ · with circleFinish := false })))
      ((ended careful stage limits).assertion careful) broken :=
  lower_triple (·.routeFinish) (fun _ => false)

theorem driving_over (b : Board) (holds : ((driving careful stage limits).assertion careful).holds b) :
    ((ended careful stage limits).assertion careful).holds b :=
  ⟨holds.1, holds.2.1⟩

end Rules

section Routes

open AutoFact

variable {careful : Prop} {stage : Nat} {limits : Settings → Prop}

/-- What the turn of a driving loop has to do: go on driving, or leave the loop with the
motion over. -/
abbrev Turn (careful : Prop) (stage : Nat) (limits : Settings → Prop) (turn : Code) : Prop :=
  Triple (autoContract careful) ((driving careful stage limits).assertion careful) turn
    ((driving careful stage limits).assertion careful) ((ended careful stage limits).assertion careful)

theorem turn_finishRoute : Turn careful stage limits finishRoute := by
  refine Triple.block_cons routeFinish_triple ?_
  refine Triple.block_cons (stops within_speedStop_auto) ?_
  exact Triple.block_cons Triple.leave Triple.block_nil

theorem turn_handToCamera : Turn careful stage limits handToCamera := by
  refine Triple.block_cons (drives ((within_issue _).mono fun _ _ => Silent.drives)) ?_
  refine Triple.block_cons (Triple.either ?_ Triple.skip) Triple.block_nil
  exact Triple.block_cons routeFinish_triple (Triple.block_cons Triple.leave Triple.block_nil)

theorem turn_stopAtLaser (found ended : Nat) : Turn careful stage limits (stopAtLaser found ended) := by
  refine Triple.ite (fun input b holds _ => ⟨(autoContract careful).idle b, ?_⟩)
    (Triple.either ?_ Triple.skip) Triple.skip
  · split <;> exact holds
  · have receive : (Stmt.act fun (input : Sensors) (b : Board) => input.sensorEnd.map fun message =>
        { b with route := { b.route with msg := message } }).Within Drives := by
      intro input b next happens
      obtain ⟨message, -, rfl⟩ := Option.map_eq_some_iff.mp happens
      exact .inl rfl
    refine Triple.block_cons (drives receive) ?_
    exact Triple.block_cons (Triple.either turn_finishRoute Triple.skip) Triple.block_nil

theorem turn_circleTurn : Turn careful stage limits circleTurn := by
  have note : ∀ effect : Board → Board, (∀ b, Silent b (effect b)) →
      (assign effect).Within Drives := fun _ same => within_assign fun b => .inl (same b)
  have stop := within_speedStop_auto.mono fun _ _ => Stops.drives
  refine Triple.block_cons (drives within_goCamCircle) ?_
  refine Triple.block_cons Triple.skip ?_
  refine Triple.block_cons (drives (within_ifThen.mpr (within_store_auto _ _))) ?_
  refine Triple.block_cons (drives (within_ifThen.mpr (within_store_auto _ _))) ?_
  refine Triple.block_cons (drives (within_ifThen.mpr ?_)) ?_
  · exact ⟨note _ fun _ => rfl, note _ fun _ => rfl, trivial⟩
  refine Triple.block_cons (drives (within_ifThen.mpr ?_)) ?_
  · exact ⟨note _ fun _ => rfl, stop, trivial⟩
  refine Triple.block_cons (drives (within_ifThen.mpr (within_store_auto _ _))) ?_
  refine Triple.block_cons (drives (within_ifThen.mpr ?_)) ?_
  · exact ⟨within_store_auto _ _, note _ fun _ => rfl, trivial⟩
  refine Triple.block_cons (Triple.either ?_ Triple.skip) Triple.block_nil
  exact Triple.block_cons circleFinish_triple (Triple.block_cons Triple.leave Triple.block_nil)

theorem turn_seesawTurn : Turn careful stage limits seesawTurn := by
  refine Triple.block_cons (drives within_goPointPath) ?_
  refine Triple.block_cons (Triple.either ?_ ?_) (Triple.block_cons Triple.skip Triple.block_nil)
  · exact Triple.either turn_finishRoute Triple.skip
  · refine Triple.block_cons (Triple.either turn_handToCamera Triple.skip) ?_
    refine Triple.block_cons (Triple.either ?_ Triple.skip) Triple.block_nil
    refine Triple.block_cons (drives (within_speedStop_auto.mono fun _ _ => Stops.drives)) ?_
    exact Triple.block_cons routeFinish_triple (Triple.block_cons Triple.leave Triple.block_nil)

/-- A verified route. -/
abbrev Runs (careful : Prop) (stage : Nat) (route : Code) : Prop :=
  Triple (autoContract careful) ((selected stage).assertion careful) route
    (waiting.assertion careful) (.any (autoContract careful))

theorem runs_pathRoute (staNum endNum : Int) :
    Runs careful stage (pathRoute stage staNum endNum) := by
  refine Triple.block_cons starts_triple ?_
  refine Triple.block_cons (silent _ (within_assign fun _ => rfl) fun _ _ => trivial) ?_
  refine Triple.block_cons (setPointPath_triple _ _) (Triple.block_cons post_triple ?_)
  refine Triple.block_cons (Triple.forever ?_) (Triple.block_cons returns_triple Triple.block_nil)
  refine Triple.block_cons (drives within_goPointPath) ?_
  refine Triple.block_cons (Triple.either turn_finishRoute Triple.skip) ?_
  exact Triple.block_cons Triple.skip Triple.block_nil

/-- Where the camera takes over, the run is not careful. -/
theorem camera_triple (flag : Settings → Bool) (place : Nat)
    (inactive : ∀ s : Settings, limits s → (!s.walkGround && flag s) = false) :
    Triple (autoContract careful) ((ended careful stage limits).assertion careful)
      (ifThen (fun _ b => !b.handshake.settings.walkGround && flag b.handshake.settings)
        (camCircleStatic .auto place))
      ((ended careful stage limits).assertion careful) (.any (autoContract careful)) := by
  have camera : Turn careful stage limits (camCircleStatic .auto place) :=
    drives (within_camCircleStatic_auto place)
  refine Triple.when ?_ (fun _ _ holds _ _ => holds)
    (camera.weaken (fun _ => id) driving_over fun _ _ => trivial) Triple.skip
  intro _ b holds _ condition
  refine ⟨holds.1, holds.2, fun care => ?_⟩
  rw [inactive _ (holds.2.2.2 care)] at condition
  cases condition

theorem runs_goRoute2 : Runs careful 2 goRoute2 := by
  have local_flag : ∀ effect : Board → Board, (∀ b, Silent b (effect b)) →
      Triple (autoContract careful) ((begun careful 2).assertion careful) (assign effect)
        ((begun careful 2).assertion careful) (.any (autoContract careful)) :=
    fun _ same => silent _ (within_assign same) fun _ _ => trivial
  have still : ∀ (input : Sensors) (b : Board),
      ((driving careful 2 (·.Calm 2)).assertion careful).holds b →
      (autoContract careful).premise b → b.handshake.settings.circleDynFlag = false →
      ((driving careful 2 fun s => s.Calm 2 ∧ s.circleDynFlag = false).assertion careful).holds b :=
    fun _ b holds _ fixed => ⟨holds.1, ⟨holds.2.1.1, holds.2.1.2.1,
      fun care => ⟨holds.2.1.2.2 care, fixed⟩⟩, holds.2.2⟩
  refine Triple.block_cons starts_triple ?_
  refine Triple.block_cons (local_flag _ fun _ => rfl) ?_
  refine Triple.block_cons (local_flag _ fun _ => rfl) ?_
  refine Triple.block_cons (local_flag _ fun _ => rfl) ?_
  refine Triple.block_cons (local_flag _ fun _ => rfl) ?_
  refine Triple.block_cons (setPointPath_triple _ _) (Triple.block_cons post_triple ?_)
  refine Triple.block_cons (Triple.when (fun _ _ holds _ _ => holds) still ?_ ?_)
    (Triple.block_cons returns_triple Triple.block_nil)
  · refine Triple.block_cons (silent _ (within_issue _) fun _ _ => trivial) ?_
    refine Triple.block_cons (Triple.forever turn_circleTurn) ?_
    refine Triple.block_cons ?_ Triple.block_nil
    exact (stops within_speedStop_auto).weaken (fun _ => id) (fun _ => id) fun _ _ => trivial
  · refine Triple.block_cons (Triple.forever turn_seesawTurn) ?_
    refine Triple.block_cons ?_ Triple.block_nil
    refine (camera_triple (·.circleFlag 0) 0 ?_).weaken (fun _ => id) ?_ (fun _ => id)
    · rintro s ⟨calm, fixed⟩
      rcases calm.1 rfl with follows | ground | clear
      · simp [fixed] at follows
      · simp [ground]
      · simp [clear]
    · exact fun b holds => ⟨holds.1, holds.2.1, holds.2.2.1, fun care => (holds.2.2.2 care).1⟩

theorem runs_goRoute4 : Runs careful 4 goRoute4 := by
  refine Triple.block_cons starts_triple ?_
  refine Triple.block_cons (silent _ (within_assign fun _ => rfl) fun _ _ => trivial) ?_
  refine Triple.block_cons (silent _ (within_assign fun _ => rfl) fun _ _ => trivial) ?_
  refine Triple.block_cons (setPointPath_triple _ _) (Triple.block_cons post_triple ?_)
  refine Triple.block_cons (Triple.whilst (fun _ b holds _ _ => driving_over b holds) ?_)
    (Triple.block_cons returns_triple Triple.block_nil)
  refine Triple.block_cons (drives within_goPointPath) ?_
  refine Triple.block_cons (drives ((within_startLaser _ _).mono fun _ _ => Silent.drives)) ?_
  refine Triple.block_cons (turn_stopAtLaser _ _) ?_
  refine Triple.block_cons (Triple.either turn_finishRoute Triple.skip) ?_
  exact Triple.block_cons Triple.skip Triple.block_nil

theorem runs_goRoute5 : Runs careful 5 goRoute5 := by
  refine Triple.block_cons starts_triple ?_
  refine Triple.block_cons (silent _ (within_assign fun _ => rfl) fun _ _ => trivial) ?_
  refine Triple.block_cons raise_triple (Triple.block_cons Triple.skip ?_)
  refine Triple.block_cons post_triple ?_
  refine Triple.block_cons (Triple.whilst (fun _ b holds _ _ => driving_over b holds) ?_)
    (Triple.block_cons returns_triple Triple.block_nil)
  refine Triple.block_cons (drives within_goLine_auto) ?_
  refine Triple.block_cons (Triple.either turn_finishRoute Triple.skip) ?_
  exact Triple.block_cons Triple.skip Triple.block_nil

theorem runs_goRoute7 : Runs careful 7 goRoute7 := by
  refine Triple.block_cons starts_triple ?_
  refine Triple.block_cons (silent _ (within_assign fun _ => rfl) fun _ _ => trivial) ?_
  refine Triple.block_cons (silent _ (within_assign fun _ => rfl) fun _ _ => trivial) ?_
  refine Triple.block_cons (setPointPath_triple _ _) (Triple.block_cons post_triple ?_)
  refine Triple.block_cons (Triple.whilst (fun _ b holds _ _ => driving_over b holds) ?_) ?_
  · refine Triple.block_cons (drives within_goPointPath) ?_
    refine Triple.block_cons (drives ((within_startLaser _ _).mono fun _ _ => Silent.drives)) ?_
    refine Triple.block_cons (turn_stopAtLaser _ _) ?_
    refine Triple.block_cons (Triple.either turn_handToCamera Triple.skip) ?_
    refine Triple.block_cons (Triple.either turn_finishRoute Triple.skip) ?_
    exact Triple.block_cons Triple.skip Triple.block_nil
  · refine Triple.block_cons (camera_triple (·.circleFlag 3) 3 fun s calm => ?_)
      (Triple.block_cons returns_triple Triple.block_nil)
    rcases calm.2 rfl with ground | clear
    · simp [ground]
    · simp [clear]

/-- Every route of the table is verified. -/
theorem runs_routes : ∀ entry ∈ routes, Runs careful entry.1 entry.2 := by
  simp only [routes, List.forall_mem_cons, List.not_mem_nil, false_implies, implies_true, and_true]
  exact ⟨runs_pathRoute _ _, runs_goRoute2, runs_pathRoute _ _, runs_goRoute4, runs_goRoute5,
    runs_pathRoute _ _, runs_goRoute7⟩

/-- The switch calls the route of the received stage. -/
theorem switch_triple {table : List (Nat × Code)}
    (runs : ∀ entry ∈ table, Runs careful entry.1 entry.2) :
    Triple (autoContract careful) (taken.assertion careful) (switch (·.autoMsg) table)
      (waiting.assertion careful) (.any (autoContract careful)) := by
  induction table with
  | nil =>
    have forget : ∀ b, (taken.assertion careful).holds b → (waiting.assertion careful).holds b :=
      fun b holds => ⟨holds.1, holds.2.1⟩
    exact Triple.skip.weaken forget (fun _ => id) (fun _ => id)
  | cons entry rest ih =>
    have tail := ih fun other member => runs other (List.mem_cons_of_mem _ member)
    refine Triple.when ?_ (fun _ _ holds _ _ => holds) (runs entry List.mem_cons_self) tail
    intro _ b holds _ selects
    obtain ⟨agrees, route, stage, token⟩ := holds
    have same : stage = entry.1 := by
      rw [← agrees.autoMsg stage token]
      simpa using selects
    exact ⟨agrees, route, same ▸ token⟩

/-- The auto thread keeps its contract from its entry on. -/
theorem rtThreadEntryAuto_triple :
    Triple (autoContract careful) (waiting.assertion careful) rtThreadEntryAuto
      (.any (autoContract careful)) (.any (autoContract careful)) := by
  refine Triple.forever ?_
  exact Triple.block_cons recv_triple (Triple.block_cons (switch_triple runs_routes) Triple.block_nil)

end Routes

end BadmintonRobot.Mission
