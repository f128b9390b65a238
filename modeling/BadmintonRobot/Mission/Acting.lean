import Mathlib
import BadmintonRobot.Mission.Effects

/-!
# The arm thread keeps its contract

An arm action that has started holds the message until it posts the next stage. It leaves
its initial waiting loop only when it has read the flag of its stage as 0, and the rest of
its work leaves the handshake alone.
-/

namespace BadmintonRobot.Mission

open Semantics Code

/-- A fact about the handshake that only the arm thread changes. -/
structure ArmFact where
  holds : Handshake → Prop
  kept : ∀ h next, ArmKeeps h next → holds h → holds next

namespace ArmFact

/-- The fact, with a handshake that agrees with the protocol. -/
def assertion (fact : ArmFact) (careful : Prop) : Assertion (armContract careful) where
  holds b := b.handshake.Agrees ∧ fact.holds b.handshake
  stable b next holds relied := by
    have keeps : ArmKeeps b.handshake next.handshake :=
      relied.elim (fun step => step.armKeeps holds.1) MenuStep.armKeeps
    exact ⟨keeps.agrees, fact.kept _ _ keeps holds.2⟩

/-- No arm action is running. -/
def waiting : ArmFact where
  holds h := h.view.action = none
  kept _ _ keeps holds := by rw [keeps.action, holds]

/-- The thread has taken a message out of its mailbox. -/
def taken : ArmFact where
  holds h := h.view.action = none ∧ ∃ stage, h.view.token = .received .arm stage
  kept := by
    rintro h next keeps ⟨action, stage, token⟩
    have same := keeps.token (by simp [token, Token.holder])
    exact ⟨by rw [keeps.action, action], stage, by rw [same, token]⟩

/-- The message has selected the action of its stage. -/
def selected (stage : Nat) : ArmFact where
  holds h := h.view.action = none ∧ h.view.token = .received .arm stage
  kept := by
    rintro h next keeps ⟨action, token⟩
    have same := keeps.token (by simp [token, Token.holder])
    exact ⟨by rw [keeps.action, action], by rw [same, token]⟩

/-- The action is running and has not posted, with options within limits. -/
def acting (stage : Nat) (limits : Settings → Prop) : ArmFact where
  holds h := h.view.action = some stage ∧ h.view.token = .started .arm stage ∧ limits h.settings
  kept := by
    rintro h next keeps ⟨action, token, fixed⟩
    have held : h.view.token.holder = some .arm := by simp [token, Token.holder]
    exact ⟨by rw [keeps.action, action], by rw [keeps.token held, token],
      by rwa [keeps.settings held]⟩

/-- The action is running. -/
def finishing (stage : Nat) : ArmFact where
  holds h := h.view.action = some stage
  kept _ _ keeps holds := by rw [keeps.action, holds]

end ArmFact

section Rules

open ArmFact

variable {careful : Prop} {stage : Nat} {broken : Assertion (armContract careful)}

/-- A step that adds an event other than the end of the waiting loop. -/
theorem ArmStep.event {h next : Handshake} (event : Event)
    (settings : next.settings = h.settings) (armtestFlag : next.armtestFlag = h.armtestFlag)
    (routeFinish : next.routeFinish = h.routeFinish)
    (circleFinish : next.circleFinish = h.circleFinish) (own : event.owner = some .arm)
    (legal : h.view.Legal event) (log : next.log = h.log ++ [event]) (agrees : next.Agrees)
    (other : ∀ stage, event ≠ .leavesWait stage) : ArmStep h next where
  settings := settings
  armtestFlag := armtestFlag
  routeFinish := routeFinish
  circleFinish := circleFinish
  moves := .inr ⟨event, own, legal, log, agrees⟩
  waits := by
    intro stage grown
    obtain rfl : event = .leavesWait stage := by simpa [log] using grown
    exact absurd rfl (other stage)

/-- The waiting loop ends. -/
theorem ArmStep.leaves {h : Handshake} (agrees : h.Agrees)
    (token : h.view.token = .started .arm stage) (down : h.flag stage = false) :
    ArmStep h (h.record (.leavesWait stage)) where
  settings := rfl
  armtestFlag := rfl
  routeFinish := rfl
  circleFinish := rfl
  moves := .inr ⟨.leavesWait stage, rfl, token, rfl, agrees.record rfl⟩
  waits := by
    intro other grown
    obtain rfl : stage = other := by simpa using grown
    exact down

/-- Statements that leave the handshake alone keep every fact. -/
theorem ArmFact.silent (fact : ArmFact) {statement : Code} (inside : statement.Within Silent)
    (elsewhere : ∀ b, (fact.assertion careful).holds b → broken.holds b) :
    Triple (armContract careful) (fact.assertion careful) statement (fact.assertion careful)
      broken := by
  refine (Triple.within (fun b next holds _ same => ?_) inside).weaken (fun _ => id) (fun _ => id)
    elsewhere
  replace same : next.handshake = b.handshake := same
  constructor
  · change ArmStep b.handshake next.handshake
    rw [same]
    exact (armContract careful).idle b
  · change next.handshake.Agrees ∧ fact.holds next.handshake
    rw [same]
    exact holds

theorem arm_recv_triple : Triple (armContract careful) (waiting.assertion careful) (rtMbRecv .arm)
    (taken.assertion careful) broken := by
  refine Triple.act fun _ b next holds _ happens => ?_
  obtain ⟨agrees, action⟩ := holds
  have box := agrees.mbArm
  cases token : b.handshake.view.token with
  | posted party stage =>
    cases party with
    | arm =>
      simp only [token, Token.box, if_true] at box
      simp only [box, Option.some.injEq] at happens
      subst happens
      have reached : ({ b.handshake with mbArm := [], armMsg := stage }.record
          (.receives .arm stage)).view = b.handshake.view.after (.receives .arm stage) :=
        Handshake.view_snoc rfl
      have fine : ({ b.handshake with mbArm := [], armMsg := stage }.record
          (.receives .arm stage)).Agrees := by
        refine .of_event (h := b.handshake) (.receives .arm stage) rfl ?_ rfl ?_ ?_
        · simp [Protocol.after, Token.box, agrees.mbAuto, token]
        · simp [Protocol.after]
        · simp [Protocol.after]
      refine ⟨.event (.receives .arm stage) rfl rfl rfl rfl rfl ⟨token, action⟩ rfl fine (by simp),
        fine, ?_, stage, ?_⟩
      · exact reached ▸ action
      · exact reached ▸ rfl
    | auto => simp [box, token, Token.box] at happens
  | _ => simp [box, token, Token.box] at happens

theorem arm_starts_triple : Triple (armContract careful) ((selected stage).assertion careful)
    (mark (.starts .arm stage)) ((acting stage fun _ => True).assertion careful) broken := by
  refine Triple.update fun _ b holds _ => ?_
  obtain ⟨agrees, action, token⟩ := holds
  have fine : (b.handshake.record (.starts .arm stage)).Agrees := by
    refine .of_event (.starts .arm stage) rfl ?_ ?_ ?_ ?_
    · simp [Protocol.after, Token.box, agrees.mbAuto, token]
    · simp [Protocol.after, Token.box, agrees.mbArm, token]
    · simp [Protocol.after]
    · simp [Protocol.after]
  refine ⟨.event (.starts .arm stage) rfl rfl rfl rfl rfl ⟨token, action⟩ rfl fine (by simp), fine,
    ?_⟩
  have view := Handshake.view_record b.handshake (.starts .arm stage)
  exact ⟨view ▸ rfl, view ▸ rfl, trivial⟩

theorem arm_returns_triple : Triple (armContract careful) ((finishing stage).assertion careful)
    (mark (.returns .arm stage)) (waiting.assertion careful) broken := by
  refine Triple.update fun _ b holds _ => ?_
  obtain ⟨agrees, action⟩ := holds
  have fine := agrees.record (show (b.handshake.view.after (.returns .arm stage)).token = _ from rfl)
  refine ⟨.event (.returns .arm stage) rfl rfl rfl rfl rfl action rfl fine (by simp), fine, ?_⟩
  exact congrArg Protocol.action (Handshake.view_record b.handshake (.returns .arm stage))

/-- The answer hands the message back. -/
theorem answer_triple (below : stage < 7) :
    Triple (armContract careful) ((acting stage fun _ => True).assertion careful) (answer stage)
      ((finishing stage).assertion careful) broken := by
  have forget : ∀ b, ((acting stage fun _ => True).assertion careful).holds b →
      ((finishing stage).assertion careful).holds b := fun b holds => ⟨holds.1, holds.2.1⟩
  refine Triple.either (Triple.update fun _ b holds _ => ?_)
    (Triple.skip.weaken forget (fun _ => id) (fun _ => id))
  obtain ⟨agrees, action, token, -⟩ := holds
  have empty : b.handshake.mbAuto = [] := by simp [agrees.mbAuto, token, Token.box]
  have sent : rtMbSend b.handshake.mbAuto (stage + 1) = [stage + 1] := by
    simp [empty, rtMbSend, mailboxSize]
  have reached : ({ b.handshake with mbAuto := rtMbSend b.handshake.mbAuto (stage + 1) }.record
      (.posts .arm (stage + 1))).view = b.handshake.view.after (.posts .arm (stage + 1)) :=
    Handshake.view_snoc rfl
  have fine : ({ b.handshake with mbAuto := rtMbSend b.handshake.mbAuto (stage + 1) }.record
      (.posts .arm (stage + 1))).Agrees := by
    refine .of_event (h := b.handshake) (.posts .arm (stage + 1)) rfl ?_ ?_ ?_ ?_
    · simp [Protocol.after, Token.box, sent]
    · simp [Protocol.after, Token.box, agrees.mbArm, token]
    · simp [Protocol.after]
    · simp [Protocol.after]
  exact ⟨.event (.posts .arm (stage + 1)) rfl rfl rfl rfl rfl ⟨stage, rfl, below, token⟩ rfl fine
    (by simp), fine, (congrArg Protocol.action reached).trans action⟩

/-- `while(RouteFinish)` is left when the flag of the stage is down. -/
theorem waitRoute_triple {limits : Settings → Prop} {body : Code}
    (follows : ∀ s, limits s → ¬(stage = 2 ∧ s.circleDynFlag = true))
    (inside : body.Within Silent) :
    Triple (armContract careful) ((acting stage limits).assertion careful) (waitRoute stage body)
      ((acting stage limits).assertion careful) broken := by
  refine Triple.loop (fun input b holds _ => ?_) (ArmFact.silent _ inside fun _ => id)
  obtain ⟨agrees, action, token, fixed⟩ := holds
  cases up : b.handshake.routeFinish with
  | true =>
    simp only [if_true]
    exact ⟨(armContract careful).idle b, agrees, action, token, fixed⟩
  | false =>
    have down : b.handshake.flag stage = false := by
      simp [Handshake.flag, follows _ fixed, up]
    have view := Handshake.view_record b.handshake (.leavesWait stage)
    simp only [Bool.false_eq_true, if_false]
    exact ⟨.leaves agrees token down, agrees.record rfl, view ▸ action, view ▸ token, fixed⟩

/-- The waiting loop of `armaction2`, for either setting of `Circle_dynFlag`. -/
theorem waitSeesaw_triple :
    Triple (armContract careful) ((acting 2 fun _ => True).assertion careful) waitSeesaw
      ((acting 2 fun _ => True).assertion careful) broken := by
  have widen : ∀ value b, ((acting 2 (·.circleDynFlag = value)).assertion careful).holds b →
      ((acting 2 fun _ => True).assertion careful).holds b :=
    fun _ b holds => ⟨holds.1, holds.2.1, holds.2.2.1, trivial⟩
  have narrow : ∀ value b, ((acting 2 fun _ => True).assertion careful).holds b →
      b.handshake.settings.circleDynFlag = value →
      ((acting 2 (·.circleDynFlag = value)).assertion careful).holds b :=
    fun _ b holds fixed => ⟨holds.1, holds.2.1, holds.2.2.1, fixed⟩
  have prepare : ∀ height, (prepareSeesaw height).Within Silent := fun height =>
    ⟨within_assign fun _ => rfl, within_handFB _ _ _, within_handUD _ _, within_motor3 _, trivial⟩
  refine Triple.when (fun _ b holds _ on => narrow true b holds on)
    (fun _ b holds _ off => narrow false b holds off) ?_ ?_
  · refine (Triple.forever ?_).weaken (fun _ => id) (widen true) (fun _ => id)
    refine Triple.block_cons (ArmFact.silent _ (within_ifThen.mpr (prepare _)) fun _ => id) ?_
    refine Triple.block_cons Triple.skip ?_
    refine Triple.block_cons (Triple.ite ?_ Triple.leave Triple.skip) Triple.block_nil
    intro input b holds _
    obtain ⟨agrees, action, token, fixed⟩ := holds
    cases up : b.handshake.circleFinish with
    | true =>
      simp only [if_true, Bool.false_eq_true, if_false]
      exact ⟨(armContract careful).idle b, agrees, action, token, fixed⟩
    | false =>
      have down : b.handshake.flag 2 = false := by
        simp [Handshake.flag, show b.handshake.settings.circleDynFlag = true from fixed, up]
      have view := Handshake.view_record b.handshake (.leavesWait 2)
      simp only [Bool.false_eq_true, if_false, if_true]
      exact ⟨.leaves agrees token down, agrees.record rfl, view ▸ action, view ▸ token, fixed⟩
  · refine (waitRoute_triple ?_ ?_).weaken (fun _ => id) (widen false) (fun _ => id)
    · rintro s off ⟨-, on⟩
      simp [on] at off
    · exact ⟨within_ifThen.mpr (prepare _), trivial, trivial⟩

end Rules

section Actions

open ArmFact

variable {careful : Prop} {stage : Nat}

/-- A verified arm action. -/
abbrev Acts (careful : Prop) (stage : Nat) (action : Code) : Prop :=
  Triple (armContract careful) ((selected stage).assertion careful) action
    (waiting.assertion careful) (.any (armContract careful))

/-- The frame of the arm actions: only the waiting loop and the end touch the handshake. -/
theorem acts_armAction {setup work finish : List Code} {wait : Code}
    (before : (Stmt.block setup).Within Silent)
    (waits : Triple (armContract careful) ((acting stage fun _ => True).assertion careful) wait
      ((acting stage fun _ => True).assertion careful) (.any (armContract careful)))
    (silentWork : (Stmt.block work).Within Silent)
    (ends : Triple (armContract careful) ((acting stage fun _ => True).assertion careful)
      (Stmt.block finish) ((finishing stage).assertion careful) (.any (armContract careful))) :
    Acts careful stage (armAction stage setup wait work finish) := by
  refine Triple.block_cons arm_starts_triple ?_
  refine Triple.block_cons (ArmFact.silent _ before fun _ _ => trivial) ?_
  refine Triple.block_cons waits ?_
  refine Triple.block_cons (ArmFact.silent _ silentWork fun _ _ => trivial) ?_
  exact Triple.block_cons ends (Triple.block_cons arm_returns_triple Triple.block_nil)

/-- An action that answers, if its waiting loop is the plain one. -/
theorem acts_answering {setup work : List Code} {body : Code} {i : Fin 7} (below : stage < 7)
    (other : stage ≠ 2) (before : (Stmt.block setup).Within Silent)
    (inside : body.Within Silent) (silentWork : (Stmt.block work).Within Silent) :
    Acts careful stage
      (armAction stage setup (waitRoute stage body) work [answer stage, recordSegmentTime i]) := by
  refine acts_armAction before (waitRoute_triple (fun _ _ both => other both.1) inside) silentWork ?_
  refine Triple.block_cons (answer_triple below) (Triple.block_cons ?_ Triple.block_nil)
  exact ArmFact.silent _ (within_recordSegmentTime i) fun _ _ => trivial

theorem acts_armaction1 : Acts careful 1 armaction1 := by
  refine acts_answering (by decide) (by decide) ?_ ?_ ?_ <;> simp

theorem acts_armaction2 : Acts careful 2 armaction2 := by
  refine acts_armAction ?_ waitSeesaw_triple ?_ ?_
  · simp
  · simp
  · refine Triple.block_cons (answer_triple (by decide)) (Triple.block_cons ?_ Triple.block_nil)
    exact ArmFact.silent _ (within_recordSegmentTime 1) fun _ _ => trivial

theorem acts_armaction3 : Acts careful 3 armaction3 := by
  refine acts_answering (by decide) (by decide) ?_ ?_ ?_ <;> simp

theorem acts_armaction4 : Acts careful 4 armaction4 := by
  refine acts_answering (by decide) (by decide) ?_ ?_ ?_ <;> simp

theorem acts_armaction5 : Acts careful 5 armaction5 := by
  refine acts_answering (by decide) (by decide) ?_ ?_ ?_ <;> simp

theorem acts_armaction6 : Acts careful 6 armaction6 := by
  refine acts_answering (by decide) (by decide) ?_ ?_ ?_
  · simp
  · simp [prepareSwing]
  · simp [fireOffLater]

theorem acts_armaction7 : Acts careful 7 armaction7 := by
  refine acts_armAction ?_ (waitRoute_triple (fun _ _ both => by simp at both) ?_) ?_ ?_
  · simp
  · simp
  · simp
  · refine Triple.block_cons ?_ Triple.block_nil
    refine (ArmFact.silent (acting 7 fun _ => True) (within_recordSegmentTime 6)
      fun _ _ => trivial).weaken (fun _ => id) ?_ (fun _ => id)
    exact fun b holds => ⟨holds.1, holds.2.1⟩

/-- Every arm action of the table is verified. -/
theorem acts_armActions : ∀ entry ∈ armActions, Acts careful entry.1 entry.2 := by
  simp only [armActions, List.forall_mem_cons, List.not_mem_nil, false_implies, implies_true,
    and_true]
  exact ⟨acts_armaction1, acts_armaction2, acts_armaction3, acts_armaction4, acts_armaction5,
    acts_armaction6, acts_armaction7⟩

/-- The switch calls the arm action of the received stage. -/
theorem arm_switch_triple {table : List (Nat × Code)}
    (acts : ∀ entry ∈ table, Acts careful entry.1 entry.2) :
    Triple (armContract careful) (taken.assertion careful) (switch (·.armMsg) table)
      (waiting.assertion careful) (.any (armContract careful)) := by
  induction table with
  | nil =>
    have forget : ∀ b, (taken.assertion careful).holds b → (waiting.assertion careful).holds b :=
      fun b holds => ⟨holds.1, holds.2.1⟩
    exact Triple.skip.weaken forget (fun _ => id) (fun _ => id)
  | cons entry rest ih =>
    have tail := ih fun other member => acts other (List.mem_cons_of_mem _ member)
    refine Triple.when ?_ (fun _ _ holds _ _ => holds) (acts entry List.mem_cons_self) tail
    intro _ b holds _ selects
    obtain ⟨agrees, action, stage, token⟩ := holds
    have same : stage = entry.1 := by
      rw [← agrees.armMsg stage token]
      simpa using selects
    exact ⟨agrees, action, same ▸ token⟩

/-- The arm thread keeps its contract from its entry on. -/
theorem rtThreadEntryArm_triple :
    Triple (armContract careful) (waiting.assertion careful) rtThreadEntryArm
      (.any (armContract careful)) (.any (armContract careful)) := by
  refine Triple.forever ?_
  exact Triple.block_cons arm_recv_triple
    (Triple.block_cons (arm_switch_triple acts_armActions) Triple.block_nil)

end Actions

end BadmintonRobot.Mission
