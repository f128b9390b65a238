import Mathlib
import BadmintonRobot.Joystick.Polling
import BadmintonRobot.Semantics.Inputs

/-!
# Joysticks at rest

With zero set-points, both joysticks centred and the robot on its heading, the joystick threads
keep the set-points at zero and call `SetSpeed` with zeros only. Each thread relies on the other
one for its own variables. The thread of the Y joystick also assumes that `Handle_Speed_X`
is zero, which the other thread writes.
-/

namespace BadmintonRobot.Joystick

open Semantics Control

variable {K : Type} [Field K] [LinearOrder K]

/-- The set-points are zero and the robot is driven with two joysticks. -/
structure Board.Zero (b : Board K) : Prop where
  speedX : b.shared.speedX = 0
  speedY : b.shared.speedY = 0
  speedRotation : b.shared.speedRotation = 0
  single : b.shared.single = false

/-- A call that does not move the chassis. -/
def Command.Still : Command K → Prop
  | .setSpeed _ x y rotation => x = 0 ∧ y = 0 ∧ rotation = 0
  | _ => True

/-- The two corrections of an angle in the heading hold. -/
def wrapDown (angle : K) : K := if angle > pi then angle - 2 * pi else angle

@[inherit_doc wrapDown]
def wrapUp (angle : K) : K := if angle < -pi then angle + 2 * pi else angle

/-- The heading hold finds nothing to correct. -/
def Level (radian : K) : Prop := abs' (wrapUp (wrapDown (0 - radian))) < 2 / 1000

/-- The variable through which a joystick reaches the thread of the other one. -/
def Board.handleSpeed (b : Board K) : Hand → K
  | .x => b.handleSpeedX
  | .y => b.handleSpeedY

/-- What a statement of a thread may do. -/
structure KeepsStill (which : Hand) (b next : Board K) : Prop where
  zero : b.Zero → next.Zero
  locals : next.locals which.other = b.locals which.other
  other : next.handleSpeed which.other = b.handleSpeed which.other
  own : b.handleSpeed which = 0 → next.handleSpeed which = 0
  commands : ∃ new, next.commands = b.commands ++ new ∧ ∀ command ∈ new, command.Still

/-- The thread relies on the others for its own variables, and it takes its steps while the
set-points are zero and the heading needs no correction. -/
def stillness (which : Hand) : Contract (Board K) where
  premise b := b.Zero ∧ Level b.shared.radian ∧ (which = .y → b.handleSpeedX = 0)
  rely b later := later.locals which = b.locals which ∧
    later.handleSpeed which = b.handleSpeed which
  guarantee := KeepsStill which
  idle _ := ⟨id, rfl, rfl, id, [], by simp⟩

/-- What a thread knows of its own variables. -/
def knows (which : Hand) (Facts : K → Locals K → Prop) : Assertion (stillness (K := K) which) where
  holds b := Facts (b.handleSpeed which) (b.locals which)
  stable b later holds relied := by
    rw [relied.1, relied.2]
    exact holds

/-- What a thread sees of a centred joystick. -/
abbrev Centred := { view : View // view.data = .centred }

/-- The thread has begun to read centred sticks. -/
structure Begun (which : Hand) (speed : K) (l : Locals K) : Prop where
  speed : speed = 0
  lr : which = .y → l.handleSpeedX2 = 0

/-- The thread has read centred sticks. -/
structure AtRest (which : Hand) (speed : K) (l : Locals K) : Prop where
  speed : speed = 0
  lr : which = .y → l.handleSpeedX2 = 0
  ud : l.handleSpeedY2 = 0
  turn : l.handleSpeedRotation = 0

section KeepsStill

variable {which : Hand} {b : Board K}

omit [LinearOrder K] in
theorem KeepsStill.assign (which : Hand) (b : Board K) (change : Locals K → Locals K) :
    KeepsStill which b (b.assign which change) where
  zero zero := ⟨zero.speedX, zero.speedY, zero.speedRotation, zero.single⟩
  locals := by cases which <;> rfl
  other := by cases which <;> rfl
  own := by cases which <;> exact id
  commands := ⟨[], by simp [Board.assign]⟩

omit [LinearOrder K] in
theorem KeepsStill.record (which : Hand) (b : Board K) {command : Command K}
    (still : command.Still) : KeepsStill which b (b.record command) where
  zero zero := ⟨zero.speedX, zero.speedY, zero.speedRotation, zero.single⟩
  locals := rfl
  other := by cases which <;> rfl
  own := by cases which <;> exact id
  commands := ⟨[command], rfl, by simpa using still⟩

omit [LinearOrder K] in
/-- A statement that stores in the variables of the sticks. -/
theorem KeepsStill.stick (which : Hand) (b : Board K) {x y : K}
    (other : (match which with | .x => y = b.handleSpeedY | .y => x = b.handleSpeedX))
    (own : b.handleSpeed which = 0 → (match which with | .x => x | .y => y) = 0) :
    KeepsStill which b { b with handleSpeedX := x, handleSpeedY := y } where
  zero zero := ⟨zero.speedX, zero.speedY, zero.speedRotation, zero.single⟩
  locals := rfl
  other := by cases which <;> exact other
  own := by cases which <;> exact own
  commands := ⟨[], by simp⟩

omit [LinearOrder K] in
/-- A statement that stores zeros in the set-points. -/
theorem KeepsStill.stop (which : Hand) (b : Board K) (x y : Bool) :
    KeepsStill which b { b with shared := { b.shared with
      speedX := if x then 0 else b.shared.speedX
      speedY := if y then 0 else b.shared.speedY
      speedRotation := 0 } } where
  zero zero := by
    constructor
    · simp [zero.speedX]
    · simp [zero.speedY]
    · rfl
    · exact zero.single
  locals := rfl
  other := by cases which <;> rfl
  own := by cases which <;> exact id
  commands := ⟨[], by simp⟩

omit [LinearOrder K] in
theorem stopAll_keepsStill (which hand : Hand) :
    (stopAll hand : Code K).Within (KeepsStill which) := by
  simp only [stopAll, Stmt.within_block, List.forall_mem_cons, Stmt.within_update]
  exact ⟨fun _ b => .stop which b true true, fun _ b => .record which b ⟨rfl, rfl, rfl⟩,
    fun _ b => .record which b trivial, fun _ b => .record which b trivial, by simp⟩

end KeepsStill

section Triple

variable {which : Hand} {F G : K → Locals K → Prop}

theorem deflection_centred :
    deflection HandleData.centred.ud = 0 ∧ deflection HandleData.centred.lr = 0 ∧
      deflection HandleData.centred.turn = 0 := by decide

/-- An assignment to a local variable. -/
theorem triple_assign {change : View → Board K → Locals K → Locals K}
    (step : ∀ (view : Centred) b, (stillness which).premise b →
      F (b.handleSpeed which) (b.locals which) →
        G (b.handleSpeed which) (change view.val b (b.locals which))) {broken} :
    Triple (stillness which) (knows which F)
      ((Stmt.update fun v b => b.assign which (change v b)).comap (Subtype.val : Centred → View))
      (knows which G) broken := by
  rw [comap_update]
  refine .update ?_
  intro view b holds premise
  refine ⟨.assign which b _, ?_⟩
  have reached := step view b premise holds
  cases which <;> simpa [knows, Board.assign, Board.handleSpeed] using reached

theorem triple_readSticks {broken} :
    Triple (stillness (K := K) which) (knows which (Begun which))
      ((readSticks which).comap (Subtype.val : Centred → View)) (knows which (AtRest which))
      broken := by
  rw [readSticks, comap_block]
  refine .block_cons (triple_assign
    (G := fun speed l => Begun which speed l ∧ l.handleSpeedY2 = 0) ?_) ?_
  · intro view b _ begun
    exact ⟨⟨begun.speed, begun.lr⟩, by simp [view.2, deflection_centred]⟩
  · refine .block_cons (triple_assign ?_) .block_nil
    intro view b _ facts
    exact ⟨facts.1.speed, facts.1.lr, facts.2, by simp [view.2, deflection_centred]⟩

/-- `fine` divides the variable of the thread. -/
theorem triple_setScale {fine : Board K → Board K}
    (fines : ∀ b, KeepsStill which b (fine b) ∧ (fine b).locals which = b.locals which) {broken} :
    Triple (stillness which) (knows which (AtRest which))
      ((setScale which fine).comap (Subtype.val : Centred → View)) (knows which (AtRest which))
      broken := by
  have speedM : ∀ value : Int, Triple (stillness which) (knows which (AtRest which))
      ((Stmt.update fun (_ : View) (b : Board K) =>
        b.assign which fun l => { l with speedM := value }).comap (Subtype.val : Centred → View))
      (knows which (AtRest which)) broken := by
    intro value
    refine triple_assign ?_
    intro view b _ facts
    exact ⟨facts.speed, facts.lr, facts.ud, facts.turn⟩
  rw [setScale, comap_when, comap_block]
  refine .either (.block_cons ?_ (.block_cons (speedM 150) .block_nil)) (speedM 500)
  rw [comap_update]
  refine .update ?_
  intro view b holds _
  obtain ⟨keeps, same⟩ := fines b
  refine ⟨keeps, ?_⟩
  change AtRest which ((fine b).handleSpeed which) ((fine b).locals which)
  rw [same]
  exact ⟨keeps.own holds.speed, holds.lr, holds.ud, holds.turn⟩

theorem triple_takeOver {alone : Board K → Board K}
    (calls : ∀ b, b.Zero → AtRest which (b.handleSpeed which) (b.locals which) →
      ∃ command, alone b = b.record command ∧ command.Still) {broken} :
    Triple (stillness which) (knows which (AtRest which))
      ((takeOver alone).comap (Subtype.val : Centred → View)) (knows which (AtRest which))
      broken := by
  have mode : ∀ onlyXY, Triple (stillness which) (knows which (AtRest which))
      ((Stmt.update fun (_ : View) (b : Board K) =>
        { b with onlyXY := onlyXY }).comap (Subtype.val : Centred → View))
      (knows which (AtRest which)) broken := by
    intro onlyXY
    refine .update ?_
    intro view b holds _
    refine ⟨⟨fun zero => ⟨zero.speedX, zero.speedY, zero.speedRotation, zero.single⟩, rfl, ?_, ?_,
      [], by simp⟩, ?_⟩
    · cases which <;> rfl
    · cases which <;> exact id
    · cases which <;> exact holds
  rw [takeOver, comap_block]
  refine .block_cons (.either (.block_cons (mode false) (.block_cons ?_ .block_nil)) .skip)
    (.block_cons (.either (mode true) .skip) .block_nil)
  refine .update ?_
  intro view b holds premise
  obtain ⟨command, call, still⟩ := calls b premise.1 holds
  simp only [call]
  refine ⟨.record which b still, ?_⟩
  cases which <;> exact holds

/-- The error of the heading is small once it has been wrapped. -/
structure Turned (wrap : K → K) (speed : K) (l : Locals K) : Prop where
  rest : AtRest .y speed l
  small : abs' (wrap l.errorAngleThis) < 2 / 1000

/-- A statement that wraps the error. -/
theorem triple_wrap (condition : K → Bool) (change before after : K → K)
    (wraps : ∀ angle, condition angle = true → before angle = after (change angle))
    (keeps : ∀ angle, condition angle = false → before angle = after angle) {broken} :
    Triple (stillness .y) (knows .y (Turned before))
      ((Stmt.when (fun (_ : View) (b : Board K) => condition (b.locals .y).errorAngleThis)
        (.update fun _ b =>
          b.assign .y fun l => { l with errorAngleThis := change l.errorAngleThis })
        .skip).comap (Subtype.val : Centred → View))
      (knows .y (Turned after)) broken := by
  have changed : Triple (stillness .y)
      (knows .y fun speed l => Turned before speed l ∧ condition l.errorAngleThis = true)
      ((Stmt.update fun (_ : View) (b : Board K) => b.assign .y fun l =>
        { l with errorAngleThis := change l.errorAngleThis }).comap
          (Subtype.val : Centred → View))
      (knows .y (Turned after)) broken := by
    refine triple_assign ?_
    intro view b _ facts
    obtain ⟨⟨rest, small⟩, outside⟩ := facts
    refine ⟨⟨rest.speed, rest.lr, rest.ud, rest.turn⟩, ?_⟩
    rw [wraps _ outside] at small
    exact small
  rw [comap_when, comap_skip]
  refine .when ?_ ?_ changed .skip
  · intro view b holds _ outside
    exact ⟨holds, outside⟩
  · intro view b holds _ inside
    refine ⟨holds.rest, ?_⟩
    rw [← keeps _ inside]
    exact holds.small

/-- The heading hold, which finds nothing to correct. -/
theorem triple_keepHeading (maths : Maths K) {broken} :
    Triple (stillness .y) (knows .y (AtRest .y))
      ((keepHeading maths).comap (Subtype.val : Centred → View)) (knows .y (AtRest .y))
      broken := by
  rw [keepHeading, comap_block]
  refine .block_cons (triple_assign (G := Turned fun angle => wrapUp (wrapDown angle)) ?_) ?_
  · intro view b premise rest
    exact ⟨⟨rest.speed, rest.lr, rest.ud, rest.turn⟩, premise.2.1⟩
  refine .block_cons (triple_wrap (fun angle : K => angle > pi) (fun angle => angle - 2 * pi) _
    wrapUp ?_ ?_) ?_
  · intro angle outside
    simp only [wrapDown, if_pos (of_decide_eq_true outside)]
  · intro angle inside
    simp only [wrapDown, if_neg (of_decide_eq_false inside)]
  refine .block_cons (triple_wrap (fun angle : K => angle < -pi) (fun angle => angle + 2 * pi) _
    id ?_ ?_) ?_
  · intro angle outside
    simp only [wrapUp, if_pos (of_decide_eq_true outside), id]
  · intro angle inside
    simp only [wrapUp, if_neg (of_decide_eq_false inside), id]
  refine .block_cons (?_ : Triple _ _ _ (knows .y (AtRest .y)) _) (.block_cons ?_ .block_nil)
  · -- the controller is not called
    refine .when (fun _ _ holds _ _ => holds) ?_ (.update ?_) .unreached
    · intro view b holds _ large
      exact absurd holds.small (of_decide_eq_false large)
    · intro view b holds _
      exact ⟨.stop .y b false false, holds.rest⟩
  · refine .update ?_
    intro view b holds premise
    have x := premise.2.2 rfl
    have y : b.handleSpeedY = 0 := holds.speed
    refine ⟨.record .y b ⟨?_, ?_, ?_⟩, holds⟩
    · simp [premise.1.speedX, x, y]
    · simp [premise.1.speedY, x, y]
    · simp [premise.1.speedRotation]

theorem triple_stopAll {broken} :
    Triple (stillness which) (knows which (AtRest which))
      ((Stmt.when (fun (v : View) (_ : Board K) => v.data.button6Up) (stopAll which)
        .skip).comap (Subtype.val : Centred → View)) (knows which (AtRest which)) broken := by
  rw [comap_when]
  refine .when ?_ (fun _ _ holds _ _ => holds) .unreached .skip
  intro view b _ _ pressed
  rw [view.2] at pressed
  exact absurd pressed (by decide)

/-- The work with a centred frame. -/
theorem triple_still (maths : Maths K) (which : Hand) :
    Triple (stillness which) (.any _) ((work maths which).comap (Subtype.val : Centred → View))
      (knows which (AtRest which)) (.any _) := by
  cases which with
  | x =>
    rw [work, workX, comap_block]
    refine .block_cons (?_ : Triple _ _ _ (knows .x (Begun .x)) _) ?_
    · refine .update ?_
      intro view b _ _
      have zero : ((deflection view.val.data.lr : Int) : K) = 0 := by
        simp [view.2, deflection_centred]
      exact ⟨.stick .x b rfl fun _ => zero, zero, nofun⟩
    refine .block_cons triple_readSticks (.block_cons (triple_setScale ?_)
      (.block_cons (triple_takeOver ?_) (.block_cons triple_stopAll .block_nil)))
    · intro b
      exact ⟨.stick .x b rfl fun (zero : b.handleSpeedX = 0) => by simp [zero], rfl⟩
    · intro b zero rest
      have lr : b.handleSpeedX = 0 := rest.speed
      refine ⟨_, rfl, ?_, ?_, ?_⟩
      · simp [zero.speedX, lr]
      · simp [zero.speedY, rest.ud]
      · simp [zero.speedRotation, rest.turn]
  | y =>
    rw [work, workY, comap_block]
    refine .block_cons (?_ : Triple _ _ _ (knows .y fun speed _ => speed = (0 : K)) _) ?_
    · refine .update ?_
      intro view b _ _
      have zero : ((deflection view.val.data.lr : Int) : K) = 0 := by
        simp [view.2, deflection_centred]
      exact ⟨.stick .y b rfl fun _ => zero, zero⟩
    refine .block_cons (triple_assign (G := Begun .y) ?_) ?_
    · intro view b _ zero
      exact ⟨zero, fun _ => by simp [view.2, deflection_centred]⟩
    refine .block_cons triple_readSticks (.block_cons (triple_setScale ?_)
      (.block_cons (triple_takeOver ?_) (.block_cons triple_stopAll (.block_cons ?_ .block_nil))))
    · intro b
      exact ⟨.stick .y b rfl fun (zero : b.handleSpeedY = 0) => by simp [zero], rfl⟩
    · intro b zero rest
      refine ⟨_, rfl, ?_, ?_, ?_⟩
      · simp [zero.speedX, rest.lr]
      · simp [zero.speedY, rest.ud]
      · simp [zero.speedRotation, rest.turn]
    · refine .when ?_ (fun _ _ holds _ _ => holds) .unreached (.either (triple_keepHeading maths)
        .skip)
      intro view b _ premise single
      exact absurd (premise.1.single.symm.trans single) Bool.false_ne_true

end Triple

end BadmintonRobot.Joystick
