import Mathlib
import BadmintonRobot.Joystick.LostStop
import BadmintonRobot.Semantics.Inputs

/-!
# Who writes the set-points

The path follower stores the speeds of the robot in `Speed_X`, `Speed_Y` and
`Speed_Rotation`, and the joystick threads add to them what the sticks say. While both
joysticks are alive and no stop button is pressed, the threads leave `Speed_X` and `Speed_Y`
to the path follower. `Speed_Rotation` is also the variable in which the heading hold
of the Y joystick stores its correction.
-/

namespace BadmintonRobot.Joystick

open Semantics Control

variable {K : Type} [Field K]

/-- The calls that a thread makes, with the set-points and the joystick terms in them. -/
inductive Adds (maths : Maths K) (b : Board K) : Hand → Command K → Prop where
  | takeOverX : Adds maths b .x (.setSpeed .x (b.shared.speedX + b.handleSpeedX)
      (b.shared.speedY + (b.locals .x).handleSpeedY2)
      (b.shared.speedRotation + (b.locals .x).handleSpeedRotation))
  | takeOverY : Adds maths b .y (.setSpeed .y (b.shared.speedX + (b.locals .y).handleSpeedX2)
      (b.shared.speedY + (b.locals .y).handleSpeedY2)
      (b.shared.speedRotation + (b.locals .y).handleSpeedRotation))
  | alone : Adds maths b .y (.setSpeed .y (b.locals .y).nowspeedX (b.locals .y).nowspeedY
      (-2 * b.shared.speedRotation))
  | heading : Adds maths b .y (.setSpeed .y
      (b.shared.speedX + b.handleSpeedX * maths.cos b.shared.radian +
        b.handleSpeedY * maths.sin b.shared.radian)
      (b.shared.speedY + b.handleSpeedY * maths.cos b.shared.radian -
        b.handleSpeedX * maths.sin b.shared.radian)
      (-b.shared.speedRotation))
  | fan (x y : K) : Adds maths b .y (.fanAccelerate x y)

/-- What a statement of a thread may do to the set-points and with them. -/
structure Owned (maths : Maths K) (which : Hand) (b next : Board K) : Prop where
  speedX : next.shared.speedX = b.shared.speedX
  speedY : next.shared.speedY = b.shared.speedY
  rotation : next.shared.speedRotation = b.shared.speedRotation ∨
    which = .y ∧ (next.shared.speedRotation = 0 ∨
      next.shared.speedRotation = (b.locals .y).voutAa)
  nowspeedX : (next.locals .y).nowspeedX = (b.locals .y).nowspeedX ∨
    (next.locals .y).nowspeedX = b.shared.speedX + b.handleSpeedX
  nowspeedY : (next.locals .y).nowspeedY = (b.locals .y).nowspeedY ∨
    (next.locals .y).nowspeedY = b.shared.speedY + b.handleSpeedY
  calls : next.commands = b.commands ∨
    ∃ command, Adds maths b which command ∧ next.commands = b.commands ++ [command]

namespace Owned

variable {maths : Maths K} {which : Hand} {b next : Board K}

theorem refl (maths : Maths K) (which : Hand) (b : Board K) : Owned maths which b b :=
  ⟨rfl, rfl, .inl rfl, .inl rfl, .inl rfl, .inl rfl⟩

instance : Std.Refl (Owned maths which) := ⟨refl maths which⟩

/-- A statement that computes with the other variables only. -/
theorem assign (which : Hand) {change : Locals K → Locals K} (hand : Hand)
    (x : (change (b.locals hand)).nowspeedX = (b.locals hand).nowspeedX)
    (y : (change (b.locals hand)).nowspeedY = (b.locals hand).nowspeedY) :
    Owned maths which b (b.assign hand change) := by
  refine ⟨rfl, rfl, .inl rfl, .inl ?_, .inl ?_, .inl rfl⟩
  · cases hand <;> simp [Board.assign, x]
  · cases hand <;> simp [Board.assign, y]

theorem record {command : Command K} (adds : Adds maths b which command) :
    Owned maths which b (b.record command) :=
  ⟨rfl, rfl, .inl rfl, .inl rfl, .inl rfl, .inr ⟨command, adds, rfl⟩⟩

end Owned

section Within

variable (maths : Maths K) (which : Hand)

theorem readSticks_within : (readSticks which).Within (Owned maths which) := by
  simp only [readSticks, Stmt.within_block, List.forall_mem_cons, Stmt.within_update]
  exact ⟨fun _ _ => .assign _ _ rfl rfl, fun _ _ => .assign _ _ rfl rfl, by simp⟩

theorem setScale_within {fine : Board K → Board K} (fines : ∀ b, Owned maths which b (fine b)) :
    (setScale which fine).Within (Owned maths which) := by
  simp only [setScale, Stmt.within_when, Stmt.within_block, List.forall_mem_cons,
    Stmt.within_update]
  exact ⟨⟨fun _ b => fines b, fun _ _ => .assign _ _ rfl rfl, by simp⟩,
    fun _ _ => .assign _ _ rfl rfl⟩

theorem takeOver_within {alone : Board K → Board K}
    (calls : ∀ b, Owned maths which b (alone b)) :
    (takeOver alone).Within (Owned maths which) := by
  simp only [takeOver, Stmt.within_when, Stmt.within_block, List.forall_mem_cons,
    Stmt.within_update, Stmt.within_skip]
  have mode : ∀ b : Board K, ∀ onlyXY, Owned maths which b { b with onlyXY := onlyXY } :=
    fun _ _ => ⟨rfl, rfl, .inl rfl, .inl rfl, .inl rfl, .inl rfl⟩
  exact ⟨⟨⟨fun _ b => mode b _, fun _ b => calls b, by simp⟩, trivial⟩,
    ⟨fun _ b => mode b _, trivial⟩, by simp⟩

variable [LinearOrder K]

theorem limitChange_within : limitChange.Within (Owned maths .y) := by
  have last : ∀ (b : Board K) (x y : K),
      Owned maths .y b { b with lastspeedX := x, lastspeedY := y } :=
    fun _ _ _ => ⟨rfl, rfl, .inl rfl, .inl rfl, .inl rfl, .inl rfl⟩
  simp only [limitChange, Stmt.within_when, Stmt.within_block, List.forall_mem_cons,
    Stmt.within_update]
  exact ⟨⟨fun _ b => last b _ _, fun _ b => last b _ _, by simp⟩,
    ⟨fun _ b => last b _ _, fun _ b => last b _ _, by simp⟩,
    fun _ b => last b _ _, fun _ b => last b _ _, by simp⟩

theorem driveAlone_within : (driveAlone maths).Within (Owned maths .y) := by
  have stick : ∀ (b : Board K) (x : K), Owned maths .y b { b with handleSpeedX := x } :=
    fun _ _ => ⟨rfl, rfl, .inl rfl, .inl rfl, .inl rfl, .inl rfl⟩
  simp only [driveAlone, Stmt.within_when, Stmt.within_block, List.forall_mem_cons,
    Stmt.within_update, Stmt.within_skip, and_true]
  refine ⟨fun _ b => stick b _, fun _ b => stick b _, ?_, ?_, limitChange_within maths, ?_, ?_,
    by simp⟩
  · intro _ b
    exact ⟨rfl, rfl, .inl rfl, .inr (by simp [Board.assign]), .inl (by simp [Board.assign]),
      .inl rfl⟩
  · intro _ b
    exact ⟨rfl, rfl, .inl rfl, .inl (by simp [Board.assign]), .inr (by simp [Board.assign]),
      .inl rfl⟩
  · intro _ b
    exact ⟨rfl, rfl, .inl rfl, .inl rfl, .inl rfl, .inr ⟨_, .fan _ _, rfl⟩⟩
  · intro _ b
    exact .record .alone

theorem keepHeading_within : (keepHeading maths).Within (Owned maths .y) := by
  simp only [keepHeading, Stmt.within_when, Stmt.within_block, List.forall_mem_cons,
    Stmt.within_update, Stmt.within_skip, and_true]
  refine ⟨fun _ _ => .assign _ _ rfl rfl, fun _ _ => .assign _ _ rfl rfl,
    fun _ _ => .assign _ _ rfl rfl, ⟨?_, ?_, ?_, by simp⟩, ?_, by simp⟩
  · intro _ b
    exact ⟨rfl, rfl, .inr ⟨rfl, .inl rfl⟩, .inl rfl, .inl rfl, .inl rfl⟩
  · intro _ b
    exact ⟨rfl, rfl, .inl rfl, .inl (by simp [Board.assign]), .inl (by simp [Board.assign]),
      .inl rfl⟩
  · intro _ b
    exact ⟨rfl, rfl, .inr ⟨rfl, .inr rfl⟩, .inl rfl, .inl rfl, .inl rfl⟩
  · intro _ b
    exact .record .heading

end Within

section Triple

variable (maths : Maths K)

/-- Whatever the others do, a thread does not write the set-points of the path follower. -/
def owning (which : Hand) : Contract (Board K) where
  premise _ := True
  rely _ _ := True
  guarantee := Owned maths which
  idle := .refl maths which

/-- What a thread sees while its stop button is not pressed. -/
abbrev Calm := { view : View // view.data.button6Up = false }

variable {maths} {which : Hand}

theorem triple_of_within {code : Code K} (inside : code.Within (Owned maths which)) :
    Triple (owning maths which) (.any _) (code.comap (Subtype.val : Calm → View)) (.any _)
      (.any _) :=
  .within (fun _ _ _ _ owned => ⟨owned, trivial⟩) (within_comap _ inside)

theorem triple_stop :
    Triple (owning maths which) (.any _) ((Stmt.when (fun v _ => v.data.button6Up)
      (stopAll which) .skip).comap (Subtype.val : Calm → View)) (.any _) (.any _) := by
  rw [comap_when]
  refine .when ?_ (fun _ _ _ _ _ => trivial) .unreached .skip
  intro view _ _ _ pressed
  exact absurd (view.2.symm.trans pressed) Bool.false_ne_true

theorem triple_work [LinearOrder K] :
    Triple (owning maths which) (.any _)
      ((work maths which).comap (Subtype.val : Calm → View)) (.any _) (.any _) := by
  have stick : ∀ (which : Hand) (b : Board K) (x y : K),
      Owned maths which b { b with handleSpeedX := x, handleSpeedY := y } :=
    fun _ _ _ _ => ⟨rfl, rfl, .inl rfl, .inl rfl, .inl rfl, .inl rfl⟩
  cases which with
  | x =>
    rw [work, workX, comap_block]
    refine .block_cons (triple_of_within (Stmt.within_update.mpr fun _ b => stick .x b _ _)) ?_
    refine .block_cons (triple_of_within (readSticks_within maths .x)) ?_
    refine .block_cons (triple_of_within (setScale_within maths .x fun b => stick .x b _ _)) ?_
    refine .block_cons (triple_of_within (takeOver_within maths .x fun _ => .record .takeOverX)) ?_
    exact .block_cons triple_stop .block_nil
  | y =>
    rw [work, workY, comap_block]
    refine .block_cons (triple_of_within (Stmt.within_update.mpr fun _ b => stick .y b _ _)) ?_
    refine .block_cons (triple_of_within
      (Stmt.within_update.mpr fun _ _ => .assign _ _ rfl rfl)) ?_
    refine .block_cons (triple_of_within (readSticks_within maths .y)) ?_
    refine .block_cons (triple_of_within (setScale_within maths .y fun b => stick .y b _ _)) ?_
    refine .block_cons (triple_of_within (takeOver_within maths .y fun _ => .record .takeOverY)) ?_
    refine .block_cons triple_stop (.block_cons ?_ .block_nil)
    refine triple_of_within (Stmt.within_when.mpr ⟨driveAlone_within maths, ?_⟩)
    exact Stmt.within_when.mpr ⟨keepHeading_within maths, trivial⟩

end Triple

section Run

variable [LinearOrder K] {maths : Maths K}

/-- Both joysticks are alive and no stop button is pressed. -/
def Attended (s : Cockpit K) (_ : Label K) : Prop :=
  ∀ which, (s.hand which).timeFlag ≠ 0 ∧ (s.hand which).data.button6Up = false

instance (s : Cockpit K) (label : Label K) : Decidable (Attended s label) :=
  decidable_of_iff (((s.hand .x).timeFlag ≠ 0 ∧ (s.hand .x).data.button6Up = false) ∧
      (s.hand .y).timeFlag ≠ 0 ∧ (s.hand .y).data.button6Up = false) <| by
    constructor
    · rintro ⟨x, y⟩ (_ | _)
      · exact x
      · exact y
    · exact fun both => ⟨both .x, both .y⟩

/-- A thread that is not in the middle of a frame. -/
def Handle.Between (h : Handle K) : Prop := ∀ tasks lost, h.pc ≠ .busy tasks lost

/-- A thread in the middle of a frame leaves the set-points to the path follower. -/
def Tended (maths : Maths K) (s : Cockpit K) : Prop :=
  ∀ which tasks lost, (s.hand which).pc = .busy tasks lost →
    Stays (owning maths which) (tasks.map (Task.comap (Subtype.val : Calm → View))) s.board

/-- The same for one thread. -/
def Tends (maths : Maths K) (b : Board K) (which : Hand) (h : Handle K) : Prop :=
  ∀ tasks lost, h.pc = .busy tasks lost →
    Stays (owning maths which) (tasks.map (Task.comap (Subtype.val : Calm → View))) b

/-- A statement of a thread. -/
theorem Tended.thread {s next : Cockpit K} {which : Hand} {late : Nat} (tended : Tended maths s)
    (flag : (s.hand which).timeFlag ≠ 0) (calm : (s.hand which).data.button6Up = false)
    (taken : s.advance maths which late = some next) :
    Owned maths which s.board next.board ∧ Tended maths next := by
  cases Cockpit.threadStep_of_advance taken with
  | own h idle advanced =>
    refine ⟨.refl _ _ _, ?_⟩
    refine Cockpit.forall_put_hand (P := Tends maths s.board) ?_ fun third _ => tended third
    intro tasks lost busy
    rcases Handle.busy_of_advance advanced busy with ⟨-, rfl, -⟩ | ⟨zero, -⟩
    · exact triple_work.stays trivial
    · exact absurd zero flag
  | work task tasks rest lost board pc advanced =>
    let view : Calm := ⟨s.view which, calm⟩
    have seen : Semantics.advance view.val (task :: tasks) s.board = some (rest, board) := advanced
    have own := (tended which _ _ pc).own_comap Subtype.val trivial seen
    refine ⟨own.1, ?_⟩
    refine Cockpit.forall_put_hand (P := Tends maths board) ?_ ?_
    · intro others gone busy
      cases busy
      exact own.2
    · exact fun third _ others gone busy => (tended third others gone busy).other trivial

theorem Tended.step {s next : Cockpit K} {label : Label K} (tended : Tended maths s)
    (step : TakesWhen Attended (Cockpit.step maths) s label next) : Tended maths next := by
  obtain ⟨attended, taken⟩ := step
  cases label with
  | thread which late => exact (tended.thread (attended which).1 (attended which).2 taken).2
  | tick =>
    rw [← Option.some.inj taken]
    exact fun which tasks lost busy => tended which tasks lost busy
  | receive which data =>
    intro third tasks lost busy
    rw [Cockpit.pc_of_receive taken] at busy
    rw [← Option.some.inj taken]
    exact tended third tasks lost busy
  | outside shared =>
    rw [← Option.some.inj taken]
    exact fun which tasks lost busy => (tended which tasks lost busy).other trivial

theorem Tended.steps {start s : Cockpit K} {labels : List (Label K)}
    (between : ∀ which, (start.hand which).Between)
    (steps : Steps (TakesWhen Attended (Cockpit.step maths)) start labels s) : Tended maths s := by
  refine steps.invariant ?_ fun _ _ _ tended => tended.step
  exact fun which tasks lost busy => absurd busy (between which tasks lost)

end Run

/-- A robot with the heading 1. -/
def turnedBoard : Board ℚ :=
  { stillBoard with shared := { stillBoard.shared with radian := 1 } }

end BadmintonRobot.Joystick
