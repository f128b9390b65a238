import BadmintonRobot.Semantics.Thread
import Mathlib.Logic.Relation

/-!
# Statements that run to their end

A statement without loops that is not interrupted, with one input all the time, has a
result. The steps of its thread lead there.
-/

namespace BadmintonRobot.Semantics

variable {Input State : Type}

/-- The state at the end of a statement that nothing interrupts. Loops have no result. -/
def Stmt.result (input : Input) : Stmt Input State → State → Option State
  | .skip, state => some state
  | .act effect, state => effect input state
  | .seq first second, state => (first.result input state).bind (second.result input)
  | .ite test yes no, state =>
    if (test input state).1 then yes.result input (test input state).2
    else no.result input (test input state).2
  | .loop _ _, _ => none
  | .leave, _ => none

section Result

variable {input : Input} {state final : State}

@[simp] theorem result_skip : (Stmt.skip : Stmt Input State).result input state = some state := rfl

@[simp] theorem result_block_nil :
    (Stmt.block ([] : List (Stmt Input State))).result input state = some state := rfl

@[simp] theorem result_block_cons {first : Stmt Input State} {rest : List (Stmt Input State)} :
    (Stmt.block (first :: rest)).result input state =
      (first.result input state).bind ((Stmt.block rest).result input) := rfl

@[simp] theorem result_update {effect : Input → State → State} :
    (Stmt.update effect).result input state = some (effect input state) := rfl

@[simp] theorem result_when {condition : Input → State → Bool} {yes no : Stmt Input State} :
    (Stmt.when condition yes no).result input state =
      if condition input state then yes.result input state else no.result input state := rfl

/-- One step of a thread with a given input. -/
def Moves (input : Input) (before after : List (Task Input State) × State) : Prop :=
  advance input before.1 before.2 = some after

/-- The thread reaches the result and what comes after the statement. -/
theorem moves_of_result {statement : Stmt Input State}
    (ends : statement.result input state = some final) (rest : List (Task Input State)) :
    Relation.ReflTransGen (Moves input) (.run statement :: rest, state) (rest, final) := by
  induction statement generalizing state final rest with
  | skip =>
    obtain rfl : state = final := by simpa using ends
    exact .single rfl
  | act effect =>
    have happens : effect input state = some final := ends
    exact .single (by simp [Moves, advance, happens])
  | seq first second ih_first ih_second =>
    obtain ⟨middle, left, right⟩ := Option.bind_eq_some_iff.mp ends
    have enter : Moves input (.run (.seq first second) :: rest, state)
        (.run first :: .run second :: rest, state) := rfl
    exact .head enter ((ih_first left _).trans (ih_second right rest))
  | ite test yes no ih_yes ih_no =>
    have enter : Moves input (.run (.ite test yes no) :: rest, state)
        (.run (if (test input state).1 then yes else no) :: rest, (test input state).2) := rfl
    cases outcome : (test input state).1 with
    | true =>
      rw [Stmt.result, outcome, if_pos rfl] at ends
      rw [outcome, if_pos rfl] at enter
      exact .head enter (ih_yes ends rest)
    | false =>
      rw [Stmt.result, outcome, if_neg Bool.false_ne_true] at ends
      rw [outcome, if_neg Bool.false_ne_true] at enter
      exact .head enter (ih_no ends rest)
  | loop test body => cases ends
  | leave => cases ends

end Result

end BadmintonRobot.Semantics
