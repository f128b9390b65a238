import BadmintonRobot.Semantics.RelyGuarantee

/-!
# Threads with restricted inputs

A contract says nothing about inputs. What holds only for some of them is proved for the
program that takes its inputs from the smaller type, whose steps are those of the original
program with these inputs.
-/

namespace BadmintonRobot.Semantics

variable {Input Other State : Type}

/-- The statement with its inputs given by other ones. -/
def Stmt.comap (f : Other → Input) : Stmt Input State → Stmt Other State
  | .skip => .skip
  | .act effect => .act fun input => effect (f input)
  | .seq first second => .seq (first.comap f) (second.comap f)
  | .ite test yes no => .ite (fun input => test (f input)) (yes.comap f) (no.comap f)
  | .loop test body => .loop (fun input => test (f input)) (body.comap f)
  | .leave => .leave

/-- The task with its inputs given by other ones. -/
def Task.comap (f : Other → Input) : Task Input State → Task Other State
  | .run statement => .run (statement.comap f)
  | .again test body => .again (fun input => test (f input)) (body.comap f)

variable (f : Other → Input)

@[simp] theorem comap_skip : (Stmt.skip : Stmt Input State).comap f = .skip := rfl

@[simp] theorem comap_update (effect : Input → State → State) :
    (Stmt.update effect).comap f = .update fun input => effect (f input) := rfl

@[simp] theorem comap_when (condition : Input → State → Bool) (yes no : Stmt Input State) :
    (Stmt.when condition yes no).comap f =
      .when (fun input => condition (f input)) (yes.comap f) (no.comap f) := rfl

@[simp] theorem comap_block (statements : List (Stmt Input State)) :
    (Stmt.block statements).comap f = .block (statements.map (Stmt.comap f)) := by
  induction statements with
  | nil => rfl
  | cons first rest ih => rw [Stmt.block, Stmt.comap, ih]; rfl

theorem within_comap {Effect : State → State → Prop} {statement : Stmt Input State}
    (inside : statement.Within Effect) : (statement.comap f).Within Effect := by
  induction statement with
  | skip => trivial
  | act effect => exact fun input => inside (f input)
  | seq first second ih_first ih_second => exact ⟨ih_first inside.1, ih_second inside.2⟩
  | ite test yes no ih_yes ih_no =>
    exact ⟨fun input => inside.1 (f input), ih_yes inside.2.1, ih_no inside.2.2⟩
  | loop test body ih => exact ⟨fun input => inside.1 (f input), ih inside.2⟩
  | leave => trivial

theorem unwind_comap (tasks : List (Task Input State)) :
    unwind (tasks.map (Task.comap f)) = (unwind tasks).map (Task.comap f) := by
  induction tasks with
  | nil => rfl
  | cons task rest ih =>
    cases task with
    | run statement => simpa [unwind, Task.comap] using ih
    | again test body => rfl

/-- The steps are those of the original program. -/
theorem advance_comap (input : Other) (tasks : List (Task Input State)) (state : State) :
    advance input (tasks.map (Task.comap f)) state =
      (advance (f input) tasks state).map (Prod.map (List.map (Task.comap f)) id) := by
  cases tasks with
  | nil => rfl
  | cons task rest =>
    cases task with
    | run statement =>
      cases statement with
      | skip => rfl
      | act effect =>
        cases happens : effect (f input) state <;>
          simp [Task.comap, Stmt.comap, advance, happens]
      | seq first second => rfl
      | ite test yes no =>
        cases outcome : (test (f input) state).1 <;>
          simp [Task.comap, Stmt.comap, advance, outcome]
      | loop test body =>
        cases outcome : (test (f input) state).1 <;>
          simp [Task.comap, Stmt.comap, advance, outcome]
      | leave => simp [Task.comap, Stmt.comap, advance, unwind_comap]
    | again test body =>
      cases outcome : (test (f input) state).1 <;>
        simp [Task.comap, advance, outcome]

variable {contract : Contract State} {tasks : List (Task Input State)} {state : State}

/-- An own step with an input of the smaller type. -/
theorem Stays.own_comap {input : Other} {rest : List (Task Input State)} {next : State}
    (stays : Stays contract (tasks.map (Task.comap f)) state) (premise : contract.premise state)
    (taken : advance (f input) tasks state = some (rest, next)) :
    contract.guarantee state next ∧ Stays contract (rest.map (Task.comap f)) next :=
  stays.own premise (by rw [advance_comap, taken]; rfl)

end BadmintonRobot.Semantics
