import Mathlib.Data.List.Basic

/-!
# Threads of structured statements

A thread is a structured program over a shared state. Each action and each test is
one atomic step, so another thread can run between any two of them. What the outside
world shows at a step is its input. A test may change the state, as a receive in a
condition does, and an action may wait until its input or state lets it happen.
-/

namespace BadmintonRobot.Semantics

/-- A statement. `loop` tests before each turn and `leave` ends the nearest loop
around it. -/
inductive Stmt (Input State : Type) where
  | skip
  | act (effect : Input → State → Option State)
  | seq (first second : Stmt Input State)
  | ite (test : Input → State → Bool × State) (yes no : Stmt Input State)
  | loop (test : Input → State → Bool × State) (body : Stmt Input State)
  | leave

/-- What a thread has left to do: a statement that has not begun, or a loop whose
body is under way. -/
inductive Task (Input State : Type) where
  | run (statement : Stmt Input State)
  | again (test : Input → State → Bool × State) (body : Stmt Input State)

variable {Input State : Type}

namespace Stmt

/-- Statements in order. -/
def block : List (Stmt Input State) → Stmt Input State
  | [] => skip
  | first :: rest => seq first (block rest)

/-- An action that never waits. -/
def update (effect : Input → State → State) : Stmt Input State :=
  act fun input state => some (effect input state)

/-- A conditional on a condition without effect. -/
def when (condition : Input → State → Bool) (yes no : Stmt Input State) : Stmt Input State :=
  ite (fun input state => (condition input state, state)) yes no

/-- A loop on a condition without effect. -/
def whilst (condition : Input → State → Bool) (body : Stmt Input State) : Stmt Input State :=
  loop (fun input state => (condition input state, state)) body

/-- A loop that only `leave` ends. -/
def forever (body : Stmt Input State) : Stmt Input State :=
  whilst (fun _ _ => true) body

/-- Every action and test of the statement stays within a relation. -/
def Within (Effect : State → State → Prop) : Stmt Input State → Prop
  | skip => True
  | act effect => ∀ input state next, effect input state = some next → Effect state next
  | seq first second => first.Within Effect ∧ second.Within Effect
  | ite test yes no =>
    (∀ input state, Effect state (test input state).2) ∧ yes.Within Effect ∧ no.Within Effect
  | loop test body => (∀ input state, Effect state (test input state).2) ∧ body.Within Effect
  | leave => True

section Within

variable {Effect : State → State → Prop}

theorem Within.mono {More : State → State → Prop} {statement : Stmt Input State}
    (inside : statement.Within Effect) (more : ∀ state next, Effect state next → More state next) :
    statement.Within More := by
  induction statement with
  | skip => trivial
  | act effect => exact fun input state next happens => more _ _ (inside input state next happens)
  | seq first second ih_first ih_second => exact ⟨ih_first inside.1, ih_second inside.2⟩
  | ite test yes no ih_yes ih_no =>
    exact ⟨fun input state => more _ _ (inside.1 input state), ih_yes inside.2.1, ih_no inside.2.2⟩
  | loop test body ih => exact ⟨fun input state => more _ _ (inside.1 input state), ih inside.2⟩
  | leave => trivial

@[simp]
theorem within_skip : (skip : Stmt Input State).Within Effect := trivial

@[simp]
theorem within_leave : (leave : Stmt Input State).Within Effect := trivial

@[simp]
theorem within_block_nil : (block ([] : List (Stmt Input State))).Within Effect := trivial

@[simp]
theorem within_block_cons {first : Stmt Input State} {rest : List (Stmt Input State)} :
    (block (first :: rest)).Within Effect ↔ first.Within Effect ∧ (block rest).Within Effect :=
  Iff.rfl

theorem within_block {statements : List (Stmt Input State)} :
    (block statements).Within Effect ↔ ∀ statement ∈ statements, statement.Within Effect := by
  induction statements with
  | nil => simp
  | cons first rest ih => simp [ih]

theorem within_update {effect : Input → State → State} :
    (update effect).Within Effect ↔ ∀ input state, Effect state (effect input state) := by
  simp [update, Within]

@[simp]
theorem within_when [Std.Refl Effect] {condition : Input → State → Bool}
    {yes no : Stmt Input State} :
    (when condition yes no).Within Effect ↔ yes.Within Effect ∧ no.Within Effect := by
  simp [when, Within, Std.Refl.refl]

@[simp]
theorem within_whilst [Std.Refl Effect] {condition : Input → State → Bool}
    {body : Stmt Input State} :
    (whilst condition body).Within Effect ↔ body.Within Effect := by
  simp [whilst, Within, Std.Refl.refl]

end Within

end Stmt

/-- Leave the nearest loop that is under way. -/
def unwind : List (Task Input State) → List (Task Input State)
  | [] => []
  | .again _ _ :: rest => rest
  | .run _ :: rest => unwind rest

/-- One step of a thread. It has none when it has returned or waits. -/
def advance (input : Input) :
    List (Task Input State) → State → Option (List (Task Input State) × State)
  | [], _ => none
  | .run .skip :: rest, state => some (rest, state)
  | .run (.act effect) :: rest, state => (effect input state).map fun next => (rest, next)
  | .run (.seq first second) :: rest, state => some (.run first :: .run second :: rest, state)
  | .run (.ite test yes no) :: rest, state =>
    some (.run (if (test input state).1 then yes else no) :: rest, (test input state).2)
  | .run (.loop test body) :: rest, state =>
    some (if (test input state).1 then .run body :: .again test body :: rest else rest,
      (test input state).2)
  | .run .leave :: rest, state => some (unwind rest, state)
  | .again test body :: rest, state =>
    some (if (test input state).1 then .run body :: .again test body :: rest else rest,
      (test input state).2)

end BadmintonRobot.Semantics
