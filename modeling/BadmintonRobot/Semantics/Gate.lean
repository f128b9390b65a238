import BadmintonRobot.Semantics.RelyGuarantee

/-!
# What only happens behind a gate

A statement is gated if every step of it stays within a relation, except for the
branch that one conditional, the gate, takes when its test holds. A thread of gated
statements stays within the relation until the gate opens. With a gate that is no
conditional this says what all later steps of a thread do, whichever statements are
left of it.
-/

namespace BadmintonRobot.Semantics

variable {Input State : Type}

namespace Stmt

/-- Every action and test stays within a relation, but for what the gate guards. -/
def Gated (Effect : State → State → Prop) : Stmt Input State → Stmt Input State → Prop
  | skip, _ => True
  | act effect, _ => ∀ input state next, effect input state = some next → Effect state next
  | seq first second, gate => first.Gated Effect gate ∧ second.Gated Effect gate
  | ite test yes no, gate =>
    (∀ input state, Effect state (test input state).2) ∧
      (ite test yes no = gate ∨ yes.Gated Effect gate) ∧ no.Gated Effect gate
  | loop test body, gate =>
    (∀ input state, Effect state (test input state).2) ∧ body.Gated Effect gate
  | leave, _ => True

variable {gate : Stmt Input State} {Effect : State → State → Prop}

/-- A statement that stays within the relation is gated by anything. -/
theorem Within.gated {statement : Stmt Input State} (inside : statement.Within Effect) :
    statement.Gated Effect gate := by
  induction statement with
  | skip | leave => trivial
  | act effect => exact inside
  | seq first second ih_first ih_second => exact ⟨ih_first inside.1, ih_second inside.2⟩
  | ite test yes no ih_yes ih_no => exact ⟨inside.1, .inr (ih_yes inside.2.1), ih_no inside.2.2⟩
  | loop test body ih => exact ⟨inside.1, ih inside.2⟩

/-- With what the gate guards, all of a gated statement is within a larger relation. -/
theorem Gated.within {More : State → State → Prop} {statement : Stmt Input State}
    (inside : statement.Gated Effect gate)
    (more : ∀ state next, Effect state next → More state next)
    (guarded : ∀ test yes no, gate = .ite test yes no → yes.Within More) :
    statement.Within More := by
  induction statement with
  | skip | leave => trivial
  | act effect => exact fun input state next happens => more _ _ (inside input state next happens)
  | seq first second ih_first ih_second => exact ⟨ih_first inside.1, ih_second inside.2⟩
  | ite test yes no ih_yes ih_no =>
    refine ⟨fun input state => more _ _ (inside.1 input state), ?_, ih_no inside.2.2⟩
    rcases inside.2.1 with here | free
    · exact guarded test yes no here.symm
    · exact ih_yes free
  | loop test body ih => exact ⟨fun input state => more _ _ (inside.1 input state), ih inside.2⟩

end Stmt

/-- What is left of a gated statement. -/
def Task.Gated (Effect : State → State → Prop) (gate : Stmt Input State) :
    Task Input State → Prop
  | .run statement => statement.Gated Effect gate
  | .again test body => (Stmt.loop test body).Gated Effect gate

/-- What is left of a statement within a relation. -/
def Task.Within (Effect : State → State → Prop) : Task Input State → Prop
  | .run statement => statement.Within Effect
  | .again test body => (Stmt.loop test body).Within Effect

/-- The next step is the test of the gate, and the test holds. -/
def Opens (gate : Stmt Input State) (input : Input) (tasks : List (Task Input State))
    (state : State) : Prop :=
  ∃ test yes no rest, gate = .ite test yes no ∧ tasks = .run gate :: rest ∧
    (test input state).1 = true

variable {gate : Stmt Input State} {Effect : State → State → Prop} {input : Input}
  {tasks rest : List (Task Input State)} {state next : State}

/-- `skip` is no conditional, so it guards nothing. -/
theorem Task.gated_skip {task : Task Input State} :
    task.Gated Effect .skip ↔ task.Within Effect := by
  have free : ∀ statement : Stmt Input State,
      statement.Gated Effect .skip ↔ statement.Within Effect :=
    fun _ => ⟨fun inside => inside.within (fun _ _ => id) nofun, Stmt.Within.gated⟩
  cases task <;> exact free _

theorem unwind_suffix (tasks : List (Task Input State)) : unwind tasks <:+ tasks := by
  induction tasks with
  | nil => exact List.suffix_rfl
  | cons task rest ih =>
    cases task with
    | run statement => exact ih.trans (List.suffix_cons _ _)
    | again test body => exact List.suffix_cons _ _

/-- A loop that is entered or taken up again leaves gated tasks. -/
theorem gated_turn {test : Input → State → Bool × State} {body : Stmt Input State}
    (inside : (Stmt.loop test body).Gated Effect gate)
    (others : ∀ task ∈ rest, task.Gated Effect gate) :
    ∀ task ∈ (if (test input state).1 then .run body :: .again test body :: rest else rest),
      task.Gated Effect gate := by
  split
  · exact List.forall_mem_cons.mpr ⟨inside.2, List.forall_mem_cons.mpr ⟨inside, others⟩⟩
  · exact others

/-- A step of a gated thread opens the gate, or it stays within the relation and the
thread stays gated. -/
theorem gated_advance [Std.Refl Effect] (inside : ∀ task ∈ tasks, task.Gated Effect gate)
    (taken : advance input tasks state = some (rest, next)) :
    Opens gate input tasks state ∨
      Effect state next ∧ ∀ task ∈ rest, task.Gated Effect gate := by
  cases tasks with
  | nil => exact nomatch taken
  | cons task others =>
    obtain ⟨head, tail⟩ := List.forall_mem_cons.mp inside
    cases task with
    | again test body =>
      simp only [advance, Option.some.injEq, Prod.mk.injEq] at taken
      obtain ⟨rfl, rfl⟩ := taken
      exact .inr ⟨head.1 input state, gated_turn head tail⟩
    | run statement =>
      cases statement with
      | skip =>
        obtain ⟨rfl, rfl⟩ : others = rest ∧ state = next := by simpa [advance] using taken
        exact .inr ⟨Std.Refl.refl _, tail⟩
      | leave =>
        obtain ⟨rfl, rfl⟩ : unwind others = rest ∧ state = next := by simpa [advance] using taken
        exact .inr ⟨Std.Refl.refl _, fun task member =>
          tail task ((unwind_suffix others).subset member)⟩
      | act effect =>
        simp only [advance, Option.map_eq_some_iff, Prod.mk.injEq] at taken
        obtain ⟨_, happens, rfl, rfl⟩ := taken
        exact .inr ⟨head input state _ happens, tail⟩
      | seq first second =>
        obtain ⟨rfl, rfl⟩ : .run first :: .run second :: others = rest ∧ state = next := by
          simpa [advance] using taken
        exact .inr ⟨Std.Refl.refl _, List.forall_mem_cons.mpr
          ⟨head.1, List.forall_mem_cons.mpr ⟨head.2, tail⟩⟩⟩
      | ite test yes no =>
        simp only [advance, Option.some.injEq, Prod.mk.injEq] at taken
        obtain ⟨rfl, rfl⟩ := taken
        obtain ⟨tested, guarded, otherwise⟩ := head
        cases outcome : (test input state).1 with
        | false => exact .inr ⟨tested input state, List.forall_mem_cons.mpr ⟨otherwise, tail⟩⟩
        | true =>
          rcases guarded with rfl | free
          · exact .inl ⟨test, yes, no, others, rfl, rfl, outcome⟩
          · exact .inr ⟨tested input state, List.forall_mem_cons.mpr ⟨free, tail⟩⟩
      | loop test body =>
        simp only [advance, Option.some.injEq, Prod.mk.injEq] at taken
        obtain ⟨rfl, rfl⟩ := taken
        exact .inr ⟨head.1 input state, gated_turn head tail⟩

/-- A step of a thread whose statements stay within a relation. -/
theorem within_advance [Std.Refl Effect] (inside : ∀ task ∈ tasks, task.Within Effect)
    (taken : advance input tasks state = some (rest, next)) :
    Effect state next ∧ ∀ task ∈ rest, task.Within Effect := by
  have free : ∀ task ∈ tasks, task.Gated Effect .skip :=
    fun task member => Task.gated_skip.mpr (inside task member)
  rcases gated_advance free taken with ⟨test, yes, no, _, shape, -⟩ | ⟨kept, later⟩
  · exact nomatch shape
  · exact ⟨kept, fun task member => Task.gated_skip.mp (later task member)⟩

/-- An assertion that the relation keeps makes a thread within the relation safe. -/
theorem Assertion.safe_within [Std.Refl Effect] {contract : Contract State}
    (before : Assertion contract)
    (keeps : ∀ state next, before.holds state → contract.premise state → Effect state next →
      contract.guarantee state next ∧ before.holds next)
    (inside : ∀ task ∈ tasks, task.Within Effect) (initial : before.holds state) (count : Nat) :
    Safe contract count tasks state := by
  induction count generalizing tasks state with
  | zero => trivial
  | succ count ih =>
    constructor
    · intro next relied
      exact ih inside (before.stable _ _ initial relied)
    · intro input rest next premise taken
      obtain ⟨effect, later⟩ := within_advance inside taken
      obtain ⟨kept, holds⟩ := keeps state next initial premise effect
      exact ⟨kept, ih later holds⟩

section Leads

variable {Goal : State → Prop}

/-- Actions in order, without a test. -/
def Stmt.Straight : Stmt Input State → Prop
  | act _ => True
  | seq first second => first.Straight ∧ second.Straight
  | _ => False

/-- The statement reaches the goal by one of its actions before it makes a test. -/
def Stmt.Leads (Goal : State → Prop) : Stmt Input State → Prop
  | act effect => ∀ input state next, effect input state = some next → Goal next
  | seq first second => first.Leads Goal ∨ first.Straight ∧ second.Leads Goal
  | _ => False

/-- The thread reaches the goal by one of its actions before it makes a test. -/
def Leads (Goal : State → Prop) : List (Task Input State) → Prop
  | .run statement :: rest => statement.Leads Goal ∨ statement.Straight ∧ Leads Goal rest
  | _ => False

theorem Leads.advance (leads : Leads Goal tasks)
    (taken : advance input tasks state = some (rest, next)) : Goal next ∨ Leads Goal rest := by
  match tasks, leads with
  | .run (.act effect) :: others, leads =>
    simp only [Semantics.advance, Option.map_eq_some_iff, Prod.mk.injEq] at taken
    obtain ⟨_, happens, rfl, rfl⟩ := taken
    rcases leads with here | ⟨-, later⟩
    · exact .inl (here input state _ happens)
    · exact .inr later
  | .run (.seq first second) :: others, leads =>
    obtain ⟨rfl, rfl⟩ : .run first :: .run second :: others = rest ∧ state = next := by
      simpa [Semantics.advance] using taken
    rcases leads with (early | ⟨straight, late⟩) | ⟨⟨straight, straight'⟩, later⟩
    · exact .inr (.inl early)
    · exact .inr (.inr ⟨straight, .inl late⟩)
    · exact .inr (.inr ⟨straight, .inr ⟨straight', later⟩⟩)

end Leads

end BadmintonRobot.Semantics
