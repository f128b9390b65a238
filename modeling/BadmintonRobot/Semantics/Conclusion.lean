import BadmintonRobot.Semantics.Thread

/-!
# What holds at the end of a statement

`Concludes` is the weakest precondition of a statement without loops under interference. The
other threads change the state within a relation, and the own steps that count are those within
another one: a step outside it ends the obligation. A thread that cannot end without
such a step is one whose weakest precondition of `False` holds.
-/

namespace BadmintonRobot.Semantics

variable {Input State : Type}

section Definition

variable (rely : State → State → Prop) (counts : Input → State → State → Prop)

/-- Whenever the statement ends, the goal holds. -/
def Stmt.Concludes : Stmt Input State → (State → Prop) → State → Prop
  | .skip, goal => fun state => ∀ input later, rely state later → counts input later later →
      goal later
  | .act effect, goal => fun state => ∀ input later next, rely state later →
      effect input later = some next → counts input later next → goal next
  | .seq first second, goal => first.Concludes (second.Concludes goal)
  | .ite test yes no, goal => fun state => ∀ input later, rely state later →
      counts input later (test input later).2 →
        if (test input later).1 then yes.Concludes goal (test input later).2
        else no.Concludes goal (test input later).2
  | .loop _ _, _ => fun _ => False
  | .leave, _ => fun _ => False

/-- Whenever the thread ends, the goal holds. -/
def Concludes : List (Task Input State) → (State → Prop) → State → Prop
  | [], goal => fun state => ∀ later, rely state later → goal later
  | .run statement :: rest, goal => statement.Concludes rely counts (Concludes rest goal)
  | .again _ _ :: _, _ => fun _ => False

/-- A predicate that the other threads keep. -/
def Kept (Holds : State → Prop) : Prop :=
  ∀ state later, Holds state → rely state later → Holds later

end Definition

variable {rely : State → State → Prop} {counts : Input → State → State → Prop}
  {goal Holds : State → Prop} {state : State}

section Steps

theorem Stmt.Concludes.later [IsTrans State rely] {statement : Stmt Input State} {later : State}
    (concludes : statement.Concludes rely counts goal state) (relied : rely state later) :
    statement.Concludes rely counts goal later := by
  have further : ∀ last, rely later last → rely state last :=
    fun last after => IsTrans.trans _ _ _ relied after
  induction statement generalizing goal with
  | skip => exact fun input last after => concludes input last (further last after)
  | act effect => exact fun input last next after => concludes input last next (further last after)
  | seq first second ih_first _ => exact ih_first concludes
  | ite test yes no => exact fun input last after => concludes input last (further last after)
  | loop test body => exact concludes
  | leave => exact concludes

/-- A step of the others. -/
theorem Concludes.other [IsTrans State rely] {tasks : List (Task Input State)} {later : State}
    (concludes : Concludes rely counts tasks goal state) (relied : rely state later) :
    Concludes rely counts tasks goal later := by
  cases tasks with
  | nil => exact fun last after => concludes last (IsTrans.trans _ _ _ relied after)
  | cons task rest =>
    cases task with
    | run statement => exact Stmt.Concludes.later concludes relied
    | again test body => exact concludes

/-- An own step that counts. -/
theorem Concludes.own [Std.Refl rely] {tasks rest : List (Task Input State)} {input : Input}
    {next : State} (concludes : Concludes rely counts tasks goal state)
    (taken : advance input tasks state = some (rest, next)) (counted : counts input state next) :
    Concludes rely counts rest goal next := by
  have now : rely state state := Std.Refl.refl state
  cases tasks with
  | nil => cases taken
  | cons task later =>
    cases task with
    | again test body => exact concludes.elim
    | run statement =>
      cases statement with
      | skip =>
        cases taken
        exact concludes input state now counted
      | act effect =>
        obtain ⟨_, happens, same⟩ := Option.map_eq_some_iff.mp taken
        cases same
        exact concludes input state next now happens counted
      | seq first second =>
        cases taken
        exact concludes
      | ite test yes no =>
        cases taken
        have reached := concludes input state now counted
        cases outcome : (test input state).1 with
        | true =>
          simp only [outcome, if_true] at reached ⊢
          exact reached
        | false =>
          simp only [outcome, if_false, Bool.false_eq_true] at reached ⊢
          exact reached
      | loop test body => exact concludes.elim
      | leave => exact concludes.elim

theorem Concludes.ended [Std.Refl rely] {state : State}
    (concludes : Concludes rely counts ([] : List (Task Input State)) goal state) : goal state :=
  concludes state (Std.Refl.refl state)

end Steps

section Rules

variable {first yes no : Stmt Input State} {rest : List (Stmt Input State)}

theorem concludes_block_cons
    (concludes : first.Concludes rely counts ((Stmt.block rest).Concludes rely counts goal) state) :
    (Stmt.block (first :: rest)).Concludes rely counts goal state :=
  concludes

theorem concludes_update {effect : Input → State → State} (kept : Kept rely Holds)
    (step : ∀ input state, Holds state → counts input state (effect input state) →
      goal (effect input state)) (holds : Holds state) :
    (Stmt.update effect).Concludes rely counts goal state := by
  intro input later next relied happens counted
  obtain rfl : effect input later = next := Option.some.inj happens
  exact step input later (kept _ _ holds relied) counted

theorem concludes_when {condition : Input → State → Bool} (kept : Kept rely Holds)
    (taken : ∀ input state, Holds state → counts input state state → condition input state = true →
      yes.Concludes rely counts goal state)
    (skipped : ∀ input state, Holds state → counts input state state →
      condition input state = false → no.Concludes rely counts goal state) (holds : Holds state) :
    (Stmt.when condition yes no).Concludes rely counts goal state := by
  intro input later relied counted
  have still := kept _ _ holds relied
  change if condition input later = true then yes.Concludes rely counts goal later
    else no.Concludes rely counts goal later
  split
  · next outcome => exact taken input later still counted outcome
  · next outcome => exact skipped input later still counted (Bool.eq_false_iff.mpr outcome)

end Rules

end BadmintonRobot.Semantics
