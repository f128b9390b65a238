import Mathlib.Order.WellFounded
import BadmintonRobot.Semantics.Run

/-!
# Infinite executions

An execution takes a step at every natural number. What happens in the end is proved
with a rank: if it never grows and always falls once more, the goal is reached.
Deterministic schedules give executions to instantiate such results.
-/

namespace BadmintonRobot.Semantics

variable {State Label : Type}

/-- An infinite run. -/
structure Execution (Step : State → Label → State → Prop) where
  state : Nat → State
  label : Nat → Label
  takes : ∀ n, Step (state n) (label n) (state (n + 1))

namespace Execution

section Progress

variable {Step : State → Label → State → Prop} {Rank : Type} [Preorder Rank]

private theorem rank_le_of_le {e : Execution Step} {rank : State → Rank}
    (keeps : ∀ n, rank (e.state (n + 1)) ≤ rank (e.state n)) {first last : Nat}
    (ordered : first ≤ last) : rank (e.state last) ≤ rank (e.state first) := by
  induction ordered with
  | refl => exact le_rfl
  | step _ ih => exact (keeps _).trans ih

/-- An invariant that leads to the goal or to a rank that is not higher, and under
which the rank falls again and again, reaches the goal. -/
theorem eventually [WellFoundedLT Rank] (e : Execution Step) (Inv Goal : State → Prop)
    (rank : State → Rank) (start : Inv (e.state 0))
    (keeps : ∀ n, Inv (e.state n) → Goal (e.state (n + 1)) ∨
      Inv (e.state (n + 1)) ∧ rank (e.state (n + 1)) ≤ rank (e.state n))
    (falls : (∀ n, Inv (e.state n)) → ∀ n, ∃ m, n ≤ m ∧
      (Goal (e.state (m + 1)) ∨ rank (e.state (m + 1)) < rank (e.state m))) :
    ∃ n, Goal (e.state n) := by
  by_contra never
  replace never : ∀ n, ¬Goal (e.state n) := not_exists.mp never
  have next : ∀ n, Inv (e.state n) →
      Inv (e.state (n + 1)) ∧ rank (e.state (n + 1)) ≤ rank (e.state n) :=
    fun n inv => (keeps n inv).resolve_left (never _)
  have always : ∀ n, Inv (e.state n) := by
    intro n
    induction n with
    | zero => exact start
    | succ n ih => exact (next n ih).1
  have falling : ∀ height n, rank (e.state n) = height → False := by
    intro height
    induction height using WellFoundedLT.induction with
    | ind height ih =>
      rintro n rfl
      obtain ⟨m, later, goal | lower⟩ := falls always n
      · exact never _ goal
      · have descends := rank_le_of_le (fun k => (next k (always k)).2) later
        exact ih _ (lower.trans_le descends) (m + 1) rfl
  exact falling _ 0 rfl

end Progress

section Schedules

variable {condition : State → Label → Prop} {step : State → Label → Option State}

/-- The states that a schedule goes through. It stays where its label is not enabled. -/
def follow (step : State → Label → Option State) (schedule : State → Label) (start : State) :
    Nat → State
  | 0 => start
  | n + 1 => (step (follow step schedule start n)
      (schedule (follow step schedule start n))).getD (follow step schedule start n)

/-- The invariant of a schedule whose labels are enabled and keep it. -/
theorem follow_invariant {schedule : State → Label} {start : State} (Inv : State → Prop)
    (initial : Inv start)
    (allowed : ∀ current, Inv current → condition current (schedule current) ∧
      ∃ next, step current (schedule current) = some next ∧ Inv next) (n : Nat) :
    Inv (follow step schedule start n) := by
  induction n with
  | zero => exact initial
  | succ n ih =>
    obtain ⟨-, next, taken, inv⟩ := allowed _ ih
    rw [follow, taken]
    exact inv

/-- A schedule whose labels are enabled and allowed under an invariant is an
execution. -/
def ofSchedule (schedule : State → Label) (start : State) (Inv : State → Prop)
    (initial : Inv start)
    (allowed : ∀ current, Inv current → condition current (schedule current) ∧
      ∃ next, step current (schedule current) = some next ∧ Inv next) :
    Execution (TakesWhen condition step) where
  state := follow step schedule start
  label n := schedule (follow step schedule start n)
  takes n := by
    obtain ⟨meets, next, taken, -⟩ := allowed _ (follow_invariant Inv initial allowed n)
    refine ⟨meets, ?_⟩
    rw [follow, taken]
    rfl

end Schedules

end Execution

end BadmintonRobot.Semantics
