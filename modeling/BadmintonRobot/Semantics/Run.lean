import Mathlib.Data.List.Induction

/-!
# Runs of a labelled transition system

A system is a relation between a state, a label and the next state; most systems
here come from a partial step function, in which a label that is not enabled has no
successor. A run takes labels one after another. Invariants are proved for one
step and carried to every run by the rules of this file.
-/

namespace BadmintonRobot.Semantics

variable {State Label : Type}

/-- The finite runs from a state, with their labels in the order taken. -/
inductive Steps (Step : State → Label → State → Prop) (start : State) :
    List Label → State → Prop where
  | refl : Steps Step start [] start
  | step {labels : List Label} {current next : State} {label : Label}
      (prior : Steps Step start labels current)
      (transition : Step current label next) :
      Steps Step start (labels ++ [label]) next

/-- The transitions of a step function. -/
def Takes (step : State → Label → Option State) (state : State) (label : Label)
    (next : State) : Prop :=
  step state label = some next

/-- The transitions of a step function that meet a condition on the state before
them. -/
def TakesWhen (condition : State → Label → Prop) (step : State → Label → Option State)
    (state : State) (label : Label) (next : State) : Prop :=
  condition state label ∧ step state label = some next

/-- A step function that refuses what does not meet a condition. -/
def guarded (condition : State → Label → Prop) [∀ state label, Decidable (condition state label)]
    (step : State → Label → Option State) (state : State) (label : Label) : Option State :=
  if condition state label then step state label else none

/-- Take a list of labels. -/
def run (step : State → Label → Option State) : State → List Label → Option State
  | state, [] => some state
  | state, label :: labels => (step state label).bind fun next => run step next labels

theorem run_append {step : State → Label → Option State} (first second : List Label)
    (state : State) :
    run step state (first ++ second) =
      (run step state first).bind fun next => run step next second := by
  induction first generalizing state with
  | nil => rfl
  | cons label labels ih => cases taken : step state label <;> simp [run, taken, ih]

section Splits

variable {P : List Label → Label → Prop} {labels : List Label} {label : Label}

/-- What holds for each label and those before it, when one more label is taken. -/
theorem forall_splits_snoc :
    (∀ earlier last later, labels ++ [label] = earlier ++ last :: later → P earlier last) ↔
      (∀ earlier last later, labels = earlier ++ last :: later → P earlier last) ∧
        P labels label := by
  constructor
  · intro each
    refine ⟨fun earlier last later split => ?_, each labels label [] rfl⟩
    exact each earlier last (later ++ [label]) (by rw [split, List.append_assoc, List.cons_append])
  · rintro ⟨each, final⟩ earlier last later split
    -- the last label is either behind the split or the one that is split off
    induction later using List.reverseRecOn with
    | nil =>
      obtain ⟨rfl, rfl⟩ := List.append_inj' split rfl |>.imp_right List.singleton_inj.mp
      exact final
    | append_singleton later _ _ =>
      rw [← List.cons_append, ← List.append_assoc] at split
      exact each earlier last later (List.append_inj' split rfl).1

/-- It holds as well for the labels at the front. -/
theorem forall_splits_front {front back : List Label} (split : labels = front ++ back)
    (each : ∀ earlier last later, labels = earlier ++ last :: later → P earlier last) :
    ∀ earlier last later, front = earlier ++ last :: later → P earlier last :=
  fun earlier last later within =>
    each earlier last (later ++ back) (by rw [split, within, List.append_assoc, List.cons_append])

end Splits

section Steps

variable {Step : State → Label → State → Prop} {start : State} {labels : List Label}
  {state : State}

/-- What holds at the start and is kept by each step holds after every run. -/
theorem Steps.invariant {Inv : State → Prop} (initial : Inv start)
    (preserved : ∀ current label next, Inv current → Step current label next → Inv next)
    (steps : Steps Step start labels state) : Inv state := by
  induction steps with
  | refl => exact initial
  | step _ transition ih => exact preserved _ _ _ ih transition

theorem Steps.trans {later : List Label} {final : State} (first : Steps Step start labels state)
    (second : Steps Step state later final) : Steps Step start (labels ++ later) final := by
  induction second with
  | refl => simpa using first
  | step _ transition ih => simpa [List.append_assoc] using ih.step transition

/-- A run without labels has not moved. -/
theorem Steps.eq_of_nil (steps : Steps Step start [] state) : state = start := by
  generalize none : ([] : List Label) = labels at steps
  cases steps with
  | refl => rfl
  | step _ _ => simp at none

theorem Steps.single {label : Label} (transition : Step start label state) :
    Steps Step start [label] state := by
  simpa using Steps.refl.step transition

/-- A run of one system is a run of every system with more transitions. -/
theorem Steps.mono {More : State → Label → State → Prop}
    (more : ∀ current label next, Step current label next → More current label next)
    (steps : Steps Step start labels state) : Steps More start labels state := by
  induction steps with
  | refl => exact .refl
  | step _ transition ih => exact ih.step (more _ _ _ transition)

/-- A run has a marked step, or it is a run without marked steps. -/
theorem Steps.exists_marked (Marked : State → Label → State → Prop)
    (steps : Steps Step start labels state) :
    (∃ before label after current next, labels = before ++ label :: after ∧
      Steps Step start before current ∧ Step current label next ∧ Marked current label next ∧
      Steps Step next after state) ∨
    Steps (fun current label next => Step current label next ∧ ¬Marked current label next) start
      labels state := by
  induction steps with
  | refl => exact .inr .refl
  | @step labels current next label prior transition ih =>
    rcases ih with ⟨before, first, after, one, other, rfl, steps, taken, marked, rest⟩ | unmarked
    · exact .inl ⟨before, first, after ++ [label], one, other, by simp, steps, taken, marked,
        rest.step transition⟩
    · by_cases marked : Marked current label next
      · exact .inl ⟨labels, label, [], current, next, rfl, prior, transition, marked, .refl⟩
      · exact .inr (unmarked.step ⟨transition, marked⟩)

/-- An invariant under which some step always lowers the rank until the goal is reached
leads to the goal. -/
theorem exists_steps_of_rank {Inv Goal : State → Prop} (rank : State → Nat)
    (progress : ∀ current, Inv current → Goal current ∨
      ∃ label next, Step current label next ∧ Inv next ∧ rank next < rank current)
    (initial : Inv start) :
    ∃ labels final, Steps Step start labels final ∧ Inv final ∧ Goal final := by
  generalize height : rank start = n
  induction n using Nat.strongRecOn generalizing start with
  | ind n ih =>
    rcases progress start initial with goal | ⟨label, next, transition, inv, lower⟩
    · exact ⟨[], start, .refl, initial, goal⟩
    · obtain ⟨labels, final, rest, reached⟩ := ih (rank next) (height ▸ lower) inv rfl
      exact ⟨[label] ++ labels, final, (Steps.single transition).trans rest, reached⟩

/-- Taking a list of labels that always meet the condition is a run under it. -/
theorem stepsWhen_of_run {condition : State → Label → Prop}
    {step : State → Label → Option State}
    (met : ∀ label ∈ labels, ∀ current, condition current label)
    (taken : run step start labels = some state) :
    Steps (TakesWhen condition step) start labels state := by
  induction labels generalizing start with
  | nil =>
    obtain rfl : start = state := by simpa [run] using taken
    exact .refl
  | cons label labels ih =>
    rw [run, Option.bind_eq_some_iff] at taken
    obtain ⟨next, transition, rest⟩ := taken
    have first : Steps (TakesWhen condition step) start [label] next :=
      .single ⟨met label (by simp) start, transition⟩
    exact first.trans (ih (fun other member => met other (by simp [member])) rest)

/-- Taking a list of labels is a run. -/
theorem steps_of_run {step : State → Label → Option State}
    (taken : run step start labels = some state) : Steps (Takes step) start labels state := by
  have unconditional : Steps (TakesWhen (fun _ _ => True) step) start labels state :=
    stepsWhen_of_run (fun _ _ _ => trivial) taken
  exact unconditional.mono fun _ _ _ transition => transition.2

/-- Taking a list of labels that are checked one by one is a run under the condition. -/
theorem stepsWhen_of_guarded {condition : State → Label → Prop}
    [∀ state label, Decidable (condition state label)] {step : State → Label → Option State}
    (taken : run (guarded condition step) start labels = some state) :
    Steps (TakesWhen condition step) start labels state := by
  refine (steps_of_run taken).mono ?_
  intro current label next transition
  simpa [Takes, TakesWhen, guarded] using transition

end Steps

end BadmintonRobot.Semantics
