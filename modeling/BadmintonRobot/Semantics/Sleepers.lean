import Mathlib

/-!
# Threads that sleep

The threads that sleep stand in a list, each of them once. How many threads are in a state
of some kind is a census, which changes with the state of one thread by at most one.
-/

namespace BadmintonRobot.Semantics

variable {Thread State : Type}

section Census

variable [Fintype Thread] [DecidableEq Thread] (Kind : State → Prop) [DecidablePred Kind]

/-- The number of threads in a state of a kind. -/
def census (states : Thread → State) : Nat :=
  (Finset.univ.filter fun thread => Kind (states thread)).card

theorem census_update (states : Thread → State) (thread : Thread) (state : State) :
    census Kind (Function.update states thread state) + (if Kind (states thread) then 1 else 0) =
      census Kind states + if Kind state then 1 else 0 := by
  have others : ∀ other ∈ Finset.univ.erase thread,
      (if Kind (Function.update states thread state other) then 1 else 0) =
        if Kind (states other) then 1 else 0 := by
    intro other member
    rw [Function.update_of_ne (Finset.ne_of_mem_erase member)]
  simp only [census, Finset.card_filter]
  rw [← Finset.add_sum_erase _ _ (Finset.mem_univ thread), Finset.sum_congr rfl others,
    Function.update_self, ← Finset.add_sum_erase _ (fun other => if Kind (states other) then 1 else 0)
      (Finset.mem_univ thread)]
  omega

/-- A thread that changes between states of which both or neither are of the kind. -/
theorem census_update_same {states : Thread → State} {thread : Thread} {state : State}
    (same : Kind state ↔ Kind (states thread)) :
    census Kind (Function.update states thread state) = census Kind states := by
  have change := census_update Kind states thread state
  simp only [same] at change
  omega

theorem census_update_enter {states : Thread → State} {thread : Thread} {state : State}
    (before : ¬Kind (states thread)) (after : Kind state) :
    census Kind (Function.update states thread state) = census Kind states + 1 := by
  have change := census_update Kind states thread state
  rwa [if_neg before, if_pos after] at change

omit [DecidableEq Thread] in
theorem census_eq_zero {states : Thread → State} (none : ∀ thread, ¬Kind (states thread)) :
    census Kind states = 0 := by
  simp [census, none]

end Census

/-- The threads in a state of sleep are those of the list. -/
structure Sleepers (Asleep : State → Prop) (asleep : List Thread) (states : Thread → State) :
    Prop where
  nodup : asleep.Nodup
  mem_iff : ∀ thread, thread ∈ asleep ↔ Asleep (states thread)

namespace Sleepers

variable [DecidableEq Thread] {Asleep : State → Prop} {asleep after : List Thread}
  {states : Thread → State} {thread : Thread} {state : State}

theorem stay (sleepers : Sleepers Asleep asleep states)
    (same : Asleep state ↔ Asleep (states thread)) :
    Sleepers Asleep asleep (Function.update states thread state) := by
  refine ⟨sleepers.nodup, fun other => ?_⟩
  rw [sleepers.mem_iff]
  by_cases here : other = thread
  · subst here
    rw [Function.update_self, same]
  · rw [Function.update_of_ne here]

/-- A thread falls asleep. -/
theorem enter (sleepers : Sleepers Asleep asleep states) (awake : ¬Asleep (states thread))
    (sleeps : Asleep state) (joined : after.Perm (thread :: asleep)) :
    Sleepers Asleep after (Function.update states thread state) := by
  refine ⟨?_, fun other => ?_⟩
  · rw [joined.nodup_iff, List.nodup_cons, sleepers.mem_iff]
    exact ⟨awake, sleepers.nodup⟩
  · rw [joined.mem_iff, List.mem_cons, sleepers.mem_iff]
    by_cases here : other = thread
    · subst here
      simp [sleeps]
    · simp [here]

/-- A thread wakes up. -/
theorem leave (sleepers : Sleepers Asleep asleep states) (wakes : ¬Asleep state) :
    Sleepers Asleep (asleep.erase thread) (Function.update states thread state) := by
  refine ⟨sleepers.nodup.erase thread, fun other => ?_⟩
  rw [sleepers.nodup.mem_erase_iff, sleepers.mem_iff]
  by_cases here : other = thread
  · subst here
    simp [wakes]
  · simp [here]

/-- The first thread wakes up. -/
theorem wake (sleepers : Sleepers Asleep (thread :: asleep) states) (wakes : ¬Asleep state) :
    Sleepers Asleep asleep (Function.update states thread state) := by
  have left : Sleepers Asleep ((thread :: asleep).erase thread)
      (Function.update states thread state) := sleepers.leave wakes
  rwa [List.erase_cons_head] at left

end Sleepers

end BadmintonRobot.Semantics
