import Mathlib.Algebra.Order.Group.Nat
import Mathlib.Order.Basic

/-!
# The last descent of a sequence

A search that compares neighbours and keeps the last step that does not rise ends where
the sequence rises for good. That place is lowest among all later ones, and lowest of all
if the sequence never stops rising once it has risen.
-/

namespace BadmintonRobot.Numeric

variable {D : Type} [LinearOrder D]

/-- `place` is where the last step of `values` up to `count` that does not rise leads to,
or 0 if every step rises. -/
structure LastDescent (values : Nat → D) (count place : Nat) : Prop where
  le : place ≤ count
  descends : place = 0 ∨ values place ≤ values (place - 1)
  rises : ∀ j, place ≤ j → j < count → values j < values (j + 1)

/-- A sequence that has risen once rises at every later step. -/
def Valley (values : Nat → D) (count : Nat) : Prop :=
  ∀ i j, i ≤ j → j < count → values i < values (i + 1) → values j < values (j + 1)

namespace LastDescent

variable {values : Nat → D} {count place : Nat}

/-- No place after the last descent is lower. -/
theorem le_later (descent : LastDescent values count place) {j : Nat} (after : place ≤ j)
    (inside : j ≤ count) : values place ≤ values j := by
  induction j, after using Nat.le_induction with
  | base => exact le_refl _
  | succ j after ih => exact le_trans (ih (by omega)) (le_of_lt (descent.rises j after inside))

/-- Before the last descent a valley does not rise. -/
theorem le_earlier (descent : LastDescent values count place) (valley : Valley values count)
    {j : Nat} (before : j ≤ place) : values place ≤ values j := by
  have falls : ∀ i, i < place → values (i + 1) ≤ values i := by
    intro i earlier
    rcases descent.descends with zero | last
    · omega
    · by_contra rises
      have later := valley i (place - 1) (by omega) (by have := descent.le; omega)
        (lt_of_not_ge rises)
      rw [Nat.sub_add_cancel (by omega)] at later
      exact absurd last (not_le_of_gt later)
  have down : ∀ steps, steps ≤ place → values place ≤ values (place - steps) := by
    intro steps
    induction steps with
    | zero => exact fun _ => le_refl _
    | succ steps ih =>
      intro inside
      have step := falls (place - (steps + 1)) (by omega)
      rw [show place - (steps + 1) + 1 = place - steps by omega] at step
      exact le_trans (ih (by omega)) step
  have reached := down (place - j) (by omega)
  rwa [Nat.sub_sub_self before] at reached

/-- The last descent of a valley is its lowest place. -/
theorem lowest (descent : LastDescent values count place) (valley : Valley values count)
    {j : Nat} (inside : j ≤ count) : values place ≤ values j := by
  rcases Nat.le_total place j with after | before
  · exact descent.le_later after inside
  · exact descent.le_earlier valley before

end LastDescent

end BadmintonRobot.Numeric
