import Mathlib.Data.List.Nodup

/-!
# Linked lists

Cells that are linked by a partial function. The cells from a link on are a list, which
depends on no other links than theirs.
-/

namespace BadmintonRobot.Semantics

variable {Cell : Type}

/-- The cells from a link to the end. -/
def Linked (next : Cell → Option Cell) : Option Cell → List Cell → Prop
  | link, [] => link = none
  | link, cell :: cells => link = some cell ∧ Linked next (next cell) cells

namespace Linked

variable {next other : Cell → Option Cell} {link : Option Cell} {cells : List Cell}

theorem congr (linked : Linked next link cells) (same : ∀ cell ∈ cells, other cell = next cell) :
    Linked other link cells := by
  induction cells generalizing link with
  | nil => exact linked
  | cons cell cells ih =>
    refine ⟨linked.1, ?_⟩
    rw [same cell (by simp)]
    exact ih linked.2 fun later member => same later (by simp [member])

/-- A new cell at the end of a list that is not empty. -/
theorem append {last : Cell} {new : Cell} (linked : Linked next link (cells ++ [last]))
    (ends : other new = none) (joins : other last = some new)
    (same : ∀ cell ∈ cells, other cell = next cell) :
    Linked other link (cells ++ [last, new]) := by
  induction cells generalizing link with
  | nil => exact ⟨linked.1, joins, ends⟩
  | cons cell cells ih =>
    refine ⟨linked.1, ?_⟩
    rw [same cell (by simp)]
    exact ih linked.2 fun later member => same later (by simp [member])

end Linked

end BadmintonRobot.Semantics
