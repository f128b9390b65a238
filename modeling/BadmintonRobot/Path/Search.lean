import Mathlib
import BadmintonRobot.Numeric.Descent
import BadmintonRobot.Path.PointPath

/-!
# The target of the path follower

The search keeps the last step ahead that does not lead away from the robot. Whatever
the robot's positions are, the target stays on the path that was set and never goes back.
The target need not be the nearest point ahead: a path that comes back towards the robot
after it has led away wins over a nearer point before.
-/

namespace BadmintonRobot.Path

open Control General Mission Numeric

section Search

variable {D : Type} [LinearOrder D] (lengthAt : Int → D) (now last : Int)

/-- The number of steps that the search compares. -/
def scope (now last : Int) : Nat := min 9 (last - now).toNat

/-- From turn `i` on the search keeps `delta` if every step rises, and otherwise ends at
the last step that does not. -/
theorem countDelta_cases (left i delta : Nat) :
    (countDelta (fun p => decide (lengthAt (p + 1) ≤ lengthAt p)) now last left i delta = delta ∧
      ∀ j, i ≤ j → j < i + left → now + j < last → lengthAt (now + j) < lengthAt (now + j + 1)) ∨
    ∃ place, countDelta (fun p => decide (lengthAt (p + 1) ≤ lengthAt p)) now last left i delta =
        place + 1 ∧
      i ≤ place ∧ place < i + left ∧ now + place < last ∧
      lengthAt (now + place + 1) ≤ lengthAt (now + place) ∧
      ∀ j, place < j → j < i + left → now + j < last →
        lengthAt (now + j) < lengthAt (now + j + 1) := by
  induction left generalizing i delta with
  | zero =>
    refine .inl ⟨rfl, ?_⟩
    intro j lower upper
    omega
  | succ left ih =>
    rw [countDelta]
    by_cases stop : now + i ≥ last
    · rw [if_pos stop]
      refine .inl ⟨rfl, ?_⟩
      intro j lower _ inside
      omega
    rw [if_neg stop]
    rcases ih (i + 1) (if decide (lengthAt (now + i + 1) ≤ lengthAt (now + i)) then i + 1
        else delta) with ⟨kept, rises⟩ | ⟨place, found, lower, upper, inside, descends, rises⟩
    · rw [kept]
      by_cases descends : lengthAt (now + i + 1) ≤ lengthAt (now + i)
      · refine .inr ⟨i, by simp [descends], le_refl _, by omega, by omega, descends, ?_⟩
        intro j after upper below
        exact rises j (by omega) (by omega) below
      · refine .inl ⟨by simp [descends], ?_⟩
        intro j lower upper below
        rcases Nat.eq_or_lt_of_le lower with rfl | later
        · exact lt_of_not_ge descends
        · exact rises j (by omega) (by omega) below
    · refine .inr ⟨place, found, by omega, by omega, inside, descends, ?_⟩
      intro j after upper below
      exact rises j after (by omega) below

/-- The search ends at the last descent of the distances ahead. -/
theorem lastDescent_countDelta :
    LastDescent (fun j : Nat => lengthAt (now + j)) (scope now last)
      (countDelta (fun p => decide (lengthAt (p + 1) ≤ lengthAt p)) now last 9 0 0) := by
  have ahead : ∀ j : Nat, now + (j + 1 : Nat) = now + j + 1 := by
    intro j
    omega
  rcases countDelta_cases lengthAt now last 9 0 0 with
    ⟨kept, rises⟩ | ⟨place, found, -, upper, inside, descends, rises⟩
  · rw [kept]
    refine ⟨Nat.zero_le _, .inl rfl, ?_⟩
    intro j _ below
    rw [scope] at below
    simp only [ahead]
    exact rises j (Nat.zero_le _) (by omega) (by omega)
  · rw [found]
    refine ⟨by rw [scope]; omega, .inr ?_, ?_⟩
    · simp only [ahead, Nat.add_sub_cancel]
      exact descends
    · intro j after below
      rw [scope] at below
      simp only [ahead]
      exact rises j (by omega) (by omega) (by omega)

theorem mem_searchReads {now last : Int} {left i : Nat} {read : Int}
    (member : read ∈ searchReads now last left i) : now + i ≤ read ∧ read ≤ last := by
  induction left generalizing i with
  | zero => cases member
  | succ left ih =>
    rw [searchReads] at member
    split at member
    · cases member
    · rw [List.mem_append, List.mem_cons, List.mem_singleton] at member
      rcases member with (rfl | rfl) | later
      · omega
      · omega
      · have bounds := ih later
        omega

end Search

/-- The distance from the robot to a point of the path. -/
noncomputable def distanceTo (pointRoute : Int → PathPoint) (position : Point) (p : Int) : ℝ :=
  getLength (pointRoute p).position position

/-- The index moves ahead by the last descent of the distances in the search window. -/
theorem nextPoint_eq (pointRoute : Int → PathPoint) (position : Point) (f : Follower) :
    ∃ delta : Nat, nextPoint pointRoute position f = f.pointNowNum + delta ∧
      LastDescent (fun j : Nat => distanceTo pointRoute position (f.pointNowNum + j))
        (scope f.pointNowNum f.pointEndNum) delta :=
  ⟨_, rfl, lastDescent_countDelta _ _ _⟩

/-- What one call of `GoPointPath` does with its index: it goes ahead at most nine points
and stops on the path, reads points of the path only, and selects a point such that the
next one in the window is farther away. -/
structure SafeCall (pointRoute : Int → PathPoint) (staNum endNum : Int) (f : Follower)
    (input : Input) : Prop where
  start : staNum ≤ f.pointNowNum
  forward : f.pointNowNum ≤ (goPointPath pointRoute input f).pointNowNum
  steps : (goPointPath pointRoute input f).pointNowNum ≤ f.pointNowNum + 9
  stop : (goPointPath pointRoute input f).pointNowNum ≤ endNum
  reads : ∀ p ∈ pointReads pointRoute input f, staNum ≤ p ∧ p ≤ endNum
  next : ∀ p, p = (goPointPath pointRoute input f).pointNowNum + 1 →
    p ≤ f.pointNowNum + 9 → p ≤ endNum →
    distanceTo pointRoute input.gps.position (goPointPath pointRoute input f).pointNowNum <
      distanceTo pointRoute input.gps.position p

/-- A follower on the path that was set. -/
structure OnPath (staNum endNum : Int) (f : Follower) : Prop where
  pointEndNum : f.pointEndNum = endNum
  lower : staNum ≤ f.pointNowNum
  upper : f.pointNowNum ≤ endNum

section Calls

variable {pointRoute : Int → PathPoint} {staNum endNum : Int} {f : Follower}

theorem OnPath.safeCall (onPath : OnPath staNum endNum f) (input : Input) :
    SafeCall pointRoute staNum endNum f input := by
  obtain ⟨delta, moved, descent⟩ := nextPoint_eq pointRoute input.gps.position f
  have goes : (goPointPath pointRoute input f).pointNowNum = f.pointNowNum + delta := moved
  have inside := descent.le
  have lower := onPath.lower
  have upper := onPath.upper
  rw [scope, onPath.pointEndNum] at inside
  constructor
  · exact lower
  · omega
  · omega
  · omega
  · intro p member
    rw [pointReads, List.mem_append, List.mem_singleton] at member
    rcases member with searched | rfl
    · have bounds := mem_searchReads searched
      rw [onPath.pointEndNum] at bounds
      omega
    · rw [moved]
      omega
  · rintro p rfl near stop
    have rises := descent.rises delta (le_refl _) (by rw [scope, onPath.pointEndNum]; omega)
    rw [goes]
    simpa [add_assoc] using rises

theorem OnPath.goPointPath (onPath : OnPath staNum endNum f) (input : Input) :
    OnPath staNum endNum (goPointPath pointRoute input f) where
  pointEndNum := onPath.pointEndNum
  lower := by
    have safe : SafeCall pointRoute staNum endNum f input := onPath.safeCall input
    exact le_trans onPath.lower safe.forward
  upper := (onPath.safeCall input).stop

theorem onPath_setPointPath (order : staNum ≤ endNum) (f : Follower) :
    OnPath staNum endNum (setPointPath staNum endNum f) :=
  ⟨rfl, le_refl _, order⟩

theorem OnPath.calls (onPath : OnPath staNum endNum f) (inputs : List Input) :
    OnPath staNum endNum (inputs.foldl (fun g input => Path.goPointPath pointRoute input g) f) := by
  induction inputs generalizing f with
  | nil => exact onPath
  | cons input rest ih => exact ih (onPath.goPointPath input)

/-- Path index safety: after `SetPointPath`, in every sequence of calls of `GoPointPath`
every call is safe. -/
theorem goPointPath_safe (order : staNum ≤ endNum) (f : Follower) (inputs : List Input)
    (input : Input) :
    SafeCall pointRoute staNum endNum
      (inputs.foldl (fun g input => goPointPath pointRoute input g) (setPointPath staNum endNum f))
      input :=
  ((onPath_setPointPath order f).calls inputs).safeCall input

/-- The path of two points, with the robot at its start. -/
theorem goPointPath_safe_two :
    SafeCall (fun p => ⟨⟨p, 0⟩, 0, 0, 1000⟩) 0 1
      ([].foldl (fun g input => goPointPath (fun p => ⟨⟨p, 0⟩, 0, 0, 1000⟩) input g)
        (setPointPath 0 1 ⟨0, 0, 0, .initial, 0, 0, 0⟩))
      ⟨⟨⟨0, 0⟩, 0⟩, 1, false, 0, 0, true⟩ :=
  goPointPath_safe (by decide) _ _ _

end Calls

/-- The points that the search of `GoPointPath` compares. -/
def InWindow (f : Follower) (p : Int) : Prop :=
  f.pointNowNum ≤ p ∧ p ≤ f.pointNowNum + 9 ∧ p ≤ f.pointEndNum

/-- What the search selects: the last point in the window that is not farther than the one
before it, or the current one. It is nearest among the points from there on, and nearest
in the whole window if the distance, once it has grown, keeps growing to the window's
end. -/
structure Selects (pointRoute : Int → PathPoint) (position : Point) (f : Follower)
    (target : Int) : Prop where
  descends : target = f.pointNowNum ∨ InWindow f target ∧
    distanceTo pointRoute position target ≤ distanceTo pointRoute position (target - 1)
  rises : ∀ p, target ≤ p → InWindow f (p + 1) →
    distanceTo pointRoute position p < distanceTo pointRoute position (p + 1)
  later : ∀ p, target ≤ p → InWindow f p →
    distanceTo pointRoute position target ≤ distanceTo pointRoute position p
  valley : (∀ p q, f.pointNowNum ≤ p → p ≤ q → InWindow f (q + 1) →
      distanceTo pointRoute position p < distanceTo pointRoute position (p + 1) →
      distanceTo pointRoute position q < distanceTo pointRoute position (q + 1)) →
    ∀ p, InWindow f p →
      distanceTo pointRoute position target ≤ distanceTo pointRoute position p

/-- The search of `GoPointPath` for every path, index and position. -/
theorem nextPoint_selects (pointRoute : Int → PathPoint) (position : Point) (f : Follower) :
    Selects pointRoute position f (nextPoint pointRoute position f) := by
  obtain ⟨delta, moved, descent⟩ := nextPoint_eq pointRoute position f
  rw [moved]
  have inside := descent.le
  have place : ∀ p, f.pointNowNum ≤ p → p = f.pointNowNum + (p - f.pointNowNum).toNat := by
    intro p lower
    omega
  have ahead : ∀ j : Nat, f.pointNowNum + (j + 1 : Nat) = f.pointNowNum + j + 1 := by
    intro j
    omega
  have window : ∀ p, InWindow f p →
      (p - f.pointNowNum).toNat ≤ scope f.pointNowNum f.pointEndNum := by
    rintro p ⟨lower, near, stop⟩
    rw [scope]
    omega
  constructor
  · rcases descent.descends with rfl | descends
    · exact .inl (by simp)
    · rcases Nat.eq_zero_or_pos delta with rfl | positive
      · exact .inl (by simp)
      · rw [scope] at inside
        refine .inr ⟨⟨by omega, by omega, by omega⟩, ?_⟩
        rwa [show f.pointNowNum + (delta : Int) - 1 = f.pointNowNum + (delta - 1 : Nat) by omega]
  · rintro p after inWindow
    have below := window _ inWindow
    have rises := descent.rises (p - f.pointNowNum).toNat (by omega) (by omega)
    simp only [ahead, ← place p (by omega)] at rises
    exact rises
  · intro p after inWindow
    have lower := descent.le_later (j := (p - f.pointNowNum).toNat) (by omega) (window p inWindow)
    simp only [← place p inWindow.1] at lower
    exact lower
  · intro valley p inWindow
    have lowest := descent.lowest (j := (p - f.pointNowNum).toNat) ?_ (window p inWindow)
    · simp only [← place p inWindow.1] at lowest
      exact lowest
    · intro i j order below rises
      simp only [ahead] at rises ⊢
      rw [scope] at below
      exact valley _ _ (by omega) (by omega) ⟨by omega, by omega, by omega⟩ rises

/-- Three points on a line through the robot, at the distances 1, 2 and 3/2. -/
noncomputable def returningPath (p : Int) : PathPoint :=
  ⟨⟨if p = 0 then 1 else if p = 1 then 2 else 3 / 2, 0⟩, 0, 0, 1000⟩

/-- A path that leads away and comes back part of the way: the search goes to its last
point, although the first one is nearer. -/
theorem not_nearest_returningPath :
    ¬∀ p, InWindow ⟨0, 2, 0, .initial, 0, 0, 0⟩ p →
      distanceTo returningPath ⟨0, 0⟩
          (nextPoint returningPath ⟨0, 0⟩ ⟨0, 2, 0, .initial, 0, 0, 0⟩) ≤
        distanceTo returningPath ⟨0, 0⟩ p := by
  have distance : ∀ p, distanceTo returningPath ⟨0, 0⟩ p =
      |if p = 0 then 1 else if p = 1 then 2 else 3 / 2| := fun p => getLength_axis _
  have back : nearer returningPath ⟨0, 0⟩ 1 = true := by
    have closer : distanceTo returningPath ⟨0, 0⟩ 2 ≤ distanceTo returningPath ⟨0, 0⟩ 1 := by
      norm_num [distance]
    exact decide_eq_true closer
  have target : nextPoint returningPath ⟨0, 0⟩ ⟨0, 2, 0, .initial, 0, 0, 0⟩ = 2 := by
    simp [nextPoint, Mission.countDelta, back]
  intro nearest
  have first := nearest 0 ⟨by simp, by simp, by simp⟩
  rw [target, distance, distance] at first
  norm_num at first

end BadmintonRobot.Path
