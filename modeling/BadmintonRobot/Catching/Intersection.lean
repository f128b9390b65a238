import Mathlib
import BadmintonRobot.General.Mymath

/-!
# The interception point

`getIntersection` looks for the place where the shuttlecock, on the parabola given by the
newest sample, comes into the reach of the arm: it expands the condition to an equation of
degree 4 in the time, solves it numerically and takes the smallest real root. The loop that
copies the sample stops before its last coordinate, and roots in the past are not left out.
-/

namespace BadmintonRobot.Catching

open General

/-- The array `length`: vertical, horizontal and inclined part of the arm. -/
def length : Fin 3 → ℝ
  | 0 => 430
  | 1 => 130
  | 2 => 370

/-- The function `expand2q`. -/
noncomputable def expand2q (c : Fin 9 → ℝ) (l : Fin 3 → ℝ) : Quartic where
  a4 := c 6 * c 6 / 4 + c 7 * c 7 / 4 + c 8 * c 8 / 4
  a3 := c 3 * c 6 + c 4 * c 7 + c 5 * c 8
  a2 := c 3 * c 3 + c 4 * c 4 + c 5 * c 5 + c 0 * c 6 + c 1 * c 7 + c 2 * c 8 - c 8 * l 0
  a1 := 2 * c 0 * c 3 + 2 * c 1 * c 4 + 2 * c 2 * c 5 - 2 * c 5 * l 0
  a0 := c 0 * c 0 + c 1 * c 1 + c 2 * c 2 - 2 * c 2 * l 0 + l 0 * l 0 - l 1 * l 1 - l 2 * l 2

/-- The function `pflied` for the coordinate `i`. -/
noncomputable def pflied (data : Fin 9 → ℝ) (i : Fin 3) (t : ℝ) : ℝ :=
  data ⟨i, by omega⟩ + data ⟨i + 3, by omega⟩ * t + 1 / 2 * data ⟨i + 6, by omega⟩ * t * t

/-- What the local variables of `getIntersection` hold before they are assigned. -/
structure Locals where
  data : Fin 9 → ℝ
  root : Fin 4 → Point

/-- The elements of `data` that the copying loop assigns. -/
def assigned : List (Fin 9) := [0, 1, 2, 3, 4, 5, 6, 7]

/-- The elements of `data` that `expand2q` reads. -/
def expandReads : List (Fin 9) := [6, 7, 8, 3, 4, 5, 0, 1, 2]

/-- The array `data` after the copying loop. -/
def copied (coord : Fin 9 → ℝ) (locals : Locals) : Fin 9 → ℝ := fun i =>
  if i ∈ assigned then coord i else locals.data i

/-- One turn of the loop that looks for the smallest root. -/
noncomputable def takeRoot (mint : ℝ) (root : Point) : ℝ :=
  if root.y ≠ 0 then mint else if mint > root.x then root.x else mint

/-- The function `getIntersection`, for a ring with `dataS` samples of which `coord` is the
newest. A division by zero has no result. -/
noncomputable def getIntersection (dataS : Nat) (coord : Fin 9 → ℝ) (locals : Locals)
    (x : Fin 3 → ℝ) : Option (Fin 3 → ℝ) :=
  if dataS = 0 then some x
  else do
    let data := copied coord locals
    let root ← soluQ (expand2q data length) locals.root
    let mint := [root 0, root 1, root 2, root 3].foldl takeRoot 100000
    if mint = 100000 then some x else some fun i => pflied data i mint

/-- The elements of `data` that are read and have not been assigned. -/
def undefinedReads (dataS : Nat) : List (Fin 9) :=
  if dataS = 0 then [] else expandReads.filter (· ∉ assigned)

/-- The argument of `acos` in `Point2theta`. -/
noncomputable def acosArgument (x : Fin 3 → ℝ) : ℝ := (length 0 - x 2) / length 2

/-- The array `X` that `Rec_Kin` starts with. -/
noncomputable def recKinStart : Fin 3 → ℝ
  | 0 => 1
  | 1 => 0
  | 2 => 430 - 370

/-- Where the shuttlecock of a sample is at a time. -/
noncomputable def trajectory (coord : Fin 9 → ℝ) (t : ℝ) : Fin 3 → ℝ := fun i =>
  coord ⟨i, by omega⟩ + coord ⟨i + 3, by omega⟩ * t + coord ⟨i + 6, by omega⟩ * t ^ 2 / 2

section Trajectory

variable (coord : Fin 9 → ℝ) (t : ℝ)

theorem trajectory_x : trajectory coord t 0 = coord 0 + coord 3 * t + coord 6 * t ^ 2 / 2 := rfl

theorem trajectory_y : trajectory coord t 1 = coord 1 + coord 4 * t + coord 7 * t ^ 2 / 2 := rfl

theorem trajectory_z : trajectory coord t 2 = coord 2 + coord 5 * t + coord 8 * t ^ 2 / 2 := rfl

theorem pflied_eq_trajectory (i : Fin 3) : pflied coord i t = trajectory coord t i := by
  rw [pflied, trajectory]
  ring

end Trajectory

/-- The shuttlecock is on the surface that the arm reaches. -/
def OnSurface (coord : Fin 9 → ℝ) (t : ℝ) : Prop :=
  trajectory coord t 0 ^ 2 + trajectory coord t 1 ^ 2 + (trajectory coord t 2 - length 0) ^ 2 =
    length 1 ^ 2 + length 2 ^ 2

/-- The first time from now on at which the shuttlecock is on the surface. -/
structure FirstContact (coord : Fin 9 → ℝ) (t : ℝ) : Prop where
  nonneg : 0 ≤ t
  contact : OnSurface coord t
  first : ∀ earlier, 0 ≤ earlier → OnSurface coord earlier → t ≤ earlier

/-- What the interception should do with the newest sample. -/
structure Intercepts (dataS : Nat) (coord : Fin 9 → ℝ) (locals : Locals) (x : Fin 3 → ℝ) :
    Prop where
  reaches : ∀ t, FirstContact coord t →
    getIntersection dataS coord locals x = some (trajectory coord t) ∧
      |acosArgument (trajectory coord t)| ≤ 1
  misses : (∀ t, 0 ≤ t → ¬OnSurface coord t) → getIntersection dataS coord locals x = some x
  defined : undefinedReads dataS = []

/-- The value of a polynomial. -/
noncomputable def Quartic.eval (a : Quartic) (t : ℝ) : ℝ :=
  a.a4 * t ^ 4 + a.a3 * t ^ 3 + a.a2 * t ^ 2 + a.a1 * t + a.a0

section Expansion

variable (c : Fin 9 → ℝ) (l : Fin 3 → ℝ)

/-- The point is on the surface that an arm with the lengths `l` reaches. -/
def OnArm (l p : Fin 3 → ℝ) : Prop :=
  p 0 ^ 2 + p 1 ^ 2 + (p 2 - l 0) ^ 2 = l 1 ^ 2 + l 2 ^ 2

/-- The place, the velocity and the acceleration in the nine coordinates of a sample. -/
def place : Fin 3 → ℝ := fun i => c ⟨i, by omega⟩

@[inherit_doc place] def velocity : Fin 3 → ℝ := fun i => c ⟨i + 3, by omega⟩

@[inherit_doc place] def acceleration : Fin 3 → ℝ := fun i => c ⟨i + 6, by omega⟩

/-- The expansion is right for all coordinates and lengths. -/
theorem eval_expand2q (t : ℝ) :
    Quartic.eval (expand2q c l) t =
      pflied c 0 t ^ 2 + pflied c 1 t ^ 2 + (pflied c 2 t - l 0) ^ 2 - l 1 ^ 2 - l 2 ^ 2 := by
  simp only [Quartic.eval, expand2q, pflied_eq_trajectory, trajectory_x, trajectory_y, trajectory_z]
  ring

/-- Its roots are the times of contact. -/
theorem eval_expand2q_eq_zero_iff (t : ℝ) :
    Quartic.eval (expand2q c l) t = 0 ↔ OnArm l fun i => pflied c i t := by
  rw [eval_expand2q, OnArm, sub_sub, sub_eq_zero]

/-- Five values determine the coefficients. -/
theorem Quartic.coefficients_of_eval {a : Quartic} (zero : ∀ t, Quartic.eval a t = 0) :
    a.a4 = 0 ∧ a.a3 = 0 ∧ a.a2 = 0 ∧ a.a1 = 0 ∧ a.a0 = 0 := by
  have atZero := zero 0
  have atOne := zero 1
  have atMinusOne := zero (-1)
  have atTwo := zero 2
  have atMinusTwo := zero (-2)
  simp only [Quartic.eval] at atZero atOne atMinusOne atTwo atMinusTwo
  refine ⟨?_, ?_, ?_, ?_, ?_⟩ <;> linarith

theorem eq_zero_of_squares {v : Fin 3 → ℝ} (none : v 0 * v 0 + v 1 * v 1 + v 2 * v 2 = 0) :
    v = 0 := by
  have x := mul_self_nonneg (v 0)
  have y := mul_self_nonneg (v 1)
  have z := mul_self_nonneg (v 2)
  funext i
  refine mul_self_eq_zero.mp ?_
  fin_cases i
  · show v 0 * v 0 = 0
    linarith
  · show v 1 * v 1 = 0
    linarith
  · show v 2 * v 2 = 0
    linarith

/-- The polynomial vanishes only for a shuttlecock that rests on the surface. -/
theorem eval_expand2q_zero_iff :
    (∀ t, Quartic.eval (expand2q c l) t = 0) ↔
      velocity c = 0 ∧ acceleration c = 0 ∧ OnArm l (place c) := by
  have start : (pflied c · 0) = place c := by
    funext i
    simp [pflied, place]
  constructor
  · intro zero
    obtain ⟨fourth, -, second, -, -⟩ := Quartic.coefficients_of_eval zero
    -- The fourth degree belongs to the acceleration alone, and then the second one to the velocity.
    have unaccelerated : acceleration c = 0 := by
      refine eq_zero_of_squares ?_
      have quarter : c 6 * c 6 / 4 + c 7 * c 7 / 4 + c 8 * c 8 / 4 = 0 := fourth
      show c 6 * c 6 + c 7 * c 7 + c 8 * c 8 = 0
      linarith
    have x : c 6 = 0 := congrFun unaccelerated 0
    have y : c 7 = 0 := congrFun unaccelerated 1
    have z : c 8 = 0 := congrFun unaccelerated 2
    have still : velocity c = 0 := by
      refine eq_zero_of_squares ?_
      show c 3 * c 3 + c 4 * c 4 + c 5 * c 5 = 0
      simpa [expand2q, x, y, z] using second
    refine ⟨still, unaccelerated, ?_⟩
    rw [← start]
    exact (eval_expand2q_eq_zero_iff c l 0).mp (zero 0)
  · rintro ⟨still, unaccelerated, contact⟩ t
    have rests : (pflied c · t) = place c := by
      funext i
      have speed : c ⟨i + 3, by omega⟩ = 0 := congrFun still i
      have change : c ⟨i + 6, by omega⟩ = 0 := congrFun unaccelerated i
      simp [pflied, place, speed, change]
    rw [eval_expand2q_eq_zero_iff, rests]
    exact contact

/-- The polynomial that `expand2q` expands is the distance from the surface at every time, so its roots
are the times of contact, and it vanishes exactly for a shuttlecock that rests on the surface. -/
theorem expand2q_spec :
    (∀ t, Quartic.eval (expand2q c l) t =
        pflied c 0 t ^ 2 + pflied c 1 t ^ 2 + (pflied c 2 t - l 0) ^ 2 - l 1 ^ 2 - l 2 ^ 2) ∧
      (∀ t, Quartic.eval (expand2q c l) t = 0 ↔ OnArm l fun i => pflied c i t) ∧
      ((∀ t, Quartic.eval (expand2q c l) t = 0) ↔
        velocity c = 0 ∧ acceleration c = 0 ∧ OnArm l (place c)) :=
  ⟨eval_expand2q c l, eval_expand2q_eq_zero_iff c l, eval_expand2q_zero_iff c l⟩

end Expansion

/-- The expansion is right for a whole sample: its roots are the times of contact. -/
theorem onSurface_iff (coord : Fin 9 → ℝ) (t : ℝ) :
    OnSurface coord t ↔ Quartic.eval (expand2q coord length) t = 0 := by
  rw [eval_expand2q_eq_zero_iff, OnArm, OnSurface]
  simp only [pflied_eq_trajectory]

/-- The interception is right only as long as there is no sample: with one, the last
coordinate is read without having been copied. -/
theorem intercepts_iff (dataS : Nat) (coord : Fin 9 → ℝ) (locals : Locals) (x : Fin 3 → ℝ) :
    (dataS ≠ 0 → Intercepts dataS coord locals x) ↔ dataS = 0 := by
  constructor
  · intro intercepts
    by_contra sampled
    have defined := (intercepts sampled).defined
    rw [undefinedReads, if_neg sampled] at defined
    simp [expandReads, assigned] at defined
  · intro empty sampled
    exact absurd empty sampled

/-- A shuttlecock that moves in the plane of the arm's horizontal part: it touches the
surface at the time 1 and crosses it at the times -1 and 3. -/
def touching : Fin 9 → ℝ
  | 0 => 130
  | 1 => 185
  | 2 => 430
  | 4 => 370
  | 7 => -370
  | _ => 0

/-- Local variables that happen to hold zeros, as the last coordinate of the sample does. -/
noncomputable def zeroLocals : Locals where
  data _ := 0
  root _ := ⟨0, 0⟩

theorem copied_touching : copied touching zeroLocals = touching := by
  ext i
  fin_cases i <;> simp [copied, assigned, touching, zeroLocals]

theorem expand2q_touching :
    expand2q touching length = ⟨-102675, 136900, 68450, -136900, 34225⟩ := by
  simp only [expand2q, touching, length]
  norm_num

/-- The first turn of the solver finds the roots 1, 1, 3 and -1. -/
theorem soluQ_touching (ro : Fin 4 → Point) :
    ∃ root, soluQ (expand2q touching length) ro = some root ∧
      [root 0, root 1, root 2, root 3] = [⟨1, 0⟩, ⟨1, 0⟩, ⟨3, 0⟩, ⟨-1, 0⟩] := by
  have double : soluW 1 (-2) 1 = some (⟨1, 0⟩, ⟨1, 0⟩) := by
    norm_num [soluW, divide]
  have square : √(18741610000 : ℝ) = 136900 := by
    rw [show (18741610000 : ℝ) = 136900 ^ 2 by norm_num]
    exact Real.sqrt_sq (by norm_num)
  have others : soluW 34225 (-68450) (-102675) = some (⟨3, 0⟩, ⟨-1, 0⟩) := by
    norm_num [soluW, divide, square]
  have settled : getDuDv 0 136900 0 0 0 136900 = some (0, 0) := by
    norm_num [getDuDv, divide]
  rw [expand2q_touching, soluQ, soluQLoop]
  norm_num [double, others, settled, abs']

theorem firstContact_touching : FirstContact touching 1 := by
  have roots : ∀ t, OnSurface touching t ↔ (t - 1) ^ 2 * ((t + 1) * (t - 3)) = 0 := by
    intro t
    have factors : Quartic.eval (expand2q touching length) t =
        34225 * ((t - 1) ^ 2 * ((t + 1) * (t - 3))) := by
      rw [expand2q_touching, Quartic.eval]
      ring
    rw [onSurface_iff, factors]
    simp
  constructor
  · exact zero_le_one
  · rw [roots]
    ring
  · intro earlier nonneg contact
    rw [roots] at contact
    rcases mul_eq_zero.mp contact with touch | cross
    · have same := pow_eq_zero_iff (two_ne_zero) |>.mp touch
      linarith
    · rcases mul_eq_zero.mp cross with past | later <;> linarith

/-- The shuttlecock reaches the arm's surface at the time 1, and the point at the time -1
is returned. -/
theorem not_intercepts_touching :
    getIntersection 1 touching zeroLocals recKinStart = some (trajectory touching (-1)) ∧
      ¬Intercepts 1 touching zeroLocals recKinStart := by
  have returned :
      getIntersection 1 touching zeroLocals recKinStart = some (trajectory touching (-1)) := by
    obtain ⟨root, solved, roots⟩ := soluQ_touching zeroLocals.root
    have past : [root 0, root 1, root 2, root 3].foldl takeRoot 100000 = -1 := by
      rw [roots]
      norm_num [takeRoot]
    simp only [getIntersection, copied_touching, solved, Option.bind_eq_bind, Option.bind_some,
      past, pflied_eq_trajectory]
    norm_num
  refine ⟨returned, ?_⟩
  intro intercepts
  have expected := (intercepts.reaches 1 firstContact_touching).1
  rw [returned, Option.some.injEq] at expected
  have y := congrFun expected 1
  norm_num [trajectory_y, touching] at y

end BadmintonRobot.Catching
