import Mathlib
import BadmintonRobot.Joystick.Handle
import BadmintonRobot.Numeric.OrderedField
import BadmintonRobot.Semantics.Sequential

/-!
# The slew limiter of the fans

When one joystick drives alone, the fans help the robot to follow a change of the requested
speed, and `lastspeed_x` and `lastspeed_y` are to follow the request in steps of at most
`fanmax`. The sign of the step is the wrong one: a request that is farther away is left
behind by another `fanmax` with every turn, while the other axis jumps.
-/

namespace BadmintonRobot.Joystick

open Semantics

attribute [local instance] Numeric.isOrderedRing Numeric.zeroLEOneClass

variable {K : Type} [Field K] [LinearOrder K]

/-- What `limitChange` makes of the last speeds. -/
def follow (fanmax : K) (last now : K × K) : K × K :=
  if abs' (last.1 - now.1) > fanmax then
    (last.1 + abs' (last.1 - now.1) / (last.1 - now.1) * fanmax, now.2)
  else if abs' (last.2 - now.2) > fanmax then
    (now.1, last.2 + abs' (last.2 - now.2) / (last.2 - now.2) * fanmax)
  else now

/-- The last speeds. -/
def Board.lastspeed (b : Board K) : K × K := (b.lastspeedX, b.lastspeedY)

/-- The speeds that are requested with a frame. -/
def Board.requested (v : View) (b : Board K) : K × K :=
  (b.shared.speedX +
      if v.data.button10On && v.data.button7Off then (deflection v.data.lr : K) / 10
      else (deflection v.data.lr : K),
    b.shared.speedY + b.handleSpeedY)

/-- The arguments of `FanAccelerate`. -/
def fanCommand (last now : K × K) : Command K :=
  .fanAccelerate ((now.1 - last.1) / (4095 / 10000)) ((now.2 - last.2) / (4095 / 10000))

theorem limitChange_result (v : View) (b : Board K) :
    (limitChange : Code K).result v b = some
      { b with
        lastspeedX := (follow b.shared.fanmax b.lastspeed
          ((b.locals .y).nowspeedX, (b.locals .y).nowspeedY)).1
        lastspeedY := (follow b.shared.fanmax b.lastspeed
          ((b.locals .y).nowspeedX, (b.locals .y).nowspeedY)).2 } := by
  by_cases farX : abs' (b.lastspeedX - (b.locals .y).nowspeedX) > b.shared.fanmax
  · simp [limitChange, follow, Board.lastspeed, farX]
  · by_cases farY : abs' (b.lastspeedY - (b.locals .y).nowspeedY) > b.shared.fanmax
    · simp [limitChange, follow, Board.lastspeed, farX, farY]
    · simp [limitChange, follow, Board.lastspeed, farX, farY]

/-- One turn of the branch `if(single)`: the last speeds follow the request, the fans get the
difference, and the chassis gets the request. -/
theorem driveAlone_result (maths : Maths K) (v : View) (b : Board K) :
    ∃ next, (driveAlone maths).result v b = some next ∧
      next.lastspeed = follow b.shared.fanmax b.lastspeed (b.requested v) ∧
      next.commands = b.commands ++
        (if b.shared.fantest then [fanCommand next.lastspeed (b.requested v)] else []) ++
        [Command.setSpeed .y (b.requested v).1 (b.requested v).2 (-2 * b.shared.speedRotation)] := by
  simp only [driveAlone, result_block_cons, result_block_nil, result_update, result_when,
    Option.bind_some, Board.requested]
  cases scaled : v.data.button10On && v.data.button7Off
  · cases tested : b.shared.fantest
    · simp [Board.assign, Board.record, limitChange_result, Board.lastspeed, tested]
    · simp [Board.assign, Board.record, limitChange_result, Board.lastspeed, tested,
        fanAccelerate, fanCommand]
  · cases tested : b.shared.fantest
    · simp [Board.assign, Board.record, limitChange_result, Board.lastspeed, tested]
    · simp [Board.assign, Board.record, limitChange_result, Board.lastspeed, tested,
        fanAccelerate, fanCommand]

/-- Turns of the branch `if(single)`, one after another. Between two turns everything may
change but the last speeds, which are static, and `fanmax`. -/
structure Turns (maths : Maths K) (fanmax : K) where
  view : Nat → View
  before : Nat → Board K
  after : Nat → Board K
  runs : ∀ k, (driveAlone maths).result (view k) (before k) = some (after k)
  kept : ∀ k, (before (k + 1)).lastspeed = (after k).lastspeed
  limit : ∀ k, (before k).shared.fanmax = fanmax

namespace Turns

variable {maths : Maths K} {fanmax : K} (t : Turns maths fanmax)

/-- The speeds that a turn is asked for. -/
def request (k : Nat) : K × K := (t.before k).requested (t.view k)

/-- The calls of a turn. -/
def issued (k : Nat) : List (Command K) := (t.after k).commands.drop (t.before k).commands.length

/-- Every turn moves each last speed by at most `fanmax` and not away from the request, and
a request that stays is reached, with nothing left for the fans. -/
structure Limits : Prop where
  bounded : ∀ k, |(t.after k).lastspeedX - (t.before k).lastspeedX| ≤ fanmax ∧
    |(t.after k).lastspeedY - (t.before k).lastspeedY| ≤ fanmax
  closer : ∀ k, |(t.after k).lastspeedX - (t.request k).1| ≤
      |(t.before k).lastspeedX - (t.request k).1| ∧
    |(t.after k).lastspeedY - (t.request k).2| ≤ |(t.before k).lastspeedY - (t.request k).2|
  arrives : ∀ k, (∀ later ≥ k, t.request later = t.request k) → ∃ m ≥ k, ∀ later ≥ m,
    (t.after later).lastspeed = t.request k ∧
      ∀ x y, Command.fanAccelerate x y ∈ t.issued later → x = 0 ∧ y = 0

/-- No more than a limit apart on both axes. -/
def Near (limit : K) (one other : K × K) : Prop :=
  |one.1 - other.1| ≤ limit ∧ |one.2 - other.2| ≤ limit

/-- The first request is near the last speeds, and each request is near the one before. -/
def Gentle : Prop :=
  Near fanmax (t.before 0).lastspeed (t.request 0) ∧
    ∀ k, Near fanmax (t.request k) (t.request (k + 1))

/-- What a turn does, by the request. -/
theorem after_eq (k : Nat) :
    (t.after k).lastspeed = follow fanmax (t.before k).lastspeed (t.request k) ∧
      t.issued k =
        (if (t.before k).shared.fantest then [fanCommand (t.after k).lastspeed (t.request k)]
          else []) ++
        [Command.setSpeed .y (t.request k).1 (t.request k).2 (-2 * (t.before k).shared.speedRotation)] := by
  obtain ⟨next, ends, last, commands⟩ := driveAlone_result maths (t.view k) (t.before k)
  obtain rfl : next = t.after k := Option.some.inj (ends.symm.trans (t.runs k))
  rw [t.limit] at last
  refine ⟨last, ?_⟩
  rw [issued, commands, List.append_assoc, List.drop_left]
  rfl

end Turns

section Ordered

variable [IsStrictOrderedRing K]

theorem abs'_eq_abs (a : K) : abs' a = |a| := by
  rw [abs']
  split_ifs with positive
  · exact (abs_of_pos positive).symm
  · exact (abs_of_nonpos (le_of_not_gt positive)).symm

/-- A step in the direction of the sign adds to the size. -/
theorem abs_add_sign_mul {difference step : K} (apart : difference ≠ 0) (nonneg : 0 ≤ step) :
    |difference + |difference| / difference * step| = |difference| + step := by
  rcases lt_or_gt_of_ne apart with negative | positive
  · rw [abs_of_neg negative, neg_div, div_self apart]
    rw [abs_of_nonpos (by linarith)]
    ring
  · rw [abs_of_pos positive, div_self apart, one_mul, abs_of_nonneg (by linarith)]

variable {fanmax : K} {last now : K × K}

theorem follow_of_near (near : Turns.Near fanmax last now) : follow fanmax last now = now := by
  rw [follow, abs'_eq_abs, abs'_eq_abs, if_neg (not_lt.mpr near.1), if_neg (not_lt.mpr near.2)]

/-- A request that is not near is left farther behind on one axis. -/
theorem follow_of_not_near (positive : 0 < fanmax) (far : ¬Turns.Near fanmax last now) :
    |last.1 - now.1| < |(follow fanmax last now).1 - now.1| ∨
      |last.2 - now.2| < |(follow fanmax last now).2 - now.2| := by
  have grows : ∀ a b : K, fanmax < |a - b| →
      |a - b| < |a + |a - b| / (a - b) * fanmax - b| := by
    intro a b apart
    have nonzero : a - b ≠ 0 := by
      intro same
      rw [same, abs_zero] at apart
      exact lt_asymm positive apart
    have size := abs_add_sign_mul nonzero positive.le
    rw [add_sub_right_comm, size]
    linarith
  rw [follow, abs'_eq_abs, abs'_eq_abs]
  by_cases farX : fanmax < |last.1 - now.1|
  · rw [if_pos farX]
    exact .inl (grows last.1 now.1 farX)
  · have farY : fanmax < |last.2 - now.2| := by
      by_contra nearY
      exact far ⟨not_lt.mp farX, not_lt.mp nearY⟩
    rw [if_neg farX, if_pos farY]
    exact .inr (grows last.2 now.2 farY)

namespace Turns

variable {maths : Maths K} (t : Turns maths fanmax)

/-- Under the limits every request is near, so it is taken over. -/
theorem Limits.near (positive : 0 < fanmax) (limits : t.Limits) (k : Nat) :
    Near fanmax (t.before k).lastspeed (t.request k) := by
  by_contra far
  have closer := limits.closer k
  have followed := (t.after_eq k).1
  have left := follow_of_not_near positive far
  rw [← followed] at left
  rcases left with farther | farther
  · exact absurd closer.1 (not_le.mpr farther)
  · exact absurd closer.2 (not_le.mpr farther)

theorem Gentle.near (gentle : t.Gentle) (k : Nat) :
    Near fanmax (t.before k).lastspeed (t.request k) := by
  induction k with
  | zero => exact gentle.1
  | succ k ih =>
    rw [t.kept, (t.after_eq k).1, follow_of_near ih]
    exact gentle.2 k

/-- A turn with a near request. -/
theorem after_of_near {k : Nat} (near : Near fanmax (t.before k).lastspeed (t.request k)) :
    (t.after k).lastspeed = t.request k := by
  rw [(t.after_eq k).1, follow_of_near near]

/-- The limiter does what it is for exactly if no request is more than `fanmax` away from the
one before. -/
theorem limits_iff_gentle (positive : 0 < fanmax) : t.Limits ↔ t.Gentle := by
  constructor
  · intro limits
    refine ⟨limits.near t positive 0, fun k => ?_⟩
    have next := limits.near t positive (k + 1)
    rwa [t.kept, t.after_of_near (limits.near t positive k)] at next
  · intro gentle
    have reached : ∀ k, (t.after k).lastspeed = t.request k :=
      fun k => t.after_of_near (gentle.near t k)
    have reachedX : ∀ k, (t.after k).lastspeedX = (t.request k).1 :=
      fun k => congrArg Prod.fst (reached k)
    have reachedY : ∀ k, (t.after k).lastspeedY = (t.request k).2 :=
      fun k => congrArg Prod.snd (reached k)
    constructor
    · intro k
      obtain ⟨nearX, nearY⟩ := gentle.near t k
      rw [reachedX, reachedY, abs_sub_comm, abs_sub_comm (t.request k).2]
      exact ⟨nearX, nearY⟩
    · intro k
      simp [reachedX, reachedY]
    · intro k steady
      refine ⟨k, le_rfl, fun later after => ⟨?_, fun x y called => ?_⟩⟩
      · rw [reached, steady later after]
      · rw [(t.after_eq later).2, reached, fanCommand] at called
        split at called
        · simpa using called
        · simp at called

end Turns

end Ordered

/-- Turns with one frame and one set-point, from given last speeds. -/
noncomputable def steadyTurns (maths : Maths K) (v : View) (b : Board K) :
    Turns maths b.shared.fanmax :=
  let lasts : Nat → K × K := fun k =>
    (fun last => follow b.shared.fanmax last (b.requested v))^[k] b.lastspeed
  let before : Nat → Board K := fun k =>
    { b with lastspeedX := (lasts k).1, lastspeedY := (lasts k).2 }
  { view := fun _ => v
    before := before
    after := fun k => (driveAlone_result maths v (before k)).choose
    runs := fun k => (driveAlone_result maths v (before k)).choose_spec.1
    kept := fun k => by
      rw [(driveAlone_result maths v (before k)).choose_spec.2.1]
      simp only [before, lasts, Function.iterate_succ_apply', Board.lastspeed]
      rfl
    limit := fun _ => rfl }

/-- The functions on the real numbers. -/
noncomputable def Maths.real : Maths ℝ where
  sin := Real.sin
  cos := Real.cos
  atan2 y x := Complex.arg ⟨x, y⟩

/-- The robot at rest, with the given set-point along x. -/
noncomputable def restBoard (speedX : ℝ) : Board ℝ where
  shared :=
    { speedX := speedX, speedY := 0, speedRotation := 0, radian := 0, single := true
      fantest := true, fanmax := 5, controllers := .initial }
  onlyXY := false
  handleSpeedX := 0
  handleSpeedY := 0
  lastspeedX := 0
  lastspeedY := 0
  locals _ := ⟨0, 0, 0, 500, 0, 0, 0, 0⟩
  commands := []

theorem requested_restBoard (speedX : ℝ) :
    (restBoard speedX).requested ⟨.centred, 1⟩ = (speedX, 0) := by
  have middle : deflection HandleData.centred.lr = 0 := by decide
  simp [Board.requested, restBoard, middle]

/-- A set-point 3 away from rest is reached. -/
theorem limits_restBoard :
    (steadyTurns .real ⟨.centred, 1⟩ (restBoard 3)).Limits := by
  refine (Turns.limits_iff_gentle _ (by norm_num [restBoard])).mpr ⟨?_, fun k => ?_⟩
  · have request : (steadyTurns .real ⟨.centred, 1⟩ (restBoard 3)).request 0 = (3, 0) :=
      requested_restBoard 3
    rw [request]
    constructor <;> norm_num [steadyTurns, restBoard, Board.lastspeed]
  · have request : ∀ k, (steadyTurns .real ⟨.centred, 1⟩ (restBoard 3)).request k = (3, 0) :=
      fun _ => requested_restBoard 3
    rw [request, request]
    constructor <;> norm_num [restBoard]

/-- A set-point 100 away is left behind. -/
theorem not_limits_restBoard :
    ¬(steadyTurns .real ⟨.centred, 1⟩ (restBoard 100)).Limits := by
  intro limits
  have near := limits.near _ (by norm_num [restBoard]) 0
  have request : (steadyTurns .real ⟨.centred, 1⟩ (restBoard 100)).request 0 = (100, 0) :=
    requested_restBoard 100
  rw [request] at near
  norm_num [Turns.Near, steadyTurns, restBoard, Board.lastspeed] at near

end BadmintonRobot.Joystick
