import Mathlib
import BadmintonRobot.Path.PointPath

/-!
# Holding a position

`_set_keep` drives the robot to a point and a heading. It reads the pose at the beginning of
each turn, stores limited speeds, and tests a newer pose to see whether it has arrived. The
test of the heading is meant for both directions, but both of its comparisons are with
`<`, so that every heading far enough below the aim passes it.
-/

namespace BadmintonRobot.Path

open Control General

/-- The function `GetLineAngle`. -/
noncomputable def getLineAngle (sta fin : Point) : ℝ :=
  if abs' (sta.x - fin.x) ≤ 0.02 then if sta.y > fin.y then -pi / 2 else pi / 2
  else
    let radian := Real.arctan ((fin.y - sta.y) / (fin.x - sta.x))
    if sta.x > fin.x ∧ sta.y < fin.y then radian + pi
    else if sta.x > fin.x ∧ sta.y > fin.y then radian - pi
    else radian

/-- The controllers `ePosPID_t`. -/
inductive PosDir where
  | fSonic
  | sSonic
  | dLB
  | aLB
  | aKeep
  | dKeep
deriving DecidableEq, Repr

/-- The variables of `pid1.c`. -/
structure PosPids where
  sPosPid : PosDir → Pid ℝ
  pe : PosDir → ℝ
  ie : PosDir → ℝ
  de : PosDir → ℝ
  e0 : PosDir → ℝ
  e1 : PosDir → ℝ
  u : PosDir → ℝ

/-- The initialiser of `sPos_Pid`. -/
noncomputable def sPosPid : PosDir → Pid ℝ
  | .fSonic => .gains 0.015 0 0
  | .sSonic => .gains 1 0.001 0
  | .dLB => .gains 16 0 10
  | .aLB => .gains 10 0 0
  | .aKeep => .gains 0.85 0 3
  | .dKeep => .gains 6 0 3

/-- Limit a value to the range between `-bound` and `bound`. -/
noncomputable def limited (value bound : ℝ) : ℝ :=
  if value > bound then bound else if value < -bound then -bound else value

/-- The function `Pos_Pid`: the result and the variables after the call. -/
noncomputable def posPid (err win : ℝ) (dir : PosDir) (max : ℝ) (s : PosPids) : ℝ × PosPids :=
  let pid := s.sPosPid dir
  let ie := (s.ie dir + err) * win
  let de := err - s.e1 dir
  let u := limited (pid.p * err + pid.i * ie + pid.d * de) max
  (u, { s with
    e0 := Function.update s.e0 dir err
    pe := Function.update s.pe dir err
    ie := Function.update s.ie dir ie
    de := Function.update s.de dir de
    u := Function.update s.u dir u
    e1 := Function.update s.e1 dir err })

/-- The arguments of `_set_keep`. -/
structure KeepArgs where
  pt : Point
  aimRad : ℝ
  maxv : ℝ
  maxa : ℝ
  err : ℝ

/-- The variables that `_set_keep` writes, and whether it has returned. -/
structure Keeper where
  pids : PosPids
  controllers : Controllers ℝ
  speedX : ℝ
  speedY : ℝ
  speedRotation : ℝ
  returned : Bool

/-- The variables at the start of the program. -/
noncomputable def Keeper.initial : Keeper where
  pids := ⟨sPosPid, 0, 0, 0, 0, 0, 0⟩
  controllers := .initial
  speedX := 0
  speedY := 0
  speedRotation := 0
  returned := false

/-- `_set_keep` up to its loop. -/
noncomputable def Keeper.enter (s : Keeper) : Keeper :=
  { s with controllers := pidClear s.controllers, returned := false }

namespace KeepArgs

variable (args : KeepArgs)

/-- A turn up to the storing of the speeds. -/
noncomputable def drive (gps : GpsState) (s : Keeper) : Keeper :=
  let lineangle := getLineAngle gps.position args.pt
  let errorAngle := wrapAngle (args.aimRad - gps.radian)
  let errorDis := getLength gps.position args.pt
  let angle := posPid errorAngle 1 .aKeep 100 s.pids
  let distance := posPid errorDis 1 .dKeep 1000 angle.2
  let voutA := limited (1000 * angle.1) args.maxa
  let speed := limited distance.1 args.maxv
  let speedX := speed * Real.cos lineangle
  let speedY := speed * Real.sin lineangle
  let phi := gps.radian
  { s with
    pids := distance.2
    speedX := speedX * Real.cos phi + speedY * Real.sin phi
    speedY := -speedX * Real.sin phi + speedY * Real.cos phi
    speedRotation := voutA }

/-- The test at the end of a turn. -/
def Exits (gps : GpsState) : Prop :=
  getLength gps.position args.pt < args.err ∧
    (gps.radian - args.aimRad < 0.005 ∨ gps.radian - args.aimRad < -0.005)

open Classical in
/-- The end of a turn: `SPEED_STOP` and the return if the test passes. -/
noncomputable def finish (gps : GpsState) (s : Keeper) : Keeper :=
  if args.Exits gps then { s with speedX := 0, speedY := 0, speedRotation := 0, returned := true }
  else s

/-- The variables after some turns. `first` and `second` are the poses at the beginning and at
the end of the turns. -/
noncomputable def after (first second : Nat → GpsState) (s : Keeper) : Nat → Keeper
  | 0 => s.enter
  | k + 1 =>
    if (after first second s k).returned then after first second s k
    else args.finish (second k) (args.drive (first k) (after first second s k))

/-- The pose is within `err` of the point, with its heading at the aim up to whole turns. -/
def Arrived (gps : GpsState) : Prop :=
  getLength gps.position args.pt < args.err ∧
    ∃ turns : ℤ, |gps.radian - args.aimRad - 2 * Real.pi * turns| < 0.005

/-- The speeds are limited. -/
structure SpeedLimited (s : Keeper) : Prop where
  planar : √(s.speedX ^ 2 + s.speedY ^ 2) ≤ |args.maxv|
  rotation : |s.speedRotation| ≤ |args.maxa|

/-- `_set_keep` returns at an arrived pose only, and stores limited speeds in every turn. -/
structure Holds (first second : Nat → GpsState) (s : Keeper) : Prop where
  arrived : ∀ k, (args.after first second s k).returned = false →
    (args.after first second s (k + 1)).returned = true → args.Arrived (second k)
  limited : ∀ k, (args.after first second s k).returned = false →
    args.SpeedLimited (args.drive (first k) (args.after first second s k)) ∧
      args.SpeedLimited (args.after first second s (k + 1))

/-- The heading is 0.005 or more below the aim, and not so little off a whole turn. -/
def FarBelow (gps : GpsState) : Prop :=
  gps.radian - args.aimRad ≤ -0.005 ∧
    ∀ turns : ℤ, 0.005 ≤ |gps.radian - args.aimRad - 2 * Real.pi * turns|

variable {args}

theorem abs_limited_le (value bound : ℝ) : |limited value bound| ≤ |bound| := by
  rw [limited]
  split_ifs with above below
  · exact le_rfl
  · rw [abs_neg]
  · exact (abs_le.mpr ⟨not_lt.mp below, not_lt.mp above⟩).trans (le_abs_self bound)

/-- The length of a speed does not depend on the directions in which it is split. -/
theorem planar_length (speed line phi : ℝ) :
    √((speed * Real.cos line * Real.cos phi + speed * Real.sin line * Real.sin phi) ^ 2 +
      (-(speed * Real.cos line) * Real.sin phi + speed * Real.sin line * Real.cos phi) ^ 2) =
      |speed| := by
  rw [← Real.sqrt_sq_eq_abs]
  congr 1
  have one := Real.sin_sq_add_cos_sq line
  have two := Real.sin_sq_add_cos_sq phi
  linear_combination speed ^ 2 * (Real.cos line ^ 2 + Real.sin line ^ 2) * two + speed ^ 2 * one

theorem speedLimited_drive (gps : GpsState) (s : Keeper) : args.SpeedLimited (args.drive gps s) where
  planar := by
    simp only [drive]
    rw [planar_length]
    exact abs_limited_le _ _
  rotation := abs_limited_le _ _

theorem SpeedLimited.finish {s : Keeper} (limits : args.SpeedLimited s) (gps : GpsState) :
    args.SpeedLimited (args.finish gps s) := by
  rw [KeepArgs.finish]
  split
  · constructor <;> simp
  · exact limits

/-- The return comes with the first pose that passes the test. -/
theorem returned_iff (first second : Nat → GpsState) (s : Keeper) (k : Nat) :
    (args.after first second s k).returned = true ↔ ∃ j < k, args.Exits (second j) := by
  induction k with
  | zero => simp [after, Keeper.enter]
  | succ k ih =>
    rw [after]
    cases before : (args.after first second s k).returned with
    | true =>
      obtain ⟨j, earlier, exits⟩ := ih.mp before
      simp only [if_true, before, true_iff]
      exact ⟨j, by omega, exits⟩
    | false =>
      have none : ∀ j < k, ¬args.Exits (second j) := by
        intro j earlier exits
        simpa [before] using ih.mpr ⟨j, earlier, exits⟩
      simp only [Bool.false_eq_true, if_false, finish]
      by_cases exits : args.Exits (second k)
      · rw [if_pos exits]
        exact ⟨fun _ => ⟨k, by omega, exits⟩, fun _ => rfl⟩
      · rw [if_neg exits]
        constructor
        · intro returned
          simp [drive, before] at returned
        · rintro ⟨j, earlier, passes⟩
          rcases Nat.lt_succ_iff_lt_or_eq.mp earlier with less | rfl
          · exact absurd passes (none j less)
          · exact absurd passes exits

/-- A pose that passes the test has arrived exactly if its heading is not far below the aim. -/
theorem Exits.arrived_iff {gps : GpsState} (exits : args.Exits gps) :
    args.Arrived gps ↔ ¬args.FarBelow gps := by
  have upper : gps.radian - args.aimRad < 0.005 := by
    rcases exits.2 with near | below <;> linarith
  constructor
  · rintro ⟨-, turns, close⟩ far
    exact absurd close (not_lt.mpr (far.2 turns))
  · intro near
    refine ⟨exits.1, ?_⟩
    by_cases lower : gps.radian - args.aimRad ≤ -0.005
    · by_contra open'
      exact near ⟨lower, fun turns => not_lt.mp fun close => open' ⟨turns, close⟩⟩
    · refine ⟨0, ?_⟩
      rw [Int.cast_zero, mul_zero, sub_zero, abs_lt]
      exact ⟨not_le.mp lower, upper⟩

theorem running_iff (first second : Nat → GpsState) (s : Keeper) (k : Nat) :
    (args.after first second s k).returned = false ↔ ∀ j < k, ¬args.Exits (second j) := by
  rw [Bool.eq_false_iff, Ne, returned_iff]
  simp only [not_exists, not_and]

theorem Holds.not_farBelow {first second : Nat → GpsState} {s : Keeper}
    (holds : args.Holds first second s) {k : Nat} (exits : args.Exits (second k))
    (none : ∀ j < k, ¬args.Exits (second j)) : ¬args.FarBelow (second k) := by
  rw [← exits.arrived_iff]
  have running := (running_iff first second s k).mpr none
  have returned := (returned_iff first second s (k + 1)).mpr ⟨k, by omega, exits⟩
  exact holds.arrived k running returned

/-- Position hold is correct exactly if the first pose that passes the test does not have its
heading far below the aim. -/
theorem holds_iff (args : KeepArgs) (first second : Nat → GpsState) (s : Keeper) :
    args.Holds first second s ↔
      ∀ k, args.Exits (second k) → (∀ j < k, ¬args.Exits (second j)) →
        ¬args.FarBelow (second k) := by
  constructor
  · intro holds k exits none
    exact holds.not_farBelow exits none
  · intro near
    constructor
    · intro k running returned
      have none := (running_iff first second s k).mp running
      obtain ⟨j, earlier, exits⟩ := (returned_iff first second s (k + 1)).mp returned
      obtain rfl : j = k := by
        by_contra other
        exact none j (by omega) exits
      exact exits.arrived_iff.mpr (near j exits none)
    · intro k running
      refine ⟨speedLimited_drive _ _, ?_⟩
      rw [after, running, if_neg Bool.false_ne_true]
      exact (speedLimited_drive _ _).finish _

/-- Hold the origin and the heading 0. -/
noncomputable def origin : KeepArgs where
  pt := ⟨0, 0⟩
  aimRad := 0
  maxv := 100
  maxa := 100
  err := 1

theorem exits_origin : origin.Exits ⟨⟨0, 0⟩, -3⟩ := by
  constructor
  · simp [origin, getLength]
  · right
    norm_num [origin]

theorem farBelow_origin : origin.FarBelow ⟨⟨0, 0⟩, -3⟩ := by
  constructor
  · norm_num [origin]
  · intro turns
    simp only [origin]
    have low := Real.pi_gt_three
    have high := Real.pi_lt_d2
    rcases lt_trichotomy turns 0 with negative | rfl | positive
    · have : (turns : ℝ) ≤ -1 := by exact_mod_cast Int.le_sub_one_of_lt negative
      refine le_trans ?_ (le_abs_self _)
      nlinarith
    · norm_num
    · have : (1 : ℝ) ≤ turns := by exact_mod_cast positive
      refine le_trans ?_ (neg_le_abs _)
      nlinarith

/-- At the point with the heading -3 and the aim 0, `_set_keep` returns after its first turn. -/
theorem not_holds_origin :
    ¬origin.Holds (fun _ => ⟨⟨0, 0⟩, -3⟩) (fun _ => ⟨⟨0, 0⟩, -3⟩) .initial := by
  intro holds
  exact holds.not_farBelow (k := 0) exits_origin (by simp) farBelow_origin

end KeepArgs

end BadmintonRobot.Path
