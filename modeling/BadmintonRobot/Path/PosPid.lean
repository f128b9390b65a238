import Mathlib
import BadmintonRobot.Numeric.LeakySum
import BadmintonRobot.Path.SetKeep

/-!
# The positional controllers of `pid1.c`

`Pos_Pid` keeps the variables of each controller apart. Its integral is multiplied by `win` in every
call, so that old errors leak out of it. The result of a call depends on the errors of its own
controller only, whatever calls of others lie between them.
-/

namespace BadmintonRobot.Path

open Control Numeric

/-- The function `Pos_PidClr`. The table has as many rows as there are controllers, so the error
message is never shown. -/
noncomputable def posPidClr (s : PosPids) : PosPids :=
  { s with pe := 0, ie := 0, de := 0, e0 := 0, e1 := 0, u := 0 }

/-- The fixed arguments `win` and `max` of the calls of each controller. -/
structure PosArgs where
  win : PosDir → ℝ
  max : PosDir → ℝ

/-- A call: the controller and the error. -/
abbrev PosCall := PosDir × ℝ

namespace PosArgs

variable (args : PosArgs)

/-- The result of a call, and the variables after it. -/
noncomputable def call (s : PosPids) (c : PosCall) : ℝ × PosPids :=
  posPid c.2 (args.win c.1) c.1 (args.max c.1) s

/-- The variables after some calls. -/
noncomputable def after (s : PosPids) (calls : List PosCall) : PosPids :=
  calls.foldl (fun current c => (args.call current c).2) s

end PosArgs

/-- The errors of one controller among some calls. -/
def errorsOf (dir : PosDir) (calls : List PosCall) : List ℝ :=
  (calls.filter fun c => c.1 = dir).map Prod.snd

section Errors

variable (dir : PosDir) (calls : List PosCall) (err : ℝ)

theorem errorsOf_self : errorsOf dir (calls ++ [(dir, err)]) = errorsOf dir calls ++ [err] := by
  simp [errorsOf]

theorem errorsOf_of_ne {other : PosDir} (apart : other ≠ dir) :
    errorsOf dir (calls ++ [(other, err)]) = errorsOf dir calls := by
  simp [errorsOf, apart]

end Errors

/-- The variables of every controller hold the leaky sum and the last one of its own errors. -/
structure PosPids.Tracks (gains : PosDir → Pid ℝ) (args : PosArgs) (calls : List PosCall)
    (s : PosPids) : Prop where
  gains : s.sPosPid = gains
  ie : ∀ dir, s.ie dir = leakySum (args.win dir) (errorsOf dir calls)
  e1 : ∀ dir, s.e1 dir = (errorsOf dir calls).getLastD 0

namespace PosPids.Tracks

variable {gains : PosDir → Pid ℝ} {args : PosArgs} {calls : List PosCall} {s : PosPids}

theorem clear (args : PosArgs) (s : PosPids) :
    (posPidClr s).Tracks s.sPosPid args [] where
  gains := rfl
  ie _ := rfl
  e1 _ := rfl

theorem call (tracks : s.Tracks gains args calls) (c : PosCall) :
    (args.call s c).2.Tracks gains args (calls ++ [c]) where
  gains := tracks.gains
  ie dir := by
    obtain ⟨other, err⟩ := c
    by_cases same : other = dir
    · subst same
      rw [errorsOf_self, leakySum_append_singleton, ← tracks.ie]
      exact Function.update_self ..
    · rw [errorsOf_of_ne _ _ _ same, ← tracks.ie]
      exact Function.update_of_ne (Ne.symm same) ..
  e1 dir := by
    obtain ⟨other, err⟩ := c
    by_cases same : other = dir
    · subst same
      rw [errorsOf_self, List.getLastD_concat]
      exact Function.update_self ..
    · rw [errorsOf_of_ne _ _ _ same, ← tracks.e1]
      exact Function.update_of_ne (Ne.symm same) ..

theorem after (args : PosArgs) (s : PosPids) (calls : List PosCall) :
    (args.after (posPidClr s) calls).Tracks s.sPosPid args calls := by
  induction calls using List.reverseRecOn with
  | nil => exact clear args s
  | append_singleton calls c ih =>
    rw [PosArgs.after, List.foldl_append]
    exact ih.call c

end PosPids.Tracks

/-- The code's limit is the usual one for a range that is not empty. -/
theorem limited_eq {value bound : ℝ} (nonneg : 0 ≤ bound) :
    limited value bound = max (-bound) (min value bound) := by
  rw [limited]
  split_ifs with above below
  · rw [min_eq_right above.le, max_eq_right (by linarith)]
  · rw [min_eq_left (by linarith), max_eq_left below.le]
  · rw [min_eq_left (not_lt.mp above), max_eq_right (not_lt.mp below)]

/-- The integral of a controller whose errors are `errors`. -/
noncomputable def leakyIntegral (win : ℝ) (errors : List ℝ) : ℝ :=
  ∑ k ∈ Finset.range errors.length, win ^ (errors.length - k) * errors.getD k 0

/-- A call after `Pos_PidClr` and any other calls. -/
theorem posPid_leaky (args : PosArgs) (range : ∀ dir, 0 ≤ args.win dir ∧ args.win dir ≤ 1)
    (limits : ∀ dir, 0 ≤ args.max dir) (s : PosPids) (calls : List PosCall) (dir : PosDir)
    (err : ℝ) :
    (args.call (args.after (posPidClr s) calls) (dir, err)).1 =
        max (-args.max dir) (min ((s.sPosPid dir).p * err +
          (s.sPosPid dir).i * leakyIntegral (args.win dir) (errorsOf dir calls ++ [err]) +
          (s.sPosPid dir).d * (err - (errorsOf dir calls).getLastD 0)) (args.max dir)) ∧
      ∀ bound, args.win dir < 1 → (∀ e ∈ errorsOf dir calls ++ [err], |e| ≤ bound) →
        |leakyIntegral (args.win dir) (errorsOf dir calls ++ [err])| ≤
          bound * args.win dir / (1 - args.win dir) := by
  have tracks := PosPids.Tracks.after args s calls
  constructor
  · rw [PosArgs.call, posPid, leakyIntegral, ← leakySum_eq_sum, leakySum_append_singleton]
    dsimp only
    rw [limited_eq (limits dir), tracks.gains, tracks.ie, tracks.e1]
  · intro bound leaks small
    have bounded : 0 ≤ bound := (abs_nonneg err).trans (small err (by simp))
    rw [leakyIntegral, ← leakySum_eq_sum]
    exact abs_leakySum_le (range dir).1 leaks small bounded

/-- The arguments of `pole_sonic`, `_set_keep` and the light board. -/
noncomputable def sourceArgs : PosArgs where
  win
    | .fSonic | .aKeep | .dKeep => 1
    | .sSonic => 0.999
    | .dLB | .aLB => 0.998
  max
    | .fSonic => 1800
    | .sSonic => 500
    | .dLB => 1500
    | .aLB => 300
    | .aKeep => 100
    | .dKeep => 1000

/-- The second error of the side sonar, with a call for the front sonar between them. -/
theorem posPid_leaky_side :
    (sourceArgs.call (sourceArgs.after (posPidClr Keeper.initial.pids)
        [(.sSonic, 10), (.fSonic, 7)]) (.sSonic, 20)).1 =
      max (-500) (min (1 * 20 + 0.001 * (0.999 ^ 2 * 10 + 0.999 * 20) + 0 * (20 - 10)) 500) := by
  have result := (posPid_leaky sourceArgs (fun dir => by cases dir <;> norm_num [sourceArgs])
    (fun dir => by cases dir <;> norm_num [sourceArgs]) Keeper.initial.pids
    [(.sSonic, 10), (.fSonic, 7)] .sSonic 20).1
  simpa [errorsOf, leakyIntegral, Finset.sum_range_succ, sourceArgs, Keeper.initial, sPosPid,
    Pid.gains] using result

end BadmintonRobot.Path
