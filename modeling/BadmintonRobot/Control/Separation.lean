import Mathlib
import BadmintonRobot.Control.Pid

/-!
# Integral separation in the camera controllers

`Cam_X_PID`, `Cam_Y_PID` and `Cam_Z_PID` leave large errors out of the integral. They compare the
error itself with the bound and not its size, so that large errors below zero stay in.
-/

namespace BadmintonRobot.Control

variable {K : Type}

/-- The sum of the errors for which `Iflag` is set. -/
def flaggedSum (bound : Int) (errors : List Int) : Int :=
  (errors.filter fun e => e < bound).sum

/-- The sum of the errors that are small in size. -/
def separatedSum (bound : Int) (errors : List Int) : Int :=
  (errors.filter fun e => |e| < bound).sum

section Sums

variable {bound : Int}

theorem flaggedSum_le_and_eq_iff (positive : 0 < bound) (errors : List Int) :
    flaggedSum bound errors ≤ separatedSum bound errors ∧
      (flaggedSum bound errors = separatedSum bound errors ↔ ∀ e ∈ errors, -bound < e) := by
  induction errors with
  | nil => simp [flaggedSum, separatedSum]
  | cons e errors ih =>
    obtain ⟨le, eq_iff⟩ := ih
    rw [List.forall_mem_cons, ← eq_iff]
    by_cases above : e < bound
    · by_cases below : -bound < e
      · -- the error is in both sums
        have flagged : flaggedSum bound (e :: errors) = e + flaggedSum bound errors := by
          simp [flaggedSum, above]
        have separated : separatedSum bound (e :: errors) = e + separatedSum bound errors := by
          simp [separatedSum, abs_lt, above, below]
        omega
      · have flagged : flaggedSum bound (e :: errors) = e + flaggedSum bound errors := by
          simp [flaggedSum, above]
        have separated : separatedSum bound (e :: errors) = separatedSum bound errors := by
          simp [separatedSum, abs_lt, below]
        omega
    · have flagged : flaggedSum bound (e :: errors) = flaggedSum bound errors := by
        simp [flaggedSum, above]
      have separated : separatedSum bound (e :: errors) = separatedSum bound errors := by
        simp [separatedSum, abs_lt, above]
      omega

end Sums

section Field

variable [Field K]

/-- A camera controller. -/
abbrev CamPID (K : Type) := Int → Pid K → Controllers K → K × Controllers K

/-- Feed a list of errors to a camera controller, one call for each. -/
def feedCam (function : CamPID K) (pid : Pid K) (s : Controllers K) (errors : List Int) :
    Controllers K :=
  errors.foldl (fun current error => (function error pid current).2) s

/-- The positional PID of the errors so far, of which the integral is `sum`. -/
def separatedPID (pid : Pid K) (sum : Int) (errors : List Int) : K :=
  pid.p * (errors.getLastD 0 + 1 / pid.i * sum +
    pid.d * (errors.getLastD 0 - errors.dropLast.getLastD 0))

/-- A history that holds the last two of a list of errors, and their PID with the flagged sum. -/
structure History.Flagged (h : History K) (pid : Pid K) (bound : Int) (errors : List Int) :
    Prop where
  errorPast1 : h.errorPast1 = errors.getLastD 0
  errorPast2 : h.errorPast2 = errors.dropLast.getLastD 0
  mend : h.mend = separatedPID pid (flaggedSum bound errors) errors

theorem flaggedSum_append_singleton (bound : Int) (errors : List Int) (error : Int) :
    ((flaggedSum bound (errors ++ [error]) : Int) : K) =
      flaggedSum bound errors + iflag error bound * error := by
  by_cases small : error < bound <;> simp [flaggedSum, iflag, small]

namespace History.Flagged

variable {h : History K} {pid : Pid K} {bound : Int} {errors : List Int}

theorem zero (pid : Pid K) (bound : Int) : (History.zero : History K).Flagged pid bound [] := by
  constructor <;> simp [History.zero, separatedPID, flaggedSum]

theorem correct (flagged : h.Flagged pid bound errors) (error : Int) :
    (h.correct pid (1 / pid.i * iflag error bound) error).Flagged pid bound
      (errors ++ [error]) := by
  constructor
  · simp [History.correct]
  · simp [History.correct, flagged.errorPast1]
  · simp only [History.correct, flagged.errorPast1, flagged.errorPast2, flagged.mend, separatedPID,
      List.getLastD_concat, List.dropLast_concat, flaggedSum_append_singleton]
    ring

end History.Flagged

/-- A function that calls one controller with the integral part for errors below a bound. -/
def IsFlagged (function : CamPID K) (controller : Controller) (bound : Int) : Prop :=
  ∀ error pid s,
    function error pid s = s.call controller pid (1 / pid.i * iflag error bound) error

theorem IsFlagged.feed {function : CamPID K} {controller : Controller} {bound : Int}
    (isFlagged : IsFlagged function controller bound) (s : Controllers K) (pid : Pid K)
    (errors : List Int) :
    ((feedCam function pid (pidClear s) errors).history controller).Flagged pid bound errors := by
  induction errors using List.reverseRecOn with
  | nil => exact .zero pid bound
  | append_singleton errors error ih =>
    rw [feedCam, List.foldl_append, List.foldl_cons, List.foldl_nil, ← feedCam, isFlagged,
      Controllers.call_history, Function.update_self]
    exact ih.correct error

/-- The result of a call. -/
theorem IsFlagged.result {function : CamPID K} {controller : Controller} {bound : Int}
    (isFlagged : IsFlagged function controller bound) (s : Controllers K) (pid : Pid K)
    (errors : List Int) (error : Int) :
    (function error pid (feedCam function pid (pidClear s) errors)).1 =
      separatedPID pid (flaggedSum bound (errors ++ [error])) (errors ++ [error]) := by
  rw [isFlagged, Controllers.call]
  exact ((isFlagged.feed s pid errors).correct error).mend

/-- The camera controllers, with their bounds. -/
def camControllers : List (CamPID K × Int) := [(camXPID, 20), (camYPID, 20), (camZPID, 50)]

theorem isFlagged_of_mem {function : CamPID K} {bound : Int}
    (member : (function, bound) ∈ camControllers) :
    0 < bound ∧ ∃ controller, IsFlagged function controller bound := by
  simp only [camControllers, List.mem_cons, List.not_mem_nil, or_false, Prod.mk.injEq] at member
  rcases member with ⟨rfl, rfl⟩ | ⟨rfl, rfl⟩ | ⟨rfl, rfl⟩
  · exact ⟨by decide, .camX, fun _ _ _ => rfl⟩
  · exact ⟨by decide, .camY, fun _ _ _ => rfl⟩
  · exact ⟨by decide, .camZ, fun _ _ _ => rfl⟩

end Field

section Order

variable [Field K] [CharZero K]

theorem separatedPID_inj {pid : Pid K} (nonzero : pid.i ≠ 0) (first second : Int)
    (errors : List Int) :
    separatedPID pid first errors = separatedPID pid second errors ↔
      pid.p = 0 ∨ first = second := by
  rw [separatedPID, separatedPID, mul_eq_mul_left_iff, or_comm, add_left_inj, add_right_inj,
    mul_eq_mul_left_iff, Int.cast_inj]
  simp [nonzero]

/-- The integral is separated exactly if no error is as large below zero as the bound. -/
theorem separated_iff (s : Controllers K) (pid : Pid K) (nonzero : pid.i ≠ 0)
    (errors : List Int) (error : Int) :
    ∀ row ∈ camControllers,
      (row.1 error pid (feedCam row.1 pid (pidClear s) errors)).1 =
          separatedPID pid (separatedSum row.2 (errors ++ [error])) (errors ++ [error]) ↔
        pid.p = 0 ∨ ∀ e ∈ errors ++ [error], -row.2 < e := by
  rintro ⟨function, bound⟩ member
  obtain ⟨positive, controller, isFlagged⟩ := isFlagged_of_mem member
  rw [isFlagged.result, separatedPID_inj nonzero, (flaggedSum_le_and_eq_iff positive _).2]

/-- The errors 30 and -5 of the hand-over camera: the first one is not summed up. -/
theorem separated_handover :
    (camXPID (-5) (pidList 15) (feedCam camXPID (pidList 15) (pidClear .initial) [30])).1 =
      separatedPID (pidList 15 : Pid ℚ) (-5) [30, -5] :=
  (separated_iff .initial (pidList 15) (by decide) [30] (-5) (camXPID, 20)
    List.mem_cons_self).mpr (.inr (by decide))

/-- The error -30 of the hand-over camera is summed up. -/
theorem not_separated_handover :
    (camXPID (-30) (pidList 15) (feedCam camXPID (pidList 15) (pidClear .initial) [])).1 ≠
      separatedPID (pidList 15 : Pid ℚ) (separatedSum 20 [-30]) [-30] := by
  decide +kernel

end Order

end BadmintonRobot.Control
