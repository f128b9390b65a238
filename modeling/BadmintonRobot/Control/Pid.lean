import Mathlib
import BadmintonRobot.Numeric.Literal

/-!
# The controllers of `pid.c`

Every controller is a positional PID computed by increments: it keeps the last two
errors and the sum of all corrections in variables of its own function, whatever
parameters it is called with. Numbers are exact, over any field.
-/

namespace BadmintonRobot.Control

variable {K : Type}

/-- The structure `PID`. Only the gains are read by the controllers below. -/
structure Pid (K : Type) where
  p : K
  i : K
  d : K
  mend : K
  ep1 : K
  ep2 : K

/-- The variables in which a controller function keeps its history. -/
structure History (K : Type) where
  errorPast1 : K
  errorPast2 : K
  mend : K

/-- The controller functions with a history of their own. -/
inductive Controller where
  | angle
  | distance
  | camX
  | camY
  | camZ
  | camA
  | wtD1
  | wtD2
deriving DecidableEq, Repr

/-- The variables of `pid.c`. -/
structure Controllers (K : Type) where
  pidList : Fin 30 → Pid K
  history : Controller → History K
  vout : Fin 5 → K

section Field

variable [Field K]

/-- A history without errors. -/
def History.zero : History K where
  errorPast1 := 0
  errorPast2 := 0
  mend := 0

/-- Parameters with an empty history, as an initialiser leaves them. -/
def Pid.gains (p i d : K) : Pid K where
  p := p
  i := i
  d := d
  mend := 0
  ep1 := 0
  ep2 := 0

/-- The initialiser of `Pid_List`, row by row. -/
def pidList : Fin 30 → Pid K :=
  ![ .gains 0 1000000 0, .gains 0 1000000 0,
    -- a straight line: angle, distance
    .gains (8 / 10) 1000000 0, .gains 9 1000000 8,
    -- keeping a position: angle, distance
    .gains (6 / 10) 1000000 0, .gains 6 1000000 0,
    -- a path of points: angle, distance
    .gains (11 / 10) 1000000 3, .gains 8 1000000 0,
    .gains 0 1000000 0, .gains 0 1000000 0, .gains 0 1000000 0, .gains 0 1000000 0,
    -- the camera on a circle: distance, angle
    .gains 60 5000 1, .gains (-130) 5000 1,
    .gains 10 1000 0, .gains (15 / 10) 600 0, .gains 20 10000 0, .gains 35 500 0,
    .gains (-10) 3000 0, .gains (-50) 10000 1, .gains (-5 / 10) 10000 1,
    .gains 30 3000 0, .gains 25 3000 0,
    .gains 10 100000 (1 / 10), .gains (-5 / 10) 100000 (1 / 10), .gains 20 100000 (1 / 10),
    .gains (-20) 10000 3, .gains (5 / 10) 5000 3,
    -- the joystick, and the ducted fans
    .gains 1 1000000 0, .gains 0 1000000 0 ]

/-- The variables of `pid.c` before the first call. -/
def Controllers.initial : Controllers K where
  pidList := Control.pidList
  history _ := .zero
  vout _ := 0

/-- One call of a controller. `integral` is the factor of the error in the integral
part, which some of the functions switch off. -/
def History.correct (h : History K) (pid : Pid K) (integral error : K) : History K :=
  let a := pid.p * (1 + integral + pid.d)
  let b := -pid.p * (1 + 2 * pid.d)
  let c := pid.p * pid.d
  let delta := a * error + b * h.errorPast1 + c * h.errorPast2
  { mend := h.mend + delta, errorPast2 := h.errorPast1, errorPast1 := error }

/-- The function `PID_Clear`. It leaves the last two rows of `Pid_List` as they are. -/
def pidClear (s : Controllers K) : Controllers K where
  pidList n := if n < 28 then { s.pidList n with mend := 0, ep1 := 0, ep2 := 0 } else s.pidList n
  history _ := .zero
  vout _ := 0

/-- A call of one controller function: the result and the variables after it. -/
def Controllers.call (s : Controllers K) (controller : Controller) (pid : Pid K)
    (integral error : K) : K × Controllers K :=
  let next := (s.history controller).correct pid integral error
  (next.mend, { s with history := Function.update s.history controller next })

@[simp] theorem Controllers.call_history (s : Controllers K) (controller : Controller)
    (pid : Pid K) (integral error : K) :
    (s.call controller pid integral error).2.history =
      Function.update s.history controller ((s.history controller).correct pid integral error) :=
  rfl

/-- The function `PID`. Its parameters are passed by value, so what it stores in their
history is lost. -/
def pid (error : K) (pid : Pid K) : K :=
  (History.correct ⟨pid.ep1, pid.ep2, pid.mend⟩ pid (1 / pid.i) error).mend

/-- The function `AnglePID`. -/
def anglePID (error : K) (pid : Pid K) (s : Controllers K) : K × Controllers K :=
  s.call .angle pid (1 / pid.i) error

/-- The function `DistancePID`. -/
def distancePID (error : K) (pid : Pid K) (s : Controllers K) : K × Controllers K :=
  s.call .distance pid (1 / pid.i) error

/-- The factor `Iflag`, which switches the integral part off for large errors. -/
def iflag (errorDis bound : Int) : K := if errorDis < bound then 1 else 0

/-- The function `Cam_X_PID`. -/
def camXPID (errorDis : Int) (pid : Pid K) (s : Controllers K) : K × Controllers K :=
  s.call .camX pid (1 / pid.i * iflag errorDis 20) errorDis

/-- The function `Cam_Y_PID`. -/
def camYPID (errorDis : Int) (pid : Pid K) (s : Controllers K) : K × Controllers K :=
  s.call .camY pid (1 / pid.i * iflag errorDis 20) errorDis

/-- The function `Cam_Z_PID`. -/
def camZPID (errorDis : Int) (pid : Pid K) (s : Controllers K) : K × Controllers K :=
  s.call .camZ pid (1 / pid.i * iflag errorDis 50) errorDis

/-- The function `Cam_A_PID`. -/
def camAPID (errorAngle : K) (pid : Pid K) (s : Controllers K) : K × Controllers K :=
  s.call .camA pid (1 / pid.i) errorAngle

/-- The function `WT_D1_PID`. -/
def wtD1PID (errorDis : K) (pid : Pid K) (s : Controllers K) : K × Controllers K :=
  s.call .wtD1 pid (1 / pid.i) errorDis

/-- The function `WT_D2_PID`. -/
def wtD2PID (errorDis : K) (pid : Pid K) (s : Controllers K) : K × Controllers K :=
  s.call .wtD2 pid (1 / pid.i) errorDis

/-- Feed a list of errors to a controller function, one call for each. -/
def feed (function : K → Pid K → Controllers K → K × Controllers K) (pid : Pid K)
    (s : Controllers K) (errors : List K) : Controllers K :=
  errors.foldl (fun current error => (function error pid current).2) s

/-- The positional PID of the errors so far. The error before the first one is 0. -/
def positional (pid : Pid K) (errors : List K) : K :=
  pid.p * (errors.getLastD 0 + errors.sum / pid.i +
    pid.d * (errors.getLastD 0 - errors.dropLast.getLastD 0))

/-- A history that holds the last two of a list of errors and its positional PID. -/
structure History.Records (h : History K) (pid : Pid K) (errors : List K) : Prop where
  errorPast1 : h.errorPast1 = errors.getLastD 0
  errorPast2 : h.errorPast2 = errors.dropLast.getLastD 0
  mend : h.mend = positional pid errors

theorem History.zero_records (pid : Pid K) : (History.zero : History K).Records pid [] := by
  constructor <;> simp [History.zero, positional]

/-- The increments telescope. -/
theorem History.Records.correct {h : History K} {pid : Pid K} {errors : List K}
    (records : h.Records pid errors) (error : K) :
    (h.correct pid (1 / pid.i) error).Records pid (errors ++ [error]) := by
  constructor
  · simp [History.correct]
  · simp [History.correct, records.errorPast1]
  · simp only [History.correct, records.errorPast1, records.errorPast2, records.mend, positional,
      List.getLastD_concat, List.dropLast_concat, List.sum_append, List.sum_singleton]
    ring

/-- A function that calls one controller with the integral part always on. -/
def IsPlain (function : K → Pid K → Controllers K → K × Controllers K)
    (controller : Controller) : Prop :=
  ∀ error pid s, function error pid s = s.call controller pid (1 / pid.i) error

theorem IsPlain.feed_records {function : K → Pid K → Controllers K → K × Controllers K}
    {controller : Controller} (plain : IsPlain function controller) (s : Controllers K)
    (pid : Pid K) (errors : List K) :
    ((feed function pid (pidClear s) errors).history controller).Records pid errors := by
  induction errors using List.reverseRecOn with
  | nil => exact History.zero_records pid
  | append_singleton errors error ih =>
    rw [feed, List.foldl_append, List.foldl_cons, List.foldl_nil, ← feed, plain,
      Controllers.call_history, Function.update_self]
    exact ih.correct error

/-- Incremental and positional PID agree: after `PID_Clear` and any errors, the next
result is the positional PID of all errors. -/
theorem incremental_eq_positional (s : Controllers K) (pid : Pid K) (errors : List K)
    (error : K) :
    ∀ function ∈ [anglePID, distancePID, camAPID, wtD1PID, wtD2PID],
      (function error pid (feed function pid (pidClear s) errors)).1 =
        pid.p * (error + (errors.sum + error) / pid.i + pid.d * (error - errors.getLastD 0)) := by
  have each : ∀ function controller, IsPlain function controller →
      (function error pid (feed function pid (pidClear s) errors)).1 =
        pid.p * (error + (errors.sum + error) / pid.i +
          pid.d * (error - errors.getLastD 0)) := by
    intro function controller plain
    have records := (plain.feed_records s pid errors).correct error
    rw [plain, Controllers.call, records.mend, positional]
    simp
  intro function member
  simp only [List.mem_cons, List.not_mem_nil, or_false] at member
  rcases member with rfl | rfl | rfl | rfl | rfl
  · exact each _ .angle fun _ _ _ => rfl
  · exact each _ .distance fun _ _ _ => rfl
  · exact each _ .camA fun _ _ _ => rfl
  · exact each _ .wtD1 fun _ _ _ => rfl
  · exact each _ .wtD2 fun _ _ _ => rfl

/-- The errors 1 and 2 with the parameters of a path's angle. -/
theorem incremental_eq_positional_path :
    (anglePID 2 (pidList 6) (feed anglePID (pidList 6) (pidClear .initial) [(1 : ℚ)])).1 =
      (pidList 6).p * (2 + (([1] : List ℚ).sum + 2) / (pidList 6).i +
        (pidList 6).d * (2 - [1].getLastD 0)) :=
  incremental_eq_positional .initial (pidList 6) [1] 2 anglePID List.mem_cons_self

end Field

end BadmintonRobot.Control
