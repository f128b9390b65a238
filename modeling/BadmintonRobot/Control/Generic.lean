import Mathlib
import BadmintonRobot.Control.Pid

/-!
# The generic controller

`PID` is meant to keep its history in the row of `Pid_List` it is called with. The row is passed by
value, so the history ends with the call, and every call answers as if it were the first one after
`PID_Clear`. The clearing itself leaves out the last two rows.
-/

namespace BadmintonRobot.Control

variable {K : Type} [Field K]

/-- A call of `PID` with a row of `Pid_List`. -/
structure RowCall (K : Type) where
  row : Fin 30
  error : K

/-- The result of a call, and the variables after it. -/
def Controllers.callRow (s : Controllers K) (call : RowCall K) : K × Controllers K :=
  (pid call.error (s.pidList call.row), s)

/-- The variables after some calls. -/
def Controllers.afterRows (s : Controllers K) (calls : List (RowCall K)) : Controllers K :=
  calls.foldl (fun current call => (current.callRow call).2) s

/-- The errors of the calls with a row. -/
def rowErrors (row : Fin 30) (calls : List (RowCall K)) : List K :=
  (calls.filter fun call => call.row = row).map RowCall.error

/-- After `PID_Clear`, every call with a row returns the positional PID of the errors that the row
has had since then. -/
def KeepsHistory (s : Controllers K) (row : Fin 30) (calls : List (RowCall K)) : Prop :=
  ∀ earlier error later, calls = earlier ++ ⟨row, error⟩ :: later →
    (((pidClear s).afterRows earlier).callRow ⟨row, error⟩).1 =
      positional (s.pidList row) (rowErrors row earlier ++ [error])

/-- What the stored history of a row adds to a result. -/
def Pid.leftover (pid : Pid K) : K :=
  pid.mend - pid.p * (1 + 2 * pid.d) * pid.ep1 + pid.p * pid.d * pid.ep2

/-- What the errors before a call ought to add to its result. -/
def Pid.memory (pid : Pid K) (errors : List K) : K :=
  pid.p * (errors.sum / pid.i - pid.d * errors.getLastD 0)

/-- Calls of `PID` change nothing. -/
theorem Controllers.afterRows_eq (s : Controllers K) (calls : List (RowCall K)) :
    s.afterRows calls = s := by
  induction calls with
  | nil => rfl
  | cons call calls ih => exact ih

theorem pid_eq (error : K) (row : Pid K) :
    pid error row = row.p * (1 + 1 / row.i + row.d) * error + row.leftover := by
  simp only [pid, History.correct, Pid.leftover]
  ring

theorem positional_snoc (pid : Pid K) (errors : List K) (error : K) :
    positional pid (errors ++ [error]) =
      pid.p * (1 + 1 / pid.i + pid.d) * error + pid.memory errors := by
  simp only [positional, Pid.memory, List.getLastD_concat, List.dropLast_concat, List.sum_append,
    List.sum_singleton]
  ring

/-- `PID_Clear` does not touch the gains. -/
theorem gains_pidClear (s : Controllers K) (row : Fin 30) :
    ((pidClear s).pidList row).p = (s.pidList row).p ∧
      ((pidClear s).pidList row).i = (s.pidList row).i ∧
      ((pidClear s).pidList row).d = (s.pidList row).d := by
  simp only [pidClear]
  split_ifs <;> exact ⟨rfl, rfl, rfl⟩

/-- A call is right exactly if what is stored adds what the earlier errors ought to add. -/
theorem callRow_eq_positional_iff (s : Controllers K) (row : Fin 30)
    (earlier : List (RowCall K)) (error : K) :
    (((pidClear s).afterRows earlier).callRow ⟨row, error⟩).1 =
        positional (s.pidList row) (rowErrors row earlier ++ [error]) ↔
      ((pidClear s).pidList row).leftover = (s.pidList row).memory (rowErrors row earlier) := by
  obtain ⟨p, i, d⟩ := gains_pidClear s row
  rw [Controllers.afterRows_eq, Controllers.callRow, pid_eq, positional_snoc, p, i, d,
    add_right_inj]

theorem keepsHistory_iff (s : Controllers K) (row : Fin 30) (calls : List (RowCall K)) :
    KeepsHistory s row calls ↔ ∀ earlier error later, calls = earlier ++ ⟨row, error⟩ :: later →
      ((pidClear s).pidList row).leftover = (s.pidList row).memory (rowErrors row earlier) := by
  simp only [KeepsHistory, callRow_eq_positional_iff]

/-- A row without proportional gain has no history to keep. -/
theorem leftover_of_p_zero {pid : Pid K} (zero : pid.p = 0) : pid.leftover = pid.mend := by
  simp [Pid.leftover, zero]

/-- `PID` has the closed form for all calls exactly if the row has no proportional gain and nothing
stored, and for some calls exactly if before each of them what is stored happens to be right. -/
theorem generic_keepsHistory_iff (s : Controllers K) (row : Fin 30)
    (nonzero : (s.pidList row).i ≠ 0) :
    ((∀ calls, KeepsHistory s row calls) ↔
      (s.pidList row).p = 0 ∧ (28 ≤ row → (s.pidList row).mend = 0)) ∧
    ∀ calls, KeepsHistory s row calls ↔
      ∀ earlier error later, calls = earlier ++ ⟨row, error⟩ :: later →
        ((pidClear s).pidList row).leftover = (s.pidList row).memory (rowErrors row earlier) := by
  have stored : ((pidClear s).pidList row).mend = 0 ↔ (28 ≤ row → (s.pidList row).mend = 0) := by
    simp only [pidClear]
    split_ifs with covered
    · exact iff_of_true rfl fun last => absurd covered (not_lt.mpr last)
    · exact ⟨fun zero _ => zero, fun zero => zero (not_lt.mp covered)⟩
  have gain := (gains_pidClear s row).1
  refine ⟨?_, keepsHistory_iff s row⟩
  simp only [keepsHistory_iff]
  constructor
  · intro keeps
    -- the first call, and one whose only error that counts is two calls ago
    have first := keeps [⟨row, 0⟩] [] 0 [] rfl
    have third := keeps [⟨row, 1⟩, ⟨row, 0⟩, ⟨row, 0⟩] [⟨row, 1⟩, ⟨row, 0⟩] 0 [] rfl
    rw [third] at first
    have zero : (s.pidList row).p = 0 := by
      simpa [Pid.memory, rowErrors, nonzero] using first
    refine ⟨zero, stored.mp ?_⟩
    rw [← leftover_of_p_zero (gain.trans zero), third, Pid.memory, zero, zero_mul]
  · rintro ⟨zero, rest⟩ _ _ _ _ _
    rw [leftover_of_p_zero (gain.trans zero), stored.mpr rest, Pid.memory, zero, zero_mul]

/-- The row 0 has no gain until the menu gives it one. -/
theorem generic_keepsHistory_circle :
    (Controllers.initial.pidList 0).i ≠ (0 : ℚ) ∧
      ∀ calls, KeepsHistory (K := ℚ) .initial 0 calls := by
  have nonzero : (Controllers.initial.pidList 0).i ≠ (0 : ℚ) := by decide
  exact ⟨nonzero, (generic_keepsHistory_iff .initial 0 nonzero).1.mpr ⟨rfl, by decide⟩⟩

/-- The second of two errors 1, with the parameters of a straight line's angle. -/
theorem not_keepsHistory_line :
    ¬KeepsHistory (K := ℚ) .initial 2 [⟨2, 1⟩, ⟨2, 1⟩] ∧
      (((pidClear .initial).afterRows [⟨2, (1 : ℚ)⟩]).callRow ⟨2, 1⟩).1 = 4 / 5 * (1 + 1 / 1000000) ∧
      positional (Controllers.initial.pidList 2) [(1 : ℚ), 1] = 4 / 5 * (1 + 2 / 1000000) := by
  have result : (((pidClear .initial).afterRows [⟨2, (1 : ℚ)⟩]).callRow ⟨2, 1⟩).1 =
      4 / 5 * (1 + 1 / 1000000) := by decide +kernel
  have intended : positional (Controllers.initial.pidList 2) [(1 : ℚ), 1] =
      4 / 5 * (1 + 2 / 1000000) := by decide +kernel
  refine ⟨fun keeps => ?_, result, intended⟩
  have second := keeps [⟨2, 1⟩] 1 [] rfl
  rw [result] at second
  exact absurd (second.trans intended) (by decide +kernel)

end BadmintonRobot.Control
