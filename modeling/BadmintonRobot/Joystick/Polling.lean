import Mathlib
import BadmintonRobot.Joystick.Handle
import BadmintonRobot.Semantics.Run

/-!
# The joystick threads

A joystick thread polls the counter of received frames every 5 ms and counts the polls in
`time_flag`. After 60 polls without a new frame the joystick is lost and the counter is set
to zero, and a thread that finds both counters zero then stops the robot. `Pc` names the
statements of the loops of `rt_thread_entry_handle` and `rt_thread_entry_handle_y`, which
differ only in what they do with a frame. A thread can be preempted between any two
statements, and the receive interrupt and the tick interrupt can come there too.
-/

namespace BadmintonRobot.Joystick

open Semantics

/-- The statements of a joystick thread. -/
inductive Pc (K : Type) where
  /-- `temp = *handle_count` -/
  | top
  /-- `while(*handle_count == temp)` -/
  | test
  /-- `time_flag++` -/
  | count
  /-- the call of `Delay_ms(5)` -/
  | pause
  /-- in `Delay_ms(5)` -/
  | poll
  /-- `if(time_flag > 60)` -/
  | check
  /-- `time_flag = 0` -/
  | zero
  /-- `handle_timeout_flag = 1` -/
  | report
  /-- `if(handleoff_flag)` -/
  | off
  /-- `Handle_Off_Count++` -/
  | offCount
  /-- `handleoff_flag = 0` -/
  | offClear
  /-- `if(time_flag)` -/
  | decide
  /-- `time_flag = 1` -/
  | alive
  /-- `handle_timeout_flag = 0` -/
  | clear
  /-- `handleoff_flag = 1` -/
  | offSet
  /-- `else if(time_flag == 0 && time_flag_y == 0)` -/
  | both
  /-- in the branch for a frame, or in the branch for two lost joysticks -/
  | busy (tasks : List (Task View (Board K))) (lost : Bool)
  /-- the call of `Delay_ms(10)` -/
  | recover
  /-- in `Delay_ms(10)` -/
  | rest

/-- The variables of a joystick and its thread. `timer` is what is left of a delay, in
ticks. `timeouts` and `stops` count how often the thread has lost its joystick and how often
it has run the branch for two lost joysticks. -/
structure Handle (K : Type) where
  data : HandleData
  handleCount : Nat
  temp : Nat
  timeFlag : Nat
  handleTimeoutFlag : Bool
  handleoffFlag : Bool
  handleOffCount : Nat
  pc : Pc K
  timer : Nat
  timeouts : Nat
  stops : Nat

/-- The joysticks and what their threads compute with. -/
structure Cockpit (K : Type) where
  hand : Hand → Handle K
  board : Board K

/-- The number of ticks that `Delay_ms` passes to `rt_thread_delay`, with 200 ticks in a
second. -/
def delayTicks (delay : Nat) : Nat := 200 * delay / 1000

/-- What can happen: a statement of a thread, which wakes up `late` ticks after the end of
a delay that it starts, a tick, a received frame, another thread that writes shared
variables. -/
inductive Label (K : Type) where
  | thread (hand : Hand) (late : Nat)
  | tick
  | receive (hand : Hand) (data : HandleData)
  | outside (shared : Shared K)

section Step

variable {K : Type} [Field K] [LinearOrder K]

/-- A statement that only concerns the own variables of the thread. -/
def Handle.advance (maths : Maths K) (which : Hand) (otherFlag late : Nat) (h : Handle K) :
    Option (Handle K) :=
  match h.pc with
  | .top => some { h with temp := h.handleCount, pc := .test }
  | .test => some { h with pc := if h.handleCount = h.temp then .count else .decide }
  | .count => some { h with timeFlag := (h.timeFlag + 1) % 256, pc := .pause }
  | .pause => some { h with timer := delayTicks 5 + late, pc := .poll }
  | .poll => if h.timer = 0 then some { h with pc := .check } else none
  | .check => some { h with pc := if h.timeFlag > 60 then .zero else .test }
  | .zero => some { h with timeFlag := 0, timeouts := h.timeouts + 1, pc := .report }
  | .report => some { h with handleTimeoutFlag := true, pc := .off }
  | .off => some { h with pc := if h.handleoffFlag then .offCount else .decide }
  | .offCount => some { h with handleOffCount := h.handleOffCount + 1, pc := .offClear }
  | .offClear => some { h with handleoffFlag := false, pc := .decide }
  | .decide => some { h with pc := if h.timeFlag ≠ 0 then .alive else .both }
  | .alive => some { h with timeFlag := 1, pc := .clear }
  | .clear => some { h with handleTimeoutFlag := false, pc := .offSet }
  | .offSet => some { h with handleoffFlag := true, pc := .busy [.run (work maths which)] false }
  | .both =>
    some { h with
      pc := if h.timeFlag = 0 ∧ otherFlag = 0 then .busy [.run (stopAll which)] true
        else .recover }
  | .busy _ lost => some { h with pc := .recover, stops := h.stops + lost.toNat }
  | .recover => some { h with timer := delayTicks 10 + late, pc := .rest }
  | .rest => if h.timer = 0 then some { h with pc := .top } else none

/-- A thread begins its work with a frame, or the stop of two lost joysticks. -/
theorem Handle.busy_of_advance {maths : Maths K} {which : Hand} {otherFlag late : Nat}
    {h next : Handle K} {tasks : List (Task View (Board K))} {lost : Bool}
    (taken : h.advance maths which otherFlag late = some next) (busy : next.pc = .busy tasks lost) :
    h.pc = .offSet ∧ tasks = [.run (work maths which)] ∧ lost = false ∨
      h.timeFlag = 0 ∧ otherFlag = 0 ∧ tasks = [.run (stopAll which)] ∧ lost = true := by
  cases pc : h.pc with
  | offSet =>
    simp only [Handle.advance, pc, Option.some.injEq] at taken
    subst taken
    cases busy
    exact .inl ⟨rfl, rfl, rfl⟩
  | both =>
    simp only [Handle.advance, pc, Option.some.injEq] at taken
    subst taken
    by_cases both : h.timeFlag = 0 ∧ otherFlag = 0
    · simp only [if_pos both] at busy
      cases busy
      exact .inr ⟨both.1, both.2, rfl, rfl⟩
    · simp only [if_neg both] at busy
      cases busy
  | poll | rest =>
    simp only [Handle.advance, pc] at taken
    split_ifs at taken
    rw [← Option.some.inj taken] at busy
    cases busy
  | test | check | off | decide =>
    simp only [Handle.advance, pc, Option.some.injEq] at taken
    subst taken
    simp only at busy
    split_ifs at busy
  | _ =>
    simp only [Handle.advance, pc, Option.some.injEq] at taken
    subst taken
    cases busy

/-- A thread does not write the frame. -/
theorem Handle.data_of_advance {maths : Maths K} {which : Hand} {otherFlag late : Nat}
    {h next : Handle K} (taken : h.advance maths which otherFlag late = some next) :
    next.data = h.data := by
  cases pc : h.pc with
  | poll | rest =>
    simp only [Handle.advance, pc] at taken
    split_ifs at taken
    cases taken
    rfl
  | _ =>
    simp only [Handle.advance, pc, Option.some.injEq] at taken
    subst taken
    rfl

namespace Cockpit

def put (s : Cockpit K) (which : Hand) (h : Handle K) : Cockpit K :=
  { s with hand := Function.update s.hand which h }

/-- What a thread sees. -/
def view (s : Cockpit K) (which : Hand) : View where
  data := (s.hand which).data
  otherFlag := (s.hand which.other).timeFlag

/-- One statement of a thread. -/
def advance (maths : Maths K) (s : Cockpit K) (which : Hand) (late : Nat) : Option (Cockpit K) :=
  let h := s.hand which
  match h.pc with
  | .busy (task :: tasks) lost =>
    (Semantics.advance (s.view which) (task :: tasks) s.board).map fun (rest, board) =>
      { s with board := board }.put which { h with pc := .busy rest lost }
  | _ => (h.advance maths which (s.hand which.other).timeFlag late).map (s.put which)

def step (maths : Maths K) (s : Cockpit K) : Label K → Option (Cockpit K)
  | .thread which late => s.advance maths which late
  | .tick => some { s with hand := fun which =>
      { s.hand which with timer := (s.hand which).timer - 1 } }
  | .receive which data =>
    some (s.put which { s.hand which with
      data := data
      handleCount := ((s.hand which).handleCount + 1) % 2 ^ 32 })
  | .outside shared => some { s with board := { s.board with shared := shared } }

/-- The threads at their start. -/
def start (board : Board K) : Cockpit K where
  hand _ :=
    { data := ⟨0, 0, 0, fun _ => 0⟩
      handleCount := 0
      temp := 0
      timeFlag := 1
      handleTimeoutFlag := false
      handleoffFlag := true
      handleOffCount := 0
      pc := .top
      timer := 0
      timeouts := 0
      stops := 0 }
  board := board

omit [Field K] [LinearOrder K] in
@[simp] theorem put_hand_self (s : Cockpit K) (which : Hand) (h : Handle K) :
    (s.put which h).hand which = h := by
  simp [put]

omit [Field K] [LinearOrder K] in
theorem put_hand_of_ne {which other : Hand} (apart : other ≠ which) (s : Cockpit K)
    (h : Handle K) : (s.put which h).hand other = s.hand other := by
  simp [put, apart]

omit [Field K] [LinearOrder K] in
/-- What holds of the new thread and of the other one. -/
theorem forall_put_hand {P : Hand → Handle K → Prop} {s : Cockpit K} {which : Hand} {h : Handle K}
    (own : P which h) (others : ∀ other, other ≠ which → P other (s.hand other)) (third : Hand) :
    P third ((s.put which h).hand third) := by
  by_cases same : third = which
  · subst same
    rw [put_hand_self]
    exact own
  · rw [put_hand_of_ne same]
    exact others third same

/-- A frame does not move a thread. -/
theorem pc_of_receive {maths : Maths K} {s next : Cockpit K} {which : Hand} {data : HandleData}
    (taken : s.step maths (.receive which data) = some next) (third : Hand) :
    (next.hand third).pc = (s.hand third).pc := by
  rw [← Option.some.inj taken]
  refine forall_put_hand (P := fun third h => h.pc = (s.hand third).pc) ?_ ?_ third
  · rfl
  · exact fun _ _ => rfl

omit [Field K] [LinearOrder K] in
@[simp] theorem put_board (s : Cockpit K) (which : Hand) (h : Handle K) :
    (s.put which h).board = s.board := rfl

/-- What a statement of a thread does: it concerns the own variables of the thread, or it is
part of the work with a frame or of the stop. -/
inductive ThreadStep (maths : Maths K) (s : Cockpit K) (which : Hand) (late : Nat) :
    Cockpit K → Prop where
  | own (h : Handle K) (idle : ∀ task tasks lost, (s.hand which).pc ≠ .busy (task :: tasks) lost)
      (taken : (s.hand which).advance maths which (s.hand which.other).timeFlag late = some h) :
      ThreadStep maths s which late (s.put which h)
  | work (task : Task View (Board K)) (tasks rest : List (Task View (Board K))) (lost : Bool)
      (board : Board K) (pc : (s.hand which).pc = .busy (task :: tasks) lost)
      (taken : Semantics.advance (s.view which) (task :: tasks) s.board = some (rest, board)) :
      ThreadStep maths s which late
        ({ s with board := board }.put which { s.hand which with pc := .busy rest lost })

theorem threadStep_of_advance {maths : Maths K} {s next : Cockpit K} {which : Hand} {late : Nat}
    (taken : s.advance maths which late = some next) : ThreadStep maths s which late next := by
  by_cases under : ∃ task tasks lost, (s.hand which).pc = .busy (task :: tasks) lost
  · obtain ⟨task, tasks, lost, pc⟩ := under
    simp only [advance, pc, Option.map_eq_some_iff] at taken
    obtain ⟨⟨rest, board⟩, taken, rfl⟩ := taken
    exact .work task tasks rest lost board pc taken
  · have alone : ((s.hand which).advance maths which (s.hand which.other).timeFlag late).map
        (s.put which) = some next := by
      rw [← taken, advance]
      cases pc : (s.hand which).pc with
      | busy tasks lost =>
        cases tasks with
        | nil => rfl
        | cons task tasks => exact absurd ⟨task, tasks, lost, pc⟩ under
      | _ => rfl
    obtain ⟨h, advanced, rfl⟩ := Option.map_eq_some_iff.mp alone
    exact .own h (fun task tasks lost pc => under ⟨task, tasks, lost, pc⟩) advanced

end Cockpit

end Step

end BadmintonRobot.Joystick
