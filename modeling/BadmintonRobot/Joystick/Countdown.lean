import Mathlib
import BadmintonRobot.Joystick.Polling

/-!
# A lost joystick as a countdown

While no frame comes, a joystick thread is a clock: it counts down the ticks to its next
timeout, looks at the other thread, rests for two ticks and counts down again. `Mode` is
this clock, and the lemmas of this file say how the statements and the ticks move it.
-/

namespace BadmintonRobot.Joystick

open Semantics

/-- The clock of a thread. `counting` and `resting` hold the ticks left to the next timeout. -/
inductive Mode where
  | counting (left : Nat)
  /-- has timed out and not yet looked at the other thread -/
  | fired
  /-- has looked at the other thread and left its flag at zero -/
  | resting (left : Nat)
  /-- in the branch for two lost joysticks -/
  | stopping

variable {K : Type}

/-- The flag says that the joystick is lost. -/
def Mode.Lost : Mode → Prop
  | .fired => True
  | .resting _ => True
  | _ => False

/-- The statement and the variables of a thread are those of a mode. -/
def Handle.In (h : Handle K) : Mode → Prop
  | .counting left =>
    match h.pc with
    | .rest => h.timeFlag = 0 ∧ h.timer = 0 ∧ left = 61
    | .top => h.timeFlag = 0 ∧ left = 61
    | .test => h.handleCount = h.temp ∧ h.timeFlag + left = 61 ∧ 0 < left
    | .count => h.handleCount = h.temp ∧ h.timeFlag + left = 61 ∧ 0 < left
    | .pause => h.handleCount = h.temp ∧ h.timeFlag + left = 62 ∧ 0 < left ∧ 0 < h.timeFlag
    | .poll => h.handleCount = h.temp ∧ h.timeFlag + left = 61 + h.timer ∧ 0 < h.timeFlag ∧
        h.timeFlag ≤ 61 ∧ h.timer ≤ 1
    | .check => h.handleCount = h.temp ∧ h.timeFlag + left = 61 ∧ 0 < h.timeFlag
    | .zero => left = 0
    | _ => False
  | .fired =>
    h.timeFlag = 0 ∧
      match h.pc with
      | .report => True
      | .off => True
      | .offCount => True
      | .offClear => True
      | .decide => True
      | .both => True
      | _ => False
  | .resting left =>
    h.timeFlag = 0 ∧
      match h.pc with
      | .recover => left = 63
      | .rest => left = 61 + h.timer ∧ 0 < h.timer ∧ h.timer ≤ 2
      | _ => False
  | .stopping => ∃ tasks, h.pc = .busy tasks true

/-- In a delay that is not over. -/
def Handle.Waiting (h : Handle K) : Prop :=
  match h.pc with
  | .poll => 0 < h.timer
  | .rest => 0 < h.timer
  | _ => False

/-- The counters of the timeouts and stops are the same. -/
def Handle.SameCounts (h next : Handle K) : Prop :=
  next.timeouts = h.timeouts ∧ next.stops = h.stops

theorem timeFlag_of_lost {h : Handle K} {mode : Mode} (inMode : h.In mode) (lost : mode.Lost) :
    h.timeFlag = 0 := by
  cases mode with
  | counting left => exact lost.elim
  | fired => exact inMode.1
  | resting left => exact inMode.1
  | stopping => exact lost.elim

section Advance

variable [Field K] [LinearOrder K] {maths : Maths K} {which : Hand} {otherFlag : Nat}
  {h next : Handle K}

/-- A counting thread counts on, and times out when nothing is left. -/
theorem advance_counting {left : Nat} (inMode : h.In (.counting left))
    (taken : h.advance maths which otherFlag 0 = some next) :
    next.In (.counting left) ∧ h.SameCounts next ∨
      left = 0 ∧ next.In .fired ∧ next.timeouts = h.timeouts + 1 ∧ next.stops = h.stops := by
  cases pc : h.pc with
  | rest =>
    simp only [Handle.In, pc] at inMode
    simp only [Handle.advance, pc, inMode.2.1, if_true, Option.some.injEq] at taken
    subst taken
    exact .inl ⟨⟨inMode.1, inMode.2.2⟩, rfl, rfl⟩
  | top =>
    simp only [Handle.In, pc] at inMode
    simp only [Handle.advance, pc, Option.some.injEq] at taken
    subst taken
    refine .inl ⟨⟨rfl, ?_, ?_⟩, rfl, rfl⟩
    · simp [inMode]
    · simp [inMode]
  | test =>
    simp only [Handle.In, pc] at inMode
    simp only [Handle.advance, pc, Option.some.injEq] at taken
    rw [if_pos inMode.1] at taken
    subst taken
    exact .inl ⟨inMode, rfl, rfl⟩
  | count =>
    simp only [Handle.In, pc] at inMode
    simp only [Handle.advance, pc, Option.some.injEq] at taken
    subst taken
    have wrap : (h.timeFlag + 1) % 256 = h.timeFlag + 1 := Nat.mod_eq_of_lt (by omega)
    refine .inl ⟨⟨inMode.1, ?_, inMode.2.2, ?_⟩, rfl, rfl⟩
    · simp only [wrap]
      omega
    · simp only [wrap]
      omega
  | pause =>
    simp only [Handle.In, pc] at inMode
    simp only [Handle.advance, pc, Option.some.injEq] at taken
    subst taken
    refine .inl ⟨⟨inMode.1, ?_, inMode.2.2.2, ?_, ?_⟩, rfl, rfl⟩
    · simp only [delayTicks]
      omega
    · simp only
      omega
    · simp [delayTicks]
  | poll =>
    simp only [Handle.In, pc] at inMode
    simp only [Handle.advance, pc] at taken
    split_ifs at taken with elapsed
    rw [← Option.some.inj taken]
    refine .inl ⟨⟨inMode.1, ?_, inMode.2.2.1⟩, rfl, rfl⟩
    simp only
    omega
  | check =>
    simp only [Handle.In, pc] at inMode
    simp only [Handle.advance, pc, Option.some.injEq] at taken
    subst taken
    by_cases late : h.timeFlag > 60
    · simp only [late, if_true]
      refine .inl ⟨?_, rfl, rfl⟩
      simp only [Handle.In]
      omega
    · simp only [late, if_false]
      refine .inl ⟨⟨inMode.1, inMode.2.1, ?_⟩, rfl, rfl⟩
      omega
  | zero =>
    simp only [Handle.In, pc] at inMode
    simp only [Handle.advance, pc, Option.some.injEq] at taken
    subst taken
    exact .inr ⟨inMode, ⟨rfl, trivial⟩, rfl, rfl⟩
  | _ => simp [Handle.In, pc] at inMode

/-- A thread that has timed out stops the robot if the other one is lost, and rests
otherwise. -/
theorem advance_fired (inMode : h.In .fired)
    (taken : h.advance maths which otherFlag 0 = some next) :
    (next.In .fired ∨ otherFlag = 0 ∧ next.In .stopping ∨
      otherFlag ≠ 0 ∧ next.In (.resting 63)) ∧ h.SameCounts next := by
  obtain ⟨flag, position⟩ := inMode
  cases pc : h.pc with
  | report =>
    simp only [Handle.advance, pc, Option.some.injEq] at taken
    subst taken
    exact ⟨.inl ⟨flag, trivial⟩, rfl, rfl⟩
  | off =>
    simp only [Handle.advance, pc, Option.some.injEq] at taken
    subst taken
    refine ⟨.inl ⟨flag, ?_⟩, rfl, rfl⟩
    cases h.handleoffFlag <;> trivial
  | offCount =>
    simp only [Handle.advance, pc, Option.some.injEq] at taken
    subst taken
    exact ⟨.inl ⟨flag, trivial⟩, rfl, rfl⟩
  | offClear =>
    simp only [Handle.advance, pc, Option.some.injEq] at taken
    subst taken
    exact ⟨.inl ⟨flag, trivial⟩, rfl, rfl⟩
  | decide =>
    simp only [Handle.advance, pc, Option.some.injEq] at taken
    rw [if_neg (not_not.mpr flag)] at taken
    subst taken
    exact ⟨.inl ⟨flag, trivial⟩, rfl, rfl⟩
  | both =>
    simp only [Handle.advance, pc, Option.some.injEq] at taken
    by_cases lost : otherFlag = 0
    · rw [if_pos ⟨flag, lost⟩] at taken
      subst taken
      exact ⟨.inr (.inl ⟨lost, _, rfl⟩), rfl, rfl⟩
    · rw [if_neg (fun both => lost both.2)] at taken
      subst taken
      exact ⟨.inr (.inr ⟨lost, flag, rfl⟩), rfl, rfl⟩
  | _ => simp [pc] at position

theorem advance_resting {left : Nat} (inMode : h.In (.resting left))
    (taken : h.advance maths which otherFlag 0 = some next) :
    next.In (.resting left) ∧ h.SameCounts next := by
  obtain ⟨flag, position⟩ := inMode
  cases pc : h.pc with
  | recover =>
    simp only [pc] at position
    simp only [Handle.advance, pc, Option.some.injEq] at taken
    subst taken
    exact ⟨⟨flag, by simp [delayTicks, position]⟩, rfl, rfl⟩
  | rest =>
    simp only [pc] at position
    simp only [Handle.advance, pc, (Nat.ne_of_gt position.2.1), if_false] at taken
    cases taken
  | _ => simp [pc] at position

end Advance

section Tick

/-- A tick as one thread sees it. -/
def Handle.tick (h : Handle K) : Handle K := { h with timer := h.timer - 1 }

variable {h : Handle K}

theorem tick_counting {left : Nat} (inMode : h.In (.counting left)) (waiting : h.Waiting) :
    0 < left ∧ h.tick.In (.counting (left - 1)) := by
  cases pc : h.pc with
  | poll =>
    simp only [Handle.In, pc] at inMode
    simp only [Handle.Waiting, pc] at waiting
    refine ⟨by omega, ?_⟩
    simp only [Handle.In, Handle.tick, pc]
    omega
  | rest =>
    simp only [Handle.In, pc] at inMode
    simp only [Handle.Waiting, pc] at waiting
    omega
  | _ => simp [Handle.Waiting, pc] at waiting

theorem tick_resting {left : Nat} (inMode : h.In (.resting left)) (waiting : h.Waiting) :
    left = 63 ∧ h.tick.In (.resting 62) ∨ left = 62 ∧ h.tick.In (.counting 61) := by
  obtain ⟨flag, position⟩ := inMode
  cases pc : h.pc with
  | rest =>
    simp only [pc] at position
    by_cases last : h.timer = 1
    · refine .inr ⟨by omega, ?_⟩
      simp [Handle.In, Handle.tick, pc, flag, last]
    · refine .inl ⟨by omega, flag, ?_⟩
      simp only [Handle.tick, pc]
      omega
  | recover => simp [Handle.Waiting, pc] at waiting
  | _ => simp [pc] at position

theorem not_waiting_fired (inMode : h.In .fired) : ¬h.Waiting := by
  obtain ⟨-, position⟩ := inMode
  cases pc : h.pc <;> simp [Handle.Waiting, pc] at position ⊢

theorem not_waiting_stopping (inMode : h.In .stopping) : ¬h.Waiting := by
  obtain ⟨tasks, pc⟩ := inMode
  simp [Handle.Waiting, pc]

end Tick

/-- No frame comes, delays take their time and no longer, and a thread that is not in a
delay runs before the next tick. -/
def Prompt (s : Cockpit K) : Label K → Prop
  | .thread _ late => late = 0
  | .tick => ∀ which, (s.hand which).Waiting
  | .receive _ _ => False
  | .outside _ => True

section Moves

variable [Field K] [LinearOrder K] {maths : Maths K} {which : Hand} {otherFlag : Nat}
  {h next : Handle K}

/-- What a statement does to the variables of its thread. -/
def Handle.Moves (maths : Maths K) (which : Hand) (otherFlag : Nat) (h next : Handle K) : Prop :=
  h.advance maths which otherFlag 0 = some next ∨
    ∃ tasks rest lost, h.pc = .busy tasks lost ∧ next = { h with pc := .busy rest lost }

theorem stops_le_of_moves (moves : h.Moves maths which otherFlag next) : h.stops ≤ next.stops := by
  rcases moves with taken | ⟨tasks, rest, lost, -, rfl⟩
  · rw [Handle.advance] at taken
    split at taken
    case h_17 tasks lost _ =>
      cases taken
      exact Nat.le_add_right _ _
    all_goals
      try split_ifs at taken
      all_goals
        cases taken
        exact le_rfl
  · exact le_rfl

theorem moves_counting {left : Nat} (inMode : h.In (.counting left))
    (moves : h.Moves maths which otherFlag next) :
    next.In (.counting left) ∧ h.SameCounts next ∨
      left = 0 ∧ next.In .fired ∧ next.timeouts = h.timeouts + 1 ∧ next.stops = h.stops := by
  rcases moves with taken | ⟨tasks, rest, lost, pc, -⟩
  · exact advance_counting inMode taken
  · simp [Handle.In, pc] at inMode

theorem moves_fired (inMode : h.In .fired) (moves : h.Moves maths which otherFlag next) :
    (next.In .fired ∨ otherFlag = 0 ∧ next.In .stopping ∨
      otherFlag ≠ 0 ∧ next.In (.resting 63)) ∧ h.SameCounts next := by
  rcases moves with taken | ⟨tasks, rest, lost, pc, -⟩
  · exact advance_fired inMode taken
  · simp [Handle.In, pc] at inMode

theorem moves_resting {left : Nat} (inMode : h.In (.resting left))
    (moves : h.Moves maths which otherFlag next) :
    next.In (.resting left) ∧ h.SameCounts next := by
  rcases moves with taken | ⟨tasks, rest, lost, pc, -⟩
  · exact advance_resting inMode taken
  · simp [Handle.In, pc] at inMode

/-- The branch for two lost joysticks goes on or is counted as a stop. -/
theorem moves_stopping (inMode : h.In .stopping) (moves : h.Moves maths which otherFlag next) :
    next.In .stopping ∧ h.SameCounts next ∨ next.stops = h.stops + 1 := by
  obtain ⟨tasks, pc⟩ := inMode
  rcases moves with taken | ⟨tasks, rest, lost, again, rfl⟩
  · simp only [Handle.advance, pc, Option.some.injEq] at taken
    subst taken
    exact .inr rfl
  · rw [pc] at again
    cases again
    exact .inl ⟨⟨rest, rfl⟩, rfl, rfl⟩

/-- What a step does to the threads. -/
inductive Moved (maths : Maths K) (s next : Cockpit K) : Prop where
  | tick (waiting : ∀ which, (s.hand which).Waiting)
      (hands : ∀ which, next.hand which = (s.hand which).tick)
  | still (hands : next.hand = s.hand)
  | thread (which : Hand)
      (own : (s.hand which).Moves maths which (s.hand which.other).timeFlag (next.hand which))
      (other : next.hand which.other = s.hand which.other)

theorem moved_of_step {s next : Cockpit K} {label : Label K} (prompt : Prompt s label)
    (taken : s.step maths label = some next) : Moved maths s next := by
  cases label with
  | receive which data => exact prompt.elim
  | outside shared =>
    rw [← Option.some.inj taken]
    exact .still rfl
  | tick =>
    rw [← Option.some.inj taken]
    exact .tick prompt fun _ => rfl
  | thread which late =>
    obtain rfl : late = 0 := prompt
    cases Cockpit.threadStep_of_advance taken with
    | own h idle advanced =>
      refine .thread which (.inl ?_) (Cockpit.put_hand_of_ne (Hand.other_ne which) _ _)
      rw [advanced, Cockpit.put_hand_self]
    | work task tasks rest lost board pc advanced =>
      refine .thread which (.inr ⟨_, rest, lost, pc, ?_⟩)
        (Cockpit.put_hand_of_ne (Hand.other_ne which) _ _)
      exact Cockpit.put_hand_self _ _ _

end Moves

end BadmintonRobot.Joystick
