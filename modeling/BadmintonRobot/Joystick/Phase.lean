import Mathlib
import BadmintonRobot.Joystick.Countdown

/-!
# Two timeouts far from each other

The clock of a lost joystick has a reading that statements keep and ticks advance by one,
with a timeout at every multiple of 63. Two threads that are let run one after the other in
each tick keep the distance of their readings. If it is more than a tick, neither of them
ever times out while the flag of the other is zero, and the robot is never stopped.
-/

namespace BadmintonRobot.Joystick

open Semantics

variable {K : Type}

/-- The ticks left to the next timeout. -/
def Mode.left : Mode → Nat
  | .counting left => left
  | .fired => 63
  | .resting left => left
  | .stopping => 0

/-- The clock of the thread shows the reading. -/
def Handle.At (h : Handle K) (reading : Nat) : Prop :=
  ∃ mode, h.In mode ∧ mode ≠ .stopping ∧ 63 * h.timeouts + 63 = reading + mode.left

section Tick

variable {h : Handle K} {reading : Nat}

theorem Handle.At.tick (shows : h.At reading) (waiting : h.Waiting) :
    h.tick.At (reading + 1) := by
  obtain ⟨mode, inMode, quiet, sum⟩ := shows
  cases mode with
  | counting left =>
    obtain ⟨positive, counted⟩ := tick_counting inMode waiting
    refine ⟨_, counted, Mode.noConfusion, ?_⟩
    simp only [Mode.left, Handle.tick] at sum ⊢
    omega
  | fired => exact absurd waiting (not_waiting_fired inMode)
  | resting left =>
    rcases tick_resting inMode waiting with ⟨rfl, rested⟩ | ⟨rfl, counted⟩
    · exact ⟨_, rested, Mode.noConfusion, sum.trans (Nat.add_right_comm reading 62 1)⟩
    · exact ⟨_, counted, Mode.noConfusion, sum.trans (Nat.add_right_comm reading 61 1)⟩
  | stopping => exact absurd rfl quiet

/-- Outside the two ticks after a timeout the flag of a thread in a delay is not zero. -/
theorem Handle.At.timeFlag_pos (shows : h.At reading) (waiting : h.Waiting)
    (later : 2 ≤ reading % 63) : h.timeFlag ≠ 0 := by
  obtain ⟨mode, inMode, quiet, sum⟩ := shows
  cases mode with
  | counting left =>
    cases pc : h.pc with
    | poll =>
      simp only [Handle.In, pc] at inMode
      omega
    | rest =>
      simp only [Handle.In, pc] at inMode
      simp only [Handle.Waiting, pc] at waiting
      omega
    | _ => simp [Handle.Waiting, pc] at waiting
  | fired => exact absurd waiting (not_waiting_fired inMode)
  | resting left =>
    simp only [Mode.left] at sum
    rcases tick_resting inMode waiting with ⟨rfl, -⟩ | ⟨rfl, -⟩
    · omega
    · omega
  | stopping => exact absurd rfl quiet

end Tick

/-- How far a thread is from its next delay. -/
def Handle.rank (h : Handle K) : Nat :=
  match h.pc with
  | .rest => if h.timer = 0 then 14 else 0
  | .top => 13
  | .poll => if h.timer = 0 then 13 else 0
  | .check => 12
  | .zero => 11
  | .report => 10
  | .off => 9
  | .offCount => 8
  | .offClear => 7
  | .decide => 6
  | .both => 5
  | .recover => 4
  | .test => 3
  | .count => 2
  | .pause => 1
  | _ => 0

section Advance

variable [Field K] [LinearOrder K] {maths : Maths K} {which : Hand} {otherFlag reading : Nat}
  {h next : Handle K}

/-- A statement keeps the reading, and does not stop the robot if the other thread is not
lost at a timeout. -/
theorem Handle.At.advance (shows : h.At reading) (alive : reading % 63 = 0 → otherFlag ≠ 0)
    (taken : h.advance maths which otherFlag 0 = some next) :
    next.At reading ∧ next.stops = h.stops := by
  obtain ⟨mode, inMode, quiet, sum⟩ := shows
  cases mode with
  | counting left =>
    rcases advance_counting inMode taken with
      ⟨counted, timeouts, stops⟩ | ⟨rfl, fired, timeouts, stops⟩
    · exact ⟨⟨_, counted, nofun, by rw [timeouts, sum]⟩, stops⟩
    · refine ⟨⟨_, fired, nofun, ?_⟩, stops⟩
      simp only [Mode.left] at sum ⊢
      omega
  | fired =>
    obtain ⟨moved, timeouts, stops⟩ := advance_fired inMode taken
    simp only [Mode.left] at sum
    rcases moved with fired | ⟨lost, -⟩ | ⟨-, resting⟩
    · exact ⟨⟨_, fired, nofun, by rw [timeouts, sum]; rfl⟩, stops⟩
    · exact absurd lost (alive (by omega))
    · exact ⟨⟨_, resting, nofun, by rw [timeouts, sum]; rfl⟩, stops⟩
  | resting left =>
    obtain ⟨resting, timeouts, stops⟩ := advance_resting inMode taken
    exact ⟨⟨_, resting, nofun, by rw [timeouts, sum]⟩, stops⟩
  | stopping => exact absurd rfl quiet

/-- A thread that is not in a delay has a statement to run, and comes closer to a delay. -/
theorem Handle.At.progress (maths : Maths K) (which : Hand) (shows : h.At reading)
    (alive : reading % 63 = 0 → otherFlag ≠ 0) (running : ¬h.Waiting) :
    ∃ next, h.advance maths which otherFlag 0 = some next ∧ next.rank < h.rank := by
  obtain ⟨mode, inMode, quiet, sum⟩ := shows
  cases pc : h.pc <;> simp only [Handle.advance, Handle.rank, pc]
  case rest | poll =>
    have elapsed : h.timer = 0 := by simpa [Handle.Waiting, pc] using running
    exact ⟨_, if_pos elapsed, by simp only [elapsed, if_true, Nat.reduceLT]⟩
  case test =>
    have same : h.handleCount = h.temp := by
      cases mode <;> simp only [Handle.In, pc, and_false, reduceCtorEq, exists_false] at inMode
      exact inMode.1
    exact ⟨_, rfl, by simp only [same, if_true, Nat.reduceLT]⟩
  case decide =>
    have lost : h.timeFlag = 0 := by
      cases mode <;>
        simp only [Handle.In, pc, and_true, and_false, reduceCtorEq, exists_false] at inMode
      exact inMode
    exact ⟨_, rfl, by simp only [lost, ne_eq, not_true_eq_false, if_false, Nat.reduceLT]⟩
  case both =>
    have other : otherFlag ≠ 0 := by
      cases mode <;>
        simp only [Handle.In, pc, and_true, and_false, reduceCtorEq, exists_false] at inMode
      exact alive (by simp only [Mode.left] at sum; omega)
    exact ⟨_, rfl, by simp only [other, and_false, if_false, Nat.reduceLT]⟩
  case check =>
    by_cases late : h.timeFlag > 60
    · exact ⟨_, rfl, by simp only [if_pos late, Nat.reduceLT]⟩
    · exact ⟨_, rfl, by simp only [if_neg late, Nat.reduceLT]⟩
  case off =>
    cases off : h.handleoffFlag <;>
      exact ⟨_, rfl, by simp only [Bool.false_eq_true, if_true, if_false, Nat.reduceLT]⟩
  case pause | recover => exact ⟨_, rfl, by simp [delayTicks]⟩
  case busy tasks lost =>
    cases mode <;> simp only [Handle.In, pc, and_false] at inMode
    exact absurd rfl quiet
  case alive | clear | offSet =>
    cases mode <;> simp only [Handle.In, pc, and_false, reduceCtorEq, exists_false] at inMode
  all_goals exact ⟨_, rfl, by simp only [Nat.reduceLT]⟩

end Advance

section Rounds

variable [Field K] [LinearOrder K] {maths : Maths K} {which : Hand} {reading other distance : Nat}
  {s : Cockpit K}

/-- The thread is not under way in a branch. -/
theorem advance_of_at {h : Handle K} (shows : (s.hand which).At reading)
    (taken : (s.hand which).advance maths which (s.hand which.other).timeFlag 0 = some h) :
    s.step maths (.thread which 0) = some (s.put which h) := by
  obtain ⟨mode, inMode, quiet, -⟩ := shows
  change s.advance maths which 0 = _
  rw [Cockpit.advance]
  cases pc : (s.hand which).pc with
  | busy tasks lost => cases mode <;> simp_all [Handle.In]
  | _ => rw [taken]; rfl

/-- A thread alone runs until its next delay. -/
theorem exists_settled (maths : Maths K) (shows : (s.hand which).At reading)
    (alive : reading % 63 = 0 → (s.hand which.other).timeFlag ≠ 0) :
    ∃ labels next, Steps (TakesWhen Prompt (Cockpit.step maths)) s labels next ∧
      ((next.hand which).At reading ∧ (next.hand which).stops = (s.hand which).stops ∧
        next.hand which.other = s.hand which.other) ∧ (next.hand which).Waiting := by
  refine exists_steps_of_rank (fun current => (current.hand which).rank) ?_ ⟨shows, rfl, rfl⟩
  rintro current ⟨shows, stops, same⟩
  by_cases waiting : (current.hand which).Waiting
  · exact .inl waiting
  · rw [← same] at alive
    obtain ⟨h, taken, lower⟩ := shows.progress maths which alive waiting
    obtain ⟨kept, sameStops⟩ := shows.advance alive taken
    refine .inr ⟨.thread which 0, current.put which h, ⟨rfl, advance_of_at shows taken⟩, ?_⟩
    simp [Cockpit.put, Hand.other_ne, kept, sameStops, stops, same, lower]

/-- Both threads are in a delay, and their clocks show the readings. -/
structure Apart (which : Hand) (reading other : Nat) (s : Cockpit K) : Prop where
  waiting : ∀ which, (s.hand which).Waiting
  own : (s.hand which).At reading
  other : (s.hand which.other).At other

/-- In one tick the thread that is ahead runs first. The flag of either is not zero when the
other one times out. -/
theorem Apart.round (maths : Maths K) (apart : Apart which reading other s)
    (far : reading % 63 = (other + distance) % 63) (least : 2 ≤ distance) (most : distance ≤ 60) :
    ∃ labels next, Steps (TakesWhen Prompt (Cockpit.step maths)) s labels next ∧
      Apart which (reading + 1) (other + 1) next ∧
      ∀ which, (next.hand which).stops = (s.hand which).stops := by
  let ticked : Cockpit K := { s with hand := fun which => (s.hand which).tick }
  have tick : TakesWhen Prompt (Cockpit.step maths) s .tick ticked := ⟨apart.waiting, rfl⟩
  have ownTicked : (ticked.hand which).At (reading + 1) := apart.own.tick (apart.waiting which)
  have otherTicked : (ticked.hand which.other).At (other + 1) :=
    apart.other.tick (apart.waiting which.other)
  obtain ⟨ownLabels, settled, ownSteps, ⟨ownAt, ownStops, ownSame⟩, ownWaiting⟩ :=
    exists_settled maths ownTicked fun due =>
      apart.other.timeFlag_pos (apart.waiting which.other) (by omega)
  rw [← ownSame] at otherTicked
  obtain ⟨labels, next, steps, ⟨otherAt, otherStops, otherSame⟩, otherWaiting⟩ :=
    exists_settled maths otherTicked fun due => by
      rw [Hand.other_other]
      exact ownAt.timeFlag_pos ownWaiting (by omega)
  rw [Hand.other_other] at otherSame
  refine ⟨_, next, ((Steps.single tick).trans ownSteps).trans steps, ⟨?_, ?_, otherAt⟩, ?_⟩
  · intro third
    rcases third.eq_or_eq_other which with rfl | rfl
    · rw [otherSame]
      exact ownWaiting
    · exact otherWaiting
  · rw [otherSame]
    exact ownAt
  · intro third
    rcases third.eq_or_eq_other which with rfl | rfl
    · rw [otherSame, ownStops]
      rfl
    · rw [otherStops, ownSame]
      rfl

theorem Apart.rounds (maths : Maths K) (apart : Apart which reading other s)
    (far : reading % 63 = (other + distance) % 63) (least : 2 ≤ distance) (most : distance ≤ 60)
    (n : Nat) :
    ∃ labels next, Steps (TakesWhen Prompt (Cockpit.step maths)) s labels next ∧
      Apart which (reading + n) (other + n) next ∧
      ∀ which, (next.hand which).stops = (s.hand which).stops := by
  induction n with
  | zero => exact ⟨[], s, .refl, apart, fun _ => rfl⟩
  | succ n ih =>
    obtain ⟨labels, current, steps, still, stops⟩ := ih
    obtain ⟨more, next, round, after, same⟩ := still.round maths (by omega) least most
    exact ⟨_, next, steps.trans round, after, fun third => (same third).trans (stops third)⟩

end Rounds

end BadmintonRobot.Joystick
