import Mathlib
import BadmintonRobot.Joystick.Alert
import BadmintonRobot.Joystick.Phase

/-!
# The stop when both joysticks are lost

It depends on the poll counters whether a robot without joysticks is ever stopped. If they
are at most one apart, the threads time out together and stop it. If not, they go on losing
their joysticks and never notice that both are lost.
-/

namespace BadmintonRobot.Joystick

open Semantics Control

variable {K : Type}

/-- A thread at the beginning of `Delay_ms(5)` in its polling loop, with no frame since the
loop was entered. -/
structure Handle.Polling (h : Handle K) : Prop where
  pc : h.pc = .poll
  timer : h.timer = 1
  same : h.handleCount = h.temp
  positive : 0 < h.timeFlag
  le : h.timeFlag ≤ 61

instance (h : Handle K) : Decidable h.Polling :=
  decidable_of_iff ((match h.pc with | .poll => true | _ => false) = true ∧
      h.timer = 1 ∧ h.handleCount = h.temp ∧ 0 < h.timeFlag ∧ h.timeFlag ≤ 61) <| by
    constructor
    · rintro ⟨pc, timer, same, positive, le⟩
      refine ⟨?_, timer, same, positive, le⟩
      cases found : h.pc <;> simp [found] at pc ⊢
    · rintro ⟨pc, timer, same, positive, le⟩
      exact ⟨by rw [pc], timer, same, positive, le⟩

section Stop

variable [Field K] [LinearOrder K] {maths : Maths K} {s : Cockpit K}

/-- After boundedly many further timeouts of each thread, one of them has run the branch for
two lost joysticks, in every prompt run without frames. -/
def StopsAfter (maths : Maths K) (s : Cockpit K) : Prop :=
  ∃ bound, ∀ labels final, Steps (TakesWhen Prompt (Cockpit.step maths)) s labels final →
    (∀ which, (s.hand which).timeouts + bound ≤ (final.hand which).timeouts) →
      ∃ which, (s.hand which).stops < (final.hand which).stops

omit [Field K] [LinearOrder K] in
theorem Handle.Polling.counting {h : Handle K} (polling : h.Polling) :
    h.In (.counting (62 - h.timeFlag)) := by
  have positive := polling.positive
  have le := polling.le
  simp only [Handle.In, polling.pc, polling.timer]
  exact ⟨polling.same, by omega, positive, le, le_rfl⟩

omit [Field K] [LinearOrder K] in
theorem Handle.Polling.shows {h : Handle K} (polling : h.Polling) :
    h.At (63 * h.timeouts + 1 + h.timeFlag) := by
  refine ⟨_, polling.counting, nofun, ?_⟩
  have le := polling.le
  simp only [Mode.left]
  omega

/-- Poll counters that are at most one apart. -/
theorem stopsAfter_of_close (maths : Maths K) (polling : ∀ which, (s.hand which).Polling)
    (close : ∀ which, (s.hand which).timeFlag ≤ (s.hand which.other).timeFlag + 1) :
    StopsAfter maths s := by
  refine ⟨2, fun labels final steps twice => ?_⟩
  have alert :
      Alert (fun which => (s.hand which).timeouts) (fun which => (s.hand which).stops) s := by
    refine .waiting (fun which => 62 - (s.hand which).timeFlag) ?_ ?_ fun _ => rfl
    · exact fun which => (polling which).counting
    · intro which
      have := close which.other
      rw [Hand.other_other] at this
      omega
  exact (alert.steps (fun _ => le_rfl) steps).stopped_of_timeouts twice

/-- Poll counters that are further apart: the threads time out as often as one likes. -/
theorem exists_unstopped (maths : Maths K) (polling : ∀ which, (s.hand which).Polling)
    {which : Hand} (far : (s.hand which.other).timeFlag + 2 ≤ (s.hand which).timeFlag)
    (bound : Nat) :
    ∃ labels final, Steps (TakesWhen Prompt (Cockpit.step maths)) s labels final ∧
      (∀ which, (s.hand which).timeouts + bound ≤ (final.hand which).timeouts) ∧
      ∀ which, (final.hand which).stops = (s.hand which).stops := by
  have apart : Apart which _ _ s :=
    { waiting := fun third => by simp [Handle.Waiting, (polling third).pc, (polling third).timer]
      own := (polling which).shows
      other := (polling which.other).shows }
  have positive := (polling which.other).positive
  have le := (polling which).le
  have distance : (63 * (s.hand which).timeouts + 1 + (s.hand which).timeFlag) % 63 =
      (63 * (s.hand which.other).timeouts + 1 + (s.hand which.other).timeFlag +
        ((s.hand which).timeFlag - (s.hand which.other).timeFlag)) % 63 := by
    omega
  obtain ⟨labels, final, steps, after, stops⟩ :=
    apart.rounds maths distance (by omega) (by omega) (63 * (bound + 1))
  refine ⟨labels, final, steps, fun third => ?_, stops⟩
  rcases third.eq_or_eq_other which with rfl | rfl
  · obtain ⟨_, -, -, sum⟩ := after.own
    omega
  · obtain ⟨_, -, -, sum⟩ := after.other
    omega

theorem not_stopsAfter_of_far (polling : ∀ which, (s.hand which).Polling) {which : Hand}
    (far : (s.hand which.other).timeFlag + 2 ≤ (s.hand which).timeFlag) :
    ¬StopsAfter maths s := by
  rintro ⟨bound, stops⟩
  obtain ⟨labels, final, steps, enough, same⟩ := exists_unstopped maths polling far bound
  obtain ⟨stopped, more⟩ := stops labels final steps enough
  rw [same] at more
  exact lt_irrefl _ more

/-- When no frame comes any more, the robot is stopped exactly if the poll counters of the
two threads are at most one apart. -/
theorem lost_stop_iff (polling : ∀ which, (s.hand which).Polling) :
    StopsAfter maths s ↔
      ∀ which, (s.hand which).timeFlag ≤ (s.hand which.other).timeFlag + 1 := by
  constructor
  · intro stops
    by_contra apart
    obtain ⟨which, far⟩ := not_forall.mp apart
    have distance : (s.hand which.other).timeFlag + 2 ≤ (s.hand which).timeFlag := by omega
    exact not_stopsAfter_of_far polling distance stops
  · exact stopsAfter_of_close maths polling

end Stop

/-- Sensors and set-points at rest. -/
def stillBoard : Board ℚ where
  shared := ⟨0, 0, 0, 0, false, false, 5, .initial⟩
  onlyXY := true
  handleSpeedX := 0
  handleSpeedY := 0
  lastspeedX := 0
  lastspeedY := 0
  locals _ := ⟨0, 0, 0, 0, 0, 0, 0, 0⟩
  commands := []

/-- Mathematical functions for a robot that does not turn. -/
def stillMaths : Maths ℚ where
  sin _ := 0
  cos _ := 1
  atan2 _ _ := 0

/-- A number of statements of one thread. -/
def statements (which : Hand) (count : Nat) : List (Label ℚ) :=
  List.replicate count (.thread which 0)

/-- No frame ever comes, up to the first delay of each thread. -/
def noFrame : List (Label ℚ) := statements .x 4 ++ statements .y 4

theorem lost_stop_noFrame :
    ∃ s, Steps (Takes (Cockpit.step stillMaths)) (Cockpit.start stillBoard) noFrame s ∧
      (∀ which, (s.hand which).Polling) ∧ StopsAfter stillMaths s := by
  have reached : (run (Cockpit.step stillMaths) (Cockpit.start stillBoard) noFrame).map
      (fun s => decide ((s.hand .x).Polling ∧ (s.hand .y).Polling ∧
        (s.hand .x).timeFlag = 2 ∧ (s.hand .y).timeFlag = 2)) = some true := by decide +kernel
  obtain ⟨s, taken, found⟩ := Option.map_eq_some_iff.mp reached
  obtain ⟨pollX, pollY, flagX, flagY⟩ := of_decide_eq_true found
  have polling : ∀ which, (s.hand which).Polling := by rintro (_ | _) <;> assumption
  refine ⟨s, steps_of_run taken, polling, (lost_stop_iff polling).mpr ?_⟩
  rintro (_ | _) <;> simp [Hand.other, flagX, flagY]

/-- The X joystick sends a single frame while its thread is in its first delay. The thread
handles it in the next tick and is back in its polling loop two ticks later, when the other
thread has counted three polls more. -/
def oneFrame : List (Label ℚ) :=
  statements .x 4 ++ [Label.receive .x ⟨12288, 12288, 12288, fun _ => 0⟩] ++ statements .y 4 ++
    [Label.tick] ++ statements .x 32 ++ statements .y 5 ++ [Label.tick] ++ statements .y 5 ++
    [Label.tick] ++ statements .x 5 ++ statements .y 5

/-- After a single frame of one joystick the robot is never stopped. -/
theorem not_lost_stop_oneFrame :
    ∃ s, Steps (Takes (Cockpit.step stillMaths)) (Cockpit.start stillBoard) oneFrame s ∧
      ¬StopsAfter stillMaths s := by
  have reached : (run (Cockpit.step stillMaths) (Cockpit.start stillBoard) oneFrame).map
      (fun s => decide ((s.hand .x).Polling ∧ (s.hand .y).Polling ∧
        (s.hand .x).timeFlag = 2 ∧ (s.hand .y).timeFlag = 5)) = some true := by decide +kernel
  obtain ⟨s, taken, found⟩ := Option.map_eq_some_iff.mp reached
  obtain ⟨pollX, pollY, flagX, flagY⟩ := of_decide_eq_true found
  have polling : ∀ which, (s.hand which).Polling := by rintro (_ | _) <;> assumption
  have far : (s.hand Hand.y.other).timeFlag + 2 ≤ (s.hand .y).timeFlag := by
    simp [Hand.other, flagX, flagY]
  exact ⟨s, steps_of_run taken, not_stopsAfter_of_far polling far⟩

end BadmintonRobot.Joystick
