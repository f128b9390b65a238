import Mathlib
import BadmintonRobot.Joystick.Countdown

/-!
# Two timeouts close to each other

A thread whose joystick is lost keeps its flag at zero for the two ticks of `Delay_ms(10)`.
If the other thread times out in the same tick or in the next one, whichever of the two
looks last finds both flags zero and stops the robot.
-/

namespace BadmintonRobot.Joystick

open Semantics

variable {K : Type}

/-- Two threads whose timeouts are at most one tick apart, from the counts `timeouts` and
`stops` on: one of them times out, the other one times out while the flag of the first is
zero, and stops the robot. -/
inductive Alert (timeouts stops : Hand → Nat) (s : Cockpit K) : Prop where
  | waiting (left : Hand → Nat) (inMode : ∀ which, (s.hand which).In (.counting (left which)))
      (close : ∀ which, left which ≤ left which.other + 1)
      (counts : ∀ which, (s.hand which).timeouts = timeouts which)
  | first (which : Hand) (mode : Mode) (left : Nat) (inMode : (s.hand which).In mode)
      (lost : mode = .fired ∧ left ≤ 1 ∨ mode = .resting 63 ∧ left ≤ 1 ∨
        mode = .resting 62 ∧ left = 0)
      (other : (s.hand which.other).In (.counting left))
      (count : (s.hand which).timeouts = timeouts which + 1)
      (otherCount : (s.hand which.other).timeouts = timeouts which.other)
  | second (which : Hand) (mode : Mode) (inMode : (s.hand which).In .fired)
      (other : (s.hand which.other).In mode) (lost : mode.Lost)
      (count : (s.hand which).timeouts = timeouts which + 1)
      (otherCount : (s.hand which.other).timeouts = timeouts which.other + 1)
  | stopping (which : Hand) (inMode : (s.hand which).In .stopping)
      (count : (s.hand which).timeouts = timeouts which + 1)
  | stopped (which : Hand) (more : stops which < (s.hand which).stops)

section Alert

variable {timeouts stops : Hand → Nat} {s next : Cockpit K}

theorem Alert.tick (alert : Alert timeouts stops s) (waiting : ∀ which, (s.hand which).Waiting)
    (hands : ∀ which, next.hand which = (s.hand which).tick) : Alert timeouts stops next := by
  cases alert with
  | waiting left inMode close counts =>
    have ticked : ∀ which, 0 < left which ∧ (s.hand which).tick.In (.counting (left which - 1)) :=
      fun which => tick_counting (inMode which) (waiting which)
    refine .waiting (fun which => left which - 1) ?_ ?_ ?_
    · intro which
      rw [hands]
      exact (ticked which).2
    · intro which
      have := close which
      have := (ticked which.other).1
      omega
    · intro which
      rw [hands]
      exact counts which
  | first which mode left inMode lost other count otherCount =>
    obtain ⟨positive, counted⟩ := tick_counting other (waiting which.other)
    rcases lost with ⟨rfl, -⟩ | ⟨rfl, le⟩ | ⟨rfl, none⟩
    · exact absurd (waiting which) (not_waiting_fired inMode)
    · rcases tick_resting inMode (waiting which) with ⟨-, rested⟩ | ⟨wrong, -⟩
      · refine .first which (.resting 62) (left - 1) ?_ (.inr (.inr ⟨rfl, by omega⟩)) ?_ ?_ ?_
        · rw [hands]
          exact rested
        · rw [hands]
          exact counted
        · rw [hands]
          exact count
        · rw [hands]
          exact otherCount
      · omega
    · omega
  | second which mode inMode other lost count otherCount =>
    exact absurd (waiting which) (not_waiting_fired inMode)
  | stopping which inMode count =>
    exact absurd (waiting which) (not_waiting_stopping inMode)
  | stopped which more =>
    refine .stopped which ?_
    rw [hands]
    exact more

variable [Field K] [LinearOrder K] {maths : Maths K} {moving : Hand}
  (own : (s.hand moving).Moves maths moving (s.hand moving.other).timeFlag (next.hand moving))
  (same : next.hand moving.other = s.hand moving.other)

include own same

/-- While both threads count, a thread counts on or is the first to time out. -/
theorem Alert.thread_waiting {left : Hand → Nat}
    (inMode : ∀ which, (s.hand which).In (.counting (left which)))
    (close : ∀ which, left which ≤ left which.other + 1)
    (counts : ∀ which, (s.hand which).timeouts = timeouts which) : Alert timeouts stops next := by
  rcases moves_counting (inMode moving) own with ⟨counted, sameTimeouts, -⟩ | ⟨none, fired, more, -⟩
  · refine .waiting left ?_ close ?_
    · intro which
      rcases which.eq_or_eq_other moving with rfl | rfl
      · exact counted
      · rw [same]
        exact inMode _
    · intro which
      rcases which.eq_or_eq_other moving with rfl | rfl
      · rw [sameTimeouts, counts]
      · rw [same]
        exact counts _
  · have le := close moving.other
    rw [Hand.other_other, none] at le
    refine .first moving .fired (left moving.other) fired (.inl ⟨rfl, le⟩) ?_ ?_ ?_
    · rw [same]
      exact inMode _
    · rw [more, counts]
    · rw [same]
      exact counts _

/-- After the first timeout, the first thread looks at the other one and rests, and the
other one counts on or times out too. -/
theorem Alert.thread_first {which : Hand} {mode : Mode} {left : Nat}
    (inMode : (s.hand which).In mode)
    (lost : mode = .fired ∧ left ≤ 1 ∨ mode = .resting 63 ∧ left ≤ 1 ∨
      mode = .resting 62 ∧ left = 0)
    (other : (s.hand which.other).In (.counting left))
    (count : (s.hand which).timeouts = timeouts which + 1)
    (otherCount : (s.hand which.other).timeouts = timeouts which.other) :
    Alert timeouts stops next := by
  rcases moving.eq_or_eq_other which with rfl | rfl
  · rw [← same] at other otherCount
    rcases lost with ⟨rfl, le⟩ | ⟨rfl, le⟩ | ⟨rfl, none⟩
    · obtain ⟨moved, sameTimeouts, -⟩ := moves_fired inMode own
      rw [← sameTimeouts] at count
      rcases moved with fired | ⟨-, stopping⟩ | ⟨-, resting⟩
      · exact .first moving .fired left fired (.inl ⟨rfl, le⟩) other count otherCount
      · exact .stopping moving stopping count
      · exact .first moving _ left resting (.inr (.inl ⟨rfl, le⟩)) other count otherCount
    · obtain ⟨resting, sameTimeouts, -⟩ := moves_resting inMode own
      rw [← sameTimeouts] at count
      exact .first moving _ left resting (.inr (.inl ⟨rfl, le⟩)) other count otherCount
    · obtain ⟨resting, sameTimeouts, -⟩ := moves_resting inMode own
      rw [← sameTimeouts] at count
      exact .first moving _ left resting (.inr (.inr ⟨rfl, none⟩)) other count otherCount
  · rw [Hand.other_other] at same
    rw [← same] at inMode count
    rcases moves_counting other own with ⟨counted, sameTimeouts, -⟩ | ⟨-, fired, more, -⟩
    · rw [← sameTimeouts] at otherCount
      exact .first which mode left inMode lost counted count otherCount
    · have flag : mode.Lost := by
        rcases lost with ⟨rfl, -⟩ | ⟨rfl, -⟩ | ⟨rfl, -⟩ <;> trivial
      refine .second which.other mode fired ?_ flag ?_ ?_
      · rw [Hand.other_other]
        exact inMode
      · rw [more, otherCount]
      · rw [Hand.other_other]
        exact count

/-- The thread that times out second finds the flag of the first at zero. -/
theorem Alert.thread_second {which : Hand} {mode : Mode} (inMode : (s.hand which).In .fired)
    (other : (s.hand which.other).In mode) (lost : mode.Lost)
    (count : (s.hand which).timeouts = timeouts which + 1)
    (otherCount : (s.hand which.other).timeouts = timeouts which.other + 1) :
    Alert timeouts stops next := by
  rcases moving.eq_or_eq_other which with rfl | rfl
  · obtain ⟨moved, sameTimeouts, -⟩ := moves_fired inMode own
    rw [← sameTimeouts] at count
    rcases moved with fired | ⟨-, stopping⟩ | ⟨alive, -⟩
    · rw [← same] at other otherCount
      exact .second moving mode fired other lost count otherCount
    · exact .stopping moving stopping count
    · exact absurd (timeFlag_of_lost other lost) alive
  · rw [Hand.other_other] at same
    rw [← same] at inMode count
    cases mode with
    | counting left => exact lost.elim
    | stopping => exact lost.elim
    | resting left =>
      obtain ⟨resting, sameTimeouts, -⟩ := moves_resting other own
      rw [← sameTimeouts] at otherCount
      exact .second which _ inMode resting trivial count otherCount
    | fired =>
      obtain ⟨moved, sameTimeouts, -⟩ := moves_fired other own
      rw [← sameTimeouts] at otherCount
      rcases moved with fired | ⟨-, stopping⟩ | ⟨-, resting⟩
      · exact .second which _ inMode fired trivial count otherCount
      · exact .stopping which.other stopping otherCount
      · exact .second which _ inMode resting trivial count otherCount

/-- A statement of a thread. -/
theorem Alert.thread (low : ∀ which, stops which ≤ (s.hand which).stops)
    (alert : Alert timeouts stops s) : Alert timeouts stops next := by
  cases alert with
  | waiting left inMode close counts => exact thread_waiting own same inMode close counts
  | first which mode left inMode lost other count otherCount =>
    exact thread_first own same inMode lost other count otherCount
  | second which mode inMode other lost count otherCount =>
    exact thread_second own same inMode other lost count otherCount
  | stopping which inMode count =>
    rcases moving.eq_or_eq_other which with rfl | rfl
    · rcases moves_stopping inMode own with ⟨stopping, sameTimeouts, -⟩ | more
      · exact .stopping moving stopping (sameTimeouts.trans count)
      · refine .stopped moving ?_
        rw [more]
        exact Nat.lt_succ_of_le (low moving)
    · rw [Hand.other_other] at same
      rw [← same] at inMode count
      exact .stopping which inMode count
  | stopped which more =>
    refine .stopped which ?_
    rcases which.eq_or_eq_other moving with rfl | rfl
    · exact lt_of_lt_of_le more (stops_le_of_moves own)
    · rw [same]
      exact more

end Alert

section Run

variable [Field K] [LinearOrder K] {maths : Maths K} {timeouts stops : Hand → Nat}
  {s next final : Cockpit K}

theorem Moved.stops_le (moved : Moved maths s next) (which : Hand) :
    (s.hand which).stops ≤ (next.hand which).stops := by
  cases moved with
  | tick _ hands =>
    rw [hands]
    exact le_rfl
  | still hands => rw [hands]
  | thread moving own other =>
    rcases which.eq_or_eq_other moving with rfl | rfl
    · exact stops_le_of_moves own
    · rw [other]

theorem Alert.moved (low : ∀ which, stops which ≤ (s.hand which).stops)
    (alert : Alert timeouts stops s) (moved : Moved maths s next) : Alert timeouts stops next := by
  cases moved with
  | tick waiting hands => exact alert.tick waiting hands
  | still hands =>
    have frame : next.hand = s.hand := hands
    cases alert with
    | waiting left inMode close counts =>
      exact .waiting left (by rwa [frame]) close (by rwa [frame])
    | first which mode left inMode lost other count otherCount =>
      exact .first which mode left (by rwa [frame]) lost (by rwa [frame]) (by rwa [frame])
        (by rwa [frame])
    | second which mode inMode other lost count otherCount =>
      exact .second which mode (by rwa [frame]) (by rwa [frame]) lost (by rwa [frame])
        (by rwa [frame])
    | stopping which inMode count => exact .stopping which (by rwa [frame]) (by rwa [frame])
    | stopped which more => exact .stopped which (by rwa [frame])
  | thread moving own other => exact Alert.thread own other low alert

/-- The counters only grow and the alert lasts. -/
theorem Alert.steps (alert : Alert timeouts stops s)
    (low : ∀ which, stops which ≤ (s.hand which).stops) {labels : List (Label K)}
    (steps : Steps (TakesWhen Prompt (Cockpit.step maths)) s labels final) :
    Alert timeouts stops final := by
  have both : (∀ which, stops which ≤ (final.hand which).stops) ∧ Alert timeouts stops final := by
    induction steps with
    | refl => exact ⟨low, alert⟩
    | step _ transition ih =>
      have moved := moved_of_step transition.1 transition.2
      exact ⟨fun which => (ih.1 which).trans (moved.stops_le which), ih.2.moved ih.1 moved⟩
  exact both.2

omit [Field K] [LinearOrder K] in
/-- After two timeouts of each thread the robot has been stopped. -/
theorem Alert.stopped_of_timeouts (alert : Alert timeouts stops s)
    (twice : ∀ which, timeouts which + 2 ≤ (s.hand which).timeouts) :
    ∃ which, stops which < (s.hand which).stops := by
  cases alert with
  | waiting left inMode close counts =>
    have := twice .x
    have := counts .x
    omega
  | first which mode left inMode lost other count otherCount =>
    have := twice which
    omega
  | second which mode inMode other lost count otherCount =>
    have := twice which
    omega
  | stopping which inMode count =>
    have := twice which
    omega
  | stopped which more => exact ⟨which, more⟩

end Run

end BadmintonRobot.Joystick
