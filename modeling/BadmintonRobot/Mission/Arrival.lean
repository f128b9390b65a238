import Mathlib
import BadmintonRobot.Mission.System

/-!
# The arm waits for the chassis

When an arm action leaves its initial waiting loop, the motion of the route of its stage
should be over. That is so in every run in which each route starts in a state fit for it,
and not in all runs: `CircleFinish` is never raised again.
-/

namespace BadmintonRobot.Mission

open Semantics Code

/-- After an arm action has left its waiting loop, and until the next route starts, the
route writes no set-point other than 0. -/
def ChassisRests (log : List Event) : Prop :=
  ∀ before stage middle axis value,
    before ++ Event.leavesWait stage :: middle ++ [Event.speed axis value] <+: log →
      (∀ next, Event.starts .auto next ∉ middle) → value = 0

/-- The arm has arrived, or no route is running. -/
private def Settled (p : Protocol) : Prop := p.arrived = true ∨ p.route = none

private theorem settled_foldl {p : Protocol} {events : List Event} (settled : Settled p)
    (quiet : ∀ next, .starts .auto next ∉ events) : Settled (events.foldl Protocol.after p) := by
  induction events generalizing p with
  | nil => exact settled
  | cons event rest ih =>
    refine ih ?_ fun next member => quiet next (List.mem_cons_of_mem _ member)
    cases event with
    | starts party stage =>
      cases party with
      | auto => exact absurd List.mem_cons_self (quiet stage)
      | arm => exact settled
    | posts party stage => cases party <;> exact settled
    | returns party stage =>
      cases party with
      | auto => exact .inr rfl
      | arm => exact settled
    | emergency => exact .inr rfl
    | leavesWait stage => exact .inl rfl
    | _ => exact settled

/-- A careful step keeps the chassis at rest. -/
theorem ChassisRests.step {h next : Handshake} (rests : ChassisRests h.log)
    (change : Changes True h next) : ChassisRests next.log := by
  -- the log grows by at most one event, which is a set-point only if the route wrote it
  have grown : next.log = h.log ∨ ∃ event, next.log = h.log ++ [event] ∧
      ∀ axis value, event = .speed axis value →
        h.view.route ≠ none ∧ (value = 0 ∨ h.view.arrived = false) := by
    rcases change with step | step | ⟨_, event, either, -, log, -⟩ | log
    · rcases step.moves with ⟨same, -⟩ | ⟨event, -, legal, log, -⟩
      · exact .inl same
      · refine .inr ⟨event, log, ?_⟩
        rintro axis value rfl
        exact ⟨legal, step.rests trivial axis value log⟩
    · rcases step.moves with ⟨same, -⟩ | ⟨event, owner, -, log, -⟩
      · exact .inl same
      · refine .inr ⟨event, log, ?_⟩
        rintro axis value rfl
        cases owner
    · refine .inr ⟨event, log, ?_⟩
      rintro axis value rfl
      rcases either with same | same <;> cases same
    · exact .inr ⟨.emergency, log, nofun⟩
  rcases grown with same | ⟨event, log, written⟩
  · rwa [same]
  intro before stage middle axis value longer quiet
  rw [log] at longer
  rcases List.prefix_concat_iff.mp longer with whole | shorter
  · obtain ⟨earlier, rfl⟩ : before ++ .leavesWait stage :: middle = h.log ∧
        Event.speed axis value = event := by
      simpa using List.append_inj' whole rfl
    obtain ⟨running, zero | before_arrival⟩ := written axis value rfl
    · exact zero
    · have settled : Settled h.view := by
        rw [Handshake.view, ← earlier, List.foldl_append, List.foldl_cons]
        exact settled_foldl (.inl rfl) quiet
      rcases settled with arrived | idle
      · simp [before_arrival] at arrived
      · exact absurd idle running
  · exact rests before stage middle axis value shorter quiet

namespace System

variable {s : System}

theorem PowerOn.verified (powerOn : s.PowerOn) : s.Verified True := by
  obtain ⟨board, auto, arm, menuOpen⟩ := s
  have log : board.handshake.log = [] := powerOn.log
  have view : board.handshake.view = .rest := by simp [Handshake.view, log]
  obtain rfl : auto = fresh .auto := powerOn.auto
  obtain rfl : arm = fresh .arm := powerOn.arm
  have mbAuto : board.handshake.mbAuto = [] := powerOn.mbAuto
  have mbArm : board.handshake.mbArm = [] := powerOn.mbArm
  refine verified_fresh ?_ ?_ ?_ ?_ ?_
  · constructor <;> simp [view, mbAuto, mbArm, Protocol.rest, Token.box]
  · rw [view, log]
    exact .refl
  · rw [view]
    rfl
  · rw [view]
    rfl
  · rw [view]
    exact fun _ => rfl

/-- What holds along every run in which each route starts fit. -/
structure Careful (s : System) : Prop where
  verified : s.Verified True
  rests : ChassisRests s.log

end System

/-- The arm waits for the chassis in every run since power-on in which each route starts
in a state fit for it, with any number of missions, arm tests and emergencies. -/
theorem chassis_rests_of_fit_run {s final : System} {labels : List Label} (powerOn : s.PowerOn)
    (steps : Steps (TakesWhen (fun current _ => current.Fit) System.step) s labels final) :
    ChassisRests final.log := by
  have careful : final.Careful := by
    refine steps.invariant ⟨powerOn.verified, ?_⟩ ?_
    · rw [powerOn.log]
      intro before stage middle axis value longer
      simp at longer
    · rintro current label next ⟨verified, rests⟩ ⟨fit, taken⟩
      obtain ⟨kept, change⟩ := verified.step (fun _ => fit) taken
      exact ⟨kept, rests.step change⟩
  exact careful.rests

/-- Stage 5 from power-on to the arm action, in a run in which each route starts fit. -/
theorem chassis_rests_of_fit_run_five :
    ∃ final, Steps (TakesWhen (fun current _ => current.Fit) System.step) System.powered
        (.routeGo 5 (System.plainSettings false) :: System.stillSteps 49 20) final ∧
      .leavesWait 5 ∈ final.log ∧ ChassisRests final.log := by
  have arrived : ((run (guarded (fun current _ => current.Fit) System.step) System.powered
      (.routeGo 5 (System.plainSettings false) :: System.stillSteps 49 20)).map
        fun final => decide (.leavesWait 5 ∈ final.log)) = some true := by
    decide +kernel
  obtain ⟨final, taken, arrived⟩ := Option.map_eq_some_iff.mp arrived
  have steps := stepsWhen_of_guarded taken
  exact ⟨final, steps, of_decide_eq_true arrived,
    chassis_rests_of_fit_run System.powered_powerOn steps⟩

/-- The second mission since power-on that drives stage 2 with the dynamic circle. The
first one is stopped by the emergency thread after it has cleared `CircleFinish`. -/
def secondCircle : List Label :=
  .routeGo 2 (System.plainSettings true) :: System.stillSteps 83 0 ++
    .emergency 6 :: .routeGo 2 (System.plainSettings true) :: System.stillSteps 28 39 ++
    System.stillSteps 10 0

/-- In the second mission the arm action leaves its waiting loop before the route has
written its first set-point. -/
theorem not_chassis_rests_second_circle :
    System.powered.PowerOn ∧
      ∃ final, Steps (Takes System.step) System.powered secondCircle final ∧
        ¬ChassisRests final.log := by
  have log : (run System.step System.powered secondCircle).map (fun s => s.log.drop 12) =
      some
        [ .emergency, .routeGo 2, .receives .auto 2, .starts .auto 2, .posts .auto 2,
          .receives .arm 2, .starts .arm 2, .leavesWait 2, .speed .x 1 ] := by
    decide +kernel
  obtain ⟨final, taken, log⟩ := Option.map_eq_some_iff.mp log
  refine ⟨System.powered_powerOn, final, steps_of_run taken, ?_⟩
  intro rests
  have whole := List.take_append_drop 12 final.log
  rw [log] at whole
  have moved : final.log.take 12 ++
      [ Event.emergency, Event.routeGo 2, Event.receives .auto 2, Event.starts .auto 2,
        Event.posts .auto 2, Event.receives .arm 2, Event.starts .arm 2 ] ++
      Event.leavesWait 2 :: [] ++ [Event.speed .x 1] <+:
      final.log := by
    conv_rhs => rw [← whole]
    simp
  have zero : (1 : ℚ) = 0 := rests _ 2 [] .x 1 moved (by simp)
  simp at zero

end BadmintonRobot.Mission
