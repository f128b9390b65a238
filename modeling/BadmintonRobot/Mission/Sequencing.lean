import Mathlib
import BadmintonRobot.Mission.System

/-!
# The order of the stages

From one posted stage on, the two threads go through the stages in order, whatever the
interleaving and whatever sensors and buttons do.
-/

namespace BadmintonRobot.Mission

open Semantics Code

namespace System

variable {s final : System} {first : Nat} {labels : List Label}

theorem Posted.view (posted : s.Posted first) :
    s.board.handshake.view = Protocol.rest.after (.routeGo first) := by
  have log : s.board.handshake.log = [.routeGo first] := posted.log
  simp [Handshake.view, log]

theorem Posted.agrees (posted : s.Posted first) : s.board.handshake.Agrees := by
  constructor
  · rw [posted.view, posted.mbAuto]
    rfl
  · rw [posted.view, posted.mbArm]
    rfl
  · simp [posted.view, Protocol.after]
  · simp [posted.view, Protocol.after]

theorem Posted.verified (posted : s.Posted first) : s.Verified False where
  auto := by
    have waits : (AutoFact.waiting.assertion False).holds s.board :=
      ⟨posted.agrees, by simp [AutoFact.waiting, posted.view, Protocol.after, Protocol.rest]⟩
    rcases posted.auto with at_entry | at_mailbox
    · rw [at_entry]
      exact rtThreadEntryAuto_triple.stays waits
    · rw [at_mailbox]
      exact Triple.stays_serving recv_triple
        (Triple.block_cons (switch_triple runs_routes) Triple.block_nil) waits
  arm := by
    have waits : (ArmFact.waiting.assertion False).holds s.board :=
      ⟨posted.agrees, by simp [ArmFact.waiting, posted.view, Protocol.after, Protocol.rest]⟩
    rcases posted.arm with at_entry | at_mailbox
    · rw [at_entry]
      exact rtThreadEntryArm_triple.stays waits
    · rw [at_mailbox]
      exact Triple.stays_serving arm_recv_triple
        (Triple.block_cons (arm_switch_triple acts_armActions) Triple.block_nil) waits
  agrees := posted.agrees
  steps := by
    rw [posted.view, posted.log]
    exact Steps.single ⟨⟨rfl, rfl, rfl⟩, rfl⟩
  atRest := by simp [posted.menuOpen]

/-- The log of a mission that only its threads have gone on with. -/
def Undisturbed (first : Nat) (log : List Event) : Prop :=
  ∃ later, log = .routeGo first :: later ∧ ∀ event ∈ later, event.owner ≠ none

theorem Undisturbed.moves {party : Party} {h next : Handshake} (moves : Moves party h next)
    (so_far : Undisturbed first h.log) : Undisturbed first next.log := by
  obtain ⟨later, log, own⟩ := so_far
  rcases moves with ⟨same, -⟩ | ⟨event, owner, -, grown, -⟩
  · exact ⟨later, same.trans log, own⟩
  · refine ⟨later ++ [event], by simp [grown, log], ?_⟩
    intro other member
    rcases List.mem_append.mp member with before | last
    · exact own other before
    · obtain rfl : other = event := by simpa using last
      simp [owner]

/-- What holds along every run of the two threads after the first post. -/
structure OnCourse (first : Nat) (s : System) : Prop where
  verified : s.Verified False
  undisturbed : Undisturbed first s.log

theorem Posted.onCourse (posted : s.Posted first)
    (steps : Steps (TakesWhen (fun _ label => label.IsThread) System.step) s labels final) :
    final.OnCourse first := by
  refine steps.invariant ⟨posted.verified, [], posted.log, by simp⟩ ?_
  · rintro current label next ⟨verified, so_far⟩ ⟨thread, taken⟩
    cases label with
    | auto input =>
      obtain ⟨kept, step⟩ := verified.step_auto False.elim taken
      exact ⟨kept, Undisturbed.moves step.moves so_far⟩
    | arm input =>
      obtain ⟨kept, step⟩ := verified.step_arm taken
      exact ⟨kept, Undisturbed.moves step.moves so_far⟩
    | _ => exact thread.elim

theorem Verified.mailboxes {careful : Prop} (verified : s.Verified careful) :
    s.board.handshake.mbAuto.length + s.board.handshake.mbArm.length ≤ 1 := by
  rw [verified.agrees.mbAuto, verified.agrees.mbArm]
  cases s.board.handshake.view.token with
  | posted party stage => cases party <;> simp [Token.box]
  | _ => simp [Token.box]

end System

/-- Mission sequencing: after the post of a stage up to 7, every run of the two threads
goes through the stages in order, and the two mailboxes never hold more than one
message. -/
theorem mission_sequencing {first : Nat} (bound : first ≤ 7) {s final : System}
    {labels : List Label} (posted : s.Posted first)
    (steps : Steps (TakesWhen (fun _ label => label.IsThread) System.step) s labels final) :
    Sequenced first final.log ∧
      final.board.handshake.mbAuto.length + final.board.handshake.mbArm.length ≤ 1 := by
  obtain ⟨verified, later, log, own⟩ := posted.onCourse steps
  refine ⟨?_, verified.mailboxes⟩
  have run := verified.steps
  rw [log] at run ⊢
  exact Sequenced.of_steps bound run own

/-- The system after power-on and the start of stage 5. -/
def postedFive : System :=
  { System.powered with
    board := routeGo 5 (System.plainSettings false) System.powered.board, menuOpen := false }

/-- Stage 5 from its post to the arm action. -/
theorem mission_sequencing_five :
    ∃ final, run System.step postedFive (System.stillSteps 49 20) = some final ∧
      final.log =
        [ .routeGo 5, .receives .auto 5, .starts .auto 5, .posts .auto 5, .speed .x 1,
          .speed .y 1, .speed .rotation 1, .speed .rotation 0, .speed .y 0, .speed .x 0,
          .returns .auto 5, .receives .arm 5, .starts .arm 5, .leavesWait 5 ] ∧
      Sequenced 5 final.log ∧
      final.board.handshake.mbAuto.length + final.board.handshake.mbArm.length ≤ 1 := by
  have log : (run System.step postedFive (System.stillSteps 49 20)).map System.log =
      some
        [ .routeGo 5, .receives .auto 5, .starts .auto 5, .posts .auto 5, .speed .x 1,
          .speed .y 1, .speed .rotation 1, .speed .rotation 0, .speed .y 0, .speed .x 0,
          .returns .auto 5, .receives .arm 5, .starts .arm 5, .leavesWait 5 ] := by
    decide +kernel
  obtain ⟨final, taken, log⟩ := Option.map_eq_some_iff.mp log
  have posted : postedFive.Posted 5 := ⟨rfl, .inl rfl, .inl rfl, rfl, rfl, rfl⟩
  have thread : ∀ label ∈ System.stillSteps 49 20, ∀ _ : System, label.IsThread := by
    intro label member _
    rcases List.mem_append.mp member with auto | arm
    · rw [List.eq_of_mem_replicate auto]
      trivial
    · rw [List.eq_of_mem_replicate arm]
      trivial
  exact ⟨final, taken, log, mission_sequencing (by decide) posted (stepsWhen_of_run thread taken)⟩

end BadmintonRobot.Mission
