import Mathlib
import BadmintonRobot.Mission.Effects
import BadmintonRobot.Mission.System
import BadmintonRobot.Semantics.Gate

/-!
# The shot of stage 6

On the way to the swing `armaction6` turns the hand and loads the gun when it finds, in its
waiting loop, that the path has come past a point. After the loop it fires without asking
whether that has happened. The shot is prepared in exactly those runs in which the waiting
loop looks at the path late enough: past the point, and before the route ends.
-/

namespace BadmintonRobot.Mission

open Semantics Code

/-- Turn the hand and load the gun. -/
def turnAndLoad : Code :=
  .block
    [ assign fun b => { b with arm := { b.arm with flag1 := true } },
      issue .handTurnRight,
      delayMs 600,
      handFB (fun _ => 0) false motor1Speed,
      handUD (fun _ => 3) false,
      issue .gunOn ]

/-- The test in the waiting loop of `armaction6` that guards `turnAndLoad`. -/
def poll : Code :=
  ifThen (fun _ b => b.pointNowNum > routePoint 5 + 200 && !b.arm.flag1) turnAndLoad

/-- Commands other than the turn of the hand may be issued, and `flag1` is not set. -/
def Works (b next : Board) : Prop :=
  (∃ more, next.commands = b.commands ++ more ∧ .handTurnRight ∉ more) ∧
    (b.arm.flag1 = false → next.arm.flag1 = false)

/-- Commands may be issued. -/
def Grows (b next : Board) : Prop := ∃ more, next.commands = b.commands ++ more

/-- No command is issued, and `flag1` stays as it is. -/
def Rests (b next : Board) : Prop :=
  next.commands = b.commands ∧ next.arm.flag1 = b.arm.flag1

instance : Std.Refl Works := ⟨fun _ => ⟨⟨[], by simp⟩, id⟩⟩

instance : Std.Refl Grows := ⟨fun _ => ⟨[], by simp⟩⟩

instance : Std.Refl Rests := ⟨fun _ => ⟨rfl, rfl⟩⟩

theorem Works.grows {b next : Board} (works : Works b next) : Grows b next :=
  works.1.imp fun _ more => more.1

theorem goRoute6_rests : goRoute6.Within Rests := by
  simp [goRoute6, pathRoute, setPointPath, goPointPath, finishRoute, speedStop, setRouteFinish,
    mark, post, Code.store, Board.store, assign, Stmt.within_update, Rests, Board.onHandshake]

theorem works_issue {command : Command} (other : command ≠ .handTurnRight) :
    (issue command).Within Works :=
  Stmt.within_update.mpr fun _ b => ⟨⟨[command], rfl, by simpa using other.symm⟩, id⟩

theorem works_handles : Handles Works where
  store _ _ _ := ⟨⟨[], by simp [Board.store]⟩, id⟩
  drive _ _ _ _ := ⟨⟨_, rfl, by simp⟩, id⟩
  stop _ _ := ⟨⟨_, rfl, by simp⟩, id⟩
  button _ _ := ⟨⟨[], by simp⟩, id⟩

theorem prepareSwing_gated : prepareSwing.Gated Works poll := by
  have note : noteButton8.Within Works := by
    simp [noteButton8, assign, Stmt.within_update, Works]
  have turn : poll.Gated Works poll := ⟨fun _ b => Std.Refl.refl b, .inl rfl, trivial⟩
  refine ⟨note.gated, turn, Stmt.Within.gated ?_, Stmt.Within.gated ?_, trivial, trivial⟩
  · simp [assign, Stmt.within_update, Works]
  · simp [assign, Stmt.within_update, Works, works_handles.within_handUD]

theorem armaction6_gated : armaction6.Gated Works poll := by
  have later : fireOffLater.Within Works := by
    simp [fireOffLater, assign, Stmt.within_update, Works, issue]
  refine ⟨Stmt.Within.gated ?_, Stmt.Within.gated ?_, ⟨fun _ b => ?_, prepareSwing_gated⟩,
    Stmt.Within.gated ?_, Stmt.Within.gated ?_, Stmt.Within.gated ?_, trivial⟩
  · simp [mark, assign, Stmt.within_update, Works, Board.onHandshake]
  · simp [assign, Stmt.within_update, Works, works_handles.within_handUD,
      works_handles.within_handFB]
  · dsimp only
    split <;> simp [Works, Board.onHandshake]
  · simp [waitUnlessNoted, walkGround, debugWait, waitKey, waitChildOff, waitChildOn, graspChild,
      recordRouteTime, recordMotor1, recordMotor2, assign, Stmt.within_update, Works, works_issue,
      works_handles.within_handUD, works_handles.within_handFB, works_handles.within_cameraTask,
      works_handles.within_driveLine, works_handles.within_waitButton8Change,
      works_handles.within_motoStop, later]
  · simp [answer, recordSegmentTime, post, assign, Stmt.within_update, Works, Board.onHandshake]
  · simp [mark, assign, Stmt.within_update, Works, Board.onHandshake]

theorem turnAndLoad_grows : turnAndLoad.Within Grows := by
  have hand := works_handles.within_handFB (fun _ => 0) false motor1Speed
  have height := works_handles.within_handUD (fun _ => 3) false
  simp [turnAndLoad, issue, assign, Stmt.within_update, Grows, hand.mono fun _ _ => Works.grows,
    height.mono fun _ _ => Works.grows]

theorem armaction6_grows : armaction6.Within Grows := by
  refine armaction6_gated.within (fun _ _ => Works.grows) ?_
  rintro test yes no ⟨⟩
  exact turnAndLoad_grows

/-- A command is among those after a number of earlier ones. -/
def Since (earlier : Nat) (command : Command) (commands : List Command) : Prop :=
  command ∈ commands.drop earlier

theorem since_snoc {earlier : Nat} {command : Command} {commands : List Command}
    (long : earlier ≤ commands.length) : Since earlier command (commands ++ [command]) := by
  simp [Since, List.drop_append_of_le_length long]

theorem Since.append {earlier : Nat} {command : Command} {commands : List Command}
    (since : Since earlier command commands) (more : List Command) :
    Since earlier command (commands ++ more) := by
  rw [Since, List.drop_append]
  exact List.mem_append_left _ since

theorem Since.of_append {earlier : Nat} {command : Command} {commands more : List Command}
    (since : Since earlier command (commands ++ more)) (other : command ∉ more) :
    Since earlier command commands := by
  rw [Since, List.drop_append] at since
  exact (List.mem_append.mp since).resolve_right fun member => other (List.mem_of_mem_drop member)

theorem Since.long {earlier : Nat} {command : Command} {commands : List Command}
    (since : Since earlier command commands) : earlier ≤ commands.length := by
  by_contra short
  rw [Since, List.drop_eq_nil_of_le (by omega)] at since
  exact List.not_mem_nil since

/-- The hand has been turned and the gun loaded. -/
def Prepared (earlier : Nat) (commands : List Command) : Prop :=
  Since earlier .handTurnRight commands ∧ Since earlier .gunOn commands

instance (earlier : Nat) (commands : List Command) : Decidable (Prepared earlier commands) :=
  inferInstanceAs (Decidable (_ ∈ _ ∧ _ ∈ _))

/-- The contract of the arm thread: it fires only when the shot is prepared. -/
def shot (earlier : Nat) : Contract Board where
  premise _ := True
  rely b next := next.commands = b.commands
  guarantee b next := next.commands = b.commands ++ [.fireOn] → Prepared earlier b.commands
  idle b same := by simp at same

/-- A predicate of the commands so far. -/
def commanded (earlier : Nat) (holds : List Command → Prop) : Assertion (shot earlier) where
  holds b := holds b.commands
  stable _ _ here same := by
    rw [show _ = _ from same]
    exact here

section Prepare

variable {earlier : Nat} {broken : Assertion (shot earlier)}

/-- A command other than the shot. -/
theorem command_triple {effect : Board → Board} {before after : List Command → Prop}
    (command : Board → Command) (adds : ∀ b, (effect b).commands = b.commands ++ [command b])
    (other : ∀ b, command b ≠ .fireOn)
    (reached : ∀ b : Board, before b.commands → after (b.commands ++ [command b])) :
    Triple (shot earlier) (commanded earlier before) (assign effect) (commanded earlier after)
      broken := by
  refine Triple.update fun _ b holds _ => ⟨fun fired => ?_, ?_⟩
  · rw [adds] at fired
    exact absurd (by simpa using fired) (other b)
  · change after (effect b).commands
    rw [adds]
    exact reached b holds

theorem handFB_triple (rotation : Board → ℚ) (speed : Board → Int) :
    Triple (shot earlier) (commanded earlier (Since earlier .handTurnRight))
      (handFB rotation false speed) (commanded earlier (Since earlier .handTurnRight)) broken :=
  Triple.block_cons
    (command_triple (fun b => .motorOld 0 (rotation b) (speed b)) (fun _ => rfl)
      (fun _ => nofun) (fun _ turned => turned.append _))
    (Triple.block_cons Triple.skip Triple.block_nil)

theorem handUD_triple (rotation : Board → ℚ) :
    Triple (shot earlier) (commanded earlier (Since earlier .handTurnRight))
      (handUD rotation false) (commanded earlier (Since earlier .handTurnRight)) broken :=
  Triple.block_cons
    (command_triple (fun b => .motorOld 1 (rotation b) 10000) (fun _ => rfl)
      (fun _ => nofun) (fun _ turned => turned.append _))
    (Triple.block_cons Triple.skip Triple.block_nil)

/-- The guarded branch turns the hand and loads the gun, and never fires. -/
theorem turnAndLoad_triple :
    Triple (shot earlier) (commanded earlier (earlier ≤ ·.length)) turnAndLoad
      (commanded earlier (Prepared earlier)) broken := by
  have once : Triple (shot earlier) (commanded earlier (earlier ≤ ·.length))
      (assign fun b => { b with arm := { b.arm with flag1 := true } })
      (commanded earlier (earlier ≤ ·.length)) broken :=
    Triple.update fun _ b holds _ => ⟨fun fired => by simp at fired, holds⟩
  have turn : Triple (shot earlier) (commanded earlier (earlier ≤ ·.length))
      (issue .handTurnRight) (commanded earlier (Since earlier .handTurnRight)) broken :=
    command_triple (fun _ => .handTurnRight) (fun _ => rfl) (fun _ => nofun)
      fun _ long => since_snoc long
  have load : Triple (shot earlier) (commanded earlier (Since earlier .handTurnRight))
      (issue .gunOn) (commanded earlier (Prepared earlier)) broken :=
    command_triple (fun _ => .gunOn) (fun _ => rfl) (fun _ => nofun)
      fun _ turned => ⟨turned.append _, since_snoc turned.long⟩
  exact Triple.block_cons once <| Triple.block_cons turn <| Triple.block_cons Triple.skip <|
    Triple.block_cons (handFB_triple _ _) <| Triple.block_cons (handUD_triple _) <|
    Triple.block_cons load Triple.block_nil

end Prepare

/-- The route and the arm action of stage 6 are about to run. The arm thread waits for the
stage that the route posts. -/
structure Begins (s : System) : Prop where
  auto : s.auto = [.run goRoute6]
  arm : s.arm = [.run (rtMbRecv .arm), .run armaction6]
  mbArm : s.board.handshake.mbArm = []

/-- The runs of the two threads, in any interleaving. -/
abbrev Interleaves : System → List Label → System → Prop :=
  Steps (TakesWhen (fun _ label => label.IsThread) System.step)

/-- The next step of the arm thread is the shot. -/
def Fires (s : System) : Prop :=
  ∃ input next, s.step (.arm input) = some next ∧
    next.board.commands = s.board.commands ++ [Command.fireOn]

/-- The arm thread is at the test of its waiting loop, and the path is past the point. -/
def PollsLate (s : System) : Prop :=
  (∃ rest, s.arm = .run poll :: rest) ∧ s.board.pointNowNum > routePoint 5 + 200

/-- The run has a step at which the waiting loop finds the path past the point. -/
def Polled (start : System) (labels : List Label) (s : System) : Prop :=
  ∃ before input after current next, labels = before ++ .arm input :: after ∧
    Interleaves start before current ∧ PollsLate current ∧
    current.step (.arm input) = some next ∧ Interleaves next after s

theorem opens_poll {input : Sensors} {tasks : List (Task Sensors Board)} {b : Board} :
    Opens poll input tasks b ↔ (∃ rest, tasks = .run poll :: rest) ∧
      b.pointNowNum > routePoint 5 + 200 ∧ b.arm.flag1 = false := by
  constructor
  · rintro ⟨test, yes, no, rest, ⟨⟩, rfl, holds⟩
    exact ⟨⟨rest, rfl⟩, by simpa using holds⟩
  · rintro ⟨⟨rest, rfl⟩, past, clear⟩
    exact ⟨_, _, _, rest, rfl, rfl, by simp [past, clear]⟩

/-- A step of a thread is a step of the auto thread or of the arm thread. -/
theorem step_cases {s next : System} {label : Label}
    (taken : TakesWhen (fun _ label => label.IsThread) System.step s label next) :
    (∃ input, label = .auto input ∧ advance input s.auto s.board = some (next.auto, next.board) ∧
      next.arm = s.arm) ∨
    ∃ input, label = .arm input ∧ advance input s.arm s.board = some (next.arm, next.board) ∧
      next.auto = s.auto := by
  obtain ⟨thread, taken⟩ := taken
  cases label with
  | auto input =>
    obtain ⟨⟨rest, board⟩, advanced, rfl⟩ := Option.map_eq_some_iff.mp taken
    exact .inl ⟨input, rfl, advanced, rfl⟩
  | arm input =>
    obtain ⟨⟨rest, board⟩, advanced, rfl⟩ := Option.map_eq_some_iff.mp taken
    exact .inr ⟨input, rfl, advanced, rfl⟩
  | _ => exact thread.elim

/-- What holds in every run. -/
structure Working (earlier : Nat) (s : System) : Prop where
  auto : ∀ task ∈ s.auto, task.Within Rests
  arm : ∀ task ∈ s.arm, task.Within Grows
  long : earlier ≤ s.board.commands.length

/-- What holds as long as the guarded branch has not been taken. -/
structure Unready (earlier : Nat) (s : System) : Prop where
  auto : ∀ task ∈ s.auto, task.Within Rests
  arm : ∀ task ∈ s.arm, task.Gated Works poll
  unturned : ¬Since earlier .handTurnRight s.board.commands
  flag1 : s.board.arm.flag1 = false ∨ Leads (·.arm.flag1 = false) s.arm

section Run

variable {earlier : Nat} {s next : System} {label : Label}

theorem works_rtMbRecv : (rtMbRecv .arm).Within Works := by
  intro _ b next taken
  dsimp only at taken
  split at taken
  · exact nomatch taken
  · obtain rfl := Option.some.inj taken
    exact ⟨⟨[], by simp [Board.onHandshake]⟩, id⟩

theorem Begins.working (begins : Begins s) : Working s.board.commands.length s where
  auto := by
    rw [begins.auto]
    exact List.forall_mem_singleton.mpr goRoute6_rests
  arm := by
    rw [begins.arm]
    exact List.forall_mem_cons.mpr ⟨works_rtMbRecv.mono fun _ _ => Works.grows,
      List.forall_mem_singleton.mpr armaction6_grows⟩
  long := Nat.le_refl _

theorem Begins.unready (begins : Begins s) : Unready s.board.commands.length s where
  auto := begins.working.auto
  arm := by
    rw [begins.arm]
    have receives : (rtMbRecv .arm).Gated Works poll := works_rtMbRecv.gated
    exact List.forall_mem_cons.mpr ⟨receives, List.forall_mem_singleton.mpr armaction6_gated⟩
  unturned := by simp [Since]
  flag1 := by
    rw [begins.arm]
    refine .inr (.inr ⟨trivial, .inl (.inr ⟨trivial, .inl (.inl ?_)⟩)⟩)
    intro _ b next taken
    obtain rfl := Option.some.inj taken
    rfl

theorem Working.step (working : Working earlier s)
    (taken : TakesWhen (fun _ label => label.IsThread) System.step s label next) :
    Working earlier next := by
  rcases step_cases taken with ⟨input, -, advanced, arm⟩ | ⟨input, -, advanced, auto⟩
  · obtain ⟨rests, later⟩ := within_advance working.auto advanced
    exact ⟨later, arm ▸ working.arm, by rw [rests.1]; exact working.long⟩
  · obtain ⟨⟨more, grown⟩, later⟩ := within_advance working.arm advanced
    exact ⟨auto ▸ working.auto, later, by rw [grown]; exact working.long.trans (by simp)⟩

/-- A step that does not open the gate. -/
theorem Unready.step (unready : Unready earlier s)
    (taken : TakesWhen (fun _ label => label.IsThread) System.step s label next)
    (shut : ¬∃ input, label = .arm input ∧ Opens poll input s.arm s.board) :
    Unready earlier next := by
  rcases step_cases taken with ⟨input, -, advanced, arm⟩ | ⟨input, rfl, advanced, auto⟩
  · obtain ⟨rests, later⟩ := within_advance unready.auto advanced
    refine ⟨later, arm ▸ unready.arm, rests.1 ▸ unready.unturned, ?_⟩
    rw [rests.2, arm]
    exact unready.flag1
  · rcases gated_advance unready.arm advanced with opens | ⟨⟨⟨more, grown, other⟩, kept⟩, later⟩
    · exact absurd ⟨input, rfl, opens⟩ shut
    refine ⟨auto ▸ unready.auto, later, ?_, ?_⟩
    · rw [grown]
      exact fun turned => unready.unturned (turned.of_append other)
    · rcases unready.flag1 with clear | leads
      · exact .inl (kept clear)
      · exact leads.advance advanced

/-- After the guarded branch has been taken the contract holds. -/
structure Loading (earlier : Nat) (s : System) : Prop where
  auto : ∀ task ∈ s.auto, task.Within Rests
  arm : Stays (shot earlier) s.arm s.board

theorem Working.loading {input : Sensors} (working : Working earlier s)
    (opens : Opens poll input s.arm s.board) (taken : s.step (.arm input) = some next) :
    Loading earlier next := by
  obtain ⟨⟨rest, shape⟩, past, clear⟩ := opens_poll.mp opens
  have others : ∀ task ∈ rest, task.Within Grows :=
    (List.forall_mem_cons.mp (shape ▸ working.arm)).2
  obtain rfl : { s with arm := .run turnAndLoad :: rest } = next := by
    simpa [System.step, shape, poll, ifThen, Stmt.when, advance, past, clear] using taken
  refine ⟨working.auto, fun count => ?_⟩
  -- the branch prepares the shot, and what is left afterwards only adds commands
  have branch : Triple (shot earlier) (commanded earlier (earlier ≤ ·.length)) turnAndLoad
      (commanded earlier (Prepared earlier)) (.never _) := turnAndLoad_triple
  refine branch count rest s.board working.long ?_ (fun _ never => never.elim)
  intro b prepared
  refine (commanded earlier (Prepared earlier)).safe_within ?_ others prepared count
  rintro b next prepared - ⟨more, grown⟩
  refine ⟨fun _ => prepared, ?_⟩
  change Prepared earlier next.commands
  rw [grown]
  exact ⟨prepared.1.append more, prepared.2.append more⟩

theorem Loading.step (loading : Loading earlier s)
    (taken : TakesWhen (fun _ label => label.IsThread) System.step s label next) :
    Loading earlier next := by
  rcases step_cases taken with ⟨input, -, advanced, arm⟩ | ⟨input, -, advanced, auto⟩
  · obtain ⟨rests, later⟩ := within_advance loading.auto advanced
    exact ⟨later, arm ▸ loading.arm.other rests.1⟩
  · exact ⟨auto ▸ loading.auto, (loading.arm.own trivial advanced).2⟩

theorem Loading.prepared (loading : Loading earlier s) (fires : Fires s) :
    Prepared earlier s.board.commands := by
  obtain ⟨input, next, taken, fired⟩ := fires
  obtain ⟨⟨rest, board⟩, advanced, rfl⟩ := Option.map_eq_some_iff.mp taken
  exact (loading.arm.own trivial advanced).1 fired

end Run

/-- For every run of the route and the arm action of stage 6: the hand has been turned and
the gun loaded when `FireOn` comes, exactly if the waiting loop has found the path past the
point. -/
theorem prepared_iff_polled {start s : System} {labels : List Label} (begins : Begins start)
    (steps : Interleaves start labels s) (fires : Fires s) :
    Prepared start.board.commands.length s.board.commands ↔ Polled start labels s := by
  let Marked : System → Label → System → Prop := fun current label _ =>
    ∃ input, label = .arm input ∧ Opens poll input current.arm current.board
  -- until the guarded branch is taken nothing has turned the hand
  have unready : ∀ {labels current}, Steps (fun current label next =>
      TakesWhen (fun _ label => label.IsThread) System.step current label next ∧
        ¬Marked current label next) start labels current →
      Unready start.board.commands.length current :=
    fun run => run.invariant begins.unready fun _ _ _ inv step => inv.step step.1 step.2
  constructor
  · intro prepared
    rcases steps.exists_marked Marked with
      ⟨before, _, after, current, next, rfl, first, taken, ⟨input, rfl, opens⟩, rest⟩ | unmarked
    · obtain ⟨at_poll, past, -⟩ := opens_poll.mp opens
      exact ⟨before, input, after, current, next, rfl, first, ⟨at_poll, past⟩, taken.2, rest⟩
    · exact absurd prepared.1 (unready unmarked).unturned
  · rintro ⟨before, input, after, current, next, rfl, first, ⟨⟨rest, at_poll⟩, past⟩, taken, later⟩
    have finishes : ∀ {labels current next input after}, Interleaves start labels current →
        Opens poll input current.arm current.board → current.step (.arm input) = some next →
        Interleaves next after s → Prepared start.board.commands.length s.board.commands := by
      intro labels current next input after first opens taken later
      have working : Working start.board.commands.length current :=
        first.invariant begins.working fun _ _ _ inv step => inv.step step
      have loading : Loading start.board.commands.length s :=
        later.invariant (working.loading opens taken) fun _ _ _ inv step => inv.step step
      exact loading.prepared fires
    rcases first.exists_marked Marked with
      ⟨_, _, _, earlier, once, rfl, start_run, step, ⟨_, rfl, opens⟩, between⟩ | unmarked
    · have thread : TakesWhen (fun _ label => label.IsThread) System.step current (.arm input)
          next := ⟨trivial, taken⟩
      exact finishes start_run opens step.2 ((between.step thread).trans later)
    · -- the branch was never taken, so `flag1` is still 0 and the test holds now
      have clear : current.board.arm.flag1 = false := by
        rcases (unready unmarked).flag1 with clear | leads
        · exact clear
        · rw [at_poll] at leads
          rcases leads with never | ⟨never, -⟩ <;> exact never.elim
      exact finishes first (opens_poll.mpr ⟨⟨rest, at_poll⟩, past, clear⟩) taken later

/-- Stage 6 with every option off, and with `armtest_flag` set and `Retry` clear. -/
def sixth : System :=
  { System.powered with
    auto := [.run goRoute6]
    arm := [.run (rtMbRecv .arm), .run armaction6] }

theorem sixth_begins : Begins sixth := ⟨rfl, rfl, rfl⟩

/-- The robot makes nine points of the path at each turn. -/
def onPath : Sensors := { System.stillSensors with nearer := fun _ => true }

/-- The hand is where `armaction6` first sends it. -/
def handUp : Sensors :=
  { System.stillSensors with motorPos := fun motor => if motor = 0 then 1 else 178 / 100 }

/-- The operator presses and lets go button 8. -/
def operated (count : Nat) : Label :=
  .arm { System.stillSensors with button8 := count % 3 == 0 }

instance (label : Label) : Decidable label.IsThread :=
  match label with
  | .auto _ | .arm _ => isTrue trivial
  | .routeGo _ _ | .armTest _ | .emergency _ => isFalse id

/-- A run that ends one step before the shot, which is prepared or not. -/
theorem exists_fires {labels : List Label} (ready : Bool)
    (evaluated : ((run (guarded (fun _ label => label.IsThread) System.step) sixth labels).bind
      fun s => (s.step (.arm System.stillSensors)).map fun next =>
        (decide (next.board.commands = s.board.commands ++ [Command.fireOn]),
          decide (Prepared sixth.board.commands.length s.board.commands))) = some (true, ready)) :
    ∃ s, Interleaves sixth labels s ∧ Fires s ∧
      decide (Prepared sixth.board.commands.length s.board.commands) = ready := by
  obtain ⟨s, taken, evaluated⟩ := Option.bind_eq_some_iff.mp evaluated
  obtain ⟨next, fired, outcome⟩ := Option.map_eq_some_iff.mp evaluated
  obtain ⟨shoots, prepared⟩ := Prod.mk.inj outcome
  exact ⟨s, stepsWhen_of_guarded taken, ⟨_, next, fired, of_decide_eq_true shoots⟩, prepared⟩

/-- The hand gets into place while the robot drives: the waiting loop polls in time. -/
def promptHand : List Label :=
  List.replicate 20 (Label.auto onPath) ++ List.replicate 40 (Label.arm handUp) ++
    List.replicate 500 (Label.auto onPath) ++ List.replicate 60 (Label.arm handUp) ++
    List.replicate 2262 (Label.auto onPath) ++ (List.range 105).map operated

theorem prepared_iff_polled_promptHand :
    ∃ s, Begins sixth ∧ Interleaves sixth promptHand s ∧ Fires s ∧
      Prepared sixth.board.commands.length s.board.commands ∧ Polled sixth promptHand s := by
  obtain ⟨s, steps, fires, ready⟩ : ∃ s, Interleaves sixth promptHand s ∧ Fires s ∧ _ :=
    exists_fires true (by decide +kernel)
  have prepared := of_decide_eq_true ready
  exact ⟨s, sixth_begins, steps, fires, prepared,
    (prepared_iff_polled sixth_begins steps fires).mp prepared⟩

/-- The hand is still on its way when the route ends. -/
def slowHand : List Label :=
  List.replicate 20 (Label.auto onPath) ++ List.replicate 40 (Label.arm System.stillSensors) ++
    List.replicate 2762 (Label.auto onPath) ++ List.replicate 40 (Label.arm handUp) ++
    (List.range 72).map operated

/-- Then the waiting loop makes no turn, and `FireOn` comes with the hand unturned and the
gun not loaded. -/
theorem not_prepared_slowHand :
    sixth.board.handshake.armtestFlag = true ∧ sixth.board.retry = false ∧ Begins sixth ∧
      ∃ s, Interleaves sixth slowHand s ∧ Fires s ∧
        ¬Prepared sixth.board.commands.length s.board.commands := by
  obtain ⟨s, steps, fires, unready⟩ : ∃ s, Interleaves sixth slowHand s ∧ Fires s ∧ _ :=
    exists_fires false (by decide +kernel)
  exact ⟨rfl, rfl, sixth_begins, s, steps, fires, of_decide_eq_false unready⟩

end BadmintonRobot.Mission
