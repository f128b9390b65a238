import Mathlib
import BadmintonRobot.Joystick.LostStop
import BadmintonRobot.Semantics.Conclusion
import BadmintonRobot.Semantics.RelyGuarantee

/-!
# Driving with the joystick that is left

When one joystick is lost, the thread of the other one is to drive the robot alone. It decides
so if it finds the poll counter of the lost joystick at zero. The counter is zero only during the
short delay after a timeout, so frames are lost in between. A frame that is handled
within such a delay, and that no newer frame overwrites meanwhile, does lead to the call
with its deflections.
-/

namespace BadmintonRobot.Joystick

open Semantics Control

variable {K : Type} [Field K]

/-- What a thread adds to `Speed_X` when it drives alone. Only the thread of the X joystick
obeys button 10. -/
def lrTerm (which : Hand) (data : HandleData) : K :=
  match which with
  | .x => if data.button10On && data.button7Off then (deflection data.lr : K) / 10
      else (deflection data.lr : K)
  | .y => (deflection data.lr : K)

/-- The call with the deflections of a frame. -/
def takeOverCall (which : Hand) (data : HandleData) (b : Board K) : Command K :=
  .setSpeed which (b.shared.speedX + lrTerm which data)
    (b.shared.speedY + (deflection data.ud : K))
    (b.shared.speedRotation + (deflection data.turn : K) / 10)

/-- The variable that a thread adds to `Speed_X` when it drives alone. -/
def Board.lrSpeed (b : Board K) : Hand → K
  | .x => b.handleSpeedX
  | .y => (b.locals .y).handleSpeedX2

/-- What other threads do while the other joystick is silent. -/
structure Leaves (b later : Board K) : Prop where
  handleSpeedX : later.handleSpeedX = b.handleSpeedX
  locals : later.locals = b.locals

instance : Std.Refl (Leaves (K := K)) := ⟨fun _ => ⟨rfl, rfl⟩⟩

instance : IsTrans (Board K) Leaves :=
  ⟨fun _ _ _ first second => ⟨second.handleSpeedX.trans first.handleSpeedX,
    second.locals.trans first.locals⟩⟩

/-- A statement with one frame and the other joystick found lost, which does not make the
call. -/
structure Withholds (which : Hand) (data : HandleData) (view : View) (b next : Board K) : Prop where
  frame : view.data = data
  lost : view.otherFlag = 0
  silent : next.commands ≠ b.commands ++ [takeOverCall which data b]

/-- The thread has read the sticks. -/
structure Reads (which : Hand) (data : HandleData) (lr : K) (b : Board K) : Prop where
  lr : b.lrSpeed which = lr
  ud : (b.locals which).handleSpeedY2 = (deflection data.ud : K)
  turn : (b.locals which).handleSpeedRotation = (deflection data.turn : K) / 10

section Work

variable {which : Hand} {data : HandleData} {lr : K} {b : Board K} {goal : Board K → Prop}

omit [Field K] in
theorem kept_lrSpeed : Kept Leaves fun b : Board K => b.lrSpeed which = lr := by
  intro b later holds leaves
  cases which with
  | x => exact leaves.handleSpeedX.trans holds
  | y => simpa [Board.lrSpeed, leaves.locals] using holds

theorem kept_reads : Kept Leaves (Reads which data lr) := by
  intro b later reads leaves
  constructor
  · exact kept_lrSpeed b later reads.lr leaves
  · rw [leaves.locals, reads.ud]
  · rw [leaves.locals, reads.turn]

theorem readSticks_concludes (next : ∀ b, Reads which data lr b → goal b)
    (read : b.lrSpeed which = lr) :
    (readSticks which).Concludes Leaves (Withholds which data) goal b := by
  have kept : Kept Leaves fun b : Board K =>
      b.lrSpeed which = lr ∧ (b.locals which).handleSpeedY2 = (deflection data.ud : K) := by
    intro b later holds leaves
    exact ⟨kept_lrSpeed b later holds.1 leaves, by rw [leaves.locals, holds.2]⟩
  refine concludes_block_cons (concludes_update kept_lrSpeed ?_ read)
  intro view b lr withholds
  refine concludes_block_cons (concludes_update kept ?_ ?_)
  · intro view b holds withholds _ later leaves _
    refine next later (kept_reads _ _ ?_ leaves)
    obtain ⟨lr, ud⟩ := holds
    constructor
    · cases which <;> simpa [Board.lrSpeed, Board.assign] using lr
    · simpa [Board.assign] using ud
    · simp [Board.assign, withholds.frame]
  · constructor
    · cases which <;> simpa [Board.lrSpeed, Board.assign] using lr
    · simp [Board.assign, withholds.frame]

theorem setScale_concludes {fine : Board K → Board K}
    (next : ∀ b, Reads which data (lrTerm which data) b → goal b)
    (fines : (data.button10On && data.button7Off) = true → ∀ b, Reads which data lr b →
      Reads which data (lrTerm which data) (fine b))
    (plain : (data.button10On && data.button7Off) = false → lr = lrTerm which data)
    (reads : Reads which data lr b) :
    (setScale which fine).Concludes Leaves (Withholds which data) goal b := by
  have slower : ∀ (speedM : Int) (b : Board K), Reads which data (lrTerm which data) b →
      Reads which data (lrTerm which data)
        (b.assign which fun l => { l with speedM := speedM }) := by
    intro speedM b reads
    constructor
    · cases which <;> simpa [Board.lrSpeed, Board.assign] using reads.lr
    · simpa [Board.assign] using reads.ud
    · simpa [Board.assign] using reads.turn
  refine concludes_when kept_reads ?_ ?_ reads
  · intro view b reads withholds pressed
    rw [withholds.frame] at pressed
    refine concludes_block_cons (concludes_update kept_reads ?_ reads)
    intro _ b reads _
    refine concludes_block_cons (concludes_update kept_reads ?_ (fines pressed b reads))
    intro _ b reads _ _ later leaves _
    exact next later (kept_reads _ _ (slower 150 b reads) leaves)
  · intro view b reads withholds released
    rw [withholds.frame] at released
    refine concludes_update kept_reads ?_ (plain released ▸ reads)
    intro _ b reads _
    exact next _ (slower 500 b reads)

/-- The thread does not come past its take-over without the call. -/
theorem takeOver_concludes {alone : Board K → Board K}
    (calls : ∀ b, Reads which data (lrTerm which data) b →
      (alone b).commands = b.commands ++ [takeOverCall which data b])
    (reads : Reads which data (lrTerm which data) b) :
    (takeOver alone).Concludes Leaves (Withholds which data) goal b := by
  refine concludes_block_cons (concludes_when kept_reads ?_ ?_ reads)
  · intro view b reads _ _
    refine concludes_block_cons (concludes_update kept_reads ?_ reads)
    intro _ b reads _
    have mode : Reads which data (lrTerm which data) { b with onlyXY := false } := by
      constructor
      · cases which <;> exact reads.lr
      · exact reads.ud
      · exact reads.turn
    refine concludes_block_cons (concludes_update kept_reads ?_ mode)
    intro _ b reads withholds
    exact absurd (calls b reads) withholds.silent
  · intro view b _ withholds released
    simp [withholds.lost] at released

variable [LinearOrder K]

/-- The thread does not come to the end of a frame without the call. -/
theorem work_concludes (maths : Maths K) (which : Hand) (data : HandleData) (b : Board K) :
    (work maths which).Concludes Leaves (Withholds which data) goal b := by
  have any : Kept Leaves fun _ : Board K => True := fun _ _ _ _ => trivial
  cases which with
  | x =>
    refine concludes_block_cons (concludes_update any ?_ trivial)
    intro view b _ withholds
    have read : ({ b with handleSpeedX := (deflection view.data.lr : K) }.lrSpeed .x) =
        (deflection data.lr : K) := by rw [withholds.frame]; rfl
    refine concludes_block_cons (readSticks_concludes ?_ read)
    intro b reads
    refine concludes_block_cons (setScale_concludes ?_ ?_ ?_ reads)
    · intro b reads
      refine concludes_block_cons (takeOver_concludes ?_ reads)
      intro b reads
      simp only [Board.record, takeOverCall, ← reads.lr, ← reads.ud, ← reads.turn, Board.lrSpeed]
    · intro pressed b reads
      refine ⟨?_, reads.ud, reads.turn⟩
      simp only [Board.lrSpeed, lrTerm, if_pos pressed, ← reads.lr]
    · intro released
      simp [lrTerm, released]
  | y =>
    refine concludes_block_cons (concludes_update any (fun view b _ _ => ?_) trivial)
    refine concludes_block_cons (concludes_update any ?_ trivial)
    intro view b _ withholds
    have read : (b.assign .y fun l =>
        { l with handleSpeedX2 := (deflection view.data.lr : K) }).lrSpeed .y = lrTerm .y data := by
      simp [Board.lrSpeed, Board.assign, lrTerm, withholds.frame]
    refine concludes_block_cons (readSticks_concludes ?_ read)
    intro b reads
    refine concludes_block_cons (setScale_concludes ?_ ?_ (fun _ => rfl) reads)
    · intro b reads
      refine concludes_block_cons (takeOver_concludes ?_ reads)
      intro b reads
      simp only [Board.record, takeOverCall, ← reads.lr, ← reads.ud, ← reads.turn, Board.lrSpeed]
    · intro _ b reads
      exact ⟨reads.lr, reads.ud, reads.turn⟩

end Work

section Settled

/-- A thread that stops the robot leaves the other thread's variables alone. -/
def leaving : Contract (Board K) where
  premise _ := True
  rely _ _ := True
  guarantee := Leaves
  idle := Std.Refl.refl

theorem stays_stopAll (which : Hand) (b : Board K) : Stays leaving [.run (stopAll which)] b := by
  have inside : (stopAll which : Code K).Within Leaves := by
    simp only [stopAll, Stmt.within_block, List.forall_mem_cons, Stmt.within_update]
    exact ⟨fun _ _ => ⟨rfl, rfl⟩, fun _ _ => ⟨rfl, rfl⟩, fun _ _ => ⟨rfl, rfl⟩,
      fun _ _ => ⟨rfl, rfl⟩, by simp⟩
  have triple : Triple leaving (.any _) (stopAll which : Code K) (.any _) (.any _) :=
    .within (fun _ _ _ _ leaves => ⟨leaves, trivial⟩) inside
  exact triple.stays trivial

/-- The thread of a silent joystick, after its first timeout: it does not handle a frame. -/
def Handle.Settled (h : Handle K) (b : Board K) : Prop :=
  match h.pc with
  | .test | .count | .pause | .poll | .check => h.handleCount = h.temp
  | .report | .off | .offCount | .offClear | .decide => h.timeFlag = 0
  | .alive | .clear | .offSet => False
  | .busy tasks lost => lost = true ∧ Stays leaving tasks b
  | .top | .zero | .both | .recover | .rest => True

omit [Field K] in
/-- Neither the timer nor what others do to the board matters. -/
theorem Handle.Settled.elsewhere {h : Handle K} {b : Board K} (settled : h.Settled b) (timer : Nat)
    (later : Board K) : { h with timer := timer }.Settled later := by
  unfold Handle.Settled at settled ⊢
  cases pc : h.pc with
  | busy tasks lost =>
    simp only [pc] at settled ⊢
    exact ⟨settled.1, settled.2.other trivial⟩
  | _ =>
    rw [pc] at settled
    exact settled

variable [LinearOrder K] {maths : Maths K} {which : Hand} {otherFlag late : Nat}
  {h next : Handle K} {b : Board K}

theorem Handle.Settled.advance (settled : h.Settled b)
    (taken : h.advance maths which otherFlag late = some next) : next.Settled b := by
  cases pc : h.pc with
  | top | count | pause | report | offCount | offClear | zero | recover | busy _ _ =>
    simp only [Handle.Settled, pc] at settled
    simp only [Handle.advance, pc, Option.some.injEq] at taken
    subst taken
    simp [Handle.Settled, settled]
  | poll =>
    simp only [Handle.Settled, pc] at settled
    simp only [Handle.advance, pc] at taken
    split_ifs at taken
    cases taken
    simp [Handle.Settled, settled]
  | rest =>
    simp only [Handle.advance, pc] at taken
    split_ifs at taken
    cases taken
    trivial
  | test =>
    simp only [Handle.Settled, pc] at settled
    simp only [Handle.advance, pc, settled, Option.some.injEq] at taken
    subst taken
    simp [Handle.Settled]
  | decide =>
    simp only [Handle.Settled, pc] at settled
    simp only [Handle.advance, pc, settled, Option.some.injEq] at taken
    subst taken
    simp [Handle.Settled]
  | check | off =>
    simp only [Handle.Settled, pc] at settled
    simp only [Handle.advance, pc, Option.some.injEq] at taken
    subst taken
    simp only [Handle.Settled]
    split_ifs <;> simp [settled]
  | both =>
    simp only [Handle.advance, pc, Option.some.injEq] at taken
    subst taken
    simp only [Handle.Settled]
    split_ifs
    · exact ⟨rfl, stays_stopAll which b⟩
    · trivial
  | alive | clear | offSet => simp [Handle.Settled, pc] at settled

/-- A timeout settles the thread. -/
theorem Handle.settled_of_timeout (taken : h.advance maths which otherFlag late = some next) :
    next.timeouts = h.timeouts ∨ next.Settled b := by
  cases pc : h.pc with
  | zero =>
    simp only [Handle.advance, pc, Option.some.injEq] at taken
    subst taken
    exact .inr rfl
  | poll | rest =>
    simp only [Handle.advance, pc] at taken
    split_ifs at taken
    cases taken
    exact .inl rfl
  | _ =>
    simp only [Handle.advance, pc, Option.some.injEq] at taken
    subst taken
    exact .inl rfl

end Settled

section Silence

variable [LinearOrder K] {maths : Maths K} {which : Hand} {s next : Cockpit K}

/-- No frame of a joystick comes. -/
def Silent (which : Hand) (_ : Cockpit K) (label : Label K) : Prop :=
  ∀ data, label ≠ .receive which data

/-- What happens to a settled thread and to the board while its joystick is silent. -/
theorem settled_step {label : Label K} (silent : Silent which s label)
    (taken : s.step maths label = some next) (settled : (s.hand which).Settled s.board) :
    (next.hand which).Settled next.board ∧
      ((∃ late, label = .thread which.other late) ∨ Leaves s.board next.board) := by
  cases label with
  | thread mover late =>
    cases Cockpit.threadStep_of_advance taken with
    | own h idle advanced =>
      refine ⟨?_, .inr (Std.Refl.refl _)⟩
      by_cases same : which = mover
      · subst same
        rw [Cockpit.put_hand_self]
        exact settled.advance advanced
      · rw [Cockpit.put_hand_of_ne same]
        exact settled
    | work task tasks rest lost board pc advanced =>
      by_cases same : which = mover
      · subst same
        simp only [Handle.Settled, pc] at settled
        have own := settled.2.own trivial advanced
        refine ⟨?_, .inr own.1⟩
        rw [Cockpit.put_hand_self]
        exact ⟨settled.1, own.2⟩
      · have other : mover = which.other :=
          (mover.eq_or_eq_other which).resolve_left fun equal => same equal.symm
        refine ⟨?_, .inl ⟨late, by rw [other]⟩⟩
        rw [Cockpit.put_hand_of_ne same]
        exact settled.elsewhere _ _
  | tick =>
    cases taken
    exact ⟨settled.elsewhere _ _, .inr (Std.Refl.refl _)⟩
  | receive receiver data =>
    cases taken
    have other : which ≠ receiver := fun same => silent data (by rw [same])
    refine ⟨?_, .inr (Std.Refl.refl _)⟩
    rw [Cockpit.put_hand_of_ne other]
    exact settled
  | outside shared =>
    cases taken
    exact ⟨settled.elsewhere _ _, .inr ⟨rfl, rfl⟩⟩

/-- A joystick that has been silent for a timeout has a settled thread. -/
theorem settled_of_silence {start : Cockpit K} {labels : List (Label K)}
    (steps : Steps (TakesWhen (Silent which) (Cockpit.step maths)) start labels s) :
    (s.hand which).timeouts = (start.hand which).timeouts ∨ (s.hand which).Settled s.board := by
  induction steps with
  | refl => exact .inl rfl
  | @step labels s next label prior transition ih =>
    obtain ⟨silent, taken⟩ := transition
    rcases ih with same | settled
    · cases label with
      | thread mover late =>
        cases Cockpit.threadStep_of_advance taken with
        | own h idle advanced =>
          by_cases own : which = mover
          · subst own
            rw [Cockpit.put_hand_self]
            exact (Handle.settled_of_timeout advanced).imp_left fun kept => kept.trans same
          · rw [Cockpit.put_hand_of_ne own]
            exact .inl same
        | work task tasks rest lost board pc advanced =>
          refine .inl ?_
          rw [← same]
          refine Cockpit.forall_put_hand
            (P := fun third h => h.timeouts = (s.hand third).timeouts) ?_ ?_ which
          · rfl
          · exact fun _ _ => rfl
      | tick =>
        cases taken
        exact .inl same
      | receive receiver data =>
        cases taken
        have other : which ≠ receiver := fun equal => silent data (by rw [equal])
        rw [Cockpit.put_hand_of_ne other]
        exact .inl same
      | outside shared =>
        cases taken
        exact .inl same
    · exact .inr (settled_step silent taken settled).1

end Silence

section Frame

variable [LinearOrder K] {maths : Maths K} {which : Hand} {data : HandleData}

/-- The thread handles a frame, its statements find the other joystick lost, and no frame comes
meanwhile. -/
structure Unspoiled (which : Hand) (s : Cockpit K) (label : Label K) : Prop where
  handles : (s.hand which).pc = .offSet ∨ ∃ tasks, (s.hand which).pc = .busy tasks false
  lost : ∀ late, label = .thread which late → (s.hand which.other).timeFlag = 0
  whole : Silent which s label
  silent : Silent which.other s label

/-- A statement of the thread makes the call. -/
def MakesCall (which : Hand) (data : HandleData) (s : Cockpit K) (label : Label K)
    (next : Cockpit K) : Prop :=
  (∃ late, label = .thread which late) ∧
    next.board.commands = s.board.commands ++ [takeOverCall which data s.board]

/-- The thread handles a frame and has not yet made the call, which it cannot avoid. -/
structure Owes (which : Hand) (data : HandleData) (s : Cockpit K) : Prop where
  settled : (s.hand which.other).Settled s.board
  frame : (s.hand which).data = data
  position : (s.hand which).pc = .offSet ∨ ∃ tasks, (s.hand which).pc = .busy tasks false ∧
    Concludes Leaves (Withholds which data) tasks (fun _ => False) s.board

theorem Owes.step {s next : Cockpit K} {label : Label K} (owes : Owes which data s)
    (step : TakesWhen (Unspoiled which) (Cockpit.step maths) s label next)
    (withheld : ¬MakesCall which data s label next) : Owes which data next := by
  obtain ⟨unspoiled, taken⟩ := step
  obtain ⟨settled, effect⟩ := settled_step unspoiled.silent taken owes.settled
  rw [Hand.other_other] at effect
  have later : Leaves s.board next.board → (next.hand which).data = (s.hand which).data →
      (next.hand which).pc = (s.hand which).pc → Owes which data next := by
    intro leaves same pc
    refine ⟨settled, same.trans owes.frame, ?_⟩
    rw [pc]
    rcases owes.position with first | ⟨tasks, busy, concludes⟩
    · exact .inl first
    · exact .inr ⟨tasks, busy, concludes.other leaves⟩
  cases label with
  | tick =>
    cases taken
    exact later (Std.Refl.refl _) rfl rfl
  | outside shared =>
    cases taken
    exact later ⟨rfl, rfl⟩ rfl rfl
  | receive receiver other =>
    rcases receiver.eq_or_eq_other which with rfl | rfl
    · exact absurd rfl (unspoiled.whole other)
    · exact absurd rfl (unspoiled.silent other)
  | thread mover late =>
    rcases mover.eq_or_eq_other which with rfl | rfl
    · have zero := unspoiled.lost late rfl
      cases Cockpit.threadStep_of_advance taken with
      | own h idle advanced =>
        rcases owes.position with first | ⟨tasks, busy, concludes⟩
        · simp only [Handle.advance, first, Option.some.injEq] at advanced
          subst advanced
          refine ⟨settled, ?_, .inr ⟨[.run (work maths mover)], ?_, ?_⟩⟩
          · simp [owes.frame]
          · simp
          · exact work_concludes maths mover data s.board
        · cases tasks with
          | nil => exact concludes.ended.elim
          | cons task tasks => exact absurd busy (idle task tasks false)
      | work task tasks rest lost board pc advanced =>
        rcases owes.position with first | ⟨others, busy, concludes⟩
        · rw [first] at pc
          cases pc
        · rw [busy] at pc
          cases pc
          have own := concludes.own advanced
            ⟨owes.frame, zero, fun called => withheld ⟨⟨late, rfl⟩, called⟩⟩
          refine ⟨settled, ?_, .inr ⟨rest, ?_, own⟩⟩
          · simp [owes.frame]
          · simp
    · have leaves : Leaves s.board next.board := by
        refine effect.resolve_left ?_
        rintro ⟨other, same⟩
        have equal := (Label.thread.inj same).1
        exact Hand.other_ne which equal
      have same : next.hand which = s.hand which := by
        cases Cockpit.threadStep_of_advance taken with
        | own h idle advanced => exact Cockpit.put_hand_of_ne (Hand.other_ne which).symm _ _
        | work task tasks rest lost board pc advanced =>
          exact Cockpit.put_hand_of_ne (Hand.other_ne which).symm _ _
      exact later leaves (by rw [same]) (by rw [same])

/-- A frame that is handled while the other joystick is found lost leads to the call with its
deflections: if the other joystick has been silent for two timeouts, then between the beginning
and the end of the thread's work with the frame there is a statement that makes the call. -/
theorem failover_calls {start s last : Cockpit K} {labels more : List (Label K)}
    (silence : Steps (TakesWhen (Silent which.other) (Cockpit.step maths)) start labels s)
    (twice : (start.hand which.other).timeouts + 2 ≤ (s.hand which.other).timeouts)
    (begins : (s.hand which).pc = .offSet)
    (frame : Steps (TakesWhen (Unspoiled which) (Cockpit.step maths)) s more last)
    (ends : (last.hand which).pc = .busy [] false) :
    ∃ before label after current next, more = before ++ label :: after ∧
      Steps (Takes (Cockpit.step maths)) s before current ∧
      Takes (Cockpit.step maths) current label next ∧
      MakesCall which (s.hand which).data current label next ∧
      Steps (Takes (Cockpit.step maths)) next after last := by
  have settled : (s.hand which.other).Settled s.board := by
    rcases settled_of_silence silence with same | settled
    · omega
    · exact settled
  rcases frame.exists_marked (MakesCall which (s.hand which).data) with
    ⟨before, label, after, current, next, split, first, taken, makes, rest⟩ | withheld
  · have plain : ∀ {one other : Cockpit K} {labels : List (Label K)},
        Steps (TakesWhen (Unspoiled which) (Cockpit.step maths)) one labels other →
          Steps (Takes (Cockpit.step maths)) one labels other :=
      fun steps => steps.mono fun _ _ _ transition => transition.2
    exact ⟨before, label, after, current, next, split, plain first, taken.2, makes, plain rest⟩
  · have owes : Owes which (s.hand which).data last := by
      refine withheld.invariant ⟨settled, rfl, .inl begins⟩ ?_
      intro current label next owes transition
      exact owes.step transition.1 transition.2
    rcases owes.position with first | ⟨tasks, busy, concludes⟩
    · rw [ends] at first
      cases first
    · rw [ends] at busy
      cases busy
      exact concludes.ended.elim

end Frame

section Runs

/-- The thread of the X joystick in a delay of `left` ticks, and that of the Y joystick in its
polling loop without a frame. -/
def quiet (left flag timeouts : Nat) (off : Bool) : Cockpit ℚ where
  hand
    | .x => ⟨⟨0, 0, 0, fun _ => 0⟩, 0, 0, 2, false, true, 0, .poll, left, 0, 0⟩
    | .y => ⟨⟨0, 0, 0, fun _ => 0⟩, 0, 0, flag, !off, off, (!off).toNat, .poll, 1, timeouts, 0⟩
  board := stillBoard

theorem run_start (late : Nat) :
    run (Cockpit.step stillMaths) (Cockpit.start stillBoard)
      (statements .x 3 ++ [Label.thread .x late] ++ statements .y 4) =
        some (quiet (1 + late) 2 0 true) := by
  refine congrArg some (?_ : Cockpit.mk _ _ = Cockpit.mk _ _)
  congr 1
  funext which
  cases which <;> rfl

theorem run_poll {left flag timeouts : Nat} {off : Bool} (low : flag ≤ 60) :
    run (Cockpit.step stillMaths) (quiet left flag timeouts off) (Label.tick :: statements .y 5) =
      some (quiet (left - 1) (flag + 1) timeouts off) := by
  have wrap : (flag + 1) % 256 = flag + 1 := by omega
  have early : ¬flag > 60 := by omega
  simp only [statements, run, List.replicate, Option.bind_some, Cockpit.step, Cockpit.advance,
    Cockpit.put, Handle.advance, Option.map_some, Function.update_self, quiet, early, wrap,
    if_true, if_false, Nat.sub_self, Option.some.injEq, Cockpit.mk.injEq, and_true]
  funext which
  cases which <;> rfl

theorem run_polls {left flag timeouts : Nat} {off : Bool} (count : Nat) (low : flag + count ≤ 61) :
    run (Cockpit.step stillMaths) (quiet left flag timeouts off)
        (List.replicate count (Label.tick :: statements .y 5)).flatten =
      some (quiet (left - count) (flag + count) timeouts off) := by
  induction count generalizing left flag with
  | zero => rfl
  | succ count ih =>
    rw [List.replicate_succ, List.flatten_cons, run_append, run_poll (by omega), Option.bind_some,
      ih (by omega)]
    congr 2 <;> omega

/-- A timeout of the Y joystick up to the delay after it. -/
def timeout (off : Bool) : List (Label ℚ) := Label.tick :: statements .y (if off then 10 else 8)

theorem run_timeout (left timeouts : Nat) (off : Bool) :
    run (Cockpit.step stillMaths) (quiet left 61 timeouts off)
      (timeout off ++ ([Label.tick, Label.tick] ++ statements .y 5)) =
        some (quiet (left - 3) 1 (timeouts + 1) false) := by
  cases off
  all_goals
    refine congrArg some (?_ : Cockpit.mk _ _ = Cockpit.mk _ _)
    congr 1
    funext which
    cases which <;> rfl

/-- The Y joystick is silent from the start. Its thread is about to time out for the second time,
while the X joystick's thread is held up in its first delay. -/
def silence (late : Nat) : List (Label ℚ) :=
  (statements .x 3 ++ [Label.thread .x late] ++ statements .y 4) ++
    ((List.replicate 59 (Label.tick :: statements .y 5)).flatten ++
      ((timeout true ++ ([Label.tick, Label.tick] ++ statements .y 5)) ++
        (List.replicate 60 (Label.tick :: statements .y 5)).flatten))

theorem run_silence (late : Nat) :
    run (Cockpit.step stillMaths) (Cockpit.start stillBoard) (silence late) =
      some (quiet (late - 121) 61 1 false) := by
  rw [silence, run_append, run_start, Option.bind_some, run_append, run_polls 59 (by omega),
    Option.bind_some, run_append, run_timeout, Option.bind_some, run_polls 60 (by omega)]
  have delay : 1 + late - 59 - 3 - 60 = late - 121 := by omega
  rw [delay]

/-- A frame with all sticks out of their middle and no button pressed. -/
def deflected : HandleData := ⟨12388, 12488, 12588, fun _ => 0⟩

/-- The X joystick sends a frame, and its thread comes to handle it. -/
def arrival : List (Label ℚ) := Label.receive .x deflected :: statements .x 6

theorem silent_silence (late : Nat) {more : List (Label ℚ)}
    (silent : ∀ label ∈ more, ∀ data, label ≠ .receive .y data) :
    ∀ label ∈ silence late ++ more, ∀ s : Cockpit ℚ, Silent .y s label := by
  intro label member s data same
  subst same
  have code : ∀ hand count, Label.receive .y data ∉ statements hand count := by
    simp [statements]
  have polls : ∀ count,
      Label.receive .y data ∉ (List.replicate count (Label.tick :: statements .y 5)).flatten := by
    intro count found
    obtain ⟨poll, member, found⟩ := List.mem_flatten.mp found
    rw [List.eq_of_mem_replicate member] at found
    simp [code] at found
  rcases List.mem_append.mp member with quiet | later
  · simp only [silence, timeout, List.mem_append, List.mem_cons, List.not_mem_nil, code, polls,
      reduceCtorEq, or_self] at quiet
  · exact silent _ later data rfl

/-- A thread is about to handle a frame. -/
def Pc.isFirst : Pc K → Bool
  | .offSet => true
  | _ => false

/-- A thread has handled a frame. -/
def Pc.isLast : Pc K → Bool
  | .busy [] false => true
  | _ => false

omit [Field K] in
theorem Pc.eq_of_isFirst {pc : Pc K} (first : pc.isFirst = true) : pc = .offSet := by
  cases pc <;> first | rfl | cases first

omit [Field K] in
theorem Pc.eq_of_isLast {pc : Pc K} (last : pc.isLast = true) : pc = .busy [] false := by
  unfold Pc.isLast at last
  split at last
  · rfl
  · cases last

/-- The statements of a thread that finds the other joystick lost. -/
def FindsLost (s : Cockpit ℚ) (label : Label ℚ) : Prop :=
  ((s.hand .x).pc.isFirst = true ∨
    (match (s.hand .x).pc with | .busy _ lost => !lost | _ => false) = true) ∧
  (s.hand .y).timeFlag = 0 ∧ (match label with | .thread _ _ => true | _ => false) = true

instance (s : Cockpit ℚ) (label : Label ℚ) : Decidable (FindsLost s label) := by
  unfold FindsLost
  infer_instance

theorem FindsLost.unspoiled {s : Cockpit ℚ} {label : Label ℚ} (finds : FindsLost s label) :
    Unspoiled .x s label := by
  obtain ⟨handles, lost, thread⟩ := finds
  have code : ∀ which data, label ≠ .receive which data := by
    rintro which data rfl
    cases thread
  refine ⟨?_, fun _ _ => lost, fun data => code _ data, fun data => code _ data⟩
  rcases handles with first | busy
  · exact .inl (Pc.eq_of_isFirst first)
  · cases pc : (s.hand .x).pc with
    | busy tasks lost => exact .inr ⟨tasks, by simpa [pc] using busy⟩
    | _ => simp [pc] at busy

/-- In the delay after its second timeout the Y joystick is found lost, and a frame of the X
joystick leads to the call. -/
theorem failover_calls_deflected :
    ∃ s before label after current next,
      Steps (TakesWhen (Silent .y) (Cockpit.step stillMaths)) (Cockpit.start stillBoard)
        (silence 122 ++ (timeout false ++ arrival)) s ∧
      statements .x 28 = before ++ label :: after ∧
      Takes (Cockpit.step stillMaths) current label next ∧
      MakesCall .x (s.hand .x).data current label next := by
  have reached : ((run (Cockpit.step stillMaths) (quiet 1 61 1 false)
      (timeout false ++ arrival)).bind fun s => (run (guarded FindsLost (Cockpit.step stillMaths))
        s (statements .x 28)).map fun last => decide ((s.hand .y).timeouts = 2 ∧
          (s.hand .x).pc.isFirst = true ∧ (last.hand .x).pc.isLast = true)) = some true := by
    decide +kernel
  obtain ⟨s, taken, handled⟩ := Option.bind_eq_some_iff.mp reached
  obtain ⟨last, frame, facts⟩ := Option.map_eq_some_iff.mp handled
  obtain ⟨timeouts, first, done⟩ := of_decide_eq_true facts
  have whole : run (Cockpit.step stillMaths) (Cockpit.start stillBoard)
      (silence 122 ++ (timeout false ++ arrival)) = some s := by
    rw [run_append, run_silence, Option.bind_some, taken]
  have silent : Steps (TakesWhen (Silent Hand.x.other) (Cockpit.step stillMaths))
      (Cockpit.start stillBoard) (silence 122 ++ (timeout false ++ arrival)) s :=
    stepsWhen_of_run (silent_silence 122 (by simp [timeout, arrival, statements])) whole
  have twice : ((Cockpit.start stillBoard).hand Hand.x.other).timeouts + 2 ≤
      (s.hand Hand.x.other).timeouts := by
    simp [Hand.other, timeouts, Cockpit.start]
  have unspoiled : Steps (TakesWhen (Unspoiled .x) (Cockpit.step stillMaths)) s
      (statements .x 28) last := by
    refine (stepsWhen_of_guarded frame).mono ?_
    intro current label next transition
    exact ⟨transition.1.unspoiled, transition.2⟩
  obtain ⟨before, label, after, current, next, split, -, step, makes, -⟩ :=
    failover_calls silent twice (Pc.eq_of_isFirst first) unspoiled (Pc.eq_of_isLast done)
  exact ⟨s, before, label, after, current, next, silent, split, step, makes⟩

/-- One poll after the delay, the same frame of the X joystick leads to no call at all. -/
theorem not_failover_deflected :
    ∃ s last,
      Steps (TakesWhen (Silent .y) (Cockpit.step stillMaths)) (Cockpit.start stillBoard)
        (silence 124 ++ ((timeout false ++ ([Label.tick, Label.tick] ++ statements .y 5)) ++
          arrival)) s ∧
      (s.hand .y).timeouts = 2 ∧ (s.hand .x).pc = .offSet ∧
      (s.hand .x).data.button9Off = true ∧ (s.hand .x).data.button6Up = false ∧
      Steps (Takes (Cockpit.step stillMaths)) s (statements .x 24) last ∧
      (last.hand .x).pc = .busy [] false ∧ last.board.commands.length = 0 := by
  have reached : ((run (Cockpit.step stillMaths) (quiet 0 1 2 false) arrival).bind fun s =>
      (run (Cockpit.step stillMaths) s (statements .x 24)).map fun last =>
        decide ((s.hand .y).timeouts = 2 ∧ (s.hand .x).pc.isFirst = true ∧
          (s.hand .x).data.button9Off = true ∧ (s.hand .x).data.button6Up = false ∧
          (last.hand .x).pc.isLast = true ∧ last.board.commands.length = 0)) = some true := by
    decide +kernel
  obtain ⟨s, taken, handled⟩ := Option.bind_eq_some_iff.mp reached
  obtain ⟨last, frame, facts⟩ := Option.map_eq_some_iff.mp handled
  obtain ⟨timeouts, first, off, up, done, none⟩ := of_decide_eq_true facts
  have whole : run (Cockpit.step stillMaths) (Cockpit.start stillBoard)
      (silence 124 ++ ((timeout false ++ ([Label.tick, Label.tick] ++ statements .y 5)) ++
        arrival)) = some s := by
    rw [run_append, run_silence, Option.bind_some, run_append, run_timeout, Option.bind_some, taken]
  have silent := stepsWhen_of_run
    (silent_silence 124 (by simp [timeout, arrival, statements])) whole
  exact ⟨s, last, silent, timeouts, Pc.eq_of_isFirst first, off, up, steps_of_run frame,
    Pc.eq_of_isLast done, none⟩

end Runs

end BadmintonRobot.Joystick
