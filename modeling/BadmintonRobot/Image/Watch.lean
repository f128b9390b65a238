import BadmintonRobot.Image.Saved

/-!
# A transfer under observation

`Watch` counts the data frames that the interrupt has put into `Img_Cbuf` and remembers whether the
ring has been full of frames that are not in the file. The interrupt compares the two indices to
find this out. As long as the read index is not about to wrap, and the end frame does not come
after a report, the comparison is right at every statement of the consumer.
-/

namespace BadmintonRobot.Image

open BadmintonRobot.Semantics

namespace System

/-- The data frames in the file. -/
def saved (s : System) : Nat := s.file.length / 8

/-- The camera reports an overflow. -/
def Reports (s : System) : Prop := s.err &&& camErrBufof ≠ 0

instance (s : System) : Decidable s.Reports := inferInstanceAs (Decidable (_ ≠ _))

end System

theorem Pc.le_written (pc : Pc) (taken : Nat) : taken ≤ pc.written taken := by
  unfold Pc.written
  split <;> omega

theorem saved_eq {s : System} {frames : Nat} (file : s.file.length = 8 * frames) :
    s.saved = frames := by
  rw [System.saved, file]
  omega

theorem System.Reports.err_ne {s : System} (reports : s.Reports) : s.err ≠ camErrOK := by
  intro right
  rw [System.Reports, right] at reports
  exact reports (by decide)

/-- The next frame of a camera is put into the ring. -/
def Globals.Stores (g : Globals) (camx : Nat) : Prop :=
  g.camSta camx ≠ .noReady ∧ (g.imgFcnt = 0 ∨ g.camSta camx ≠ .finish) ∧ g.imgFcnt < imgFrames

instance (g : Globals) (camx : Nat) : Decidable (g.Stores camx) :=
  inferInstanceAs (Decidable (_ ∧ _))

/-- The next frame of a camera is taken for the end frame. -/
def Globals.Ends (g : Globals) (camx : Nat) : Prop :=
  g.camSta camx ≠ .noReady ∧ g.camSta camx ≠ .finish ∧ imgFrames ≤ g.imgFcnt

instance (g : Globals) (camx : Nat) : Decidable (g.Ends camx) :=
  inferInstanceAs (Decidable (_ ∧ _))

/-- What the interrupt does to the ring. -/
theorem imgSaveIsr_ring (g : Globals) (camx : Nat) (chunk : Chunk) :
    (imgSaveIsr camx chunk g).rIndex = g.rIndex ∧
      (g.Stores camx → (imgSaveIsr camx chunk g).buf = Ring.store 8 g.buf g.wIndex chunk.byte ∧
        (imgSaveIsr camx chunk g).wIndex = if g.wIndex + 8 = bufSize then 0 else g.wIndex + 8) ∧
      (¬g.Stores camx → (imgSaveIsr camx chunk g).buf = g.buf ∧
        (imgSaveIsr camx chunk g).wIndex = g.wIndex) := by
  by_cases silent : g.camSta camx = .noReady
  · have unstored : ¬g.Stores camx := fun stores => stores.1 silent
    rw [imgSaveIsr, if_pos silent]
    split_ifs <;> exact ⟨rfl, fun stores => absurd stores unstored, fun _ => ⟨rfl, rfl⟩⟩
  · rw [imgSaveIsr, if_neg silent]
    dsimp only
    by_cases first : g.imgFcnt = 0
    · -- a new image, even after the end frame of the last one
      have stores : g.Stores camx := ⟨silent, .inl first, by rw [first]; decide⟩
      have begun : Function.update g.camSta camx CamSta.transmit camx ≠ .finish := by simp
      rw [if_pos first, if_pos begun, if_pos stores.2.2]
      exact ⟨rfl, fun _ => ⟨rfl, rfl⟩, fun unstored => absurd stores unstored⟩
    · rw [if_neg first]
      by_cases finished : g.camSta camx = .finish
      · have unstored : ¬g.Stores camx := fun stores => stores.2.1.elim first (· finished)
        rw [if_neg (not_not.mpr finished)]
        exact ⟨rfl, fun stores => absurd stores unstored, fun _ => ⟨rfl, rfl⟩⟩
      · rw [if_pos finished]
        by_cases count : g.imgFcnt < imgFrames
        · rw [if_pos count]
          exact ⟨rfl, fun _ => ⟨rfl, rfl⟩, fun unstored => absurd ⟨silent, .inr finished, count⟩ unstored⟩
        · have unstored : ¬g.Stores camx := fun stores => count stores.2.2
          rw [if_neg count, Globals.endChunk]
          split_ifs <;> exact ⟨rfl, fun stores => absurd stores unstored, fun _ => ⟨rfl, rfl⟩⟩

/-- A transfer with what an observer counts since the call: the data frames, whether the
frame after them has come, and whether the ring has been full of frames that are not in the
file. -/
structure Watch where
  system : System
  received : Nat
  ended : Bool
  overflowed : Bool

namespace Watch

/-- The data frames that have been received and not been written. -/
def pending (w : Watch) : Nat := w.received - w.system.saved

/-- A frame of the camera of the running call. -/
def frame (w : Watch) (camx : Nat) (next : System) : Watch :=
  if w.system.g.Stores camx then
    { w with
      system := next
      received := w.received + 1
      overflowed := w.overflowed || decide (slots ≤ w.received + 1 - w.system.saved) }
  else if w.system.g.Ends camx then { w with system := next, ended := true }
  else { w with system := next }

def step (w : Watch) : Label → Option Watch
  | .call camx named =>
    (Image.step w.system (.call camx named)).map fun next => ⟨next, 0, false, false⟩
  | .run ok => some { w with system := w.system.exec ok }
  | .frame camx chunk =>
    (Image.step w.system (.frame camx chunk)).map fun next =>
      if w.system.Resting ∨ camx ≠ w.system.camx then { w with system := next }
      else w.frame camx next

theorem frame_system (w : Watch) (camx : Nat) (next : System) :
    (w.frame camx next).system = next := by
  rw [frame]
  split_ifs <;> rfl

/-- The observer does not get in the way. -/
theorem step_system (w : Watch) (label : Label) :
    (w.step label).map Watch.system = Image.step w.system label := by
  cases label with
  | call camx named => simp [step, Function.comp_def]
  | run ok => rfl
  | frame camx chunk =>
    rw [step, Option.map_map]
    refine (Option.map_congr fun next _ => ?_).trans Option.map_id'
    rw [Function.comp_apply]
    split_ifs
    · rfl
    · exact w.frame_system camx next

/-- No call has been made. -/
def initial (g : Globals) : Watch := ⟨Image.initial g, 0, false, false⟩

/-- The frames during a call are one transfer by its camera: they come after the initialisation,
and none follows the end frame. -/
def OneTransfer (w : Watch) : Label → Prop
  | .frame camx _ => w.system.Resting ∨
    camx = w.system.camx ∧ w.system.pc.initialising = false ∧ w.ended = false
  | _ => True

/-- One transfer, in which no data frame fills the last slot of the buffer while the read index
stands at its end, and the end frame does not follow an overflow that has been reported. -/
def Detectable (w : Watch) : Label → Prop
  | .frame camx chunk => w.OneTransfer (.frame camx chunk) ∧
    (w.system.Resting ∨
      ¬(w.system.g.rIndex = bufSize ∧ w.system.g.wIndex + 8 = bufSize) ∧
      (w.system.Reports → w.system.g.Ends camx → chunk ≠ camTrsimgFh))
  | _ => True

end Watch

section Consumer

variable {s : System} {received taken : Nat}

theorem Counted.congr {t : System} (counted : Counted s received taken) (pc : t.pc = s.pc)
    (wIndex : t.g.wIndex = s.g.wIndex) (rIndex : t.g.rIndex = s.g.rIndex) :
    Counted t received taken := by
  obtain ⟨le, w, r, available, moved, wraps⟩ := counted
  refine ⟨le, wIndex.trans w, ?_, ?_, ?_, ?_⟩
  · rw [rIndex, pc, r]
  all_goals rwa [pc]

/-- One more frame in the ring. -/
theorem Counted.store {t : System} (counted : Counted s received taken) (pc : t.pc = s.pc)
    (wIndex : t.g.wIndex = if s.g.wIndex + 8 = bufSize then 0 else s.g.wIndex + 8)
    (rIndex : t.g.rIndex = s.g.rIndex) : Counted t (received + 1) taken := by
  obtain ⟨le, w, r, available, moved, wraps⟩ := counted
  refine ⟨by omega, ?_, ?_, fun here => ?_, ?_, ?_⟩
  · rw [wIndex, w, offset_next]
  · rw [rIndex, pc, r]
  · rw [pc] at here
    exact Nat.lt_succ_of_lt (available here)
  all_goals rwa [pc]

/-- A statement outside the drain loop leaves the ring and the file alone. -/
theorem exec_settled (initialised : s.pc.initialising = false) (settled : s.pc.settled)
    (outside : s.pc ≠ .drainTest) (ok : Bool) :
    (s.exec ok).pc.settled ∧ (s.exec ok).g.wIndex = s.g.wIndex ∧
      (s.exec ok).g.rIndex = s.g.rIndex ∧ (s.exec ok).file = s.file := by
  cases pc : s.pc <;> simp only [pc, Pc.initialising, Pc.settled, Bool.true_eq_false,
    Bool.false_eq_true, ne_eq, not_true_eq_false, reduceCtorEq] at initialised settled outside <;>
    simp only [System.exec, pc] <;> (try split_ifs) <;> simp [Pc.settled]

/-- Once a call is initialised, its statements leave the state of the camera alone. -/
theorem exec_camera (initialised : s.pc.initialising = false) (ok : Bool) :
    (s.exec ok).sta = s.sta ∧ (s.exec ok).err = s.err ∧ (s.exec ok).pc.initialising = false := by
  cases pc : s.pc <;> simp only [pc, Pc.initialising, Bool.true_eq_false] at initialised <;>
    simp only [System.exec, pc] <;> (try split_ifs) <;>
    simp [Pc.initialising, System.sta, System.err]

/-- What the statements do to the counts: a frame that is in the file is taken when the read index
advances. -/
theorem Counted.exec (counted : Counted s received taken) (initialised : s.pc.initialising = false)
    (ok : Bool) : Counted (s.exec ok) received (s.pc.written taken) := by
  rcases s.pc.settled_or with settled | pc | pc | pc | pc
  · rw [(Pc.settled_spec settled taken).2.1]
    by_cases drains : s.pc = .drainTest
    · simp only [System.exec, drains]
      split_ifs with differ
      · exact counted.drainTest drains differ
      · exact .of_settled rfl counted.taken_le counted.wIndex (counted.settled_rIndex settled)
    · obtain ⟨enters, wIndex, rIndex, -⟩ := exec_settled initialised settled drains ok
      refine .of_settled enters counted.taken_le ?_ ?_
      · rw [wIndex, counted.wIndex]
      · rw [rIndex, counted.settled_rIndex settled]
  · simp only [System.exec, pc]
    split_ifs
    · exact counted.write pc _
    · have read : s.g.rIndex = Ring.offset 8 slots taken := by
        simpa [pc, Pc.readOffset] using counted.rIndex
      exact .of_settled rfl counted.taken_le counted.wIndex read
  · simp only [System.exec, pc]
    exact counted.advance pc
  · simp only [System.exec, pc]
    split_ifs with atEnd
    · exact counted.wrapTest.1 atEnd
    · exact counted.wrapTest.2 atEnd
  · simp only [System.exec, pc]
    exact counted.wrap pc

/-- The file grows by a frame at `f_write` only. -/
theorem length_file_exec (file : s.file.length = 8 * s.pc.written taken) (ok : Bool) :
    (s.exec ok).file.length = 8 * (s.exec ok).pc.written (s.pc.written taken) := by
  cases pc : s.pc <;> rw [pc] at file <;> simp only [System.exec, pc] <;> (try split_ifs) <;>
    simp only [Pc.written] at file ⊢ <;> try exact file
  simp only [List.length_append, file, System.chunkAtRead, List.length_map, List.length_range]
  omega

/-- A call is about to report success only if it has seen the end frame. -/
theorem finish_of_exec {ok : Bool} (after : (s.exec ok).pc = .finishMode) : s.sta = .finish := by
  cases pc : s.pc <;> simp only [System.exec, pc] at after <;> (try split_ifs at after) <;>
    simp_all

/-- The statements that can report success. -/
theorem returns_of_exec {ok : Bool} (running : ¬s.Resting)
    (after : (s.exec ok).pc = .returned camErrOK) :
    s.pc = .finishMode ∨ s.pc = .errReturn ∧ s.err = camErrOK := by
  cases pc : s.pc <;> simp only [System.exec, pc] at after <;> (try split_ifs at after) <;>
    simp_all [System.Resting, camErrOK, camErrParam, camErrFile, camErrCan, camErrTimeout]

end Consumer

namespace Watch

/-- The invariant of a call after its initialisation. -/
structure Tracked (w : Watch) : Prop where
  counted : ∃ taken, Counted w.system w.received taken ∧
    w.system.file.length = 8 * w.system.pc.written taken ∧
    (w.ended = false → ¬w.system.Reports → w.received < taken + slots)
  silent : w.system.sta = .noReady → w.received = 0 ∧ w.overflowed = false
  loud : w.overflowed → w.ended = false → w.system.Reports
  error : w.overflowed → w.system.err ≠ camErrOK
  finish : w.system.sta = .finish → w.ended ∧ w.overflowed = false
  mode : w.system.pc = .finishMode → w.system.sta = .finish

variable {w next : Watch}

theorem Tracked.exec (tracked : Tracked w) (initialised : w.system.pc.initialising = false)
    (ok : Bool) : Tracked { w with system := w.system.exec ok } := by
  obtain ⟨sta, err, -⟩ := exec_camera initialised ok
  obtain ⟨taken, counted, file, near⟩ := tracked.counted
  have further := w.system.pc.le_written taken
  have recounted := counted.exec initialised ok
  have refiled := length_file_exec file ok
  have reports : (w.system.exec ok).Reports ↔ w.system.Reports := by
    rw [System.Reports, System.Reports, err]
  refine ⟨⟨_, recounted, refiled, fun going quiet => ?_⟩, ?_, ?_, ?_, ?_, fun after => ?_⟩
  · have room := near going (reports.not.mp quiet)
    dsimp only at room ⊢
    omega
  · rw [sta]
    exact tracked.silent
  · intro overflowed going
    exact reports.mpr (tracked.loud overflowed going)
  · rw [err]
    exact tracked.error
  · rw [sta]
    exact tracked.finish
  · rw [sta]
    exact finish_of_exec after

section Frame

variable {chunk : Chunk}

/-- What the interrupt leaves alone before the camera has answered. -/
theorem imgSaveIsr_silent {g : Globals} {camx : Nat} (silent : g.camSta camx = .noReady)
    (chunk : Chunk) :
    (imgSaveIsr camx chunk g).wIndex = g.wIndex ∧ (imgSaveIsr camx chunk g).rIndex = g.rIndex ∧
      (imgSaveIsr camx chunk g).camSta camx ≠ .finish := by
  rw [imgSaveIsr, if_pos silent]
  split_ifs <;> simp [silent]

/-- The head frame, or an error instead of it. No data frame has been received before. -/
theorem Tracked.head (tracked : Tracked w) (silent : w.system.sta = .noReady) :
    Tracked { w with system := w.system.interrupt w.system.camx chunk } := by
  obtain ⟨none, quiet⟩ := tracked.silent silent
  obtain ⟨taken, counted, file, -⟩ := tracked.counted
  obtain ⟨wIndex, rIndex, unfinished⟩ := imgSaveIsr_silent silent chunk
  refine ⟨⟨taken, counted.congr rfl wIndex rIndex, file, fun _ _ => ?_⟩, fun _ => ⟨none, quiet⟩,
    ?_, ?_, fun finish => absurd finish unfinished, fun mode => ?_⟩
  · have room : 0 < slots := by decide
    dsimp only
    omega
  · exact fun overflowed => by simp [quiet] at overflowed
  · exact fun overflowed => by simp [quiet] at overflowed
  · have finish := tracked.mode mode
    rw [silent] at finish
    cases finish

/-- A data frame. If it fills the ring it reports an overflow. -/
theorem Tracked.data (tracked : Tracked w) (answered : w.system.sta ≠ .noReady)
    (going : w.system.sta ≠ .finish) (count : w.system.g.imgFcnt < imgFrames)
    (current : w.ended = false)
    (notWrapping : ¬(w.system.g.rIndex = bufSize ∧ w.system.g.wIndex + 8 = bufSize)) :
    Tracked { w with
      system := w.system.interrupt w.system.camx chunk
      received := w.received + 1
      overflowed := w.overflowed || decide (slots ≤ w.received + 1 - w.system.saved) } := by
  obtain ⟨taken, counted, file, near⟩ := tracked.counted
  have isr := imgSaveIsr_stores chunk answered going count
  set t := w.system.interrupt w.system.camx chunk with interrupted
  have wIndex : t.g.wIndex =
      if w.system.g.wIndex + 8 = bufSize then 0 else w.system.g.wIndex + 8 := by
    rw [interrupted, System.interrupt, isr]
    rfl
  have rIndex : t.g.rIndex = w.system.g.rIndex := by
    rw [interrupted, System.interrupt, isr]
    rfl
  have flag : t.err = if t.g.wIndex = w.system.g.rIndex then camErrBufof ||| camErrIt
      else w.system.err := by
    simpa only [interrupted, System.interrupt, System.err, isr] using
      putChunk_camErrFlg _ w.system.camx chunk
  have kept : w.system.Reports → t.Reports := by
    intro reports
    rw [System.Reports, flag]
    split_ifs
    · decide
    · exact reports
  have sta : t.sta ≠ .noReady ∧ t.sta ≠ .finish := by
    rw [interrupted, System.sta, System.interrupt, isr]
    simp only [Globals.putChunk]
    split_ifs <;> simp [answered, going]
  have restored : Counted t (w.received + 1) taken := counted.store rfl wIndex rIndex
  have refiled : t.file.length = 8 * t.pc.written taken := file
  have room : ¬t.Reports → w.received + 1 < taken + slots := by
    intro quiet
    refine counted.room (near current (mt kept quiet)) ?_ notWrapping
    rw [← wIndex]
    intro full
    rw [System.Reports, flag, if_pos full] at quiet
    exact quiet (by decide)
  have loud : w.overflowed || decide (slots ≤ w.received + 1 - w.system.saved) → t.Reports := by
    intro overflowed
    rcases Bool.or_eq_true_iff.mp overflowed with before | now
    · exact kept (tracked.loud before current)
    · by_contra quiet
      have more := w.system.pc.le_written taken
      have full := of_decide_eq_true now
      rw [saved_eq file] at full
      have free := room quiet
      have some_ : 0 < slots := by decide
      omega
  refine ⟨⟨taken, restored, refiled, fun _ => room⟩, fun silent => absurd silent sta.1,
    fun overflowed _ => loud overflowed, fun overflowed => (loud overflowed).err_ne,
    fun finish => absurd finish sta.2, fun mode => absurd (tracked.mode mode) going⟩

/-- The frame after the last data frame. -/
theorem Tracked.last (tracked : Tracked w) (answered : w.system.sta ≠ .noReady)
    (going : w.system.sta ≠ .finish) (count : imgFrames ≤ w.system.g.imgFcnt)
    (current : w.ended = false) (orderly : w.system.Reports → chunk ≠ camTrsimgFh) :
    Tracked { w with system := w.system.interrupt w.system.camx chunk, ended := true } := by
  obtain ⟨taken, counted, file, -⟩ := tracked.counted
  have isr := imgSaveIsr_ends chunk answered going count
  by_cases ends : chunk = camTrsimgFh
  · -- the end frame comes without an overflow
    have quiet : w.overflowed = false := by
      by_contra overflowed
      exact orderly (tracked.loud (by simpa using overflowed) current) ends
    rw [Globals.endChunk, if_pos ends] at isr
    refine ⟨⟨taken, counted.congr rfl ?_ ?_, file, Bool.noConfusion⟩, fun silent => ?_,
      fun _ => Bool.noConfusion, ?_, fun _ => ⟨rfl, quiet⟩,
      fun mode => absurd (tracked.mode mode) going⟩
    · rw [System.interrupt, isr]
    · rw [System.interrupt, isr]
    · rw [System.interrupt, System.sta, isr] at silent
      simp at silent
    · exact fun overflowed => by simp [quiet] at overflowed
  · rw [Globals.endChunk, if_neg ends] at isr
    refine ⟨⟨taken, counted.congr rfl ?_ ?_, file, Bool.noConfusion⟩, fun silent => ?_,
      fun _ => Bool.noConfusion, fun _ => ?_, fun finish => ?_,
      fun mode => absurd (tracked.mode mode) going⟩
    · rw [System.interrupt, isr]
    · rw [System.interrupt, isr]
    · rw [System.interrupt, System.sta, isr] at silent
      exact absurd silent answered
    · rw [System.interrupt, System.err, isr]
      simp [camErrIt, camErrFrame, camErrOK]
    · rw [System.interrupt, System.sta, isr] at finish
      exact absurd finish going

/-- Every frame of the transfer keeps the invariant. -/
theorem Tracked.frame (tracked : Tracked w) (running : ¬w.system.Resting)
    (detectable : w.Detectable (.frame w.system.camx chunk)) :
    Tracked (w.frame w.system.camx (w.system.interrupt w.system.camx chunk)) := by
  obtain ⟨one, condition⟩ := detectable
  obtain ⟨-, -, current⟩ := one.resolve_left running
  obtain ⟨notWrapping, orderly⟩ := condition.resolve_left running
  have going : w.system.sta ≠ .finish := by
    intro finish
    have ended := (tracked.finish finish).1
    rw [current] at ended
    cases ended
  by_cases silent : w.system.sta = .noReady
  · rw [Watch.frame, if_neg fun stores => stores.1 silent, if_neg fun ends => ends.1 silent]
    exact tracked.head silent
  · by_cases count : w.system.g.imgFcnt < imgFrames
    · rw [Watch.frame, if_pos ⟨silent, .inr going, count⟩]
      exact tracked.data silent going count current notWrapping
    · have ends : w.system.g.Ends w.system.camx := ⟨silent, going, Nat.le_of_not_lt count⟩
      rw [Watch.frame, if_neg fun stores => count stores.2.2, if_pos ends]
      exact tracked.last silent going ends.2.2 current fun reports => orderly reports ends

end Frame

/-- The invariant between calls and during them. -/
structure Inv (w : Watch) : Prop where
  blank : w.system.pc.initialising →
    w.received = 0 ∧ w.ended = false ∧ w.overflowed = false ∧ w.system.file = []
  reset : w.system.pc = .initMode ∨ w.system.pc = .initRIndex ∨ w.system.pc = .initWIndex →
    w.system.sta = .noReady
  front : w.system.pc = .initWIndex → w.system.g.rIndex = 0
  tracked : ¬w.system.Resting → w.system.pc.initialising = false → Tracked w
  returned : w.system.pc = .returned camErrOK → w.overflowed = false

theorem inv_initial (g : Globals) : Inv (initial g) := by
  constructor <;> simp [initial, Image.initial, Pc.initialising, System.Resting]

/-- A call that is initialised, or has returned. -/
theorem inv_of_tracked (initialised : w.system.pc.initialising = false)
    (tracked : ¬w.system.Resting → Tracked w)
    (returned : w.system.pc = .returned camErrOK → w.overflowed = false) : Inv w := by
  refine ⟨?_, ?_, ?_, fun running _ => tracked running, returned⟩
  · simp [initialised]
  · rintro (pc | pc | pc) <;> simp [pc, Pc.initialising] at initialised
  · intro pc
    simp [pc, Pc.initialising] at initialised

/-- The initialisation ends with an empty ring and a camera that has not answered. -/
theorem Inv.exec_initialising (inv : Inv w) (initialising : w.system.pc.initialising)
    (ok : Bool) : Inv { w with system := w.system.exec ok } := by
  obtain ⟨none, going, quiet, file⟩ := inv.blank initialising
  cases pc : w.system.pc <;> simp only [pc, Pc.initialising, Bool.false_eq_true] at initialising
  case param =>
    simp only [System.exec, pc]
    split_ifs
    · exact inv_of_tracked rfl (fun running => absurd trivial running) fun _ => quiet
    · constructor <;> simp [Pc.initialising, none, going, quiet, file]
  case initErrFlg =>
    simp only [System.exec, pc]
    constructor <;> simp [Pc.initialising, none, going, quiet, file]
  case initSta =>
    simp only [System.exec, pc]
    constructor <;> simp [Pc.initialising, none, going, quiet, file, System.sta]
  case initMode =>
    have silent : w.system.g.camSta w.system.camx = .noReady := inv.reset (.inl pc)
    simp only [System.exec, pc]
    constructor <;> simp [Pc.initialising, none, going, quiet, file, silent, System.sta]
  case initRIndex =>
    have silent : w.system.g.camSta w.system.camx = .noReady := inv.reset (.inr (.inl pc))
    simp only [System.exec, pc]
    constructor <;> simp [Pc.initialising, none, going, quiet, file, silent, System.sta]
  case initWIndex =>
    have silent := inv.reset (.inr (.inr pc))
    have front := inv.front pc
    simp only [System.exec, pc]
    refine inv_of_tracked rfl (fun _ => ?_) fun returned => by cases returned
    refine ⟨⟨0, .of_settled rfl (Nat.zero_le _) ?_ ?_, ?_, fun _ _ => ?_⟩, fun _ => ⟨none, quiet⟩,
      ?_, ?_, fun finish => absurd (silent.symm.trans finish) (by decide), fun mode => by cases mode⟩
    · simp [none]
    · simpa using front
    · simp [file, Pc.written]
    · simp [none, slots]
    · exact fun overflowed => by simp [quiet] at overflowed
    · exact fun overflowed => by simp [quiet] at overflowed

theorem Inv.exec (inv : Inv w) (ok : Bool) : Inv { w with system := w.system.exec ok } := by
  by_cases resting : w.system.Resting
  · have same : w.system.exec ok = w.system := by
      cases pc : w.system.pc <;> simp_all [System.Resting, System.exec]
    rw [same]
    exact inv
  by_cases initialising : w.system.pc.initialising
  · exact inv.exec_initialising initialising ok
  have initialised : w.system.pc.initialising = false := by simpa using initialising
  have tracked := inv.tracked resting initialised
  refine inv_of_tracked (exec_camera initialised ok).2.2 (fun _ => tracked.exec initialised ok) ?_
  intro after
  rcases returns_of_exec resting after with mode | ⟨-, right⟩
  · exact (tracked.finish (tracked.mode mode)).2
  · by_contra overflowed
    exact tracked.error (by simpa using overflowed) right

theorem Inv.step {label : Label} (inv : Inv w) (detectable : w.Detectable label)
    (taken : w.step label = some next) : Inv next := by
  cases label with
  | call camx named =>
    obtain ⟨system, moved, rfl⟩ := Option.map_eq_some_iff.mp taken
    simp only [Image.step, Option.ite_none_right_eq_some, Option.some.injEq] at moved
    obtain ⟨-, rfl⟩ := moved
    constructor <;> simp [Pc.initialising]
  | run ok =>
    cases taken
    exact inv.exec ok
  | frame camx chunk =>
    obtain ⟨system, moved, rfl⟩ := Option.map_eq_some_iff.mp taken
    simp only [Image.step, Option.ite_none_right_eq_some, Option.some.injEq] at moved
    obtain ⟨-, rfl⟩ := moved
    by_cases resting : w.system.Resting
    · rw [if_pos (Or.inl resting)]
      refine inv_of_tracked ?_ (fun running => absurd resting running) inv.returned
      change w.system.pc.initialising = false
      cases pc : w.system.pc <;> simp_all [System.Resting, Pc.initialising]
    · obtain ⟨rfl, initialised, -⟩ := detectable.1.resolve_left resting
      have tracked := (inv.tracked resting initialised).frame resting detectable
      rw [if_neg (by simp [resting])]
      refine inv_of_tracked ?_ (fun _ => tracked) fun returned => ?_
      · rw [frame_system]
        exact initialised
      · rw [frame_system] at returned
        replace returned : w.system.pc = .returned camErrOK := returned
        exact absurd (by rw [System.Resting, returned]; trivial) resting

/-- No statement takes frames out of the file. -/
theorem saved_le_exec (s : System) (ok : Bool) : s.saved ≤ (s.exec ok).saved := by
  have longer : s.file.length ≤ (s.exec ok).file.length := by
    cases pc : s.pc <;> simp only [System.exec, pc] <;> (try split_ifs) <;> simp
  exact Nat.div_le_div_right longer

/-- When as many frames wait as the ring holds, the camera reports it. -/
theorem Inv.reports {label : Label} (inv : Inv w) (detectable : w.Detectable label)
    (taken : w.step label = some next) (before : w.pending < slots)
    (after : slots ≤ next.pending) : next.system.Reports := by
  have kept := inv.step detectable taken
  cases label with
  | call camx named =>
    obtain ⟨system, -, rfl⟩ := Option.map_eq_some_iff.mp taken
    rw [pending, Nat.zero_sub] at after
    exact absurd after (by decide)
  | run ok =>
    cases taken
    have more := saved_le_exec w.system ok
    rw [pending] at before after
    dsimp only at after
    omega
  | frame camx chunk =>
    obtain ⟨system, moved, rfl⟩ := Option.map_eq_some_iff.mp taken
    simp only [Image.step, Option.ite_none_right_eq_some, Option.some.injEq] at moved
    obtain ⟨-, rfl⟩ := moved
    by_cases resting : w.system.Resting
    · rw [if_pos (Or.inl resting)] at after
      exact absurd after (Nat.not_le_of_lt before)
    · obtain ⟨rfl, initialised, current⟩ := detectable.1.resolve_left resting
      rw [if_neg (by simp [resting])] at kept after ⊢
      by_cases stores : w.system.g.Stores w.system.camx
      · have tracked := kept.tracked (by rw [frame_system]; exact resting)
          (by rw [frame_system]; exact initialised)
        rw [frame, if_pos stores] at tracked after ⊢
        refine tracked.loud ?_ current
        have full : slots ≤ w.received + 1 - w.system.saved := after
        simp [full]
      · rw [frame, if_neg stores] at after
        split_ifs at after
        · exact absurd after (Nat.not_le_of_lt before)
        · exact absurd after (Nat.not_le_of_lt before)

end Watch

end BadmintonRobot.Image
