import BadmintonRobot.Image.Preservation

/-!
# A saved image is the transferred one

Every statement of `Save_Img` and every orderly frame keeps the invariant, so a
call that returns `camErr_OK` has written exactly the data frames of its transfer.
An end frame that arrives while the consumer sleeps, with frames left in the ring,
shows that the condition is needed.
-/

namespace BadmintonRobot.Image

open BadmintonRobot.Semantics

section Runs

variable {s t : System}

theorem inv_initial (g : Globals) : Inv (initial g) := by
  constructor <;> simp [initial, Pc.initialising, System.Resting]

private theorem inv_of_body (body : Body t) : Inv t := by
  obtain ⟨running, initialised⟩ := body.going
  refine ⟨?_, ?_, ?_, ?_, fun _ _ => body, ?_⟩
  · simp [initialised]
  · rintro (pc | pc | pc | pc) <;> simp [pc, Pc.initialising] at initialised
  · rintro (pc | pc | pc) <;> simp [pc, Pc.initialising] at initialised
  · intro pc
    simp [pc, Pc.initialising] at initialised
  · intro pc
    simp [System.Resting, pc] at running

private theorem inv_returned {code : Nat} (pc : t.pc = .returned code)
    (saved : code = camErrOK → Saved t) : Inv t := by
  constructor
  case body =>
    intro running
    simp [System.Resting, pc] at running
  case saved =>
    intro same
    simp only [pc, Pc.returned.injEq] at same
    exact saved same
  all_goals simp [pc, Pc.initialising]

/-- The initialisation ends with an empty ring and a camera that has not answered. -/
private theorem Inv.exec_initialising (inv : Inv s) (initialising : s.pc.initialising)
    (ok : Bool) : Inv (s.exec ok) := by
  have blank := inv.blank initialising
  cases pc : s.pc <;> simp only [pc, Pc.initialising, Bool.false_eq_true] at initialising
  case param =>
    simp only [System.exec, pc]
    split_ifs
    · exact inv_returned rfl fun right => absurd right (by decide)
    · constructor <;> simp [Pc.initialising, blank]
  case initErrFlg =>
    simp only [System.exec, pc]
    constructor <;> simp [Pc.initialising, blank, System.err]
  case initSta =>
    have cleared : s.g.camErrFlg s.camx = camErrOK := inv.cleared (.inl pc)
    simp only [System.exec, pc]
    constructor <;> simp [Pc.initialising, blank, cleared, System.sta, System.err]
  case initMode =>
    have cleared : s.g.camErrFlg s.camx = camErrOK := inv.cleared (.inr (.inl pc))
    have reset : s.g.camSta s.camx = .noReady ∧ s.transfer = [] := inv.reset (.inl pc)
    simp only [System.exec, pc]
    constructor <;> simp [Pc.initialising, blank, cleared, reset, System.sta, System.err]
  case initRIndex =>
    have cleared : s.g.camErrFlg s.camx = camErrOK := inv.cleared (.inr (.inr (.inl pc)))
    have reset : s.g.camSta s.camx = .noReady ∧ s.transfer = [] := inv.reset (.inr (.inl pc))
    simp only [System.exec, pc]
    constructor <;> simp [Pc.initialising, blank, cleared, reset, System.sta, System.err]
  case initWIndex =>
    have cleared := inv.cleared (.inr (.inr (.inr pc)))
    obtain ⟨silent, none⟩ := inv.reset (.inr (.inr pc))
    have front := inv.front pc
    simp only [System.exec, pc]
    refine inv_of_body ⟨?_, ?_, trivial, fun _ => ?_⟩
    · intro ready
      cases silent.symm.trans ready
    · exact fun wrong => absurd cleared wrong
    · unfold Progress
      rw [show System.sta _ = .noReady from silent]
      exact ⟨none, Ringed.empty rfl front rfl blank⟩

/-- Every statement keeps the invariant. -/
theorem Inv.exec (inv : Inv s) (ok : Bool) : Inv (s.exec ok) := by
  by_cases resting : s.Resting
  · have same : s.exec ok = s := by
      cases pc : s.pc <;> simp_all [System.Resting, System.exec]
    rwa [same]
  by_cases initialising : s.pc.initialising
  · exact inv.exec_initialising initialising ok
  rcases (inv.body resting (by simpa using initialising)).exec ok with body | ⟨code, pc, saved⟩
  · exact inv_of_body body
  · exact inv_returned pc saved

/-- Every orderly step keeps the invariant. -/
theorem Inv.step {label : Label} (inv : Inv s) (orderly : Orderly s label)
    (steps : step s label = some t) : Inv t := by
  cases label with
  | call camx named =>
    simp only [Image.step, Option.ite_none_right_eq_some, Option.some.injEq] at steps
    obtain ⟨-, rfl⟩ := steps
    constructor <;> simp [Pc.initialising]
  | run ok =>
    obtain rfl : s.exec ok = t := by simpa [Image.step] using steps
    exact inv.exec ok
  | frame camx chunk =>
    simp only [Image.step, Option.ite_none_right_eq_some, Option.some.injEq] at steps
    obtain ⟨-, rfl⟩ := steps
    by_cases resting : s.Resting
    · cases pc : s.pc <;> simp only [System.Resting, pc] at resting
      case idle => constructor <;> simp [System.interrupt, System.Resting, pc, Pc.initialising]
      case returned code =>
        have rests : (s.interrupt camx chunk).pc = .returned code := pc
        apply inv_returned rests
        rintro rfl
        obtain ⟨data, sent, count, file⟩ := inv.saved pc
        exact ⟨data, by simpa [System.interrupt, System.Resting, pc] using sent, count, file⟩
    · obtain ⟨-, initialised, -⟩ := orderly.resolve_left resting
      exact inv_of_body ((inv.body resting initialised).interrupt resting orderly)

end Runs

section Races

/-- Statements of `Save_Img`, with every device call succeeding. -/
def execs (n : Nat) (s : System) : System := (fun s => s.exec true)^[n] s

theorem steps_execs (n : Nat) (s : System) :
    Steps (TakesWhen Orderly step) s (List.replicate n (.run true)) (execs n s) := by
  induction n with
  | zero => exact .refl
  | succ n ih =>
    rw [List.replicate_succ', execs, Function.iterate_succ_apply']
    exact ih.step ⟨trivial, rfl⟩

/-- The data frame of the runs below. -/
def blank : Chunk := fun _ => 0

/-- The consumer sleeps, with `received` frames received and `written` of them
written. -/
structure Sleeping (s : System) (written received : Nat) : Prop where
  camx : s.camx = 1
  pc : s.pc = .pumpDelay
  sta : s.g.camSta 1 = .transmit
  err : s.g.camErrFlg 1 = camErrOK
  rIndex : s.g.rIndex = Ring.offset 8 slots written
  wIndex : s.g.wIndex = Ring.offset 8 slots received
  imgFcnt : s.g.imgFcnt = received
  recent : s.g.timeStamp + (received - written) ≤ 1
  transfer : s.transfer = camTrsimgFh :: List.replicate received blank
  file : s.file.length = 8 * written

variable {s : System} {n : Nat}

theorem offset_ne_next (n : Nat) : Ring.offset 8 slots (n + 1) ≠ Ring.offset 8 slots n := by
  have bound := offset_le n
  rw [offset_next]
  split_ifs with wraps
  · have : bufSize = 6144 := rfl
    omega
  · omega

/-- A data frame arrives while the consumer sleeps. -/
theorem Sleeping.data (sleeping : Sleeping s n n) (count : n < imgFrames) :
    TakesWhen Orderly step s (.frame 1 blank) (s.interrupt 1 blank) ∧
      Sleeping (s.interrupt 1 blank) n (n + 1) := by
  obtain ⟨camx, pc, sta, err, rIndex, wIndex, imgFcnt, -, transfer, file⟩ := sleeping
  have bound := offset_le n
  have isr : imgSaveIsr 1 blank s.g = _ :=
    imgSaveIsr_data blank (.inl sta) (by rw [imgFcnt]; exact count)
  have running : ¬s.Resting := by simp [System.Resting, pc]
  constructor
  · refine ⟨.inr ⟨camx.symm, by rw [pc]; rfl, ?_, ?_, ?_, ?_⟩, rfl⟩
    · simp [System.sta, camx, sta]
    · simp [System.sta, camx, sta]
    · rw [rIndex, wIndex]
      rintro ⟨whole, part⟩
      omega
    · intro full
      omega
  · have stored : (s.interrupt 1 blank).g.wIndex = Ring.offset 8 slots (n + 1) := by
      rw [offset_next, ← wIndex]
      simp [System.interrupt, isr, Globals.putChunk]
    have room : (s.interrupt 1 blank).g.wIndex ≠ s.g.rIndex := by
      rw [stored, rIndex]
      exact offset_ne_next n
    refine ⟨camx, pc, ?_, ?_, ?_, stored, ?_, ?_, ?_, file⟩
    · simp [System.interrupt, isr, Globals.putChunk]
    · have flag := putChunk_camErrFlg { s.g with
        camSta := Function.update s.g.camSta 1 .transmit, timeStamp := 0 } 1 blank
      rw [← isr] at flag
      rw [System.interrupt, flag]
      exact (if_neg room).trans err
    · simpa [System.interrupt, isr, Globals.putChunk] using rIndex
    · simpa [System.interrupt, isr, Globals.putChunk] using imgFcnt
    · simp [System.interrupt, isr, Globals.putChunk]
    · simp [System.interrupt, running, camx, transfer, List.replicate_succ']

theorem execs_add (m n : Nat) (s : System) : execs (m + n) s = execs m (execs n s) :=
  Function.iterate_add_apply _ m n s

/-- The consumer wakes up, writes a frame and advances the read index. -/
theorem execs_wake {g : Globals} (sta : g.camSta 1 = .transmit) (err : g.camErrFlg 1 = camErrOK)
    (young : g.timeStamp = 0) (differ : g.rIndex ≠ g.wIndex) (named : Bool) (written : List UInt8)
    (sent : List Chunk) (polls turns : Nat) :
    execs 7 ⟨g, 1, named, .pumpDelay, written, sent, polls, turns⟩ =
      ⟨{ g with timeStamp := 1, rIndex := g.rIndex + 8 }, 1, named, .wrapTest,
        written ++ System.chunkAtRead ⟨g, 1, named, .write, written, sent, polls, turns⟩,
        sent, polls, turns + 1⟩ := by
  simp [execs, System.exec, System.chunkAtRead, sta, err, young, differ, System.sta, System.err]

/-- After the last frame of the buffer the read index wraps and meets the write index. -/
theorem execs_wrap (pc : s.pc = .wrapTest) (wraps : s.g.rIndex = bufSize) (empty : s.g.wIndex = 0) :
    execs 3 s = { s with g := { s.g with rIndex := 0 }, pc := .pumpDelay } := by
  simp [execs, System.exec, pc, wraps, empty]

/-- After another frame the read index meets the write index. -/
theorem execs_meet (pc : s.pc = .wrapTest) (inside : s.g.rIndex ≠ bufSize)
    (empty : s.g.wIndex = s.g.rIndex) : execs 2 s = { s with pc := .pumpDelay } := by
  simp [execs, System.exec, pc, inside, empty]

/-- The consumer wakes up, writes the only frame in the ring and sleeps again. -/
theorem Sleeping.pump (sleeping : Sleeping s n (n + 1)) :
    ∃ m, Sleeping (execs m s) (n + 1) (n + 1) := by
  obtain ⟨camx, pc, sta, err, rIndex, wIndex, imgFcnt, recent, transfer, file⟩ := sleeping
  have next := offset_next n
  obtain ⟨g, _, named, _, written, sent, polls, turns⟩ := s
  dsimp only at camx pc sta err rIndex wIndex imgFcnt recent transfer file
  subst camx pc
  have young : g.timeStamp = 0 := by omega
  have differ : g.rIndex ≠ g.wIndex := by
    rw [rIndex, wIndex]
    exact (offset_ne_next n).symm
  have wrote : ∀ first : System, (written ++ first.chunkAtRead).length = 8 * (n + 1) := by
    intro first
    simp [System.chunkAtRead, file]
    omega
  have wakes := execs_wake sta err young differ named written sent polls turns
  -- one statement more when the read index wraps
  by_cases wraps : g.rIndex + 8 = bufSize
  · rw [← rIndex, if_pos wraps] at next
    use 3 + 7
    rw [execs_add, wakes, execs_wrap rfl wraps (wIndex.trans next)]
    exact ⟨rfl, rfl, sta, err, next.symm, wIndex, imgFcnt, by simp, transfer, wrote _⟩
  · rw [← rIndex, if_neg wraps] at next
    use 2 + 7
    rw [execs_add, wakes, execs_meet rfl wraps (wIndex.trans next)]
    exact ⟨rfl, rfl, sta, err, next.symm, wIndex, imgFcnt, by simp, transfer, wrote _⟩

/-- A data frame is received and written. -/
theorem Sleeping.round (sleeping : Sleeping s n n) (count : n < imgFrames) :
    ∃ labels t, Steps (TakesWhen Orderly step) s labels t ∧ Sleeping t (n + 1) (n + 1) := by
  obtain ⟨arrives, received⟩ := sleeping.data count
  obtain ⟨m, pumped⟩ := received.pump
  exact ⟨_, _, (Steps.single arrives).trans (steps_execs m _), pumped⟩

/-- The end frame arrives while the consumer sleeps, which then returns without another look at
the ring or at the error flag. -/
theorem finish_asleep (camx : s.camx = 1) (pc : s.pc = .pumpDelay)
    (sta : s.g.camSta 1 = .transmit) (imgFcnt : s.g.imgFcnt = imgFrames) :
    (execs 6 (s.interrupt 1 camTrsimgFh)).pc = .returned camErrOK ∧
      (execs 6 (s.interrupt 1 camTrsimgFh)).file = s.file := by
  have isr := imgSaveIsr_end camTrsimgFh sta imgFcnt.ge
  constructor
  · simp [execs, System.interrupt, System.exec, isr, Globals.endChunk, pc, camx, System.sta]
  · simp [execs, System.interrupt, System.exec, isr, Globals.endChunk, pc, camx, System.sta]

theorem Sleeping.finish {written : Nat} (sleeping : Sleeping s written imgFrames) :
    step s (.frame 1 camTrsimgFh) = some (s.interrupt 1 camTrsimgFh) ∧
      (execs 6 (s.interrupt 1 camTrsimgFh)).pc = .returned camErrOK ∧
      (execs 6 (s.interrupt 1 camTrsimgFh)).file = s.file :=
  ⟨rfl, finish_asleep sleeping.camx sleeping.pc sleeping.sta sleeping.imgFcnt⟩

/-- The call for camera 1 has sent its command and waits for the head frame. -/
def waiting : System where
  g := { powerOn with camMode := Function.update powerOn.camMode 1 .tran }
  camx := 1
  named := true
  pc := .waitTest
  file := []
  transfer := []
  polls := 0
  turns := 0

theorem execs_call :
    execs 9 { initial powerOn with camx := 1, named := true, pc := .param } = waiting := by
  simp [execs, System.exec, initial, waiting, powerOn]

/-- The head frame has arrived. -/
def answered : System :=
  { waiting with
    g := { waiting.g with camSta := Function.update waiting.g.camSta 1 .ready }
    transfer := [camTrsimgFh]
    pc := .readyTest }

theorem execs_head : execs 2 (waiting.interrupt 1 camTrsimgFh) = answered := by
  simp [execs, System.exec, System.interrupt, System.Resting, imgSaveIsr, answered, waiting,
    powerOn, System.sta]

/-- The first data frame is received and written. -/
theorem sleeping_data : Sleeping (execs 7 (answered.interrupt 1 blank)) 1 1 :=
  ⟨rfl, rfl, rfl, rfl, rfl, rfl, rfl, by decide, rfl, rfl⟩

/-- A call is answered, and its first data frame is received and written. -/
theorem sleeping_first :
    ∃ labels t, Steps (TakesWhen Orderly step) (initial powerOn) labels t ∧ Sleeping t 1 1 := by
  have call : TakesWhen Orderly step (initial powerOn) (.call 1 true)
      { initial powerOn with camx := 1, named := true, pc := .param } := ⟨trivial, rfl⟩
  have head : TakesWhen Orderly step waiting (.frame 1 camTrsimgFh)
      (waiting.interrupt 1 camTrsimgFh) :=
    ⟨.inr ⟨rfl, rfl, fun _ => rfl, by decide, by decide, by decide⟩, rfl⟩
  have data : TakesWhen Orderly step answered (.frame 1 blank) (answered.interrupt 1 blank) :=
    ⟨.inr ⟨rfl, rfl, fun _ => rfl, by decide, by decide, by decide⟩, rfl⟩
  have waits := (Steps.single call).trans (steps_execs 9 _)
  rw [execs_call] at waits
  have answers := (waits.step head).trans (steps_execs 2 _)
  rw [execs_head] at answers
  exact ⟨_, _, (answers.step data).trans (steps_execs 7 _), sleeping_data⟩

/-- Any number of data frames can be received and written one by one. -/
theorem sleeping_reached (bound : n < imgFrames) :
    ∃ labels t, Steps (TakesWhen Orderly step) (initial powerOn) labels t ∧
      Sleeping t (n + 1) (n + 1) := by
  induction n with
  | zero => exact sleeping_first
  | succ n ih =>
    obtain ⟨labels, t, steps, sleeping⟩ := ih (by omega)
    obtain ⟨later, u, further, next⟩ := sleeping.round bound
    exact ⟨_, u, steps.trans further, next⟩

end Races

/-- The frames that arrive during a call come from its camera. -/
def OneCamera (s : System) : Label → Prop
  | .frame camx _ => s.Resting ∨ camx = s.camx
  | _ => True

theorem Orderly.oneCamera {s : System} {label : Label} (orderly : Orderly s label) :
    OneCamera s label := by
  cases label with
  | call => trivial
  | run => trivial
  | frame camx chunk => exact orderly.imp id And.left

private theorem length_flatMap_bytes (data : List Chunk) :
    (data.flatMap Chunk.bytes).length = 8 * data.length := by
  induction data with
  | nil => rfl
  | cons chunk data ih =>
    rw [List.flatMap_cons, List.length_append, ih]
    simp [Chunk.bytes]
    omega

/-- The last data frame and the end frame both arrive while the consumer sleeps. It
then sees `camSta_finish`, leaves the last frame in the ring and reports success. -/
theorem last_frame_lost :
    ∃ g labels s, Steps (TakesWhen OneCamera step) (initial g) labels s ∧
      s.pc = .returned camErrOK ∧ ¬Saved s := by
  obtain ⟨labels, s, steps, sleeping⟩ := sleeping_reached (n := 19198) (by decide)
  obtain ⟨arrives, received⟩ := sleeping.data (by decide)
  obtain ⟨ends, returned, file⟩ := received.finish
  have orderly : ∀ current label next, TakesWhen Orderly step current label next →
      TakesWhen OneCamera step current label next :=
    fun _ _ _ taken => ⟨taken.1.oneCamera, taken.2⟩
  have finish : TakesWhen OneCamera step (s.interrupt 1 blank) (.frame 1 camTrsimgFh) _ :=
    ⟨.inr received.camx.symm, ends⟩
  refine ⟨_, _, _, (((steps.step arrives).mono orderly).step finish).trans
    ((steps_execs 6 _).mono orderly), returned, ?_⟩
  rintro ⟨data, -, count, saved⟩
  have length : (data.flatMap Chunk.bytes).length = 8 * 19199 := by
    rw [← saved, file, received.file]
  rw [length_flatMap_bytes, count] at length
  exact absurd length (by decide)

/-- In every run whose frames arrive in an orderly way, a call that returns
`camErr_OK` has written exactly the data frames of its transfer. -/
theorem saved_of_orderly_run {g : Globals} {labels : List Label} {s : System}
    (steps : Steps (TakesWhen Orderly step) (initial g) labels s)
    (returned : s.pc = .returned camErrOK) : Saved s := by
  have inv : Inv s :=
    steps.invariant (inv_initial g) fun _ _ _ inv taken => inv.step taken.1 taken.2
  exact inv.saved returned

theorem saved_of_orderly_run_powerOn :
    ∃ g labels s, Steps (TakesWhen Orderly step) (initial g) labels s ∧
      s.pc = .returned camErrOK ∧ Saved s := by
  obtain ⟨labels, s, steps, sleeping⟩ := sleeping_reached (n := 19199) (by decide)
  obtain ⟨ends, returned, -⟩ := sleeping.finish
  have finish : TakesWhen Orderly step s (.frame 1 camTrsimgFh)
      (s.interrupt 1 camTrsimgFh) := by
    refine ⟨.inr ⟨sleeping.camx.symm, by rw [sleeping.pc]; rfl, ?_, ?_, ?_, ?_⟩, ends⟩
    · simp [System.sta, sleeping.camx, sleeping.sta]
    · simp [System.sta, sleeping.camx, sleeping.sta]
    · rw [sleeping.rIndex, sleeping.wIndex]
      decide
    · intro _ _
      refine ⟨?_, .inr (sleeping.rIndex.trans sleeping.wIndex.symm)⟩
      rw [System.err, sleeping.camx, sleeping.err]
  have whole := (steps.step finish).trans (steps_execs 6 _)
  exact ⟨_, _, _, whole, returned, saved_of_orderly_run whole returned⟩

end BadmintonRobot.Image
