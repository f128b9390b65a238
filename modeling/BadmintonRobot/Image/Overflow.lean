import BadmintonRobot.Image.Watch

/-!
# Overflow of the ring

The interrupt misses a full ring while the read index stands at the end of the buffer, and what it
has reported is lost if the end frame comes before `Save_Img` looks at the error flag. Otherwise
every overflow is reported and no call that has had one succeeds.
-/

namespace BadmintonRobot.Image

open BadmintonRobot.Semantics

namespace Watch

variable {w next : Watch}

section Runs

variable {condition : Watch → Label → Prop}

theorem steps_watched_execs (free : ∀ w ok, condition w (.run ok)) (n : Nat) (w : Watch) :
    Steps (TakesWhen condition step) w (List.replicate n (.run true))
      { w with system := execs n w.system } := by
  induction n with
  | zero => exact .refl
  | succ n ih =>
    rw [List.replicate_succ', execs, Function.iterate_succ_apply']
    exact ih.step ⟨free _ true, rfl⟩

/-- The consumer of camera 1 stands at a statement with its read index, and `saved` frames are in
the file. -/
structure Stuck (w : Watch) (pc : Pc) (read saved received : Nat) : Prop where
  camx : w.system.camx = 1
  pc : w.system.pc = pc
  sta : w.system.g.camSta 1 = .transmit
  rIndex : w.system.g.rIndex = read
  wIndex : w.system.g.wIndex = Ring.offset 8 slots received
  imgFcnt : w.system.g.imgFcnt = received
  file : w.system.file.length = 8 * saved
  received : w.received = received
  ended : w.ended = false
  quiet : read = bufSize → w.system.g.camErrFlg 1 = camErrOK

namespace Stuck

variable {pc : Pc} {read saved received : Nat}

theorem pending_eq (stuck : Stuck w pc read saved received) : w.pending = received - saved := by
  rw [pending, stuck.received, saved_eq stuck.file]

theorem running (stuck : Stuck w pc read saved received) (inside : pc.draining ∨ pc = .pumpDelay) :
    ¬w.system.Resting ∧ w.system.pc.initialising = false := by
  rw [System.Resting, stuck.pc]
  cases pc <;> simp_all [Pc.draining, Pc.initialising]

/-- A data frame comes while the consumer stands still. -/
theorem data (stuck : Stuck w pc read saved received) (inside : pc.draining ∨ pc = .pumpDelay)
    (count : received < imgFrames) :
    ∃ next, w.step (.frame 1 blank) = some next ∧ next.system = w.system.interrupt 1 blank ∧
      Stuck next pc read saved (received + 1) ∧
      (slots ≤ received + 1 - saved → next.overflowed = true) := by
  have isr : imgSaveIsr 1 blank w.system.g = _ :=
    imgSaveIsr_data blank (.inl stuck.sta) (by rw [stuck.imgFcnt]; exact count)
  have running := (stuck.running inside).1
  have stores : w.system.g.Stores 1 := by
    refine ⟨?_, .inr ?_, ?_⟩
    · simp [stuck.sta]
    · simp [stuck.sta]
    · rw [stuck.imgFcnt]
      exact count
  refine ⟨w.frame 1 (w.system.interrupt 1 blank), ?_, frame_system _ _ _, ?_, ?_⟩
  · simp [step, Image.step, running, stuck.camx]
  · rw [Watch.frame, if_pos stores]
    have wIndex : (imgSaveIsr 1 blank w.system.g).wIndex = Ring.offset 8 slots (received + 1) := by
      rw [isr, offset_next, ← stuck.wIndex]
      rfl
    refine ⟨stuck.camx, stuck.pc, ?_, ?_, wIndex, ?_, stuck.file, ?_, stuck.ended, fun atEnd => ?_⟩
    · simp [System.interrupt, isr, Globals.putChunk]
    · simpa [System.interrupt, isr, Globals.putChunk] using stuck.rIndex
    · simpa [System.interrupt, isr, Globals.putChunk] using stuck.imgFcnt
    · rw [stuck.received]
    · -- the write index is never at the end of the buffer
      have apart : (imgSaveIsr 1 blank w.system.g).wIndex ≠ w.system.g.rIndex := by
        have bound := offset_le (received + 1)
        rw [wIndex, stuck.rIndex, atEnd]
        omega
      have flag := putChunk_camErrFlg { w.system.g with
        camSta := Function.update w.system.g.camSta 1 .transmit, timeStamp := 0 } 1 blank
      rw [← isr] at flag
      rw [System.interrupt, flag]
      exact (if_neg apart).trans (stuck.quiet atEnd)
  · intro full
    rw [Watch.frame, if_pos stores, saved_eq stuck.file, stuck.received]
    simp [full]

theorem oneTransfer (stuck : Stuck w pc read saved received)
    (inside : pc.draining ∨ pc = .pumpDelay) (chunk : Chunk) : w.OneTransfer (.frame 1 chunk) :=
  .inr ⟨stuck.camx.symm, (stuck.running inside).2, stuck.ended⟩

theorem detectable (stuck : Stuck w pc read saved received)
    (inside : pc.draining ∨ pc = .pumpDelay) (ahead : read ≠ bufSize)
    (count : received < imgFrames) : w.Detectable (.frame 1 blank) := by
  refine ⟨stuck.oneTransfer inside blank, .inr ⟨?_, fun _ ends => ?_⟩⟩
  · rintro ⟨atEnd, -⟩
    exact ahead (stuck.rIndex.symm.trans atEnd)
  · have last := ends.2.2
    rw [stuck.imgFcnt] at last
    omega

/-- Any number of data frames. -/
theorem flood (stuck : Stuck w pc read saved received) (inside : pc.draining ∨ pc = .pumpDelay)
    (allowed : ∀ w received, Stuck w pc read saved received → received < imgFrames →
      condition w (.frame 1 blank)) {n : Nat} (count : received + n ≤ imgFrames) :
    ∃ later, Steps (TakesWhen condition step) w (List.replicate n (.frame 1 blank)) later ∧
      Stuck later pc read saved (received + n) := by
  induction n with
  | zero => exact ⟨w, .refl, stuck⟩
  | succ n ih =>
    obtain ⟨later, steps, still⟩ := ih (by omega)
    obtain ⟨next, taken, -, more, -⟩ := still.data inside (by omega)
    refine ⟨next, ?_, more⟩
    rw [List.replicate_succ']
    exact steps.step ⟨allowed later _ still (by omega), taken⟩

/-- The frames up to the one that fills the ring. -/
theorem fill (stuck : Stuck w pc read saved saved) (inside : pc.draining ∨ pc = .pumpDelay)
    (allowed : ∀ w received, Stuck w pc read saved received → received < imgFrames →
      condition w (.frame 1 blank)) (count : saved + slots ≤ imgFrames) :
    ∃ last next, Steps (TakesWhen condition step) w (List.replicate 767 (.frame 1 blank)) last ∧
      TakesWhen condition step last (.frame 1 blank) next ∧ last.pending < slots ∧
      slots ≤ next.pending ∧ Stuck next pc read saved (saved + slots) ∧ next.overflowed = true := by
  have size : slots = 768 := rfl
  obtain ⟨last, steps, before⟩ := stuck.flood inside allowed (n := 767) (by omega)
  obtain ⟨next, taken, -, after, overflowed⟩ := before.data inside (by omega)
  refine ⟨last, next, steps, ⟨allowed _ _ before (by omega), taken⟩, ?_, ?_, ?_, overflowed ?_⟩
  · rw [before.pending_eq]
    omega
  · rw [after.pending_eq]
    omega
  · rw [size]
    exact after
  · omega

end Stuck

/-- The consumer sleeps, and all frames have been written. -/
structure Dozing (w : Watch) (n : Nat) : Prop where
  sleeping : Sleeping w.system n n
  received : w.received = n
  ended : w.ended = false

theorem Dozing.stuck {n : Nat} (dozing : Dozing w n) :
    Stuck w .pumpDelay (Ring.offset 8 slots n) n n := by
  have sleeping := dozing.sleeping
  refine ⟨sleeping.camx, sleeping.pc, sleeping.sta, sleeping.rIndex, sleeping.wIndex,
    sleeping.imgFcnt, sleeping.file, dozing.received, dozing.ended, fun atEnd => ?_⟩
  have bound := offset_le n
  omega

theorem offset_ne_bufSize (n : Nat) : Ring.offset 8 slots n ≠ bufSize := by
  have bound := offset_le n
  omega

/-- A data frame is received and written. -/
theorem Dozing.round {n : Nat} (dozing : Dozing w n) (count : n < imgFrames) :
    ∃ labels later, Steps (TakesWhen Detectable step) w labels later ∧ Dozing later (n + 1) := by
  have stuck := dozing.stuck
  obtain ⟨next, taken, system, stored, -⟩ := stuck.data (.inr rfl) count
  have received : Sleeping next.system n (n + 1) := by
    rw [system]
    exact (dozing.sleeping.data count).2
  obtain ⟨m, pumped⟩ := received.pump
  have arrives : TakesWhen Detectable step w (.frame 1 blank) next :=
    ⟨stuck.detectable (.inr rfl) (offset_ne_bufSize n) count, taken⟩
  exact ⟨_, _, (Steps.single arrives).trans (steps_watched_execs (fun _ _ => trivial) m next),
    pumped, stored.received, stored.ended⟩

/-- A call is answered, and its first data frame is received and written. -/
theorem dozing_first :
    ∃ labels w, Steps (TakesWhen Detectable step) (initial powerOn) labels w ∧ Dozing w 1 := by
  have free : ∀ (w : Watch) ok, w.Detectable (.run ok) := fun _ _ => trivial
  have call : TakesWhen Detectable step (initial powerOn) (.call 1 true)
      ⟨{ Image.initial powerOn with camx := 1, named := true, pc := .param }, 0, false, false⟩ :=
    ⟨trivial, rfl⟩
  have head : TakesWhen Detectable step ⟨waiting, 0, false, false⟩ (.frame 1 camTrsimgFh)
      ⟨waiting.interrupt 1 camTrsimgFh, 0, false, false⟩ :=
    ⟨⟨.inr ⟨rfl, rfl, rfl⟩, .inr ⟨by decide, fun reports => absurd reports (by decide)⟩⟩, rfl⟩
  have data : TakesWhen Detectable step ⟨answered, 0, false, false⟩ (.frame 1 blank)
      ⟨answered.interrupt 1 blank, 1, false, false⟩ :=
    ⟨⟨.inr ⟨rfl, rfl, rfl⟩, .inr ⟨by decide, fun reports => absurd reports (by decide)⟩⟩, rfl⟩
  have waits := (Steps.single call).trans (steps_watched_execs free 9 _)
  rw [execs_call] at waits
  have answers := (waits.step head).trans (steps_watched_execs free 2 _)
  rw [execs_head] at answers
  exact ⟨_, _, (answers.step data).trans (steps_watched_execs free 7 _), sleeping_data, rfl, rfl⟩

/-- Any number of data frames can be received and written one by one. -/
theorem dozing_reached {n : Nat} (bound : n < imgFrames) :
    ∃ labels w, Steps (TakesWhen Detectable step) (initial powerOn) labels w ∧
      Dozing w (n + 1) := by
  induction n with
  | zero => exact dozing_first
  | succ n ih =>
    obtain ⟨labels, w, steps, dozing⟩ := ih (by omega)
    obtain ⟨later, next, further, written⟩ := dozing.round bound
    exact ⟨_, next, steps.trans further, written⟩

/-- The consumer wakes up, writes the last frame of the buffer and advances the read index. It
does not come to wrap it. -/
theorem stuck_wrapTest (sleeping : Sleeping w.system 767 768) (received : w.received = 768)
    (ended : w.ended = false) :
    Stuck { w with system := execs 7 w.system } .wrapTest bufSize 768 768 := by
  obtain ⟨camx, pc, sta, err, rIndex, wIndex, imgFcnt, recent, transfer, file⟩ := sleeping
  obtain ⟨⟨g, _, named, _, saved, sent, polls, turns⟩, count, over_, overflowed⟩ := w
  dsimp only at camx pc sta err rIndex wIndex imgFcnt recent file received ended
  subst camx pc
  have young : g.timeStamp = 0 := by omega
  have read : g.rIndex = 6136 := rIndex
  have write : g.wIndex = 0 := wIndex
  have differ : g.rIndex ≠ g.wIndex := by omega
  rw [execs_wake sta err young differ, read]
  refine ⟨rfl, rfl, sta, rfl, wIndex, imgFcnt, ?_, received, ended, fun _ => err⟩
  simp [System.chunkAtRead, file]

theorem oneTransfer_of_detectable {label : Label} (taken : TakesWhen Detectable step w label next) :
    TakesWhen OneTransfer step w label next := by
  refine ⟨?_, taken.2⟩
  cases label with
  | call => trivial
  | run => trivial
  | frame => exact taken.1.1

/-- While the read index waits at the end of the buffer a whole ring of frames comes in and is not
noticed. -/
theorem overflow_unnoticed :
    ∃ labels w next, Steps (TakesWhen OneTransfer step) (initial powerOn) labels w ∧
      TakesWhen OneTransfer step w (.frame 1 blank) next ∧ w.pending < slots ∧
      slots ≤ next.pending ∧ ¬next.system.Reports := by
  obtain ⟨labels, w, steps, dozing⟩ := dozing_reached (n := 766) (by decide)
  obtain ⟨next, taken, system, stored, -⟩ := dozing.stuck.data (.inr rfl) (by decide)
  have arrives : TakesWhen OneTransfer step w (.frame 1 blank) next :=
    ⟨dozing.stuck.oneTransfer (.inr rfl) blank, taken⟩
  have asleep : Sleeping next.system 767 768 := by
    rw [system]
    exact (dozing.sleeping.data (by decide)).2
  have stuck := stuck_wrapTest asleep stored.received stored.ended
  have woken := ((steps.mono fun _ _ _ => oneTransfer_of_detectable).step arrives).trans
    (steps_watched_execs (fun _ _ => trivial) 7 next)
  obtain ⟨last, full, flooded, fills, before, after, still, -⟩ :=
    stuck.fill (.inl rfl) (fun _ _ stuck _ => stuck.oneTransfer (.inl rfl) blank) (by decide)
  refine ⟨_, last, full, woken.trans flooded, fills, before, after, ?_⟩
  rw [System.Reports, System.err, still.camx, still.quiet rfl]
  decide

/-- The end frame follows the frame that fills the ring, and the call returns `camErr_OK`. -/
theorem overflow_forgotten :
    ∃ labels w, Steps (TakesWhen OneTransfer step) (initial powerOn) labels w ∧
      w.overflowed = true ∧ w.system.pc = .returned camErrOK := by
  obtain ⟨labels, w, steps, dozing⟩ := dozing_reached (n := 18431) (by decide)
  obtain ⟨last, full, flooded, fills, -, -, stuck, overflowed⟩ := dozing.stuck.fill (.inr rfl)
    (fun _ _ stuck _ => stuck.oneTransfer (.inr rfl) blank) (by decide)
  have ends : full.system.g.Ends 1 := by
    refine ⟨?_, ?_, stuck.imgFcnt.ge⟩
    · simp [stuck.sta]
    · simp [stuck.sta]
  have finishes : TakesWhen OneTransfer step full (.frame 1 camTrsimgFh)
      { full with system := full.system.interrupt 1 camTrsimgFh, ended := true } := by
    refine ⟨stuck.oneTransfer (.inr rfl) _, ?_⟩
    have stores : ¬full.system.g.Stores 1 := fun stores => Nat.not_lt.mpr ends.2.2 stores.2.2
    simp [step, Image.step, (stuck.running (.inr rfl)).1, stuck.camx, Watch.frame, stores, ends]
  have received := ((steps.mono fun _ _ _ => oneTransfer_of_detectable).trans flooded).step fills
  have returned := (finish_asleep stuck.camx stuck.pc stuck.sta stuck.imgFcnt).1
  exact ⟨_, _, (received.step finishes).trans (steps_watched_execs (fun _ _ => trivial) 6 _),
    overflowed, returned⟩

end Runs

/-- In one transfer the ring can be full without a report, and a call can return `camErr_OK`
although it was. -/
theorem not_overflow_reported :
    (∃ labels w next, Steps (TakesWhen OneTransfer step) (initial powerOn) labels w ∧
      TakesWhen OneTransfer step w (.frame 1 blank) next ∧ w.pending < slots ∧
      slots ≤ next.pending ∧ ¬next.system.Reports) ∧
    ∃ labels w, Steps (TakesWhen OneTransfer step) (initial powerOn) labels w ∧
      w.overflowed = true ∧ w.system.pc = .returned camErrOK :=
  ⟨overflow_unnoticed, overflow_forgotten⟩

/-- In every run whose frames meet the condition, the frame that fills the ring reports an
overflow, and a call during which this has happened does not return `camErr_OK`. -/
theorem overflow_reported {g : Globals} {labels : List Label} {label : Label}
    (steps : Steps (TakesWhen Detectable step) (initial g) labels w)
    (taken : TakesWhen Detectable step w label next) :
    (w.pending < slots → slots ≤ next.pending → next.system.Reports) ∧
      (next.system.pc = .returned camErrOK → next.overflowed = false) := by
  have inv : Inv w :=
    steps.invariant (inv_initial g) fun _ _ _ inv taken => inv.step taken.1 taken.2
  exact ⟨inv.reports taken.1 taken.2, (inv.step taken.1 taken.2).returned⟩

theorem overflow_reported_asleep :
    ∃ labels w next, Steps (TakesWhen Detectable step) (initial powerOn) labels w ∧
      TakesWhen Detectable step w (.frame 1 blank) next ∧ w.pending < slots ∧
      slots ≤ next.pending ∧ next.system.Reports := by
  obtain ⟨labels, w, steps, dozing⟩ := dozing_first
  obtain ⟨last, full, flooded, fills, before, after, -⟩ := dozing.stuck.fill (.inr rfl)
    (fun _ _ stuck count => stuck.detectable (.inr rfl) (offset_ne_bufSize 1) count) (by decide)
  have run := steps.trans flooded
  exact ⟨_, last, full, run, fills, before, after, (overflow_reported run fills).1 before after⟩

end Watch

end BadmintonRobot.Image
