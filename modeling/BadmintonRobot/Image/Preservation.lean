import BadmintonRobot.Image.Invariant

/-!
# Every step of an orderly transfer keeps the invariant

The consumer is the thread in `Save_Img`, the producer the interrupt
`img_save_isr`. Each has one lemma for what a step of it leaves behind.
-/

namespace BadmintonRobot.Image

open BadmintonRobot.Semantics

section Consumer

variable {s t : System}

theorem Ringed.congr {data : List Chunk} {taken : Nat} (ringed : Ringed s data taken)
    (pc : t.pc = s.pc) (wIndex : t.g.wIndex = s.g.wIndex) (rIndex : t.g.rIndex = s.g.rIndex)
    (buf : t.g.buf = s.g.buf) (file : t.file = s.file) : Ringed t data taken := by
  obtain ⟨le, near, w, r, f, holds, available, moved, wraps⟩ := ringed
  refine ⟨le, near, wIndex.trans w, ?_, ?_, buf ▸ holds, ?_, ?_, ?_⟩
  · rw [rIndex, pc, r]
  · rw [file, pc, f]
  all_goals rwa [pc]

/-- A move between settled statements. Leaving the drain loop takes an empty ring. -/
theorem Progress.goto (progress : Progress s) (sta : t.sta = s.sta)
    (transfer : t.transfer = s.transfer) (imgFcnt : t.g.imgFcnt = s.g.imgFcnt)
    (leaves : s.pc.settled) (enters : t.pc.settled) (wIndex : t.g.wIndex = s.g.wIndex)
    (rIndex : t.g.rIndex = s.g.rIndex) (buf : t.g.buf = s.g.buf) (file : t.file = s.file)
    (empties : t.pc.draining = false → s.pc.draining = true → s.g.rIndex = s.g.wIndex) :
    Progress t := by
  have ring : ∀ data taken, Ringed s data taken → Ringed t data taken :=
    fun _ _ ringed => ringed.goto leaves enters wIndex rIndex buf file
  unfold Progress at progress ⊢
  rw [sta, transfer, imgFcnt]
  cases state : s.sta with
  | noReady => rw [state] at progress; exact ⟨progress.1, ring _ _ progress.2⟩
  | ready => rw [state] at progress; exact ⟨progress.1, ring _ _ progress.2⟩
  | transmit =>
    rw [state] at progress
    obtain ⟨data, taken, sent, count, some_, bound, ringed⟩ := progress
    exact ⟨data, taken, sent, count, some_, bound, ring _ _ ringed⟩
  | finish =>
    rw [state] at progress
    obtain ⟨data, taken, sent, count, ringed, drained⟩ := progress
    refine ⟨data, taken, sent, count, ring _ _ ringed, fun outside => ?_⟩
    by_cases inside : s.pc.draining
    · exact (ringed.meets_iff leaves).mp (empties outside inside)
    · exact drained (by simpa using inside)

/-- A step inside the drain loop. -/
theorem Progress.drain (progress : Progress s) (sta : t.sta = s.sta)
    (transfer : t.transfer = s.transfer) (imgFcnt : t.g.imgFcnt = s.g.imgFcnt)
    (pumping : s.sta = .transmit ∨ s.sta = .finish) (inside : t.pc.draining = true)
    (ring : ∀ data taken, Ringed s data taken → ∃ taken', Ringed t data taken') :
    Progress t := by
  unfold Progress at progress ⊢
  rw [sta, transfer, imgFcnt]
  rcases pumping with state | state
  · rw [state] at progress ⊢
    obtain ⟨data, taken, sent, count, some_, bound, ringed⟩ := progress
    obtain ⟨taken', ringed'⟩ := ring _ _ ringed
    exact ⟨data, taken', sent, count, some_, bound, ringed'⟩
  · rw [state] at progress ⊢
    obtain ⟨data, taken, sent, count, ringed, _⟩ := progress
    obtain ⟨taken', ringed'⟩ := ring _ _ ringed
    exact ⟨data, taken', sent, count, ringed', fun outside => by simp [inside] at outside⟩

/-- A statement that touches neither the camera's state nor the ring. -/
theorem Body.goto (body : Body s) (sta : t.sta = s.sta) (err : t.err = s.err)
    (transfer : t.transfer = s.transfer) (imgFcnt : t.g.imgFcnt = s.g.imgFcnt)
    (leaves : s.pc.settled) (enters : t.pc.settled) (wIndex : t.g.wIndex = s.g.wIndex)
    (rIndex : t.g.rIndex = s.g.rIndex) (buf : t.g.buf = s.g.buf) (file : t.file = s.file)
    (empties : t.pc.draining = false → s.pc.draining = true → s.g.rIndex = s.g.wIndex)
    (place : t.pc.Allows s.sta s.err) : Body t where
  fresh ready := by rw [imgFcnt]; exact body.fresh (sta ▸ ready)
  faulty wrong := by rw [sta]; exact body.faulty (err ▸ wrong)
  place := by rw [sta, err]; exact place
  progress right :=
    (body.progress (err ▸ right)).goto sta transfer imgFcnt leaves enters wIndex rIndex buf file
      empties

theorem Body.drain (body : Body s) (sta : t.sta = s.sta) (err : t.err = s.err)
    (transfer : t.transfer = s.transfer) (imgFcnt : t.g.imgFcnt = s.g.imgFcnt)
    (pumping : s.sta = .transmit ∨ s.sta = .finish) (inside : t.pc.draining = true)
    (place : t.pc.Allows s.sta s.err)
    (ring : ∀ data taken, Ringed s data taken → ∃ taken', Ringed t data taken') : Body t where
  fresh ready := by rw [imgFcnt]; exact body.fresh (sta ▸ ready)
  faulty wrong := by rw [sta]; exact body.faulty (err ▸ wrong)
  place := by rw [sta, err]; exact place
  progress right :=
    (body.progress (err ▸ right)).drain sta transfer imgFcnt pumping inside ring

/-- At the last statement the file is complete. -/
theorem Body.saved (body : Body s) (pc : s.pc = .finishMode) : Saved s := by
  have finished : s.sta = .finish := by simpa [pc, Pc.Allows] using body.place
  have right : s.err = camErrOK := by
    by_contra wrong
    exact body.faulty wrong finished
  have progress := body.progress right
  unfold Progress at progress
  rw [finished] at progress
  obtain ⟨data, taken, sent, count, ringed, drained⟩ := progress
  obtain rfl := drained (by rw [pc]; rfl)
  refine ⟨data, sent, count, ?_⟩
  rw [ringed.settled_file (by rw [pc]; rfl), List.take_length]

/-- What a statement leaves behind: the invariant, or a result that is `camErr_OK`
only for a saved image. -/
def Continues (t : System) : Prop :=
  Body t ∨ ∃ code, t.pc = .returned code ∧ (code = camErrOK → Saved t)

private theorem Body.move (body : Body s) {pc pc' : Pc} (here : s.pc = pc) (leaves : pc.settled)
    (outside : pc.draining = false) (enters : pc'.settled) (place : pc'.Allows s.sta s.err) :
    Continues { s with pc := pc' } := by
  subst here
  exact .inl (body.goto rfl rfl rfl rfl leaves enters rfl rfl rfl rfl (by simp [outside]) place)

private theorem continues_fails (s : System) {code : Nat} (wrong : code ≠ camErrOK) :
    Continues { s with pc := .returned code } :=
  .inr ⟨code, rfl, fun right => absurd right wrong⟩

/-- An initialised call has not returned. -/
theorem Body.going (body : Body s) : ¬s.Resting ∧ s.pc.initialising = false := by
  have place := body.place
  cases pc : s.pc <;> simp_all [Pc.Allows, System.Resting, Pc.initialising]

/-- Every statement of an initialised call continues. -/
theorem Body.exec (body : Body s) (ok : Bool) : Continues (s.exec ok) := by
  have place := body.place
  cases pc : s.pc <;> rw [pc] at place <;> simp only [System.exec, pc]
  case idle | returned => exact place.elim
  case param | initErrFlg | initSta | initMode | initRIndex | initWIndex => exact place.elim
  case open_ =>
    split_ifs
    · exact body.move pc rfl rfl rfl trivial
    · exact continues_fails s (by decide)
  case canTransmit n =>
    split_ifs
    · exact body.move pc rfl rfl rfl trivial
    · exact body.move pc rfl rfl rfl trivial
    · exact body.move pc rfl rfl rfl trivial
  case canCheck n =>
    split_ifs
    · exact continues_fails s (by decide)
    · exact body.move pc rfl rfl rfl trivial
  case waitTest =>
    split_ifs
    · exact body.move pc rfl rfl rfl trivial
    · exact body.move pc rfl rfl rfl trivial
  case waitCount =>
    exact .inl (body.goto rfl rfl rfl rfl (by rw [pc]; rfl) rfl rfl rfl rfl rfl
      (by simp [pc, Pc.draining]) trivial)
  case waitLimit =>
    split_ifs
    · exact body.move pc rfl rfl rfl trivial
    · exact body.move pc rfl rfl rfl trivial
  case waitDelay => exact body.move pc rfl rfl rfl trivial
  case waitErr =>
    split_ifs with wrong
    · exact body.move pc rfl rfl rfl wrong
    · exact body.move pc rfl rfl rfl trivial
  case timeoutTest =>
    split_ifs with silent
    · exact continues_fails s (by decide)
    · exact body.move pc rfl rfl rfl silent
  case readyTest =>
    split_ifs with ready
    · exact body.move pc rfl rfl rfl place
    · refine body.move pc rfl rfl rfl ?_
      cases state : s.sta <;> simp_all [Pc.Allows]
  case readyDelay => exact body.move pc rfl rfl rfl place
  case pumpTest =>
    split_ifs with going
    · exact body.move pc rfl rfl rfl place
    · refine body.move pc rfl rfl rfl ?_
      rcases place with sends | finished
      · exact .inr fun right => going ⟨sends, right⟩
      · exact .inl finished
  case drainTest =>
    split_ifs with differ
    · exact .inl (body.drain rfl rfl rfl rfl place rfl place
        fun data taken ringed => ⟨taken, ringed.drainTest pc differ⟩)
    · exact .inl (body.goto rfl rfl rfl rfl (by rw [pc]; rfl) rfl rfl rfl rfl rfl
        (fun _ _ => not_not.mp differ) place)
  case write =>
    split_ifs
    · exact .inl (body.drain rfl rfl rfl rfl place rfl place
        fun data taken ringed => ⟨taken, ringed.write pc⟩)
    · exact continues_fails s (by decide)
  case advance =>
    exact .inl (body.drain rfl rfl rfl rfl place rfl place
      fun data taken ringed => ⟨taken + 1, ringed.advance pc⟩)
  case wrapTest =>
    split_ifs with atEnd
    · exact .inl (body.drain rfl rfl rfl rfl place rfl place
        fun data taken ringed => ⟨taken, (ringed.wrapTest pc).1 atEnd⟩)
    · exact .inl (body.drain rfl rfl rfl rfl place rfl place
        fun data taken ringed => ⟨taken, (ringed.wrapTest pc).2 atEnd⟩)
  case wrap =>
    exact .inl (body.drain rfl rfl rfl rfl place rfl place
      fun data taken ringed => ⟨taken, ringed.wrap pc⟩)
  case pumpDelay => exact body.move pc rfl rfl rfl place
  case stampCount =>
    exact .inl (body.goto rfl rfl rfl rfl (by rw [pc]; rfl) rfl rfl rfl rfl rfl
      (by simp [pc, Pc.draining]) place)
  case stampTest =>
    split_ifs
    · exact continues_fails s (by decide)
    · exact body.move pc rfl rfl rfl place
  case finishTest =>
    split_ifs with finished
    · exact body.move pc rfl rfl rfl finished
    · exact body.move pc rfl rfl rfl (place.resolve_left finished)
  case finishMode => exact .inr ⟨camErrOK, rfl, fun _ => body.saved pc⟩
  case errReturn => exact continues_fails s place

end Consumer

section Producer

variable {s : System} {chunk : Chunk}

/-- What the interrupt does with a frame during a transfer, as long as data frames are
expected. -/
theorem imgSaveIsr_stores {g : Globals} {camx : Nat} (chunk : Chunk)
    (answered : g.camSta camx ≠ .noReady) (going : g.camSta camx ≠ .finish)
    (count : g.imgFcnt < imgFrames) :
    imgSaveIsr camx chunk g =
      Globals.putChunk
        { g with
          camSta := if g.imgFcnt = 0 then Function.update g.camSta camx .transmit else g.camSta
          timeStamp := 0 } camx chunk := by
  by_cases first : g.imgFcnt = 0
  · simp [imgSaveIsr, answered, first, imgFrames]
  · simp [imgSaveIsr, answered, going, first, count]

/-- What the interrupt does with a data frame. -/
theorem imgSaveIsr_data {g : Globals} {camx : Nat} (chunk : Chunk)
    (sending : g.camSta camx = .transmit ∨ g.camSta camx = .ready ∧ g.imgFcnt = 0)
    (count : g.imgFcnt < imgFrames) :
    imgSaveIsr camx chunk g =
      Globals.putChunk
        { g with camSta := Function.update g.camSta camx .transmit, timeStamp := 0 } camx chunk := by
  rcases sending with sends | ⟨ready, first⟩
  · have same : Function.update g.camSta camx .transmit = g.camSta := by
      rw [← sends, Function.update_eq_self]
    rw [imgSaveIsr_stores chunk (by simp [sends]) (by simp [sends]) count, same, ite_self]
  · rw [imgSaveIsr_stores chunk (by simp [ready]) (by simp [ready]) count, if_pos first]

theorem putChunk_camErrFlg (g : Globals) (camx : Nat) (chunk : Chunk) :
    (g.putChunk camx chunk).camErrFlg camx =
      if (g.putChunk camx chunk).wIndex = g.rIndex then camErrBufof ||| camErrIt
      else g.camErrFlg camx := by
  simp only [Globals.putChunk]
  split_ifs <;> simp

/-- What the interrupt does with the frame after the last data frame. -/
theorem imgSaveIsr_ends {g : Globals} {camx : Nat} (chunk : Chunk)
    (answered : g.camSta camx ≠ .noReady) (going : g.camSta camx ≠ .finish)
    (count : imgFrames ≤ g.imgFcnt) :
    imgSaveIsr camx chunk g = Globals.endChunk { g with timeStamp := 0 } camx chunk := by
  have started : g.imgFcnt ≠ 0 := by
    have : 0 < imgFrames := by decide
    omega
  simp [imgSaveIsr, answered, going, started, Nat.not_lt.mpr count]

theorem imgSaveIsr_end {g : Globals} {camx : Nat} (chunk : Chunk) (sends : g.camSta camx = .transmit)
    (count : imgFrames ≤ g.imgFcnt) :
    imgSaveIsr camx chunk g = Globals.endChunk { g with timeStamp := 0 } camx chunk :=
  imgSaveIsr_ends chunk (by simp [sends]) (by simp [sends]) count

/-- An error report never makes a reachable statement unreachable. -/
private theorem Pc.Allows.report {pc : Pc} {sta : CamSta} {err err' : Nat}
    (place : pc.Allows sta err) (wrong : err' ≠ camErrOK) : pc.Allows sta err' := by
  cases pc <;> simp_all [Pc.Allows]

/-- The states that follow one another during a transfer. -/
private theorem Pc.Allows.follow {pc : Pc} {sta sta' : CamSta} {err : Nat}
    (place : pc.Allows sta err) (unfinished : sta ≠ .finish)
    (follows : sta = .noReady ∧ sta' = .ready ∨ sta ≠ .noReady ∧ sta' = .transmit ∨
      sta' = .finish) : pc.Allows sta' err := by
  cases pc <;> simp only [Pc.Allows] at place ⊢ <;> grind

private theorem camErr_frame_ne : camErrIt ||| camErrFrame ≠ camErrOK := by decide

private theorem camErr_bufof_ne : camErrBufof ||| camErrIt ≠ camErrOK := by decide

/-- A frame while the camera has not answered: the head frame, or an error. -/
private theorem Body.interrupt_noReady (body : Body s) (running : ¬s.Resting)
    (silent : s.sta = .noReady) (counter : s.g.imgFcnt = 0) :
    Body (s.interrupt s.camx chunk) := by
  have place := body.place
  by_cases head : chunk = camTrsimgFh
  · have isr : imgSaveIsr s.camx chunk s.g =
        { s.g with camSta := Function.update s.g.camSta s.camx .ready } := by
      simp [imgSaveIsr, silent, head]
    have state : (s.interrupt s.camx chunk).sta = .ready := by
      simp [System.interrupt, isr, System.sta]
    have flag : (s.interrupt s.camx chunk).err = s.err := by
      simp [System.interrupt, isr, System.err]
    refine ⟨fun _ => ?_, fun _ => ?_, ?_, fun right => ?_⟩
    · simpa [System.interrupt, isr] using counter
    · simp [state]
    · rw [state, flag]
      exact place.follow (by simp [silent]) (.inl ⟨silent, rfl⟩)
    · have progress := body.progress (flag ▸ right)
      unfold Progress at progress ⊢
      rw [silent] at progress
      rw [state]
      refine ⟨?_, progress.2.congr rfl ?_ ?_ ?_ rfl⟩
      · simp [System.interrupt, running, progress.1, head]
      all_goals simp [System.interrupt, isr]
  · have isr : imgSaveIsr s.camx chunk s.g =
        { s.g with camErrFlg :=
            Function.update s.g.camErrFlg s.camx (camErrIt ||| camErrFrame) } := by
      simp [imgSaveIsr, silent, head]
    have state : (s.interrupt s.camx chunk).sta = .noReady := by
      simpa [System.interrupt, isr, System.sta] using silent
    have flag : (s.interrupt s.camx chunk).err = camErrIt ||| camErrFrame := by
      simp [System.interrupt, isr, System.err]
    refine ⟨fun ready => ?_, fun _ => ?_, ?_, fun right => ?_⟩
    · simp [state] at ready
    · simp [state]
    · rw [state, ← silent, flag]
      exact place.report camErr_frame_ne
    · exact absurd (flag ▸ right) camErr_frame_ne

/-- A data frame: one more frame in the ring, or an overflow. -/
private theorem Body.interrupt_data (body : Body s) (running : ¬s.Resting)
    (sending : s.sta = .transmit ∨ s.sta = .ready ∧ s.g.imgFcnt = 0)
    (count : s.g.imgFcnt < imgFrames)
    (notWrapping : ¬(s.g.rIndex = bufSize ∧ s.g.wIndex + 8 = bufSize)) :
    Body (s.interrupt s.camx chunk) := by
  have place := body.place
  have isr := imgSaveIsr_data chunk sending count
  have state : (s.interrupt s.camx chunk).sta = .transmit := by
    simp [System.interrupt, isr, System.sta, Globals.putChunk]
  have flag : (s.interrupt s.camx chunk).err =
      if (s.interrupt s.camx chunk).g.wIndex = s.g.rIndex then camErrBufof ||| camErrIt
      else s.err := by
    simpa only [System.interrupt, System.err, isr] using putChunk_camErrFlg _ s.camx chunk
  refine ⟨fun ready => ?_, fun _ => ?_, ?_, fun right => ?_⟩
  · simp [state] at ready
  · simp [state]
  · have moved : s.pc.Allows .transmit s.err := by
      rcases sending with sends | ⟨ready, _⟩
      · rwa [sends] at place
      · exact place.follow (by simp [ready]) (.inr (.inl ⟨by simp [ready], rfl⟩))
    rw [state, flag]
    split_ifs
    · exact moved.report camErr_bufof_ne
    · exact moved
  · have room : (s.interrupt s.camx chunk).g.wIndex ≠ s.g.rIndex := by
      intro full
      rw [flag, if_pos full] at right
      exact camErr_bufof_ne right
    rw [flag, if_neg room] at right
    -- the data frames so far, none if this is the first
    obtain ⟨data, taken, sent, counted, ringed⟩ : ∃ data taken,
        s.transfer = camTrsimgFh :: data ∧ data.length = s.g.imgFcnt ∧ Ringed s data taken := by
      have progress := body.progress right
      unfold Progress at progress
      rcases sending with sends | ⟨ready, first⟩
      · rw [sends] at progress
        obtain ⟨data, taken, sent, counted, -, -, ringed⟩ := progress
        exact ⟨data, taken, sent, counted, ringed⟩
      · rw [ready] at progress
        exact ⟨[], 0, progress.1, first.symm, progress.2⟩
    unfold Progress
    rw [state]
    have counter : (s.interrupt s.camx chunk).g.imgFcnt = s.g.imgFcnt + 1 := by
      simp [System.interrupt, isr, Globals.putChunk]
    refine ⟨data ++ [chunk], taken, ?_, ?_, by simp, ?_,
      ringed.putChunk rfl rfl ?_ ?_ ?_ ?_ notWrapping⟩
    · simp [System.interrupt, running, sent]
    · simp [counter, counted]
    · simpa [counted] using Nat.succ_le_of_lt count
    · simp [System.interrupt, isr, Globals.putChunk]
    · simp [System.interrupt, isr, Globals.putChunk]
    · simp [System.interrupt, isr, Globals.putChunk]
    · simpa [System.interrupt, isr, Globals.putChunk] using room

/-- The frame after the last data frame ends the transfer. -/
private theorem Body.interrupt_end (body : Body s) (running : ¬s.Resting)
    (sends : s.sta = .transmit) (count : imgFrames ≤ s.g.imgFcnt)
    (orderly : chunk = camTrsimgFh →
      s.err = camErrOK ∧ (s.pc.draining ∨ s.g.rIndex = s.g.wIndex)) :
    Body (s.interrupt s.camx chunk) := by
  have place := body.place
  by_cases ends : chunk = camTrsimgFh
  · have isr : imgSaveIsr s.camx chunk s.g =
        { s.g with
          timeStamp := 0
          camSta := Function.update s.g.camSta s.camx .finish
          imgFcnt := 0 } := by
      rw [imgSaveIsr_end chunk sends count, Globals.endChunk, if_pos ends]
    obtain ⟨right, emptied⟩ := orderly ends
    have state : (s.interrupt s.camx chunk).sta = .finish := by
      simp [System.interrupt, isr, System.sta]
    have flag : (s.interrupt s.camx chunk).err = s.err := by
      simp [System.interrupt, isr, System.err]
    refine ⟨fun ready => ?_, fun wrong => absurd right (flag ▸ wrong), ?_, fun _ => ?_⟩
    · simp [state] at ready
    · rw [state, flag]
      exact place.follow (by simp [sends]) (.inr (.inr rfl))
    · have progress := body.progress right
      unfold Progress at progress ⊢
      rw [sends] at progress
      rw [state]
      obtain ⟨data, taken, sent, counted, -, bound, ringed⟩ := progress
      refine ⟨data, taken, ?_, by omega, ringed.congr rfl ?_ ?_ ?_ rfl, fun outside => ?_⟩
      · simp [System.interrupt, running, sent, ends]
      · simp [System.interrupt, isr]
      · simp [System.interrupt, isr]
      · simp [System.interrupt, isr]
      · replace outside : s.pc.draining = false := outside
        refine (ringed.meets_iff (Pc.settled_of_not_draining outside)).mp (emptied.resolve_left ?_)
        simpa using outside
  · have isr : imgSaveIsr s.camx chunk s.g =
        { s.g with
          timeStamp := 0
          camErrFlg := Function.update s.g.camErrFlg s.camx (camErrIt ||| camErrFrame)
          imgFcnt := 0 } := by
      rw [imgSaveIsr_end chunk sends count, Globals.endChunk, if_neg ends]
    have state : (s.interrupt s.camx chunk).sta = .transmit := by
      simpa [System.interrupt, isr, System.sta] using sends
    have flag : (s.interrupt s.camx chunk).err = camErrIt ||| camErrFrame := by
      simp [System.interrupt, isr, System.err]
    refine ⟨fun ready => ?_, fun _ => ?_, ?_, fun right => ?_⟩
    · simp [state] at ready
    · simp [state]
    · rw [state, ← sends, flag]
      exact place.report camErr_frame_ne
    · exact absurd (flag ▸ right) camErr_frame_ne

/-- Every orderly frame keeps the invariant of an initialised call. -/
theorem Body.interrupt (body : Body s) {camx : Nat} (running : ¬s.Resting)
    (orderly : Orderly s (.frame camx chunk)) : Body (s.interrupt camx chunk) := by
  obtain ⟨rfl, -, counter, unfinished, notWrapping, ends⟩ := orderly.resolve_left running
  cases state : s.sta with
  | noReady => exact body.interrupt_noReady running state (counter state)
  | ready =>
    have first := body.fresh state
    exact body.interrupt_data running (.inr ⟨state, first⟩) (first ▸ by decide) notWrapping
  | transmit =>
    rcases lt_or_ge s.g.imgFcnt imgFrames with count | count
    · exact body.interrupt_data running (.inl state) count notWrapping
    · exact body.interrupt_end running state count (ends count)
  | finish => exact absurd state unfinished

end Producer

end BadmintonRobot.Image
