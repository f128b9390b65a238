import BadmintonRobot.Image.Attended
import BadmintonRobot.Image.Saved

/-!
# Image transfers after other transfers

`wait_time` and `img_fcnt` are statics that no call resets. A call whose camera
attends to it returns `camErr_OK` when it starts with `img_fcnt` at zero and enough
of its waiting time left; after one timeout the waiting time is used up for good.
-/

namespace BadmintonRobot.Image

open BadmintonRobot.Semantics

/-- After the head frame the camera goes on: the loop that waits for the first data
frame has no time limit. -/
def KeepsSending {answer : Nat} (e : Execution (TakesWhen (Cooperates answer) step)) : Prop :=
  ∀ n, (e.state n).pc = .readyTest → (e.state n).sta = .ready →
    ∃ m, n ≤ m ∧ ∃ camx chunk, e.label m = .frame camx chunk

/-- Every call made in a state returns `camErr_OK` if its camera cooperates and answers
within the given number of turns of the waiting loop. -/
def Repeatable (answer : Nat) (s : System) : Prop :=
  ∀ camx, 1 ≤ camx → camx ≤ 5 →
    ∀ e : Execution (TakesWhen (Cooperates answer) step),
      step s (.call camx true) = some (e.state 0) → KeepsSending e →
        ∃ n, (e.state n).pc = .returned camErrOK

section Timeouts

/-- The call has taken a number of turns of its waiting loop. -/
private def polling (turns : Nat) : System :=
  { waiting with g := { waiting.g with waitTime := turns }, polls := turns }

private theorem execs_poll {turns : Nat} (few : turns < 400) :
    execs 5 (polling turns) = polling (turns + 1) := by
  have small : (turns + 1) % 4294967296 = turns + 1 := Nat.mod_eq_of_lt (by omega)
  have patient : ¬400 < turns + 1 := by omega
  simp [execs, System.exec, polling, waiting, powerOn, System.sta, System.err, small, patient]

/-- The call has given up. -/
private def timedOut : System := { polling 401 with pc := .returned camErrTimeout }

private theorem execs_timeout : execs 4 (polling 400) = timedOut := by
  simp [execs, System.exec, polling, waiting, powerOn, System.sta, timedOut]

/-- A call whose camera is silent uses up the waiting time. -/
private theorem timedOut_reached :
    ∃ labels, Steps (Takes step) (initial powerOn) labels timedOut := by
  have unconditional : ∀ current label next, TakesWhen Orderly step current label next →
      Takes step current label next := fun _ _ _ taken => taken.2
  have calls : Takes step (initial powerOn) (.call 1 true)
      { initial powerOn with camx := 1, named := true, pc := .param } := rfl
  have waits := (Steps.single calls).trans ((steps_execs 9 _).mono unconditional)
  rw [execs_call] at waits
  have polls : ∀ turns, turns ≤ 400 →
      ∃ labels, Steps (Takes step) (initial powerOn) labels (polling turns) := by
    intro turns
    induction turns with
    | zero => exact fun _ => ⟨_, waits⟩
    | succ turns ih =>
      intro few
      obtain ⟨labels, steps⟩ := ih (by omega)
      have further := steps.trans ((steps_execs 5 _).mono unconditional)
      rw [execs_poll (by omega)] at further
      exact ⟨_, further⟩
  obtain ⟨labels, steps⟩ := polls 400 le_rfl
  have gives := steps.trans ((steps_execs 4 _).mono unconditional)
  rw [execs_timeout] at gives
  exact ⟨_, gives⟩

end Timeouts

section Hurry

/-- The thread runs, and the head frame comes as soon as the call is over. -/
private def hurried (s : System) : Label :=
  if s.Resting then .frame 1 camTrsimgFh else .run true

/-- A call for camera 1 that finds the waiting time used up. -/
private def Hurries (s : System) : Prop :=
  s.camx = 1 ∧ s.named = true ∧ s.g.waitTime = 401 + s.polls ∧
    match s.pc with
    | .param | .initErrFlg | .initSta => s.polls = 0
    | .initMode | .initRIndex | .initWIndex | .open_ | .waitTest | .waitCount =>
      s.polls = 0 ∧ s.g.camSta 1 = .noReady
    | .canTransmit canCnt | .canCheck canCnt =>
      s.polls = 0 ∧ s.g.camSta 1 = .noReady ∧ canCnt = 0
    | .waitLimit => s.polls = 1 ∧ s.g.camSta 1 = .noReady
    | .timeoutTest => s.g.camSta 1 = .noReady
    | _ => False

/-- The call hurries, or it has given up. -/
private def Hurrying (s : System) : Prop := Hurries s ∨ s.pc = .returned camErrTimeout

private theorem Hurries.spec {s : System} (hurries : Hurries s) :
    ¬s.Resting ∧ s.pc ≠ .readyTest ∧ Cooperates 400 s (.run true) := by
  obtain ⟨-, -, -, place⟩ := hurries
  cases pc : s.pc <;> simp_all [System.Resting, Cooperates]

private theorem Hurries.exec {s : System} (hurries : Hurries s) : Hurrying (s.exec true) := by
  obtain ⟨camx, named, used, place⟩ := hurries
  cases pc : s.pc <;> simp only [pc] at place
  case timeoutTest =>
    right
    simp [System.exec, pc, System.sta, camx, place]
  all_goals
    left
    simp [Hurries, System.exec, pc, camx, named, used, place, System.sta]

private theorem hurried_allowed (s : System) (hurrying : Hurrying s) :
    Cooperates 400 s (hurried s) ∧ ∃ t, step s (hurried s) = some t ∧ Hurrying t := by
  rcases hurrying with hurries | returned
  · obtain ⟨running, -, cooperates⟩ := hurries.spec
    rw [hurried, if_neg running]
    exact ⟨cooperates, _, rfl, hurries.exec⟩
  · have resting : s.Resting := by simp [System.Resting, returned]
    rw [hurried, if_pos resting]
    exact ⟨.inl resting, _, rfl, .inr returned⟩

end Hurry

/-- After one call that timed out, the next call gives up on its first turn, although
the head frame follows at once. -/
theorem not_repeatable_after_timeout :
    ∃ g labels s, Steps (Takes step) (initial g) labels s ∧ ¬Repeatable 400 s := by
  obtain ⟨labels, steps⟩ := timedOut_reached
  refine ⟨powerOn, labels, timedOut, steps, fun repeatable => ?_⟩
  let called : System :=
    { timedOut with camx := 1, named := true, pc := .param, polls := 0 }
  have start : Hurrying called := .inl ⟨rfl, rfl, rfl, rfl⟩
  let e : Execution (TakesWhen (Cooperates 400) step) :=
    .ofSchedule hurried called Hurrying start hurried_allowed
  have always : ∀ n, Hurrying (e.state n) :=
    Execution.follow_invariant Hurrying start hurried_allowed
  have sends : KeepsSending e := by
    intro n pc
    rcases always n with hurries | returned
    · exact absurd pc hurries.spec.2.1
    · simp [pc] at returned
  obtain ⟨n, right⟩ := repeatable 1 le_rfl (by decide) e rfl sends
  rcases always n with hurries | returned
  · exact hurries.spec.1 (by simp [System.Resting, right])
  · simp [right, camErrOK, camErrTimeout] at returned

section Progress

variable {answer : Nat} {s t : System}

theorem underway_call {camx : Nat} (first : 1 ≤ camx) (last : camx ≤ 5)
    (call : step s (.call camx true) = some t) (counter : s.g.imgFcnt = 0)
    (patience : s.g.waitTime + answer ≤ 400) : Underway answer t := by
  simp only [step, Option.ite_none_right_eq_some, Option.some.injEq] at call
  obtain ⟨-, rfl⟩ := call
  refine ⟨first, last, rfl, by simp, ?_, ?_, by simp, fun _ => rfl, rfl, rfl⟩
  · simpa using counter
  · simpa using patience

/-- Every step returns `camErr_OK` or keeps the call under way. A step that does not
bring it closer is a statement of the loop that waits for the first data frame. -/
theorem Underway.step {label : Label} (underway : Underway answer s)
    (cooperates : Cooperates answer s label) (taken : step s label = some t) :
    t.pc = .returned camErrOK ∨ Underway answer t ∧ (t.rank answer < s.rank answer ∨
      t.rank answer = s.rank answer ∧ Spinning s ∧ ∃ ok, label = .run ok) := by
  have running := underway.place.running
  cases label with
  | call camx named => simp [Image.step, running] at taken
  | run ok =>
    obtain rfl : s.exec ok = t := by simpa [Image.step] using taken
    rcases underway.exec cooperates with returned | ⟨next, closer | ⟨spinning, same⟩⟩
    · exact .inl returned
    · exact .inr ⟨next, .inl closer⟩
    · exact .inr ⟨next, .inr ⟨same, spinning, ok, rfl⟩⟩
  | frame camx chunk =>
    simp only [Image.step, Option.ite_none_right_eq_some, Option.some.injEq] at taken
    obtain ⟨-, rfl⟩ := taken
    obtain ⟨next, closer⟩ := underway.interrupt cooperates
    exact .inr ⟨next, .inl closer⟩

/-- In the loop that waits for the first data frame, the next frame is on its way. -/
private theorem frame_follows {e : Execution (TakesWhen (Cooperates answer) step)}
    (sends : KeepsSending e) (underway : ∀ n, Underway answer (e.state n)) {n : Nat}
    (spinning : Spinning (e.state n)) (runs : ∃ ok, e.label n = .run ok) :
    ∃ m, n ≤ m ∧ ∃ camx chunk, e.label m = .frame camx chunk := by
  have ready : ∀ k, (e.state k).pc.commanded → (e.state k).transfer.length = 1 →
      (e.state k).sta = .ready := by
    intro k commanded one
    have live := (underway k).place.live commanded
    rw [show (e.state k).sta = _ from live.sta, one, phase_eq_ready]
  obtain ⟨pc | pc, one⟩ := spinning
  · exact sends n pc (ready n (by rw [pc]; rfl) one)
  · obtain ⟨ok, label⟩ := runs
    have taken := (e.takes n).2
    rw [label] at taken
    have next : (e.state n).exec ok = e.state (n + 1) := by simpa [step] using taken
    have tests : (e.state (n + 1)).pc = .readyTest := by simp [← next, System.exec, pc]
    have still : (e.state (n + 1)).transfer.length = 1 := by simp [← next, System.exec, pc, one]
    obtain ⟨m, later, frame⟩ := sends (n + 1) tests (ready _ (by rw [tests]; rfl) still)
    exact ⟨m, by omega, frame⟩

end Progress

section Attention

private theorem exec_camx (s : System) (ok : Bool) : (s.exec ok).camx = s.camx := by
  cases pc : s.pc <;> simp only [System.exec, pc] <;> split_ifs <;> rfl

/-- The places at which the camera of the schedule below sends its next frame. -/
private def Waited (s : System) : Prop :=
  s.pc = .waitTest ∧ s.transfer.length = 0 ∨ s.pc = .readyTest ∧ s.transfer.length = 1 ∨
    s.pc = .pumpDelay ∧ s.transfer.length ≤ imgFrames + 1 ∧ s.g.rIndex = s.g.wIndex

private instance (s : System) : Decidable (Waited s) := by
  unfold Waited
  infer_instance

/-- The next frame of the attended call. -/
private def nextFrame (s : System) : Chunk :=
  if s.transfer.length = 0 ∨ s.transfer.length = imgFrames + 1 then camTrsimgFh else blank

/-- The camera sends as soon as it is waited for. -/
private def attended (s : System) : Label :=
  if Waited s then .frame 1 (nextFrame s) else .run true

/-- What such a camera spares the call. -/
private def Spared (s : System) : Prop :=
  match s.pc with
  | .waitCount | .waitLimit | .waitDelay | .waitErr | .readyDelay => False
  | .open_ | .canTransmit _ | .canCheck _ | .waitTest | .timeoutTest | .readyTest =>
    s.transfer.length ≤ 1 → s.g.rIndex = s.g.wIndex
  | .drainTest | .write | .advance | .wrapTest | .wrap => s.transfer.length ≤ imgFrames + 1
  | .pumpDelay =>
    s.transfer.length ≤ imgFrames + 1 ∧ s.g.rIndex = s.g.wIndex ∨ s.turns = 0
  | .stampCount => s.turns = 0
  | .stampTest => s.turns ≤ 1
  | _ => True

private theorem Spared.exec {s : System} (underway : Underway 400 s) (spared : Spared s)
    (free : ¬Waited s) : Spared (s.exec true) := by
  have place := underway.place
  cases pc : s.pc <;> simp only [pc, Spared] at spared <;> simp only [pc, Place] at place <;>
    simp only [Waited, pc] at free <;> simp only [System.exec, pc]
  case initWIndex => exact fun _ => place.2.2.2.2
  case open_ => exact spared
  case canTransmit canCnt => exact spared
  case canCheck canCnt =>
    split_ifs
    · trivial
    · exact spared
  case waitTest =>
    simp only [show s.sta = phase s.transfer.length from place.1.sta, phase_eq_noReady]
    rw [if_neg (by simpa using free)]
    exact spared
  case timeoutTest =>
    split_ifs
    · trivial
    · exact spared
  case readyTest =>
    simp only [show s.sta = phase s.transfer.length from place.1.sta, phase_eq_ready]
    rw [if_neg (by simpa using free)]
    trivial
  case pumpTest =>
    split_ifs with going
    · have sends := going.1
      rw [show s.sta = phase s.transfer.length from place.1.sta, phase_eq_transmit] at sends
      exact sends.2
    · trivial
  case drainTest =>
    split_ifs with differ
    · exact spared
    · exact .inl ⟨spared, not_not.mp differ⟩
  case write => exact spared
  case advance => exact spared
  case wrapTest => split_ifs <;> exact spared
  case wrap => exact spared
  case pumpDelay => exact spared.resolve_left (by simpa using free)
  case stampCount => simp [Spared, spared]
  all_goals first
    | trivial
    | split_ifs <;> trivial

private theorem attends_run {s : System} (spared : Spared s) : Cooperates 400 s (.run true) := by
  refine ⟨fun _ => rfl, fun pc => ?_, fun pc => ?_⟩
  · simp [Spared, pc] at spared
  · simp only [Spared, pc] at spared
    omega

private theorem attends_frame {s : System} (underway : Underway 400 s) (spared : Spared s)
    (camera : s.camx = 1) (waited : Waited s) :
    Cooperates 400 s (.frame 1 (nextFrame s)) ∧ Spared (s.interrupt 1 (nextFrame s)) := by
  have running := underway.place.running
  have size : bufSize = 6144 := rfl
  have room : s.g.Live s.camx s.transfer.length → s.g.rIndex = s.g.wIndex →
      s.g.nextIndex ≠ s.g.rIndex := by
    intro live same
    have inside := live.inside
    rw [Globals.nextIndex, same]
    split_ifs <;> omega
  have framed : s.transfer.length = 0 ∨ s.transfer.length = imgFrames + 1 →
      nextFrame s = camTrsimgFh := fun outer => if_pos outer
  have place := underway.place
  rcases waited with ⟨pc, none⟩ | ⟨pc, one⟩ | ⟨pc, unfinished, same⟩
  · simp only [Place, pc] at place
    simp only [Spared, pc] at spared
    have silent : s.g.camSta 1 = .noReady := by
      rw [← camera, place.1.sta, none, phase_eq_noReady]
    refine ⟨.inr ⟨camera.symm, by rw [pc]; rfl, by omega, framed, by omega⟩, ?_⟩
    have isr : imgSaveIsr 1 (nextFrame s) s.g =
        { s.g with camSta := Function.update s.g.camSta 1 .ready } := by
      simp [imgSaveIsr, silent, framed (.inl none)]
    simpa [Spared, System.interrupt, pc, isr] using fun _ => spared (by omega)
  · simp only [Place, pc] at place
    simp only [Spared, pc] at spared
    have many : 1 < imgFrames := by decide
    refine ⟨.inr ⟨camera.symm, by rw [pc]; rfl, by omega, framed,
      fun _ _ => room place.1 (spared (by omega))⟩, ?_⟩
    simp [Spared, System.interrupt, pc, running, camera, one]
  · simp only [Place, pc] at place
    refine ⟨.inr ⟨camera.symm, by rw [pc]; rfl, by omega, framed, fun _ _ => room place.1 same⟩, ?_⟩
    simp [Spared, System.interrupt, pc, running, camera]

/-- The call is attended to, or it has returned. -/
private def Attending (s : System) : Prop :=
  Underway 400 s ∧ s.camx = 1 ∧ Spared s ∨ s.pc = .returned camErrOK

private theorem attended_allowed (s : System) (attending : Attending s) :
    Cooperates 400 s (attended s) ∧ ∃ t, step s (attended s) = some t ∧ Attending t := by
  rcases attending with ⟨underway, camera, spared⟩ | returned
  · by_cases waited : Waited s
    · rw [attended, if_pos waited]
      obtain ⟨cooperates, still⟩ := attends_frame underway spared camera waited
      exact ⟨cooperates, _, rfl, .inl ⟨(underway.interrupt cooperates).1, camera, still⟩⟩
    · rw [attended, if_neg waited]
      have cooperates := attends_run spared
      refine ⟨cooperates, _, rfl, ?_⟩
      rcases underway.exec cooperates with returned | ⟨next, -⟩
      · exact .inr returned
      · exact .inl ⟨next, (exec_camx s true).trans camera, spared.exec underway waited⟩
  · have idle : ¬Waited s := by simp [Waited, returned]
    rw [attended, if_neg idle]
    refine ⟨?_, _, rfl, .inr ?_⟩
    · simp [Cooperates, returned]
    · simp [System.exec, returned]

end Attention

/-- A call that starts with the frame counter at zero, and whose camera answers before
the waiting time left by earlier calls is over, returns `camErr_OK`. -/
theorem repeatable_of_fresh {answer : Nat} {s : System} (counter : s.g.imgFcnt = 0)
    (patience : s.g.waitTime + answer ≤ 400) : Repeatable answer s := by
  intro camx first last e call sends
  refine e.eventually (Underway answer) (fun t => t.pc = .returned camErrOK) (System.rank answer)
    (underway_call first last call counter patience) ?_ ?_
  · intro n underway
    obtain ⟨cooperates, taken⟩ := e.takes n
    rcases underway.step cooperates taken with returned | ⟨next, closer | ⟨same, -⟩⟩
    · exact .inl returned
    · exact .inr ⟨next, closer.le⟩
    · exact .inr ⟨next, same.le⟩
  · intro underway n
    have next : ∀ m, (e.state (m + 1)).pc = .returned camErrOK ∨
        (e.state (m + 1)).rank answer < (e.state m).rank answer ∨
          Spinning (e.state m) ∧ ∃ ok, e.label m = .run ok := by
      intro m
      obtain ⟨cooperates, taken⟩ := e.takes m
      rcases (underway m).step cooperates taken with returned | ⟨-, closer | ⟨-, spins⟩⟩
      · exact .inl returned
      · exact .inr (.inl closer)
      · exact .inr (.inr spins)
    rcases next n with returned | closer | ⟨spinning, runs⟩
    · exact ⟨n, le_rfl, .inl returned⟩
    · exact ⟨n, le_rfl, .inr closer⟩
    · -- the frame that follows cannot be a turn of the loop
      obtain ⟨m, later, camx, chunk, frame⟩ := frame_follows sends underway spinning runs
      refine ⟨m, later, (next m).imp id fun closer => closer.resolve_right ?_⟩
      rintro ⟨-, ok, run⟩
      rw [frame] at run
      cases run

theorem repeatable_of_fresh_powerOn :
    ∃ (s : System) (e : Execution (TakesWhen (Cooperates 400) step)),
      s.g.imgFcnt = 0 ∧ s.g.waitTime + 400 ≤ 400 ∧ step s (.call 1 true) = some (e.state 0) ∧
        KeepsSending e ∧ ∃ n, (e.state n).pc = .returned camErrOK := by
  let called : System := { initial powerOn with camx := 1, named := true, pc := .param }
  have call : step (initial powerOn) (.call 1 true) = some called := rfl
  have start : Attending called :=
    .inl ⟨underway_call le_rfl (by decide) call rfl (by decide), rfl, trivial⟩
  let e : Execution (TakesWhen (Cooperates 400) step) :=
    .ofSchedule attended called Attending start attended_allowed
  have sends : KeepsSending e := by
    intro n pc ready
    have attending : Attending (e.state n) :=
      Execution.follow_invariant Attending start attended_allowed n
    rcases attending with ⟨underway, -, -⟩ | returned
    · have live := underway.place.live (by rw [pc]; rfl)
      have one : (e.state n).transfer.length = 1 := by
        rw [← phase_eq_ready, ← live.sta]
        exact ready
      exact ⟨n, le_rfl, 1, _, if_pos (.inr (.inl ⟨pc, one⟩))⟩
    · simp [pc] at returned
  have fresh : Repeatable 400 (initial powerOn) := repeatable_of_fresh rfl (by decide)
  exact ⟨initial powerOn, e, rfl, by decide, rfl, sends, fresh 1 le_rfl (by decide) e rfl sends⟩

end BadmintonRobot.Image
