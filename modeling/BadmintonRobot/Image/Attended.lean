import Mathlib.Data.Prod.Lex
import BadmintonRobot.Image.Preservation
import BadmintonRobot.Semantics.Execution

/-!
# A call that its camera attends to

The devices accept what `Save_Img` gives them, and the camera answers the command
with the head frame, the data frames and the end frame. Under these conditions every
step keeps the call on the way to `camErr_OK`, and each statement outside the loop
that waits for the first data frame brings it closer.
-/

namespace BadmintonRobot.Image

open BadmintonRobot.Semantics

/-- The statements after the command has been sent. -/
def Pc.commanded : Pc → Bool
  | .idle | .param | .initErrFlg | .initSta | .initMode | .initRIndex | .initWIndex => false
  | .open_ | .canTransmit _ => false
  | _ => true

/-- The write index after the next data frame. -/
def Globals.nextIndex (g : Globals) : Nat :=
  if g.wIndex + 8 = bufSize then 0 else g.wIndex + 8

/-- What the call may expect of its surroundings. The card accepts the file and the
writes, and the CAN controller the command before its 200th refusal. The camera
sends nothing before the command, and then the head frame, the data frames and the
end frame. The head frame is there when the waiting loop has taken more than
`answer` turns. The data frames are slow enough to find room in the ring, and the
camera does not pause for more than 20 turns of the transfer loop. -/
def Cooperates (answer : Nat) (s : System) : Label → Prop
  | .call _ _ => True
  | .run ok =>
    (s.pc = .open_ ∨ s.pc = .write ∨ s.pc = .canTransmit 199 → ok = true) ∧
      (s.pc = .waitLimit → answer < s.polls → s.transfer ≠ []) ∧
      (s.pc = .stampTest → s.turns ≤ 20)
  | .frame camx chunk => s.Resting ∨
    (camx = s.camx ∧ s.pc.commanded ∧ s.transfer.length < imgFrames + 2 ∧
      (s.transfer.length = 0 ∨ s.transfer.length = imgFrames + 1 → chunk = camTrsimgFh) ∧
      (0 < s.transfer.length → s.transfer.length ≤ imgFrames → s.g.nextIndex ≠ s.g.rIndex))

/-- The state of the camera after a number of its frames. -/
def phase (sent : Nat) : CamSta :=
  if sent = 0 then .noReady
  else if sent = 1 then .ready
  else if sent ≤ imgFrames + 1 then .transmit
  else .finish

@[simp] theorem phase_eq_noReady {sent : Nat} : phase sent = .noReady ↔ sent = 0 := by
  unfold phase
  split_ifs <;> simp_all

@[simp] theorem phase_eq_ready {sent : Nat} : phase sent = .ready ↔ sent = 1 := by
  unfold phase
  split_ifs <;> simp_all

@[simp] theorem phase_eq_transmit {sent : Nat} :
    phase sent = .transmit ↔ 2 ≤ sent ∧ sent ≤ imgFrames + 1 := by
  unfold phase
  split_ifs <;> simp <;> omega

@[simp] theorem phase_eq_finish {sent : Nat} : phase sent = .finish ↔ imgFrames + 2 ≤ sent := by
  have : 0 < imgFrames := by decide
  unfold phase
  split_ifs <;> simp <;> omega

/-- No error is reported, the camera is where its frames have taken it, and the
indices are those of frames. -/
structure Globals.Live (g : Globals) (camx sent : Nat) : Prop where
  err : g.camErrFlg camx = camErrOK
  sta : g.camSta camx = phase sent
  rIndex : g.rIndex % 8 = 0
  wIndex : g.wIndex % 8 = 0
  inside : g.wIndex < bufSize

/-- The globals suit the frames that the camera has sent. -/
abbrev System.Live (s : System) : Prop := s.g.Live s.camx s.transfer.length

/-- What holds at each statement. -/
def Place (answer : Nat) (s : System) : Prop :=
  match s.pc with
  | .idle | .errReturn | .returned _ => False
  | .param | .initErrFlg => s.transfer = [] ∧ s.polls = 0
  | .initSta => s.transfer = [] ∧ s.polls = 0 ∧ s.err = camErrOK
  | .initMode | .initRIndex =>
    s.transfer = [] ∧ s.polls = 0 ∧ s.err = camErrOK ∧ s.sta = .noReady
  | .initWIndex =>
    s.transfer = [] ∧ s.polls = 0 ∧ s.err = camErrOK ∧ s.sta = .noReady ∧ s.g.rIndex = 0
  | .open_ => s.Live ∧ s.g.rIndex < bufSize ∧ s.polls = 0 ∧ s.transfer = []
  | .canTransmit canCnt =>
    s.Live ∧ s.g.rIndex < bufSize ∧ s.polls = 0 ∧ s.transfer = [] ∧ canCnt < 200
  | .canCheck canCnt => s.Live ∧ s.g.rIndex < bufSize ∧ s.polls = 0 ∧ canCnt < 200
  | .waitTest | .waitDelay | .waitErr =>
    s.Live ∧ s.g.rIndex < bufSize ∧ s.polls ≤ answer + 1 ∧
      (0 < s.transfer.length ∨ s.polls ≤ answer)
  | .waitCount => s.Live ∧ s.g.rIndex < bufSize ∧ s.polls ≤ answer
  | .waitLimit => s.Live ∧ s.g.rIndex < bufSize ∧ s.polls ≤ answer + 1
  | .timeoutTest | .readyTest | .readyDelay =>
    s.Live ∧ s.g.rIndex < bufSize ∧ 0 < s.transfer.length
  | .pumpTest | .drainTest | .pumpDelay | .stampCount =>
    s.Live ∧ s.g.rIndex < bufSize ∧ 2 ≤ s.transfer.length ∧ s.turns ≤ 20
  | .write | .advance =>
    s.Live ∧ s.g.rIndex < bufSize ∧ 2 ≤ s.transfer.length ∧ s.turns ≤ 20 ∧
      s.g.rIndex ≠ s.g.wIndex
  | .wrapTest => s.Live ∧ s.g.rIndex ≤ bufSize ∧ 2 ≤ s.transfer.length ∧ s.turns ≤ 20
  | .wrap => s.Live ∧ s.g.rIndex = bufSize ∧ 2 ≤ s.transfer.length ∧ s.turns ≤ 20
  | .stampTest => s.Live ∧ s.g.rIndex < bufSize ∧ 2 ≤ s.transfer.length
  | .finishTest | .finishMode => s.Live ∧ imgFrames + 2 ≤ s.transfer.length

/-- The parts of `Save_Img`, from the last to the first. -/
def Pc.stage : Pc → Nat
  | .idle | .errReturn | .returned _ => 0
  | .finishTest | .finishMode => 1
  | .pumpTest | .drainTest | .write | .advance | .wrapTest | .wrap | .pumpDelay | .stampCount
  | .stampTest => 2
  | .timeoutTest | .readyTest | .readyDelay => 3
  | .waitTest | .waitCount | .waitLimit | .waitDelay | .waitErr => 4
  | _ => 5

/-- A call on the way to `camErr_OK`. -/
structure Underway (answer : Nat) (s : System) : Prop where
  camx_pos : 1 ≤ s.camx
  camx_le : s.camx ≤ 5
  named : s.named = true
  sent_le : s.transfer.length ≤ imgFrames + 2
  counter : s.g.imgFcnt =
    if s.transfer.length = imgFrames + 2 then 0 else s.transfer.length - 1
  patience : s.g.waitTime + answer ≤ 400 + s.polls
  stamp : 2 ≤ s.transfer.length → s.g.timeStamp = s.turns
  early : 3 ≤ s.pc.stage → s.turns = 0
  place : Place answer s

/-- The bytes in the ring. -/
def Globals.unread (g : Globals) : Nat := (g.wIndex + bufSize - g.rIndex) % bufSize

/-- Taking a frame from the ring. -/
theorem Globals.unread_advance {g : Globals} (read : g.rIndex % 8 = 0) (write : g.wIndex % 8 = 0)
    (inside : g.rIndex < bufSize) (bound : g.wIndex < bufSize) (differ : g.rIndex ≠ g.wIndex) :
    Globals.unread { g with rIndex := g.rIndex + 8 } + 8 = g.unread := by
  simp only [Globals.unread, bufSize] at *
  omega

theorem Globals.unread_wrap {g : Globals} (atEnd : g.rIndex = bufSize) :
    Globals.unread { g with rIndex := 0 } = g.unread := by
  simp [Globals.unread, atEnd]

namespace System

/-- The turns left to the loop that the next statement is in. -/
def budget (answer : Nat) (s : System) : Nat :=
  match s.pc with
  | .canTransmit canCnt => 200 - canCnt
  | .waitTest | .waitCount | .waitLimit | .waitDelay | .waitErr => answer + 1 - s.polls
  | .pumpTest | .drainTest | .write | .advance | .wrapTest | .wrap | .pumpDelay | .stampCount
  | .stampTest => 21 - s.turns
  | .canCheck _ => 0
  | _ => 201

/-- The statements left before the next turn. -/
def position (s : System) : Nat :=
  match s.pc with
  | .param => 6
  | .initErrFlg => 5
  | .initSta => 4
  | .initMode => 3
  | .initRIndex => 2
  | .initWIndex => 1
  | .waitLimit => 4
  | .waitDelay => 3
  | .waitErr => 2
  | .waitTest => 1
  | .timeoutTest => 1
  | .readyDelay => s.transfer.length - 1
  | .stampTest => s.g.unread + 6
  | .pumpTest => s.g.unread + 5
  | .drainTest => s.g.unread + 4
  | .write => s.g.unread + 3
  | .advance => s.g.unread + 2
  | .wrapTest => s.g.unread + 6
  | .wrap => s.g.unread + 5
  | .pumpDelay => 1
  | .finishTest => 1
  | _ => 0

/-- How far a call is from its end: the frames still to come, and the statements still
to be executed if none came. -/
def rank (answer : Nat) (s : System) : ℕ ×ₗ ℕ ×ₗ ℕ ×ₗ ℕ :=
  toLex (imgFrames + 2 - s.transfer.length,
    toLex (s.pc.stage, toLex (s.budget answer, s.position)))

end System

theorem rank_lt {answer : Nat} {s t : System} (sent : t.transfer = s.transfer)
    (closer : t.pc.stage < s.pc.stage ∨ t.pc.stage = s.pc.stage ∧
      (t.budget answer < s.budget answer ∨ t.budget answer = s.budget answer ∧
        t.position < s.position)) :
    t.rank answer < s.rank answer := by
  simpa [System.rank, Prod.Lex.toLex_lt_toLex, sent] using closer

/-- The loop that waits for the first data frame, which has no time limit. -/
def Spinning (s : System) : Prop :=
  (s.pc = .readyTest ∨ s.pc = .readyDelay) ∧ s.transfer.length = 1

section Consumer

variable {answer : Nat} {s : System}

/-- The call goes on. -/
def GoesOn (answer : Nat) (s t : System) : Prop :=
  Underway answer t ∧ (t.rank answer < s.rank answer ∨
    Spinning s ∧ t.rank answer = s.rank answer)

/-- A statement that only moves on. -/
private theorem Underway.move (underway : Underway answer s) {pc : Pc}
    (place : Place answer { s with pc := pc })
    (closer : pc.stage < s.pc.stage ∨ pc.stage = s.pc.stage ∧
      (System.budget answer { s with pc := pc } < s.budget answer ∨
        System.budget answer { s with pc := pc } = s.budget answer ∧
        System.position { s with pc := pc } < s.position)) :
    GoesOn answer s { s with pc := pc } := by
  obtain ⟨pos, le, named, sent, counter, patience, stamp, early, -⟩ := underway
  refine ⟨⟨pos, le, named, sent, counter, patience, stamp, fun high => early ?_, place⟩,
    .inl (rank_lt rfl closer)⟩
  change 3 ≤ pc.stage at high
  omega

/-- The statements before the waiting loop. -/
private theorem Underway.exec_front (underway : Underway answer s) {ok : Bool}
    (cooperates : Cooperates answer s (.run ok)) (front : s.pc.stage = 5) :
    GoesOn answer s (s.exec ok) := by
  have place := underway.place
  have named := underway.named
  cases pc : s.pc <;> simp only [pc, Pc.stage] at front <;>
    simp only [Place, pc] at place <;> simp only [System.exec, pc]
  case param =>
    have pos := underway.camx_pos
    have le := underway.camx_le
    have valid : ¬(s.camx = 0 ∨ s.camx > 6 ∨ s.named = false) := by
      simp only [named, Bool.true_eq_false, or_false]
      omega
    rw [if_neg valid]
    exact underway.move place (by simp [pc, Pc.stage, System.budget, System.position])
  case initErrFlg =>
    obtain ⟨pos, le, named, sent, counter, patience, stamp, early, -⟩ := underway
    have fresh := early (by simp [pc, Pc.stage])
    refine ⟨⟨pos, le, named, sent, counter, patience, stamp, fun _ => fresh, place.1, place.2, ?_⟩, .inl ?_⟩
    · simp [System.err]
    · exact rank_lt rfl (by simp [pc, Pc.stage, System.budget, System.position])
  case initSta =>
    obtain ⟨none, polls, err⟩ := place
    obtain ⟨pos, le, named, sent, counter, patience, stamp, early, -⟩ := underway
    have fresh := early (by simp [pc, Pc.stage])
    rw [none] at counter stamp sent
    refine ⟨⟨pos, le, named, sent, counter, patience, stamp, fun _ => fresh, rfl, polls, err, ?_⟩, .inl ?_⟩
    · simp [System.sta]
    · exact rank_lt none.symm (by simp [pc, Pc.stage, System.budget, System.position])
  case initMode =>
    obtain ⟨pos, le, named, sent, counter, patience, stamp, early, -⟩ := underway
    have fresh := early (by simp [pc, Pc.stage])
    refine ⟨⟨pos, le, named, sent, counter, patience, stamp, fun _ => fresh, place⟩, .inl ?_⟩
    exact rank_lt rfl (by simp [pc, Pc.stage, System.budget, System.position])
  case initRIndex =>
    obtain ⟨none, polls, err, sta⟩ := place
    obtain ⟨pos, le, named, sent, counter, patience, stamp, early, -⟩ := underway
    have fresh := early (by simp [pc, Pc.stage])
    refine ⟨⟨pos, le, named, sent, counter, patience, stamp, fun _ => fresh, none, polls, err, sta, rfl⟩, .inl ?_⟩
    exact rank_lt rfl (by simp [pc, Pc.stage, System.budget, System.position])
  case initWIndex =>
    obtain ⟨none, polls, err, sta, front⟩ := place
    obtain ⟨pos, le, named, sent, counter, patience, stamp, early, -⟩ := underway
    have fresh := early (by simp [pc, Pc.stage])
    have start : phase s.transfer.length = .noReady := by simp [none]
    refine ⟨⟨pos, le, named, sent, counter, patience, stamp, fun _ => fresh,
      ⟨err, sta.trans start.symm, ?_, rfl, ?_⟩, ?_, polls, none⟩, .inl ?_⟩
    · simp [front]
    · simp [bufSize]
    · simp [front, bufSize]
    · exact rank_lt rfl (by simp [pc, Pc.stage, System.budget, System.position])
  case open_ =>
    obtain rfl : ok = true := cooperates.1 (.inl pc)
    obtain ⟨live, inside, polls, none⟩ := place
    rw [if_pos rfl]
    refine underway.move ⟨live, inside, polls, none, by decide⟩ ?_
    simp [pc, Pc.stage, System.budget]
  case canTransmit canCnt =>
    obtain ⟨live, inside, polls, none, few⟩ := place
    split_ifs with accepted
    · refine underway.move ⟨live, inside, polls, few⟩ ?_
      simp [pc, Pc.stage, System.budget]
      omega
    · have fewer : canCnt + 1 < 200 := by
        by_contra last
        obtain rfl : canCnt = 199 := by omega
        exact accepted (cooperates.1 (.inr (.inr pc)))
      refine underway.move ⟨live, inside, polls, none, fewer⟩ ?_
      simp [pc, Pc.stage, System.budget]
      omega
  case canCheck canCnt =>
    obtain ⟨live, inside, polls, few⟩ := place
    rw [if_neg (by omega)]
    refine underway.move ⟨live, inside, by dsimp only; omega, .inr (by dsimp only; omega)⟩ ?_
    simp [pc, Pc.stage]
  all_goals simp at front

/-- The waiting loop ends with the head frame. -/
private theorem Underway.exec_wait (underway : Underway answer s) {ok : Bool}
    (cooperates : Cooperates answer s (.run ok)) (waits : s.pc.stage = 4) :
    GoesOn answer s (s.exec ok) := by
  have place := underway.place
  have patient := underway.patience
  cases pc : s.pc <;> simp only [pc, Pc.stage] at waits <;>
    simp only [Place, pc] at place <;> simp only [System.exec, pc]
  case waitTest =>
    obtain ⟨live, inside, polls, here⟩ := place
    simp only [show s.sta = phase s.transfer.length from live.sta, phase_eq_noReady]
    split_ifs with silent
    · refine underway.move ⟨live, inside, here.resolve_left (by omega)⟩ ?_
      simp [pc, Pc.stage, System.budget, System.position]
    · refine underway.move ⟨live, inside, Nat.pos_of_ne_zero silent⟩ ?_
      simp [pc, Pc.stage]
  case waitCount =>
    obtain ⟨⟨err, sta, r, w, bound⟩, inside, polls⟩ := place
    obtain ⟨pos, le, named, sent, counter, patience, stamp, early, -⟩ := underway
    have fresh := early (by simp [pc, Pc.stage])
    have small : (s.g.waitTime + 1) % 2 ^ 32 = s.g.waitTime + 1 := Nat.mod_eq_of_lt (by omega)
    rw [small]
    refine ⟨⟨pos, le, named, sent, counter, ?_, stamp, fun _ => fresh,
      ⟨err, sta, r, w, bound⟩, inside, Nat.succ_le_succ polls⟩, .inl ?_⟩
    · dsimp only
      omega
    · refine rank_lt rfl ?_
      simp only [pc, Pc.stage, System.budget, lt_self_iff_false, true_and, false_or]
      omega
  case waitLimit =>
    obtain ⟨live, inside, polls⟩ := place
    have answered : answer < s.polls → 0 < s.transfer.length := by
      intro long
      exact List.length_pos_iff.mpr (cooperates.2.1 pc long)
    split_ifs with long
    · refine underway.move ⟨live, inside, answered (by omega)⟩ ?_
      simp [pc, Pc.stage]
    · refine underway.move ⟨live, inside, polls, ?_⟩ ?_
      · rcases Nat.lt_or_ge answer s.polls with late | soon
        · exact .inl (answered late)
        · exact .inr soon
      · simp [pc, Pc.stage, System.budget, System.position]
  case waitDelay =>
    refine underway.move place ?_
    simp [pc, Pc.stage, System.budget, System.position]
  case waitErr =>
    rw [if_neg (not_not.mpr place.1.err)]
    refine underway.move place ?_
    simp [pc, Pc.stage, System.budget, System.position]
  all_goals simp at waits

/-- The loop without a time limit is left with the first data frame. -/
private theorem Underway.exec_ready (underway : Underway answer s) {ok : Bool}
    (ready : s.pc.stage = 3) : GoesOn answer s (s.exec ok) := by
  have place := underway.place
  have fresh := underway.early ready.ge
  cases pc : s.pc <;> simp only [pc, Pc.stage] at ready <;>
    simp only [Place, pc] at place <;> simp only [System.exec, pc]
  case timeoutTest =>
    obtain ⟨live, inside, some_⟩ := place
    simp only [show s.sta = phase s.transfer.length from live.sta, phase_eq_noReady]
    rw [if_neg (by omega)]
    refine underway.move ⟨live, inside, some_⟩ ?_
    simp [pc, Pc.stage, System.budget, System.position]
  case readyTest =>
    obtain ⟨live, inside, some_⟩ := place
    simp only [show s.sta = phase s.transfer.length from live.sta, phase_eq_ready]
    split_ifs with one
    · obtain ⟨pos, le, named, sent, counter, patience, stamp, early, -⟩ := underway
      refine ⟨⟨pos, le, named, sent, counter, patience, stamp, fun _ => fresh, live, inside, some_⟩,
        .inr ⟨⟨.inl pc, one⟩, ?_⟩⟩
      simp [System.rank, pc, Pc.stage, System.budget, System.position, one]
    · refine underway.move ⟨live, inside, ?_, ?_⟩ ?_
      · dsimp only
        omega
      · simp [fresh]
      · simp [pc, Pc.stage]
  case readyDelay =>
    obtain ⟨live, inside, some_⟩ := place
    by_cases one : s.transfer.length = 1
    · obtain ⟨pos, le, named, sent, counter, patience, stamp, early, -⟩ := underway
      refine ⟨⟨pos, le, named, sent, counter, patience, stamp, fun _ => fresh, live, inside, some_⟩,
        .inr ⟨⟨.inr pc, one⟩, ?_⟩⟩
      simp [System.rank, pc, Pc.stage, System.budget, System.position, one]
    · refine underway.move ⟨live, inside, some_⟩ ?_
      simp only [pc, Pc.stage, System.budget, System.position, lt_self_iff_false, true_and, false_or]
      omega
  all_goals simp at ready

/-- The transfer loop empties the ring, and is left when the end frame is there. -/
private theorem Underway.exec_pump (underway : Underway answer s) {ok : Bool}
    (cooperates : Cooperates answer s (.run ok)) (pumps : s.pc.stage = 2) :
    GoesOn answer s (s.exec ok) := by
  have place := underway.place
  have stamped := underway.stamp
  have size : bufSize = 6144 := rfl
  cases pc : s.pc <;> simp only [pc, Pc.stage] at pumps <;>
    simp only [Place, pc] at place <;> simp only [System.exec, pc]
  case pumpTest =>
    obtain ⟨live, inside, two, turns⟩ := place
    split_ifs with going
    · refine underway.move ⟨live, inside, two, turns⟩ ?_
      simp [pc, Pc.stage, System.budget, System.position]
    · refine underway.move ⟨live, ?_⟩ ?_
      · have ended : ¬s.transfer.length ≤ imgFrames + 1 := by
          intro sends
          refine going ⟨?_, live.err⟩
          rw [show s.sta = phase s.transfer.length from live.sta, phase_eq_transmit]
          exact ⟨two, sends⟩
        dsimp only
        omega
      · simp [pc, Pc.stage]
  case drainTest =>
    obtain ⟨live, inside, two, turns⟩ := place
    split_ifs with differ
    · refine underway.move ⟨live, inside, two, turns, differ⟩ ?_
      simp [pc, Pc.stage, System.budget, System.position, Globals.unread]
    · refine underway.move ⟨live, inside, two, turns⟩ ?_
      simp [pc, Pc.stage, System.budget, System.position]
  case write =>
    obtain rfl : ok = true := cooperates.1 (.inr (.inl pc))
    obtain ⟨live, inside, two, turns, differ⟩ := place
    obtain ⟨pos, le, named, sent, counter, patience, stamp, -, -⟩ := underway
    rw [if_pos rfl]
    refine ⟨⟨pos, le, named, sent, counter, patience, stamp, ?_, live, inside, two, turns, differ⟩,
      .inl (rank_lt rfl ?_)⟩
    · simp [Pc.stage]
    · simp [pc, Pc.stage, System.budget, System.position]
  case advance =>
    obtain ⟨⟨err, sta, r, w, bound⟩, inside, two, turns, differ⟩ := place
    obtain ⟨pos, le, named, sent, counter, patience, stamp, -, -⟩ := underway
    refine ⟨⟨pos, le, named, sent, counter, patience, stamp, ?_,
      ⟨err, sta, ?_, w, bound⟩, ?_, two, turns⟩, .inl (rank_lt rfl ?_)⟩
    · simp [Pc.stage]
    · dsimp only
      omega
    · dsimp only
      omega
    · have fewer := Globals.unread_advance r w inside bound differ
      simp only [pc, Pc.stage, System.budget, System.position, lt_self_iff_false, true_and,
        false_or]
      omega
  case wrapTest =>
    obtain ⟨live, inside, two, turns⟩ := place
    split_ifs with atEnd
    · refine underway.move ⟨live, atEnd, two, turns⟩ ?_
      simp [pc, Pc.stage, System.budget, System.position]
    · refine underway.move ⟨live, lt_of_le_of_ne inside atEnd, two, turns⟩ ?_
      simp [pc, Pc.stage, System.budget, System.position]
  case wrap =>
    obtain ⟨⟨err, sta, r, w, bound⟩, atEnd, two, turns⟩ := place
    obtain ⟨pos, le, named, sent, counter, patience, stamp, -, -⟩ := underway
    refine ⟨⟨pos, le, named, sent, counter, patience, stamp, ?_,
      ⟨err, sta, rfl, w, bound⟩, ?_, two, turns⟩, .inl (rank_lt rfl ?_)⟩
    · simp [Pc.stage]
    · simp [bufSize]
    · have same := Globals.unread_wrap atEnd
      simp only [pc, Pc.stage, System.budget, System.position, lt_self_iff_false, true_and,
        false_or]
      omega
  case pumpDelay =>
    refine underway.move place ?_
    simp [pc, Pc.stage, System.budget, System.position]
  case stampCount =>
    obtain ⟨⟨err, sta, r, w, bound⟩, inside, two, turns⟩ := place
    obtain ⟨pos, le, named, sent, counter, patience, stamp, -, -⟩ := underway
    refine ⟨⟨pos, le, named, sent, counter, patience, ?_, ?_,
      ⟨err, sta, r, w, bound⟩, inside, two⟩, .inl (rank_lt rfl ?_)⟩
    · intro _
      rw [stamped two]
    · simp [Pc.stage]
    · simp only [pc, Pc.stage, System.budget, lt_self_iff_false, true_and, false_or]
      omega
  case stampTest =>
    obtain ⟨live, inside, two⟩ := place
    have paced := cooperates.2.2 pc
    rw [if_neg (by rw [stamped two]; omega)]
    refine underway.move ⟨live, inside, two, paced⟩ ?_
    simp [pc, Pc.stage, System.budget, System.position]
  all_goals simp at pumps

/-- Every statement of a call that is under way returns `camErr_OK` or goes on. -/
theorem Underway.exec (underway : Underway answer s) {ok : Bool}
    (cooperates : Cooperates answer s (.run ok)) :
    (s.exec ok).pc = .returned camErrOK ∨ GoesOn answer s (s.exec ok) := by
  have place := underway.place
  have stage : s.pc.stage = 5 ∨ s.pc.stage = 4 ∨ s.pc.stage = 3 ∨ s.pc.stage = 2 ∨
      s.pc = .finishTest ∨ s.pc = .finishMode := by
    cases pc : s.pc <;> simp_all [Pc.stage, Place]
  rcases stage with front | waits | ready | pumps | pc | pc
  · exact .inr (underway.exec_front cooperates front)
  · exact .inr (underway.exec_wait cooperates waits)
  · exact .inr (underway.exec_ready ready)
  · exact .inr (underway.exec_pump cooperates pumps)
  · right
    simp only [Place, pc] at place
    obtain ⟨live, ended⟩ := place
    have finished : s.sta = .finish := by
      rw [show s.sta = phase s.transfer.length from live.sta, phase_eq_finish]
      exact ended
    simp only [System.exec, pc, if_pos finished]
    refine underway.move ⟨live, ended⟩ ?_
    simp [pc, Pc.stage, System.budget, System.position]
  · left
    simp [System.exec, pc]

end Consumer

section Producer

variable {answer : Nat} {s t : System} {chunk : Chunk}

/-- What a frame of the camera changes, after `sent` earlier ones. -/
structure Globals.Receives (g g' : Globals) (camx sent : Nat) : Prop where
  live : g'.Live camx (sent + 1)
  rIndex : g'.rIndex = g.rIndex
  differ : g.rIndex ≠ g.wIndex → g'.rIndex ≠ g'.wIndex
  imgFcnt : g'.imgFcnt = if sent + 1 = imgFrames + 2 then 0 else sent
  waitTime : g'.waitTime = g.waitTime
  timeStamp : 0 < sent → g'.timeStamp = 0

/-- The head frame. -/
private theorem receives_head {g : Globals} {camx : Nat} (live : g.Live camx 0)
    (counter : g.imgFcnt = 0) : g.Receives (imgSaveIsr camx camTrsimgFh g) camx 0 := by
  obtain ⟨err, sta, read, write, inside⟩ := live
  have silent : g.camSta camx = .noReady := sta.trans (phase_eq_noReady.mpr rfl)
  have isr : imgSaveIsr camx camTrsimgFh g =
      { g with camSta := Function.update g.camSta camx .ready } := by
    simp [imgSaveIsr, silent]
  rw [isr]
  refine ⟨⟨err, ?_, read, write, inside⟩, rfl, id, ?_, rfl, fun some_ => absurd some_ (by simp)⟩
  · exact (Function.update_self ..).trans (phase_eq_ready.mpr rfl).symm
  · rw [counter]
    exact (if_neg (by decide)).symm

/-- A data frame that finds room. -/
private theorem receives_data {g : Globals} {camx sent : Nat} (live : g.Live camx sent)
    (counter : g.imgFcnt = sent - 1) (first : 0 < sent) (last : sent ≤ imgFrames)
    (room : g.nextIndex ≠ g.rIndex) :
    g.Receives (imgSaveIsr camx chunk g) camx sent := by
  obtain ⟨err, sta, read, write, inside⟩ := live
  have sending : g.camSta camx = .transmit ∨ g.camSta camx = .ready ∧ g.imgFcnt = 0 := by
    rw [sta, phase_eq_transmit, phase_eq_ready, counter]
    omega
  have size : bufSize = 6144 := rfl
  rw [imgSaveIsr_data chunk sending (by omega)]
  refine ⟨⟨?_, ?_, read, ?_, ?_⟩, rfl, fun _ => room.symm, ?_, rfl, fun _ => rfl⟩
  · rw [putChunk_camErrFlg]
    exact (if_neg room).trans err
  · have next : phase (sent + 1) = .transmit := phase_eq_transmit.mpr (by omega)
    simp [Globals.putChunk, next]
  · simp only [Globals.putChunk]
    split_ifs <;> omega
  · simp only [Globals.putChunk]
    split_ifs <;> omega
  · rw [if_neg (by omega)]
    simp only [Globals.putChunk]
    omega

/-- The end frame. -/
private theorem receives_end {g : Globals} {camx : Nat} (live : g.Live camx (imgFrames + 1))
    (counter : g.imgFcnt = imgFrames) :
    g.Receives (imgSaveIsr camx camTrsimgFh g) camx (imgFrames + 1) := by
  obtain ⟨err, sta, read, write, inside⟩ := live
  have sends : g.camSta camx = .transmit := by
    rw [sta, phase_eq_transmit]
    decide
  rw [imgSaveIsr_end camTrsimgFh sends counter.ge, Globals.endChunk, if_pos rfl]
  refine ⟨⟨err, ?_, read, write, inside⟩, rfl, id, ?_, rfl, fun _ => rfl⟩
  · exact (Function.update_self ..).trans (phase_eq_finish.mpr le_rfl).symm
  · exact (if_pos rfl).symm

/-- Once the command is sent, the globals suit the frames. -/
theorem Place.live (place : Place answer s) (commanded : s.pc.commanded) : s.Live := by
  cases pc : s.pc <;> simp only [Place, pc] at place <;> simp only [pc, Pc.commanded] at commanded
  all_goals first
    | exact place.1
    | simp at commanded

theorem Place.running (place : Place answer s) : ¬s.Resting := by
  cases pc : s.pc <;> simp_all [Place, System.Resting]

/-- The frames of a cooperating camera are taken for what they are. -/
private theorem Underway.receives (underway : Underway answer s) {camx : Nat}
    (cooperates : Cooperates answer s (.frame camx chunk)) :
    s.g.Receives (imgSaveIsr camx chunk s.g) camx s.transfer.length := by
  have running := underway.place.running
  obtain ⟨rfl, commanded, unfinished, framed, room⟩ := cooperates.resolve_left running
  have live := underway.place.live commanded
  have counter := underway.counter
  rw [if_neg unfinished.ne] at counter
  rcases Nat.eq_zero_or_pos s.transfer.length with none | some_
  · rw [System.Live, none] at live
    rw [framed (.inl none), none]
    exact receives_head live (by simpa [none] using counter)
  · rcases Nat.lt_or_ge imgFrames s.transfer.length with last | data
    · have whole : s.transfer.length = imgFrames + 1 := by omega
      rw [System.Live, whole] at live
      rw [framed (.inr whole), whole]
      exact receives_end live (by simpa [whole] using counter)
    · exact receives_data live counter some_ data (room some_ data)

/-- A frame keeps what holds at the next statement. -/
private theorem Place.interrupt (place : Place answer s) {camx : Nat}
    (commanded : s.pc.commanded) (same : camx = s.camx)
    (received : s.g.Receives (imgSaveIsr camx chunk s.g) camx s.transfer.length) :
    Place answer (s.interrupt camx chunk) := by
  subst same
  have running := place.running
  have live : (s.interrupt s.camx chunk).Live := by
    simpa [System.interrupt, System.Live, running] using received.live
  have rIndex : (s.interrupt s.camx chunk).g.rIndex = s.g.rIndex := received.rIndex
  have sent : (s.interrupt s.camx chunk).transfer.length = s.transfer.length + 1 := by
    simp [System.interrupt, running]
  have turns : (s.interrupt s.camx chunk).turns = 0 := by simp [System.interrupt, running]
  have polls : (s.interrupt s.camx chunk).polls = s.polls := rfl
  unfold Place
  rw [show (s.interrupt s.camx chunk).pc = s.pc from rfl]
  cases pc : s.pc <;> simp only [Place, pc] at place <;> simp only [pc, Pc.commanded] at commanded
  case param | initErrFlg | initSta | initMode | initRIndex | initWIndex => simp at commanded
  case open_ | canTransmit => simp at commanded
  case write | advance =>
    exact ⟨live, by omega, by omega, by omega, received.differ place.2.2.2.2⟩
  all_goals
    dsimp only
    refine ⟨live, ?_⟩
    omega

/-- Every frame of a cooperating camera keeps the call under way. -/
theorem Underway.interrupt (underway : Underway answer s) {camx : Nat}
    (cooperates : Cooperates answer s (.frame camx chunk)) :
    Underway answer (s.interrupt camx chunk) ∧
      (s.interrupt camx chunk).rank answer < s.rank answer := by
  have received := underway.receives cooperates
  have running := underway.place.running
  obtain ⟨same, commanded, unfinished, -, -⟩ := cooperates.resolve_left running
  have place := underway.place.interrupt commanded same received
  have sent : (s.interrupt camx chunk).transfer.length = s.transfer.length + 1 := by
    simp [System.interrupt, running, same]
  have turns : (s.interrupt camx chunk).turns = 0 := by simp [System.interrupt, running, same]
  constructor
  · refine ⟨underway.camx_pos, underway.camx_le, underway.named, ?_, ?_, ?_, ?_, fun _ => turns,
      place⟩
    · omega
    · rw [sent]
      exact received.imgFcnt
    · rw [show (s.interrupt camx chunk).g.waitTime = s.g.waitTime from received.waitTime]
      exact underway.patience
    · intro two
      rw [turns]
      exact received.timeStamp (by omega)
  · rw [System.rank, System.rank, Prod.Lex.toLex_lt_toLex]
    left
    dsimp only
    omega

end Producer

end BadmintonRobot.Image
