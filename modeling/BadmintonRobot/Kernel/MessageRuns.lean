import BadmintonRobot.Kernel.MessageSteps
import BadmintonRobot.Semantics.Run

/-!
# Runs of a message queue

From `rt_mq_init` on, every run is a delivery of messages. A call finds the queue full only
when every slot is in use, and no thread is left waiting while there is a message for it.
-/

namespace BadmintonRobot.Kernel.Messaging

open Semantics MessageQueue

variable {Thread : Type}

/-- What a step shows of the messages. -/
def seen : MqAction Thread × MqOutcome Thread → Option (Delivery.Event Thread (List UInt8) Nat)
  | (_, .event event) => some event
  | _ => none

variable [Fintype Thread] [DecidableEq Thread] {s : Messaging Thread}
  {q' : MessageQueue Thread} {queued unused : List Nat} {capacity msgSize : Nat}
  {d : Delivery Thread (List UInt8) Nat capacity}

section Runs

variable {ram : Memory} {msgpool size poolSize : Nat} {flag : IpcFlag}
  {currentPriority : Thread → Nat} {labels : List (MqAction Thread × MqOutcome Thread)}

/-- The size of a slot for messages of some size. -/
def slotSize (size : Nat) : Nat := rtAlign size % 2 ^ 16

/-- The number of slots in a pool. -/
def slots (size poolSize : Nat) : Nat := poolSize / (slotSize size + sizeofMqMessage) % 2 ^ 16

/-- A pool in the memory. -/
structure PoolAt (msgpool poolSize : Nat) : Prop where
  positive : 0 < msgpool
  inside : msgpool + poolSize ≤ 2 ^ 32

omit [Fintype Thread] [DecidableEq Thread] in
theorem suspendThread_initFree (q : MessageQueue Thread) (count : Nat) :
    (q.initFree count).suspendThread = q.suspendThread := by
  induction count with
  | zero => rfl
  | succ count ih => exact ih

omit [DecidableEq Thread] in
theorem start_keeps (poolAt : PoolAt msgpool poolSize) (ram : Memory) (size : Nat)
    (flag : IpcFlag) :
    ∃ unused, Keeps (slotSize size) (start Thread ram msgpool size poolSize flag)
      (Delivery.empty Thread (List UInt8) Nat (slots size poolSize)) [] unused := by
  let q : MessageQueue Thread :=
    { ram := ram, msgPool := msgpool, msgSize := slotSize size, maxMsgs := slots size poolSize
      entry := 0, msgQueueHead := none, msgQueueTail := none, msgQueueFree := none
      flag := flag, suspendThread := [] }
  have placed : Placed q := by
    refine ⟨poolAt.positive, ?_, Nat.mod_lt _ (by decide)⟩
    have fits : slots size poolSize * (slotSize size + sizeofMqMessage) ≤ poolSize :=
      (Nat.mul_le_mul_right _ (Nat.mod_le _ _)).trans (Nat.div_mul_le_self _ _)
    have inside := poolAt.inside
    show msgpool + slots size poolSize * (slotSize size + sizeofMqMessage) ≤ 2 ^ 32
    omega
  obtain ⟨lists, touched, relinks⟩ := initFree_lists placed rfl rfl rfl (le_refl q.maxMsgs)
  have entry_eq : ∀ count, (q.initFree count).entry = 0 := by
    intro count
    induction count with
    | zero => rfl
    | succ count ih => exact ih
  refine ⟨_, ⟨lists, entry_eq q.maxMsgs⟩, relinks.msgSize_eq, relinks.maxMsgs_eq, .nil, ?_, ?_, ?_, ?_⟩
  · exact fun thread => rfl
  · intro thread msg owns
    cases owns
  · intro thread other msg owns
    cases owns
  · have nobody : census (fun call : MqCall => (call.msg.isSome : Prop))
        (fun _ : Thread => MqCall.idle) = 0 := census_eq_zero _ (by simp [MqCall.msg])
    show 0 + ((List.range q.maxMsgs).reverse.map q.slot).length + census _ (fun _ => MqCall.idle) = _
    rw [nobody, List.length_map, List.length_reverse, List.length_range, Nat.zero_add]
    rfl

theorem Keeps.exec (keeps : Keeps msgSize s d queued unused) {s' : Messaging Thread}
    {label : MqAction Thread × MqOutcome Thread} (taken : s.exec currentPriority label = some s') :
    ∃ d' queued' unused', Keeps msgSize s' d' queued' unused' ∧ Follows msgSize d label.2 d' := by
  rw [Messaging.exec, Option.bind_eq_some_iff] at taken
  obtain ⟨⟨after, outcome⟩, step, taken⟩ := taken
  obtain ⟨rfl, rfl⟩ : outcome = label.2 ∧ after = s' := by simpa using taken
  exact keeps.step step

/-- Every run is a delivery of messages. -/
theorem keeps_of_steps (poolAt : PoolAt msgpool poolSize)
    (steps : Steps (Takes (Messaging.exec currentPriority))
      (start Thread ram msgpool size poolSize flag) labels s) :
    ∃ (d : Delivery Thread (List UInt8) Nat (slots size poolSize)) (queued unused : List Nat),
      Keeps (slotSize size) s d queued unused ∧
      Steps (Delivery.Step (Reads (slotSize size))) (Delivery.empty _ _ _ _)
        (labels.filterMap seen) d := by
  induction steps with
  | refl =>
    have initial : ∃ unused, Keeps (slotSize size) (start Thread ram msgpool size poolSize flag)
        (Delivery.empty Thread (List UInt8) Nat (slots size poolSize)) [] unused :=
      start_keeps poolAt ram size flag
    obtain ⟨unused, keeps⟩ := initial
    exact ⟨_, _, unused, keeps, .refl⟩
  | @step labels current next label _ taken ih =>
    obtain ⟨d, queued, unused, keeps, delivered⟩ := ih
    obtain ⟨d', queued', unused', after, follows⟩ := keeps.exec taken
    refine ⟨d', queued', unused', after, ?_⟩
    obtain ⟨action, outcome⟩ := label
    rw [List.filterMap_append]
    cases outcome with
    | quiet =>
      obtain rfl : d' = d := follows
      exact (List.append_nil (labels.filterMap seen)).symm ▸ delivered
    | event event => exact delivered.step follows
    | failed thread code =>
      obtain rfl : d' = d := follows
      exact (List.append_nil (labels.filterMap seen)).symm ▸ delivered

end Runs

/-- The suspended threads are those that wait, and for every message that could be taken
while a thread is suspended another one is ready to take it. -/
structure Attends (s : Messaging Thread) : Prop where
  sleepers : Sleepers (fun call : MqCall => call.isWaiting) s.mq.suspendThread s.calls
  served : s.mq.suspendThread = [] ∨ s.mq.entry ≤ census (fun call : MqCall => call.isAwake) s.calls

namespace Attends

variable {thread : Thread} {call : MqCall} {s' : Messaging Thread} {outcome : MqOutcome Thread}

/-- A thread goes on that neither waits nor was resumed, before and after. -/
theorem go (attends : Attends s) (list_eq : q'.suspendThread = s.mq.suspendThread)
    (fewer : q'.entry ≤ s.mq.entry) (waits : call.isWaiting = (s.calls thread).isWaiting)
    (ready : call.isAwake = (s.calls thread).isAwake) :
    Attends ⟨q', Function.update s.calls thread call⟩ := by
  refine ⟨?_, ?_⟩
  · dsimp only
    rw [list_eq]
    exact attends.sleepers.stay (by rw [waits])
  · dsimp only
    rw [list_eq, census_update_same _ (by rw [ready])]
    exact attends.served.imp_right fewer.trans

/-- A message is added, and the first suspended thread is resumed. -/
theorem rtIpcListResume (sleepers : Sleepers (fun call : MqCall => call.isWaiting)
      s.mq.suspendThread s.calls)
    (served : s.mq.suspendThread = [] ∨
      s.mq.entry ≤ census (fun call : MqCall => call.isAwake) s.calls + 1) :
    Attends s.rtIpcListResume := by
  rw [Messaging.rtIpcListResume]
  cases list : s.mq.suspendThread with
  | nil => exact ⟨sleepers, .inl list⟩
  | cons thread rest =>
    rw [list] at sleepers served
    have waits : (s.calls thread).isWaiting := (sleepers.mem_iff thread).mp (by simp)
    cases call : s.calls thread with
    | waiting size timeout =>
      refine ⟨sleepers.wake (by simp [call, MqCall.wake, MqCall.isWaiting]), .inr ?_⟩
      dsimp only [Messaging.become]
      rw [census_update_enter _ (by simp [call, MqCall.isAwake]) (by simp [call, MqCall.wake, MqCall.isAwake])]
      exact served.resolve_left (by simp)
    | idle => simp [call, MqCall.isWaiting] at waits
    | clearing => simp [call, MqCall.isWaiting] at waits
    | filling => simp [call, MqCall.isWaiting] at waits
    | woken => simp [call, MqCall.isWaiting] at waits
    | emptying => simp [call, MqCall.isWaiting] at waits

theorem send (attends : Attends s) (keeps : Keeps msgSize s d queued unused) {urgent : Bool}
    {buffer : List UInt8} (taken : s.send thread urgent buffer = some (s', outcome)) :
    Attends s' := by
  cases call : s.calls thread with
  | idle =>
    simp only [Messaging.send, call] at taken
    by_cases long : buffer.length > s.mq.msgSize
    · rw [if_pos long] at taken
      cases taken
      exact attends
    · rw [if_neg long] at taken
      cases unused with
      | nil =>
        rw [keeps.pool.claim_eq_none] at taken
        cases taken
        exact attends
      | cons msg rest =>
        obtain ⟨q', claimed, pool, relinks⟩ := keeps.pool.claim
        rw [claimed] at taken
        cases taken
        refine attends.go relinks.suspendThread_eq ?_ ?_ ?_
        · rw [pool.entry_eq, keeps.pool.entry_eq]
        · rw [call]
          cases urgent <;> rfl
        · rw [call]
          cases urgent <;> rfl
  | clearing => simp [Messaging.send, call] at taken
  | filling => simp [Messaging.send, call] at taken
  | waiting => simp [Messaging.send, call] at taken
  | woken => simp [Messaging.send, call] at taken
  | emptying => simp [Messaging.send, call] at taken

theorem await (attends : Attends s) (keeps : Keeps msgSize s d queued unused)
    {currentPriority : Thread → Nat} {size : Nat} {timeout : Int}
    (runs : ¬(s.calls thread).isWaiting)
    (taken : s.await currentPriority thread size timeout = some (s', outcome)) : Attends s' := by
  rw [Messaging.await] at taken
  by_cases empty : s.mq.entry = 0
  · have nothing : ∀ calls : Thread → MqCall, s.mq.entry ≤ census (fun call : MqCall => call.isAwake) calls := by
      intro calls
      rw [empty]
      exact Nat.zero_le _
    rw [if_pos empty] at taken
    by_cases now : timeout = 0
    · rw [if_pos now] at taken
      cases taken
      refine ⟨attends.sleepers.stay ?_, .inr (nothing _)⟩
      exact ⟨(fun waits => by cases waits), fun waits => absurd waits runs⟩
    · rw [if_neg now] at taken
      cases taken
      refine ⟨attends.sleepers.enter runs rfl ?_, .inr (nothing _)⟩
      exact rtIpcListSuspend_perm currentPriority _ thread s.mq.flag
  · rw [if_neg empty] at taken
    cases queued with
    | nil => exact absurd keeps.pool.entry_eq empty
    | cons msg queued =>
      obtain ⟨q', code, pool, relinks⟩ := keeps.pool.takeFirst
      rw [code] at taken
      cases taken
      have entry_eq := pool.entry_eq
      have before := keeps.pool.entry_eq
      rw [List.length_cons] at before
      refine ⟨?_, ?_⟩
      · dsimp only [become]
        rw [relinks.suspendThread_eq]
        exact attends.sleepers.stay ⟨(fun waits => by cases waits), fun waits => absurd waits runs⟩
      · dsimp only [become]
        rw [relinks.suspendThread_eq]
        refine attends.served.imp_right fun enough => ?_
        -- a thread that was resumed for the message is not ready for another one
        have change := census_update (fun call : MqCall => (call.isAwake : Prop)) s.calls thread
          (.emptying msg size [])
        rw [if_neg (show ¬(MqCall.emptying msg size []).isAwake by simp [MqCall.isAwake])] at change
        split_ifs at change <;> omega

theorem advance (attends : Attends s) (keeps : Keeps msgSize s d queued unused)
    (taken : s.advance thread = some (s', outcome)) : Attends s' := by
  cases call : s.calls thread with
  | idle => simp [Messaging.advance, call] at taken
  | clearing msg buffer =>
    simp only [Messaging.advance, call] at taken
    cases taken
    exact attends.go rfl le_rfl (by rw [call]; rfl) (by rw [call]; rfl)
  | filling urgent msg buffer copied =>
    cases more : buffer[copied]? with
    | some byte =>
      simp only [Messaging.advance, call, more] at taken
      cases taken
      exact attends.go rfl le_rfl (by rw [call]; rfl) (by rw [call]; rfl)
    | none =>
      simp only [Messaging.advance, call, more] at taken
      cases taken
      have agrees := keeps.agrees thread
      rw [call] at agrees
      obtain ⟨slot, fresh⟩ := keeps.owned thread msg (by rw [call]; rfl)
      obtain ⟨list_eq, entry_eq⟩ :
          (if urgent then s.mq.linkFirst msg else s.mq.linkLast msg).suspendThread =
            s.mq.suspendThread ∧
          (if urgent then s.mq.linkFirst msg else s.mq.linkLast msg).entry = s.mq.entry + 1 := by
        cases urgent with
        | false =>
          obtain ⟨pool, relinks⟩ := keeps.pool.linkLast slot fresh (agrees.2.2.2.1 rfl)
          refine ⟨relinks.suspendThread_eq, ?_⟩
          rw [if_neg (by simp), pool.entry_eq, keeps.pool.entry_eq, List.length_append,
            List.length_singleton]
        | true =>
          obtain ⟨pool, relinks⟩ := keeps.pool.linkFirst slot fresh
          refine ⟨relinks.suspendThread_eq, ?_⟩
          rw [if_pos rfl, pool.entry_eq, keeps.pool.entry_eq, List.length_cons]
      refine rtIpcListResume ?_ ?_
      · dsimp only [become]
        rw [list_eq]
        exact attends.sleepers.stay (by rw [call]; rfl)
      · dsimp only [become]
        rw [list_eq, entry_eq, census_update_same _ (by rw [call]; rfl)]
        exact attends.served.imp_right Nat.succ_le_succ
  | waiting => simp [Messaging.advance, call] at taken
  | woken => simp [Messaging.advance, call] at taken
  | emptying msg size bytes =>
    simp only [Messaging.advance, call] at taken
    split_ifs at taken
    · cases taken
      exact attends.go rfl le_rfl (by rw [call]; rfl) (by rw [call]; rfl)
    · cases taken
      exact attends.go rfl le_rfl (by rw [call]; rfl) (by rw [call]; rfl)

theorem reset (attends : Attends s) (keeps : Keeps msgSize s d queued unused)
    {currentPriority : Thread → Nat}
    (taken : s.step currentPriority .reset = some (s', outcome)) : Attends s' := by
  have alone : Lists { s.mq with suspendThread := [] } queued unused :=
    ((keeps.of_calls keeps.agrees fun _ => rfl : Keeps msgSize
      ⟨{ s.mq with suspendThread := [] }, s.calls⟩ d queued unused)).pool.toLists
  have enough : queued.length < s.mq.maxMsgs + 1 := by
    have most := keeps.pool.length_le
    omega
  obtain ⟨q', code, -, relinks⟩ := alone.drain enough
  simp only [Messaging.step, code, Option.map_some] at taken
  cases taken
  refine ⟨⟨?_, fun thread => ?_⟩, .inl relinks.suspendThread_eq⟩
  · dsimp only
    rw [relinks.suspendThread_eq]
    exact List.nodup_nil
  · dsimp only
    rw [relinks.suspendThread_eq]
    have waits := attends.sleepers.mem_iff thread
    refine ⟨(fun nobody => by cases nobody), fun still => ?_⟩
    split_ifs at still with asleep
    · rw [waits] at asleep
      cases call : s.calls thread <;> simp [call, MqCall.isWaiting, MqCall.wake] at still asleep
    · exact absurd (waits.mpr still) asleep

theorem step (attends : Attends s) (keeps : Keeps msgSize s d queued unused)
    {currentPriority : Thread → Nat} {action : MqAction Thread}
    (taken : s.step currentPriority action = some (s', outcome)) : Attends s' := by
  cases action with
  | send thread urgent buffer => exact attends.send keeps taken
  | recv thread size timeout =>
    cases call : s.calls thread with
    | idle =>
      simp only [Messaging.step, call] at taken
      exact attends.await keeps (by simp [call, MqCall.isWaiting]) taken
    | clearing => simp [Messaging.step, call] at taken
    | filling => simp [Messaging.step, call] at taken
    | waiting => simp [Messaging.step, call] at taken
    | woken => simp [Messaging.step, call] at taken
    | emptying => simp [Messaging.step, call] at taken
  | advance thread => exact attends.advance keeps taken
  | expire thread =>
    cases call : s.calls thread with
    | waiting size timeout =>
      simp only [Messaging.step, call, Option.ite_none_right_eq_some] at taken
      cases taken.2
      refine ⟨attends.sleepers.leave (by simp [MqCall.isWaiting]), ?_⟩
      dsimp only [become]
      rw [census_update_same _ (by rw [call]; rfl)]
      refine attends.served.imp_left fun nobody => ?_
      rw [nobody, List.erase_nil]
    | idle => simp [Messaging.step, call] at taken
    | clearing => simp [Messaging.step, call] at taken
    | filling => simp [Messaging.step, call] at taken
    | woken => simp [Messaging.step, call] at taken
    | emptying => simp [Messaging.step, call] at taken
  | resume thread elapsed =>
    cases call : s.calls thread with
    | woken size timeout errno =>
      cases errno with
      | eok =>
        simp only [Messaging.step, call] at taken
        exact attends.await keeps (by simp [call, MqCall.isWaiting]) taken
      | error =>
        simp only [Messaging.step, call] at taken
        cases taken
        exact attends.go rfl le_rfl (by rw [call]; rfl) (by rw [call]; rfl)
      | etimeout =>
        simp only [Messaging.step, call] at taken
        cases taken
        exact attends.go rfl le_rfl (by rw [call]; rfl) (by rw [call]; rfl)
      | efull =>
        simp only [Messaging.step, call] at taken
        cases taken
        exact attends.go rfl le_rfl (by rw [call]; rfl) (by rw [call]; rfl)
    | idle => simp [Messaging.step, call] at taken
    | clearing => simp [Messaging.step, call] at taken
    | filling => simp [Messaging.step, call] at taken
    | waiting => simp [Messaging.step, call] at taken
    | emptying => simp [Messaging.step, call] at taken
  | reset => exact attends.reset keeps taken

end Attends

section Results

variable {ram : Memory} {msgpool size poolSize : Nat} {flag : IpcFlag}
  {currentPriority : Thread → Nat} {labels : List (MqAction Thread × MqOutcome Thread)}

/-- A message queue delivers its messages. Whatever threads send, receive, wait and are
resumed, and however their steps come between each other, what they see is a queue from
which each receiver takes the first message and reads it whole. The list that starts at the
head of the queue holds the messages that were not taken. -/
theorem mq_refines_delivery (poolAt : PoolAt msgpool poolSize)
    (steps : Steps (Takes (Messaging.exec currentPriority))
      (start Thread ram msgpool size poolSize flag) labels s) :
    ∃ d : Delivery Thread (List UInt8) Nat (slots size poolSize),
      Steps (Delivery.Step (Reads (slotSize size))) (Delivery.empty _ _ _ _)
        (labels.filterMap seen) d ∧
      s.mq.entry = d.queue.messages.length ∧
      ∃ queued, Linked s.mq.next s.mq.msgQueueHead queued ∧
        List.Forall₂ (Stored s.mq) queued d.queue.messages := by
  obtain ⟨d, queued, unused, keeps, delivered⟩ := keeps_of_steps poolAt steps
  refine ⟨d, delivered, ?_, queued, keeps.pool.queue, keeps.messages⟩
  rw [keeps.pool.entry_eq, keeps.messages.length_eq]

/-- A run in which one thread waits for the message of another. -/
def exchange : List (MqAction Bool × MqOutcome Bool) :=
  ([(.recv true 8 5, .quiet), (.send false false [7, 9], .quiet), (.advance false, .quiet),
    (.advance false, .quiet), (.advance false, .quiet),
    (.advance false, .event (.put false false [7, 9])),
    (.resume true 3, .event (.take true 8))] : List (MqAction Bool × MqOutcome Bool)) ++
    List.replicate 8 (MqAction.advance true, MqOutcome.quiet) ++
    [(MqAction.advance true, MqOutcome.event (.deliver true [7, 9, 0, 0, 0, 0, 0, 0]))]

theorem poolAt_small : PoolAt 8 24 := ⟨by decide, by decide⟩

/-- A thread waits with a timeout of five ticks, another sends two bytes, and the first one
reads the eight bytes that it asked for. -/
theorem mq_refines_delivery_two_bytes :
    ∃ s, Steps (Takes (Messaging.exec fun _ => 0))
        (start Bool (fun _ => 0) 8 8 24 .fifo) exchange s ∧
      ∃ d : Delivery Bool (List UInt8) Nat (slots 8 24),
        Steps (Delivery.Step (Reads (slotSize 8))) (Delivery.empty _ _ _ _)
          (exchange.filterMap seen) d ∧
        s.mq.entry = d.queue.messages.length ∧
        ∃ queued, Linked s.mq.next s.mq.msgQueueHead queued ∧
          List.Forall₂ (Stored s.mq) queued d.queue.messages := by
  obtain ⟨s, taken⟩ := Option.isSome_iff_exists.mp
    (show (run (Messaging.exec fun _ => 0) (start Bool (fun _ => 0) 8 8 24 .fifo)
      exchange).isSome by decide +kernel)
  exact ⟨s, steps_of_run taken, mq_refines_delivery poolAt_small (steps_of_run taken)⟩

/-- A call fails with `-RT_EFULL` when every slot has a message or is with a thread, and not
otherwise. -/
theorem mq_full_iff (poolAt : PoolAt msgpool poolSize)
    (steps : Steps (Takes (Messaging.exec currentPriority))
      (start Thread ram msgpool size poolSize flag) labels s) {thread : Thread} {urgent : Bool}
    {buffer : List UInt8} (idle : s.calls thread = .idle)
    (fits : buffer.length ≤ slotSize size) :
    s.step currentPriority (.send thread urgent buffer) = some (s, .failed thread .efull) ↔
      s.mq.entry + census (fun call => call.msg.isSome) s.calls = slots size poolSize := by
  obtain ⟨d, queued, unused, keeps, -⟩ := keeps_of_steps poolAt steps
  have count := keeps.count
  have small : ¬buffer.length > s.mq.msgSize := by
    rw [keeps.msgSize_eq]
    exact Nat.not_lt.mpr fits
  simp only [Messaging.step, Messaging.send, idle]
  rw [if_neg small, keeps.pool.entry_eq]
  cases unused with
  | nil =>
    rw [keeps.pool.claim_eq_none]
    simpa using count
  | cons msg rest =>
    obtain ⟨q', claimed, -⟩ := keeps.pool.claim
    rw [List.length_cons] at count
    rw [claimed]
    simp only [Option.some.injEq, Prod.mk.injEq, reduceCtorEq, and_false, false_iff]
    omega

/-- Two threads have the two slots, and a third one finds the queue full. -/
theorem mq_full_iff_claimed :
    ∃ s, Steps (Takes (Messaging.exec fun _ => 0))
        (start (Option Bool) (fun _ => 0) 8 8 24 .fifo)
        [(.send (some false) false [7], .quiet), (.send (some true) true [9], .quiet)] s ∧
      s.calls none = .idle ∧
      (s.step (fun _ => 0) (.send none false [1]) = some (s, .failed none .efull) ↔
        s.mq.entry + census (fun call => call.msg.isSome) s.calls = slots 8 24) := by
  obtain ⟨s, taken, idle⟩ : ∃ s, run (Messaging.exec fun _ => 0)
      (start (Option Bool) (fun _ => 0) 8 8 24 .fifo)
      [(.send (some false) false [7], .quiet), (.send (some true) true [9], .quiet)] = some s ∧ s.calls none = .idle :=
    ⟨_, rfl, rfl⟩
  exact ⟨s, steps_of_run taken, idle,
    mq_full_iff poolAt_small (steps_of_run taken) idle (by decide)⟩

theorem attends_of_steps (poolAt : PoolAt msgpool poolSize)
    (steps : Steps (Takes (Messaging.exec currentPriority))
      (start Thread ram msgpool size poolSize flag) labels s) : Attends s := by
  induction steps with
  | refl =>
    have nobody : (start Thread ram msgpool size poolSize flag).mq.suspendThread = [] :=
      suspendThread_initFree _ _
    refine ⟨⟨?_, fun thread => ?_⟩, .inl nobody⟩
    · rw [nobody]
      exact List.nodup_nil
    · rw [nobody]
      exact ⟨(fun none => by cases none), fun waits => by cases waits⟩
  | step prior taken ih =>
    obtain ⟨d, queued, unused, keeps, -⟩ := keeps_of_steps poolAt prior
    rw [Takes, Messaging.exec, Option.bind_eq_some_iff] at taken
    obtain ⟨⟨after, outcome⟩, step, taken⟩ := taken
    obtain ⟨-, rfl⟩ := Option.ite_none_right_eq_some.mp taken |>.imp_right Option.some.inj
    exact ih.step keeps step

/-- No wake-up is lost. While a thread is suspended on the queue, at least as many others have
been resumed and are about to run as there are messages, so that no message waits together
with a thread that waits for it. -/
theorem mq_no_lost_wakeup (poolAt : PoolAt msgpool poolSize)
    (steps : Steps (Takes (Messaging.exec currentPriority))
      (start Thread ram msgpool size poolSize flag) labels s) :
    (∀ thread, thread ∈ s.mq.suspendThread ↔ (s.calls thread).isWaiting) ∧
    (s.mq.suspendThread = [] ∨
      s.mq.entry ≤ census (fun call : MqCall => call.isAwake) s.calls) := by
  have attends := attends_of_steps poolAt steps
  exact ⟨attends.sleepers.mem_iff, attends.served⟩

theorem mq_no_lost_wakeup_resumed :
    ∃ s, Steps (Takes (Messaging.exec fun _ => 0))
        (start Bool (fun _ => 0) 8 8 24 .fifo) (exchange.take 6) s ∧
      (∀ thread, thread ∈ s.mq.suspendThread ↔ (s.calls thread).isWaiting) ∧
      (s.mq.suspendThread = [] ∨
        s.mq.entry ≤ census (fun call : MqCall => call.isAwake) s.calls) := by
  obtain ⟨s, taken⟩ := Option.isSome_iff_exists.mp
    (show (run (Messaging.exec fun _ => 0) (start Bool (fun _ => 0) 8 8 24 .fifo)
      (exchange.take 6)).isSome by decide +kernel)
  exact ⟨s, steps_of_run taken, mq_no_lost_wakeup poolAt_small (steps_of_run taken)⟩

end Results

end BadmintonRobot.Kernel.Messaging
