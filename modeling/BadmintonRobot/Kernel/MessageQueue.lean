import Mathlib
import BadmintonRobot.Kernel.Heap
import BadmintonRobot.Kernel.Ipc
import BadmintonRobot.Semantics.Delivery

/-!
# Message queues

The message queues of `src/ipc.c`. The messages are in slots of a pool, each with a link at
its front: the slots with messages and the free ones are two linked lists. A call takes a
slot off its list with interrupts disabled and copies the message with interrupts enabled.
Whatever is done with interrupts disabled is one step here, a byte that is copied is another,
and between two steps every other thread can run.
-/

namespace BadmintonRobot.Kernel

open Semantics

/-- The size of `struct rt_mq_message`. -/
def sizeofMqMessage : Nat := 4

/-- A `struct rt_messagequeue` with the memory that its pool is in. `RT_NULL` is `none`. -/
structure MessageQueue (Thread : Type) where
  ram : Memory
  msgPool : Nat
  msgSize : Nat
  maxMsgs : Nat
  entry : Nat
  msgQueueHead : Option Nat
  msgQueueTail : Option Nat
  msgQueueFree : Option Nat
  flag : IpcFlag
  suspendThread : List Thread

namespace MessageQueue

variable {Thread : Type} (q : MessageQueue Thread) (msg : Nat)

/-- The member `next` of a message. -/
def next : Option Nat :=
  let word := q.ram.load 4 msg
  if word = 0 then none else some word

def setNext (link : Option Nat) : MessageQueue Thread :=
  { q with ram := q.ram.store 4 msg (link.getD 0) }

/-- The slot with a number. -/
def slot (temp : Nat) : Nat := q.msgPool + temp * (q.msgSize + sizeofMqMessage)

/-- The loop of `rt_mq_init`. -/
def initFree : Nat → MessageQueue Thread
  | 0 => q
  | temp + 1 =>
    let q := initFree temp
    let head := q.slot temp
    { q.setNext head q.msgQueueFree with msgQueueFree := some head }

/-- The function `rt_mq_init`. The size and the number of messages are 16 bits wide. -/
def rtMqInit (Thread : Type) (ram : Memory) (msgpool msgSize poolSize : Nat) (flag : IpcFlag) :
    MessageQueue Thread :=
  let msgSize := rtAlign msgSize % 2 ^ 16
  let q : MessageQueue Thread :=
    { ram := ram, msgPool := msgpool, msgSize := msgSize
      maxMsgs := poolSize / (msgSize + sizeofMqMessage) % 2 ^ 16, entry := 0
      msgQueueHead := none, msgQueueTail := none, msgQueueFree := none
      flag := flag, suspendThread := [] }
  q.initFree q.maxMsgs

/-- The first step of `rt_mq_send` and `rt_mq_urgent`: a slot off the free list. -/
def claim : Option (Nat × MessageQueue Thread) :=
  q.msgQueueFree.map fun msg => (msg, { q with msgQueueFree := q.next msg })

/-- The last step of `rt_mq_send`, up to the suspended threads. -/
def linkLast : MessageQueue Thread :=
  let q := match q.msgQueueTail with
    | some tail => q.setNext tail (some msg)
    | none => q
  let q := { q with msgQueueTail := some msg }
  let q := if q.msgQueueHead = none then { q with msgQueueHead := some msg } else q
  { q with entry := (q.entry + 1) % 2 ^ 16 }

/-- The last step of `rt_mq_urgent`, up to the suspended threads. -/
def linkFirst : MessageQueue Thread :=
  let q := q.setNext msg q.msgQueueHead
  let q := { q with msgQueueHead := some msg }
  let q := if q.msgQueueTail = none then { q with msgQueueTail := some msg } else q
  { q with entry := (q.entry + 1) % 2 ^ 16 }

/-- The message that `rt_mq_recv` takes off the queue. -/
def takeFirst : Option (Nat × MessageQueue Thread) :=
  q.msgQueueHead.map fun msg =>
    let q := { q with msgQueueHead := q.next msg }
    let q := if q.msgQueueTail = some msg then { q with msgQueueTail := none } else q
    (msg, { q with entry := (q.entry + (2 ^ 16 - 1)) % 2 ^ 16 })

/-- The last step of `rt_mq_recv`: the slot is free again. -/
def release : MessageQueue Thread :=
  { q.setNext msg q.msgQueueFree with msgQueueFree := some msg }

/-- The loop of `rt_mq_control`. -/
def drain : Nat → MessageQueue Thread → Option (MessageQueue Thread)
  | 0, _ => none
  | fuel + 1, q =>
    match q.msgQueueHead with
    | none => some q
    | some msg =>
      let q := { q with msgQueueHead := q.next msg }
      let q := if q.msgQueueTail = some msg then { q with msgQueueTail := none } else q
      drain fuel (q.release msg)

end MessageQueue

/-- A call of a thread, by what it does next. -/
inductive MqCall where
  | idle
  /-- `rt_mq_send` before it clears the link of its slot -/
  | clearing (msg : Nat) (buffer : List UInt8)
  /-- `rt_mq_send` or `rt_mq_urgent` after `copied` bytes of its `rt_memcpy` -/
  | filling (urgent : Bool) (msg : Nat) (buffer : List UInt8) (copied : Nat)
  /-- `rt_mq_recv` in its `rt_schedule`, suspended -/
  | waiting (size : Nat) (timeout : Int)
  /-- `rt_mq_recv` in its `rt_schedule`, ready with an error number -/
  | woken (size : Nat) (timeout : Int) (errno : RtErr)
  /-- `rt_mq_recv` in its `rt_memcpy`, with the bytes that it has copied -/
  | emptying (msg size : Nat) (bytes : List UInt8)

namespace MqCall

/-- The slot that a call has taken off its list. -/
def msg : MqCall → Option Nat
  | .clearing msg _ => some msg
  | .filling _ msg _ _ => some msg
  | .emptying msg _ _ => some msg
  | _ => none

def isWaiting : MqCall → Bool
  | .waiting _ _ => true
  | _ => false

/-- The call was resumed because of a message, and has not run since. -/
def isAwake : MqCall → Bool
  | .woken _ _ .eok => true
  | _ => false

/-- The call after `rt_thread_resume`, or after its timer has run out. -/
def wake (errno : RtErr) : MqCall → MqCall
  | .waiting size timeout => .woken size timeout errno
  | call => call

end MqCall

/-- A message queue and the threads that use it. -/
structure Messaging (Thread : Type) where
  mq : MessageQueue Thread
  calls : Thread → MqCall

/-- What can happen. -/
inductive MqAction (Thread : Type) where
  /-- A thread calls `rt_mq_send`, or `rt_mq_urgent`. -/
  | send (thread : Thread) (urgent : Bool) (buffer : List UInt8)
  /-- A thread calls `rt_mq_recv`. -/
  | recv (thread : Thread) (size : Nat) (timeout : Int)
  /-- The next step of a call. -/
  | advance (thread : Thread)
  /-- The timer of a suspended thread runs out. -/
  | expire (thread : Thread)
  /-- A thread that was resumed runs again, after some ticks. -/
  | resume (thread : Thread) (elapsed : Nat)
  /-- A thread calls `rt_mq_control` with `RT_IPC_CMD_RESET`. -/
  | reset
deriving DecidableEq

/-- What is seen of a step: nothing, what happened to the messages, or an error code. -/
inductive MqOutcome (Thread : Type) where
  | quiet
  | event (event : Delivery.Event Thread (List UInt8) Nat)
  | failed (thread : Thread) (code : RtErr)
deriving DecidableEq

namespace Messaging

variable {Thread : Type} [DecidableEq Thread] (currentPriority : Thread → Nat)
  (s : Messaging Thread)

def become (thread : Thread) (call : MqCall) : Messaging Thread :=
  { s with calls := Function.update s.calls thread call }

/-- The queue as `rt_mq_init` leaves it, before any call. -/
def start (Thread : Type) (ram : Memory) (msgpool msgSize poolSize : Nat) (flag : IpcFlag) :
    Messaging Thread :=
  ⟨.rtMqInit Thread ram msgpool msgSize poolSize flag, fun _ => .idle⟩

/-- Resume the first suspended thread. -/
def rtIpcListResume : Messaging Thread :=
  match s.mq.suspendThread with
  | [] => s
  | thread :: list =>
    { s with mq := { s.mq with suspendThread := list } }.become thread
      ((s.calls thread).wake .eok)

/-- The last step of a call that sends. -/
def post (thread : Thread) (urgent : Bool) (msg : Nat) : Messaging Thread :=
  let mq := if urgent then s.mq.linkFirst msg else s.mq.linkLast msg
  ({ s with mq := mq }.become thread .idle).rtIpcListResume

/-- The loop of `rt_mq_recv` from its test on. -/
def await (thread : Thread) (size : Nat) (timeout : Int) :
    Option (Messaging Thread × MqOutcome Thread) :=
  if s.mq.entry = 0 then
    if timeout = 0 then some (s.become thread .idle, .failed thread .etimeout)
    else
      let list := rtIpcListSuspend currentPriority s.mq.suspendThread thread s.mq.flag
      some ({ s with mq := { s.mq with suspendThread := list } }.become thread
        (.waiting size timeout), .quiet)
  else
    s.mq.takeFirst.map fun (msg, mq) =>
      ({ s with mq := mq }.become thread (.emptying msg size []), .event (.take thread size))

/-- One step of a call that has a slot. -/
def advance (thread : Thread) : Option (Messaging Thread × MqOutcome Thread) :=
  match s.calls thread with
  | .clearing msg buffer =>
    some ({ s with mq := s.mq.setNext msg none }.become thread (.filling false msg buffer 0), .quiet)
  | .filling urgent msg buffer copied =>
    match buffer[copied]? with
    | some byte =>
      let place := msg + sizeofMqMessage + copied
      let ram := Function.update s.mq.ram place byte
      some ({ s with mq := { s.mq with ram := ram } }.become thread
        (.filling urgent msg buffer (copied + 1)), .quiet)
    | none => some (s.post thread urgent msg, .event (.put thread urgent buffer))
  | .emptying msg size bytes =>
    if bytes.length < min size s.mq.msgSize then
      let byte := s.mq.ram (msg + sizeofMqMessage + bytes.length)
      some (s.become thread (.emptying msg size (bytes ++ [byte])), .quiet)
    else
      some ({ s with mq := s.mq.release msg }.become thread .idle, .event (.deliver thread bytes))
  | _ => none

/-- The first step of a call that sends. -/
def send (thread : Thread) (urgent : Bool) (buffer : List UInt8) :
    Option (Messaging Thread × MqOutcome Thread) :=
  match s.calls thread with
  | .idle =>
    if buffer.length > s.mq.msgSize then some (s, .failed thread .error)
    else match s.mq.claim with
      | none => some (s, .failed thread .efull)
      | some (msg, mq) =>
        let call : MqCall := if urgent then .filling true msg buffer 0 else .clearing msg buffer
        some ({ s with mq := mq }.become thread call, .quiet)
  | _ => none

/-- What happens with its outcome. -/
def step : MqAction Thread → Option (Messaging Thread × MqOutcome Thread)
  | .send thread urgent buffer => s.send thread urgent buffer
  | .recv thread size timeout =>
    match s.calls thread with
    | .idle => s.await currentPriority thread size timeout
    | _ => none
  | .advance thread => s.advance thread
  | .expire thread =>
    match s.calls thread with
    | .waiting size timeout =>
      if timeout > 0 then
        let list := s.mq.suspendThread.erase thread
        some ({ s with mq := { s.mq with suspendThread := list } }.become thread
          (.woken size timeout .etimeout), .quiet)
      else none
    | _ => none
  | .resume thread elapsed =>
    match s.calls thread with
    | .woken size timeout .eok => s.await currentPriority thread size (timeLeft timeout elapsed)
    | .woken _ _ code => some (s.become thread .idle, .failed thread code)
    | _ => none
  | .reset =>
    let calls thread :=
      if thread ∈ s.mq.suspendThread then (s.calls thread).wake .error else s.calls thread
    (MessageQueue.drain (s.mq.maxMsgs + 1) { s.mq with suspendThread := [] }).map fun mq =>
      (⟨{ mq with entry := 0 }, calls⟩, .event .clear)

/-- The steps with their outcomes as labels. -/
def exec (label : MqAction Thread × MqOutcome Thread) : Option (Messaging Thread) :=
  (s.step currentPriority label.1).bind fun (s', outcome) =>
    if outcome = label.2 then some s' else none

end Messaging

end BadmintonRobot.Kernel
