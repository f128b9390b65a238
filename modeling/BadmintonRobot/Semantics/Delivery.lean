import BadmintonRobot.Semantics.Fifo
import Mathlib.Logic.Function.Basic

/-!
# Delivery of messages

Senders put messages into a queue. A receiver takes the first message and sees it later,
while others go on with the queue.
-/

namespace BadmintonRobot.Semantics

/-- The queue, and what the receivers have taken and not yet seen. -/
structure Delivery (Thread Message Request : Type) (capacity : Nat) where
  queue : Fifo Message capacity
  held : Thread → Option (Request × Message)

namespace Delivery

variable {Thread Message Request : Type} {capacity : Nat}

def empty (Thread Message Request : Type) (capacity : Nat) :
    Delivery Thread Message Request capacity where
  queue := .empty Message capacity
  held _ := none

inductive Event (Thread Message Request : Type) where
  | put (thread : Thread) (urgent : Bool) (message : Message)
  | take (thread : Thread) (request : Request)
  | deliver (thread : Thread) (seen : Message)
  | clear
deriving DecidableEq

/-- What can happen. The relation `Reads` says what a receiver sees of a message. -/
inductive Step [DecidableEq Thread] (Reads : Request → Message → Message → Prop) :
    Delivery Thread Message Request capacity → Event Thread Message Request →
      Delivery Thread Message Request capacity → Prop where
  | put {queue next : Fifo Message capacity} {held : Thread → Option (Request × Message)}
      {thread : Thread} {message : Message} (sent : queue.send message = some next) :
      Step Reads ⟨queue, held⟩ (.put thread false message) ⟨next, held⟩
  | urgent {queue next : Fifo Message capacity} {held : Thread → Option (Request × Message)}
      {thread : Thread} {message : Message} (sent : queue.sendFirst message = some next) :
      Step Reads ⟨queue, held⟩ (.put thread true message) ⟨next, held⟩
  | take {queue next : Fifo Message capacity} {held : Thread → Option (Request × Message)}
      {thread : Thread} {request : Request} {message : Message} (nothing : held thread = none)
      (received : queue.recv = some (message, next)) :
      Step Reads ⟨queue, held⟩ (.take thread request)
        ⟨next, Function.update held thread (some (request, message))⟩
  | deliver {queue : Fifo Message capacity} {held : Thread → Option (Request × Message)}
      {thread : Thread} {request : Request} {message seen : Message}
      (holds : held thread = some (request, message)) (reads : Reads request message seen) :
      Step Reads ⟨queue, held⟩ (.deliver thread seen) ⟨queue, Function.update held thread none⟩
  | clear {queue : Fifo Message capacity} {held : Thread → Option (Request × Message)} :
      Step Reads ⟨queue, held⟩ .clear ⟨.empty Message capacity, held⟩

end Delivery

end BadmintonRobot.Semantics
