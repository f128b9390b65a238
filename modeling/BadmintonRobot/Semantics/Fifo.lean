import Mathlib.Data.List.Basic

/-!
# Bounded queues

A queue of messages that are received in the order in which they were sent. Sending to a
full queue fails.
-/

namespace BadmintonRobot.Semantics

/-- A queue with at most `capacity` messages. -/
structure Fifo (Message : Type) (capacity : Nat) where
  messages : List Message
  bounded : messages.length ≤ capacity

namespace Fifo

variable {Message : Type} {capacity : Nat} {queue next : Fifo Message capacity}
  {message : Message}

def empty (Message : Type) (capacity : Nat) : Fifo Message capacity := ⟨[], Nat.zero_le _⟩

/-- Append a message, if there is room. -/
def send (queue : Fifo Message capacity) (message : Message) : Option (Fifo Message capacity) :=
  if room : queue.messages.length < capacity then
    some ⟨queue.messages ++ [message], by simpa using Nat.succ_le_of_lt room⟩
  else none

/-- Put a message before all others, if there is room. -/
def sendFirst (queue : Fifo Message capacity) (message : Message) :
    Option (Fifo Message capacity) :=
  if room : queue.messages.length < capacity then
    some ⟨message :: queue.messages, Nat.succ_le_of_lt room⟩
  else none

/-- Take the oldest message. -/
def recv (queue : Fifo Message capacity) : Option (Message × Fifo Message capacity) :=
  match queue with
  | ⟨[], _⟩ => none
  | ⟨message :: messages, bounded⟩ => some (message, ⟨messages, Nat.le_of_succ_le bounded⟩)

theorem messages_send (sent : queue.send message = some next) :
    next.messages = queue.messages ++ [message] := by
  rw [send] at sent
  split at sent
  · rw [← Option.some.inj sent]
  · cases sent

theorem messages_sendFirst (sent : queue.sendFirst message = some next) :
    next.messages = message :: queue.messages := by
  rw [sendFirst] at sent
  split at sent
  · rw [← Option.some.inj sent]
  · cases sent

theorem send_eq_none : queue.send message = none ↔ queue.messages.length = capacity := by
  have bounded := queue.bounded
  rw [send]
  split
  · next room => simpa using Nat.ne_of_lt room
  · next full => simpa using Nat.le_antisymm bounded (Nat.le_of_not_lt full)

theorem messages_recv (received : queue.recv = some (message, next)) :
    queue.messages = message :: next.messages := by
  obtain ⟨messages, bounded⟩ := queue
  cases messages with
  | nil => cases received
  | cons first rest =>
    cases received
    rfl

end Fifo

end BadmintonRobot.Semantics
