import Mathlib

/-!
# Threads that wait for an object of the kernel

The lists of suspended threads that semaphores, mailboxes and message queues share, in
`src/ipc.c`. A list of suspended threads is a list here: the nodes of `rt_list` are in the
threads.
-/

namespace BadmintonRobot.Kernel

/-- The error codes that the functions of `src/ipc.c` return. -/
inductive RtErr where
  | eok
  | error
  | etimeout
  | efull
deriving DecidableEq

/-- The order in which threads wait. -/
inductive IpcFlag where
  | fifo
  | prio
deriving DecidableEq

section Lists

variable {Thread : Type} (currentPriority : Thread → Nat)

/-- The list after `rt_ipc_list_suspend`. With `RT_IPC_FLAG_PRIO` the loop looks for the first
thread of a lower priority, which is a greater number. -/
def rtIpcListSuspend (list : List Thread) (thread : Thread) : IpcFlag → List Thread
  | .fifo => list ++ [thread]
  | .prio => list.orderedInsert (fun one other => currentPriority one < currentPriority other) thread

theorem rtIpcListSuspend_perm (list : List Thread) (thread : Thread) (flag : IpcFlag) :
    (rtIpcListSuspend currentPriority list thread flag).Perm (thread :: list) := by
  cases flag with
  | fifo => exact List.perm_append_singleton thread list
  | prio => exact List.perm_orderedInsert _ thread list

end Lists

/-- What is left of a timeout after `elapsed` ticks. Both are words of 32 bits, of which the
timeout is signed. A negative timeout is for ever. -/
def timeLeft (timeout : Int) (elapsed : Nat) : Int :=
  if timeout > 0 then max 0 ((timeout - elapsed).bmod (2 ^ 32)) else timeout

end BadmintonRobot.Kernel
