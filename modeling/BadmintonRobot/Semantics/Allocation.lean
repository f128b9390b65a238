import Mathlib.Logic.Function.Basic
import BadmintonRobot.Semantics.Run

/-!
# What an allocator is for

A client asks for blocks, writes and reads their bytes, and gives them back. It sees the
blocks it holds as byte strings: they lie inside the memory that is managed, they do not
overlap, and each of them changes only by what the client does to it.
-/

namespace BadmintonRobot.Semantics

/-- The blocks in the hands of clients, by their first address, within the addresses from
`low` to below `high`. -/
@[ext] structure Blocks (low high : Nat) where
  contents : Nat → Option (List UInt8)
  inside : ∀ {start : Nat} {bytes : List UInt8}, contents start = some bytes →
    low ≤ start ∧ start + bytes.length ≤ high
  apart : ∀ {first second : Nat} {bytes others : List UInt8}, contents first = some bytes →
    contents second = some others → first < second → first + bytes.length ≤ second

/-- What a client does, with the answer it gets. -/
inductive Request where
  | alloc (size : Nat) (result : Option Nat)
  | free (start : Nat)
  /-- change the size of a block where it is, if `granted` -/
  | resize (start size : Nat) (granted : Bool)
  | read (start index : Nat) (byte : UInt8)
  | write (start index : Nat) (byte : UInt8)
deriving DecidableEq

namespace Blocks

variable {low high : Nat}

/-- No client holds a block. -/
def empty (low high : Nat) : Blocks low high where
  contents _ := none
  inside held := by cases held
  apart held := by cases held

/-- The answers that are allowed. The bytes of a new block are not determined. -/
inductive Step (align : Nat) (blocks : Blocks low high) : Request → Blocks low high → Prop where
  | exhausted (size : Nat) : Step align blocks (.alloc size none) blocks
  | alloc {next : Blocks low high} {start : Nat} (bytes : List UInt8)
      (fresh : blocks.contents start = none) (aligned : align ∣ start)
      (added : next.contents = Function.update blocks.contents start (some bytes)) :
      Step align blocks (.alloc bytes.length (some start)) next
  | free {next : Blocks low high} {start : Nat} {bytes : List UInt8}
      (held : blocks.contents start = some bytes)
      (removed : next.contents = Function.update blocks.contents start none) :
      Step align blocks (.free start) next
  | refused {start size : Nat} {bytes : List UInt8} (held : blocks.contents start = some bytes) :
      Step align blocks (.resize start size false) blocks
  | resize {next : Blocks low high} {start : Nat} {bytes : List UInt8} (kept : List UInt8)
      (held : blocks.contents start = some bytes)
      (same : ∀ i < min bytes.length kept.length, kept[i]? = bytes[i]?)
      (changed : next.contents = Function.update blocks.contents start (some kept)) :
      Step align blocks (.resize start kept.length true) next
  | read {start index : Nat} {bytes : List UInt8} {byte : UInt8}
      (held : blocks.contents start = some bytes) (here : bytes[index]? = some byte) :
      Step align blocks (.read start index byte) blocks
  | write {next : Blocks low high} {start index : Nat} {bytes : List UInt8} {byte : UInt8}
      (held : blocks.contents start = some bytes) (within : index < bytes.length)
      (written : next.contents =
        Function.update blocks.contents start (some (bytes.set index byte))) :
      Step align blocks (.write start index byte) next

end Blocks

end BadmintonRobot.Semantics
