import Mathlib

/-!
# Words in a memory of bytes

A word takes several bytes, the lowest first. A store changes the bytes of its word, and a
load sees nothing but the bytes of its own.
-/

namespace BadmintonRobot.Semantics

/-- A memory of bytes, by address. -/
abbrev Memory := Nat → UInt8

namespace Memory

variable {memory other : Memory} {width address value : Nat}

/-- The word of `width` bytes at an address. -/
def load (memory : Memory) : Nat → Nat → Nat
  | 0, _ => 0
  | width + 1, address => (memory address).toNat + 256 * memory.load width (address + 1)

/-- The memory after a word of `width` bytes has been written. -/
def store (memory : Memory) (width address value : Nat) : Memory := fun place =>
  if address ≤ place ∧ place < address + width then
    UInt8.ofNat (value / 256 ^ (place - address))
  else memory place

theorem load_lt (memory : Memory) (width address : Nat) : memory.load width address < 256 ^ width := by
  induction width generalizing address with
  | zero => simp [load]
  | succ width ih =>
    have low := (memory address).toNat_lt
    have high := ih (address + 1)
    rw [load, Nat.pow_succ]
    omega

theorem load_congr (same : Set.EqOn other memory (Set.Ico address (address + width))) :
    other.load width address = memory.load width address := by
  induction width generalizing address with
  | zero => rfl
  | succ width ih =>
    rw [load, load, same ⟨le_rfl, by omega⟩, ih]
    rintro place ⟨lower, upper⟩
    exact same ⟨by omega, by omega⟩

theorem store_outside {place : Nat} (outside : place < address ∨ address + width ≤ place) :
    memory.store width address value place = memory place := by
  rw [store, if_neg (by omega)]

/-- A store leaves every set of addresses as it was that does not meet its word. -/
theorem store_eqOn {places : Set Nat}
    (outside : ∀ place ∈ places, place < address ∨ address + width ≤ place) :
    Set.EqOn (memory.store width address value) memory places :=
  fun place member => store_outside (outside place member)

/-- The word that was written is read. -/
theorem load_store (memory : Memory) (width address value : Nat) :
    (memory.store width address value).load width address = value % 256 ^ width := by
  -- the first byte is the lowest digit, the others are the word of the quotient
  suffices digits : ∀ width later (bytes : Memory),
      (∀ i < width, bytes (later + i) = UInt8.ofNat (value / 256 ^ i)) →
        bytes.load width later = value % 256 ^ width from
    digits width address _ fun i inside => by
      rw [store, if_pos ⟨by omega, by omega⟩, Nat.add_sub_cancel_left]
  clear width address
  intro width later bytes written
  induction width generalizing later value with
  | zero => simp [load, Nat.mod_one]
  | succ width ih =>
    have first : (bytes later).toNat = value % 256 := by
      simpa using congrArg UInt8.toNat (written 0 (by omega))
    have rest : bytes.load width (later + 1) = value / 256 % 256 ^ width := by
      refine ih (value / 256) (later + 1) fun i inside => ?_
      rw [Nat.add_assoc, Nat.add_comm 1 i, written (i + 1) (by omega), Nat.pow_succ,
        Nat.mul_comm, Nat.div_div_eq_div_mul]
    rw [load, first, rest, Nat.pow_succ, Nat.mul_comm (256 ^ width), Nat.mod_mul]

/-- A word that fits is read as it was written. -/
theorem load_store_of_lt (memory : Memory) (address : Nat) (fits : value < 256 ^ width) :
    (memory.store width address value).load width address = value := by
  rw [load_store, Nat.mod_eq_of_lt fits]

/-- A store leaves the words before and behind it. -/
theorem load_store_of_disjoint {span place : Nat}
    (disjoint : place + span ≤ address ∨ address + width ≤ place) :
    (memory.store width address value).load span place = memory.load span place := by
  refine load_congr (store_eqOn ?_)
  rintro inside ⟨lower, upper⟩
  omega

/-- Stores to different words can be made in either order. -/
theorem store_comm {span place other : Nat}
    (disjoint : place + span ≤ address ∨ address + width ≤ place) :
    (memory.store width address value).store span place other =
      (memory.store span place other).store width address value := by
  funext here
  by_cases first : address ≤ here ∧ here < address + width
  · have second : ¬(place ≤ here ∧ here < place + span) := by omega
    simp only [store, if_pos first, if_neg second]
  · simp only [store, if_neg first]

end Memory

end BadmintonRobot.Semantics
