import Mathlib.Data.List.Induction
import Mathlib.Logic.Function.Basic

/-!
# The samples of the shuttlecock

`short2double` puts the halfwords that arrive into a ring of 200 samples of nine
coordinates. It counts ten coordinates for a sample, so it loses step with the stream in
the first sample and stores behind the coordinates. How far the ring's two indices get is
not defined by the language, because each is assigned its own increment.
-/

namespace BadmintonRobot.Catching

/-- The constant `cock.buf_s`. -/
def bufS : Nat := 200

/-- Increment of an `unsigned char`. -/
def increment (value : Nat) : Nat := (value + 1) % 256

/-- The variable `cock` with the two counters of `short2double`. The array of samples is
memory by halfwords from its beginning on, and `stores` lists slot, coordinate and
halfword of every store. -/
structure Cock where
  dataS : Nat
  head : Nat
  end_ : Nat
  doublec : Nat
  coordc : Nat
  memory : Nat → UInt16
  stores : List (Nat × Nat × Nat)

/-- The initialisers. -/
def Cock.initial : Cock where
  dataS := 0
  head := 200 - 1
  end_ := 0
  doublec := 0
  coordc := 0
  memory _ := 0
  stores := []

/-- Where a halfword of a coordinate lies. -/
def address (slot coord half : Nat) : Nat := (slot * 9 + coord) * 4 + half

/-- The slot behind `cock.head`. -/
def Cock.nextSlot (c : Cock) : Nat := if c.head + 1 = bufS then 0 else c.head + 1

/-- The store at the beginning of `short2double`. -/
def Cock.store (c : Cock) (data : UInt16) : Cock :=
  { c with
    memory := Function.update c.memory (address c.nextSlot c.coordc c.doublec) data
    stores := c.stores ++ [(c.nextSlot, c.coordc, c.doublec)] }

/-- The end of a sample. `bump` is what an assignment `x = x++` leaves in `x`. -/
def Cock.finishSample (bump : Nat → Nat) (c : Cock) : Cock :=
  { c with
    coordc := 0
    head := if c.head + 1 = bufS then 0 else bump c.head
    end_ :=
      if c.dataS = bufS - 1 then if c.end_ + 1 = c.end_ then 0 else bump c.end_ else c.end_
    dataS := if c.dataS = bufS - 1 then c.dataS else increment c.dataS }

/-- The function `short2double`. -/
def short2double (bump : Nat → Nat) (c : Cock) (data : UInt16) : Cock :=
  let c := c.store data
  if c.doublec = 3 then
    let c := { c with doublec := 0 }
    if c.coordc = 9 then c.finishSample bump else { c with coordc := increment c.coordc }
  else { c with doublec := increment c.doublec }

/-- The ring after a stream of halfwords. -/
def received (bump : Nat → Nat) (stream : List UInt16) : Cock :=
  stream.foldl (short2double bump) .initial

/-- The slot `back` steps behind the head. -/
def Cock.slotBack (c : Cock) (back : Nat) : Nat := (c.head + bufS - back) % bufS

/-- A slot holds the sample of the stream with a given number, bit by bit. -/
def Cock.HoldsSample (c : Cock) (stream : List UInt16) (slot number : Nat) : Prop :=
  ∀ coord < 9, ∀ half < 4,
    stream[36 * number + 4 * coord + half]? = some (c.memory (address slot coord half))

/-- What the ring should be after `k` samples. -/
structure RingCorrect (bump : Nat → Nat) (stream : List UInt16) (k : Nat) : Prop where
  dataS : (received bump stream).dataS = min k (bufS - 1)
  samples : ∀ back < (received bump stream).dataS,
    (received bump stream).HoldsSample stream ((received bump stream).slotBack back)
      (k - 1 - back)
  inBounds : ∀ slot coord half, (slot, coord, half) ∈ (received bump stream).stores →
    slot < bufS ∧ coord < 9 ∧ half < 4
  /-- While a sample arrives, the one before it is at the head. -/
  whole : ∀ count ≤ stream.length, 36 ≤ count →
    (received bump (stream.take count)).HoldsSample stream
      (received bump (stream.take count)).head (count / 36 - 1)

section Counters

variable (bump : Nat → Nat) (stream : List UInt16)

theorem received_snoc (data : UInt16) :
    received bump (stream ++ [data]) = short2double bump (received bump stream) data := by
  rw [received, List.foldl_append]
  rfl

/-- A call stores one halfword. -/
theorem short2double_stores (c : Cock) (data : UInt16) :
    (short2double bump c data).stores = c.stores ++ [(c.nextSlot, c.coordc, c.doublec)] := by
  simp only [short2double, Cock.finishSample]
  split_ifs <;> rfl

/-- The counters after any stream: a sample takes forty halfwords. -/
theorem received_counters :
    (received bump stream).doublec = stream.length % 4 ∧
      (received bump stream).coordc = stream.length / 4 % 10 ∧
      (received bump stream).dataS = min (stream.length / 40) (bufS - 1) := by
  induction stream using List.reverseRecOn with
  | nil => simp [received, Cock.initial, bufS]
  | append_singleton stream data ih =>
    obtain ⟨doublec, coordc, dataS⟩ := ih
    rw [received_snoc, List.length_append, List.length_singleton]
    simp only [← Nat.div_div_eq_div_mul _ 4 10] at dataS ⊢
    simp only [short2double, Cock.store, Cock.finishSample, doublec, coordc, dataS, increment, bufS]
    clear doublec coordc dataS
    by_cases last : stream.length % 4 = 3
    · have half : (stream.length + 1) % 4 = 0 := by omega
      have coord : (stream.length + 1) / 4 = stream.length / 4 + 1 := by omega
      rw [if_pos last, half, coord]
      generalize stream.length / 4 = count
      clear last half coord
      by_cases full : count % 10 = 9
      · have sample : (count + 1) / 10 = count / 10 + 1 := by omega
        have again : (count + 1) % 10 = 0 := by omega
        rw [if_pos full, sample, again]
        refine ⟨rfl, rfl, ?_⟩
        generalize count / 10 = samples
        clear full sample again
        dsimp only
        split_ifs <;> omega
      · have sample : (count + 1) / 10 = count / 10 := by omega
        rw [if_neg full, sample]
        refine ⟨rfl, ?_, rfl⟩
        dsimp only
        omega
    · have coord : (stream.length + 1) / 4 = stream.length / 4 := by omega
      rw [if_neg last, coord]
      exact ⟨by dsimp only; omega, rfl, rfl⟩

/-- Every store stays recorded. -/
theorem stores_subset (later : List UInt16) {store : Nat × Nat × Nat}
    (member : store ∈ (received bump stream).stores) :
    store ∈ (received bump (stream ++ later)).stores := by
  induction later using List.reverseRecOn with
  | nil => simpa using member
  | append_singleton later data ih =>
    rw [← List.append_assoc, received_snoc, short2double_stores]
    exact List.mem_append_left _ ih

end Counters

/-- The ring is correct for the empty stream only: after one sample it counts none, and
the first halfword of the second sample is stored behind the nine coordinates. -/
theorem ringCorrect_iff (bump : Nat → Nat) (stream : List UInt16) (k : Nat)
    (whole : stream.length = 36 * k) : RingCorrect bump stream k ↔ k = 0 := by
  constructor
  · intro correct
    by_contra some_
    obtain rfl | more : k = 1 ∨ 2 ≤ k := by omega
    · have counted := correct.dataS
      rw [(received_counters bump stream).2.2, whole] at counted
      simp [bufS] at counted
    · -- the thirty-seventh halfword goes to coordinate 9 of the first slot
      obtain ⟨first, data, rest, rfl, length⟩ :
          ∃ (first : List UInt16) (data : UInt16) (rest : List UInt16),
            stream = first ++ [data] ++ rest ∧ first.length = 36 := by
        have longer : 36 < stream.length := by omega
        refine ⟨stream.take 36, stream[36], stream.drop 37, ?_, by rw [List.length_take]; omega⟩
        rw [← List.take_succ_eq_append_getElem longer, List.take_append_drop]
      obtain ⟨-, coordc, -⟩ := received_counters bump first
      rw [length] at coordc
      have stored : ((received bump first).nextSlot, (received bump first).coordc,
          (received bump first).doublec) ∈ (received bump (first ++ [data])).stores := by
        rw [received_snoc, short2double_stores]
        exact List.mem_append_right _ List.mem_cons_self
      have bounds := correct.inBounds _ _ _ (stores_subset bump _ rest stored)
      omega
  · rintro rfl
    obtain rfl : stream = [] := List.length_eq_zero_iff.mp (by omega)
    constructor
    · rfl
    · intro back inside
      cases inside
    · intro slot coord half member
      cases member
    · intro count inside some_
      simp at inside
      omega

/-- Before the first halfword. -/
theorem ringCorrect_empty : RingCorrect increment [] 0 :=
  (ringCorrect_iff increment [] 0 rfl).mpr rfl

/-- One whole sample has arrived, and the ring counts none. -/
theorem not_ringCorrect_one : ¬RingCorrect increment (List.replicate 36 1) 1 := by
  intro correct
  have counted := correct.dataS
  rw [(received_counters increment _).2.2] at counted
  simp [bufS] at counted

end BadmintonRobot.Catching
