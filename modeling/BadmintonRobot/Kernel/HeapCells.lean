import BadmintonRobot.Kernel.Heap

/-!
# The blocks of the heap in order

The headers describe a list of cells that tile the heap. A cell is free, or it carries the
bytes that its client has in it. The stores of the functions of `mem.c` are read here as
changes of this list: cells are taken, given back, split and joined.
-/

namespace BadmintonRobot.Kernel.Heap

open Semantics

/-- A block with its header. One that is used has at least the bytes its client asked for. -/
structure Cell where
  size : Nat
  content : Option (List UInt8)
  header : sizeofStructMem ≤ size
  fits : ∀ bytes, content = some bytes → sizeofStructMem + bytes.length ≤ size
  aligned : rtAlignSize ∣ size

namespace Cell

def used (c : Cell) : Bool := c.content.isSome

/-- A free cell. -/
def free (size : Nat) (header : sizeofStructMem ≤ size) (aligned : rtAlignSize ∣ size) : Cell :=
  ⟨size, none, header, fun _ same => (Option.some_ne_none _ same.symm).elim, aligned⟩

/-- A cell in use. -/
def holding (size : Nat) (bytes : List UInt8) (fits : sizeofStructMem + bytes.length ≤ size)
    (aligned : rtAlignSize ∣ size) : Cell :=
  ⟨size, some bytes, by omega, fun _ same => Option.some.inj same ▸ fits, aligned⟩

end Cell

/-- The bytes that a list of cells takes. -/
def total (cells : List Cell) : Nat := (cells.map Cell.size).sum

@[simp] theorem total_nil : total [] = 0 := rfl

@[simp] theorem total_cons (c : Cell) (cells : List Cell) :
    total (c :: cells) = c.size + total cells := by simp [total]

@[simp] theorem total_append (front back : List Cell) :
    total (front ++ back) = total front + total back := by simp [total]

theorem length_le_total (cells : List Cell) : cells.length ≤ total cells := by
  induction cells with
  | nil => simp
  | cons c cells ih =>
    have header := c.header
    simp only [sizeofStructMem] at header
    simp
    omega

theorem eq_nil_of_total_eq_zero {cells : List Cell} (empty : total cells = 0) : cells = [] := by
  have length := length_le_total cells
  exact List.eq_nil_of_length_eq_zero (by omega)

theorem rtAlignSize_dvd_total (cells : List Cell) : rtAlignSize ∣ total cells := by
  induction cells with
  | nil => simp
  | cons c cells ih =>
    rw [total_cons]
    exact Nat.dvd_add c.aligned ih

/-- A cell that starts behind some cells is one of the others. -/
theorem exists_eq_append_of_total_le {low high front back : List Cell} {c : Cell}
    (same : low ++ high = front ++ c :: back) (behind : total low ≤ total front) :
    ∃ mid, front = low ++ mid ∧ high = mid ++ c :: back := by
  rcases List.append_eq_append_iff.mp same with ⟨mid, rfl, rfl⟩ | ⟨mid, rfl, rest⟩
  · exact ⟨mid, rfl, rfl⟩
  · obtain rfl : mid = [] := eq_nil_of_total_eq_zero (by simpa using behind)
    exact ⟨[], by simp, by simpa using rest.symm⟩

/-- The bytes at an address are these. -/
def Holds (ram : Memory) (start : Nat) (bytes : List UInt8) : Prop :=
  ∀ i < bytes.length, bytes[i]? = some (ram (start + i))

theorem Holds.congr {ram ram' : Memory} {start stop : Nat} {bytes : List UInt8}
    (holds : Holds ram start bytes) (inside : start + bytes.length ≤ stop)
    (same : Set.EqOn ram' ram (Set.Ico start stop)) : Holds ram' start bytes := by
  intro i bound
  rw [same ⟨by omega, by omega⟩]
  exact holds i bound

/-- The header at `mem` and the bytes behind it are those of a cell. -/
structure IsCell (ram : Memory) (mem prev next : Nat) (content : Option (List UInt8)) : Prop where
  used_eq : ram.load 2 (mem + 2) = content.isSome.toNat
  next_eq : ram.load 4 (mem + 4) = next
  prev_eq : ram.load 4 (mem + 8) = prev
  magic_eq : content.isSome → ram.load 2 mem = heapMagic
  holds : ∀ bytes, content = some bytes → Holds ram (mem + sizeofStructMem) bytes

/-- The cells lie one behind the other, the first at `place` from `base`, and every header
names the places of its neighbours. -/
def Laid (ram : Memory) (base : Nat) : (place prev : Nat) → List Cell → Prop
  | _, _, [] => True
  | place, prev, c :: cells =>
    IsCell ram (base + place) prev (place + c.size) c.content ∧
      Laid ram base (place + c.size) place cells

/-- Where the last cell starts, with `prev` for no cell. -/
def lastPlace : (place prev : Nat) → List Cell → Nat
  | _, prev, [] => prev
  | place, _, c :: cells => lastPlace (place + c.size) place cells

section Layout

variable {ram ram' : Memory} {base place prev : Nat} {c d : Cell} {front back cells : List Cell}

@[simp] theorem lastPlace_concat : lastPlace place prev (front ++ [c]) = place + total front := by
  induction front generalizing place prev with
  | nil => simp [lastPlace]
  | cons d front ih => simp [lastPlace, ih, Nat.add_assoc]

theorem laid_append : Laid ram base place prev (front ++ back) ↔
    Laid ram base place prev front ∧
      Laid ram base (place + total front) (lastPlace place prev front) back := by
  induction front generalizing place prev with
  | nil => simp [Laid, lastPlace]
  | cons d front ih => simp [Laid, lastPlace, ih, and_assoc, Nat.add_assoc]

theorem IsCell.congr {mem next : Nat} {content : Option (List UInt8)}
    (cell : IsCell ram mem prev next content) (stop : Nat) (header : mem + sizeofStructMem ≤ stop)
    (fits : ∀ bytes, content = some bytes → mem + sizeofStructMem + bytes.length ≤ stop)
    (same : Set.EqOn ram' ram (Set.Ico mem stop)) : IsCell ram' mem prev next content := by
  have word : ∀ width offset, offset + width ≤ sizeofStructMem →
      ram'.load width (mem + offset) = ram.load width (mem + offset) := by
    intro width offset inside
    refine Memory.load_congr (same.mono ?_)
    rintro address ⟨lower, upper⟩
    exact ⟨by omega, by omega⟩
  refine ⟨?_, ?_, ?_, ?_, ?_⟩
  · rw [word 2 2 (by decide), cell.used_eq]
  · rw [word 4 4 (by decide), cell.next_eq]
  · rw [word 4 8 (by decide), cell.prev_eq]
  · intro taken
    rw [← Nat.add_zero mem, word 2 0 (by decide)]
    exact cell.magic_eq taken
  · intro bytes held
    refine (cell.holds bytes held).congr (fits bytes held) (same.mono ?_)
    rintro address ⟨lower, upper⟩
    exact ⟨by omega, by omega⟩

/-- The cells are as the bytes from the first to behind the last of them. -/
theorem Laid.congr (laid : Laid ram base place prev cells)
    (same : Set.EqOn ram' ram (Set.Ico (base + place) (base + place + total cells))) :
    Laid ram' base place prev cells := by
  induction cells generalizing place prev with
  | nil => trivial
  | cons c cells ih =>
    rw [total_cons] at same
    obtain ⟨cell, rest⟩ := laid
    have header := c.header
    have own : Set.EqOn ram' ram (Set.Ico (base + place) (base + place + c.size)) := by
      refine same.mono ?_
      rintro address ⟨lower, upper⟩
      exact ⟨by omega, by omega⟩
    refine ⟨cell.congr _ (by omega) (fun bytes held => ?_) own, ih rest (same.mono ?_)⟩
    · have fits := c.fits bytes held
      omega
    · rintro address ⟨lower, upper⟩
      exact ⟨by omega, by omega⟩

/-- What happens from the end of the first cells on does not concern them. -/
theorem Laid.replace (laid : Laid ram base place prev (front ++ cells))
    (same : Set.EqOn ram' ram (Set.Iio (base + (place + total front))))
    (relaid : Laid ram' base (place + total front) (lastPlace place prev front) back) :
    Laid ram' base place prev (front ++ back) := by
  refine laid_append.mpr ⟨(laid_append.mp laid).1.congr (same.mono ?_), relaid⟩
  rintro address ⟨-, upper⟩
  show address < _
  omega

/-- A store to the field `prev` of the first cell. Behind the last cell it is without
effect on the cells. -/
theorem Laid.setPrev (laid : Laid ram base place prev cells) {value : Nat}
    (small : value < 2 ^ 32) :
    Laid (ram.store 4 (base + place + 8) value) base place value cells := by
  cases cells with
  | nil => trivial
  | cons c cells =>
    obtain ⟨cell, rest⟩ := laid
    have header := c.header
    simp only [sizeofStructMem] at header
    refine ⟨⟨?_, ?_, ?_, ?_, ?_⟩, rest.congr (Memory.store_eqOn ?_)⟩
    · rw [Memory.load_store_of_disjoint (by omega), cell.used_eq]
    · rw [Memory.load_store_of_disjoint (by omega), cell.next_eq]
    · exact Memory.load_store_of_lt _ _ small
    · intro taken
      rw [Memory.load_store_of_disjoint (by omega)]
      exact cell.magic_eq taken
    · intro bytes held
      refine (cell.holds bytes held).congr le_rfl (Memory.store_eqOn ?_)
      rintro address ⟨lower, -⟩
      simp only [sizeofStructMem] at lower
      omega
    · rintro address ⟨lower, -⟩
      omega

/-- The cell at the start of a list that is laid out, with what lies behind it. -/
theorem Laid.head (laid : Laid ram base place prev (c :: cells)) :
    IsCell ram (base + place) prev (place + c.size) c.content :=
  laid.1

end Layout

end BadmintonRobot.Kernel.Heap
