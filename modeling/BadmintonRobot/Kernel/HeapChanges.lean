import BadmintonRobot.Kernel.HeapCells

/-!
# What the statements of `mem.c` do to the cells

A cell is cut in two, taken, given back or joined with the one behind it. Each change is
stated for the cells from the one it concerns on; what lies before is not touched.
-/

namespace BadmintonRobot.Kernel.Heap

open Semantics

section Stores

variable {ram : Memory} {mem prev next : Nat} {bytes : List UInt8}

theorem Holds.store {start width address value : Nat} (holds : Holds ram start bytes)
    (outside : address + width ≤ start ∨ start + bytes.length ≤ address) :
    Holds (ram.store width address value) start bytes := by
  intro i bound
  rw [Memory.store_outside (by omega)]
  exact holds i bound

/-- A cell with other bytes that are there as well. -/
theorem IsCell.reread {content kept : Option (List UInt8)}
    (cell : IsCell ram mem prev next content) (same : kept.isSome = content.isSome)
    (holds : ∀ bytes, kept = some bytes → Holds ram (mem + sizeofStructMem) bytes) :
    IsCell ram mem prev next kept where
  used_eq := by rw [cell.used_eq, same]
  next_eq := cell.next_eq
  prev_eq := cell.prev_eq
  magic_eq taken := cell.magic_eq (same ▸ taken)
  holds := holds

/-- Taking a free cell, with the bytes that are in it. -/
theorem IsCell.mark (cell : IsCell ram mem prev next none)
    (holds : Holds ram (mem + sizeofStructMem) bytes) :
    IsCell ((ram.store 2 (mem + 2) 1).store 2 mem heapMagic) mem prev next (some bytes) where
  used_eq := by
    rw [Memory.load_store_of_disjoint (by omega), Memory.load_store_of_lt _ _ (by decide)]
    rfl
  next_eq := by
    rw [Memory.load_store_of_disjoint (by omega), Memory.load_store_of_disjoint (by omega),
      cell.next_eq]
  prev_eq := by
    rw [Memory.load_store_of_disjoint (by omega), Memory.load_store_of_disjoint (by omega),
      cell.prev_eq]
  magic_eq _ := Memory.load_store_of_lt _ _ (by decide)
  holds other same := by
    obtain rfl : bytes = other := Option.some.inj same
    refine (holds.store (.inl ?_)).store (.inl ?_) <;> simp [sizeofStructMem]

/-- Giving back a cell. -/
theorem IsCell.unmark {content : Option (List UInt8)} (cell : IsCell ram mem prev next content) :
    IsCell ((ram.store 2 (mem + 2) 0).store 2 mem 0) mem prev next none where
  used_eq := by
    rw [Memory.load_store_of_disjoint (by omega), Memory.load_store_of_lt _ _ (by decide)]
    rfl
  next_eq := by
    rw [Memory.load_store_of_disjoint (by omega), Memory.load_store_of_disjoint (by omega),
      cell.next_eq]
  prev_eq := by
    rw [Memory.load_store_of_disjoint (by omega), Memory.load_store_of_disjoint (by omega),
      cell.prev_eq]
  magic_eq taken := by cases taken
  holds other same := by cases same

/-- Another cell follows. -/
theorem IsCell.setNext {content : Option (List UInt8)} (cell : IsCell ram mem prev next content)
    {value : Nat} (small : value < 2 ^ 32) :
    IsCell (ram.store 4 (mem + 4) value) mem prev value content where
  used_eq := by rw [Memory.load_store_of_disjoint (by omega), cell.used_eq]
  next_eq := Memory.load_store_of_lt _ _ small
  prev_eq := by rw [Memory.load_store_of_disjoint (by omega), cell.prev_eq]
  magic_eq taken := by
    rw [Memory.load_store_of_disjoint (by omega)]
    exact cell.magic_eq taken
  holds bytes held := by
    refine (cell.holds bytes held).store (.inl ?_)
    simp [sizeofStructMem]

/-- A new header of a free cell. -/
theorem isCell_new (ram : Memory) (mem : Nat) (smallPrev : prev < 2 ^ 32) (smallNext : next < 2 ^ 32) :
    IsCell (((ram.store 2 (mem + 2) 0).store 4 (mem + 4) next).store 4 (mem + 8) prev) mem prev
      next none where
  used_eq := by
    rw [Memory.load_store_of_disjoint (by omega), Memory.load_store_of_disjoint (by omega),
      Memory.load_store_of_lt _ _ (by decide)]
    rfl
  next_eq := by
    rw [Memory.load_store_of_disjoint (by omega)]
    exact Memory.load_store_of_lt _ _ smallNext
  prev_eq := Memory.load_store_of_lt _ _ smallPrev
  magic_eq taken := by cases taken
  holds other same := by cases same

end Stores

/-- The addresses before `start`, behind the heap and in the last header but its field
`prev`. -/
def untouched (h : Heap) (start : Nat) : Set Nat :=
  {place | place < start ∨ h.heapEnd ≤ place ∧ place < h.heapEnd + 8 ∨ h.heapEnd + 12 ≤ place}

theorem mem_untouched {h : Heap} {start place : Nat} : place ∈ h.untouched start ↔
    place < start ∨ h.heapEnd ≤ place ∧ place < h.heapEnd + 8 ∨ h.heapEnd + 12 ≤ place :=
  Iff.rfl

/-- A change of the heap from `start` on. -/
structure Touches (h h' : Heap) (start : Nat) : Prop where
  heapPtr_eq : h'.heapPtr = h.heapPtr
  size_eq : h'.memSizeAligned = h.memSizeAligned
  same : Set.EqOn h'.ram h.ram (h.untouched start)

namespace Touches

variable {h h' h'' : Heap} {start later : Nat}

theorem stop_eq (touches : Touches h h' start) : h'.stop = h.stop := by
  rw [stop, stop, touches.size_eq]

theorem heapEnd_eq (touches : Touches h h' start) : h'.heapEnd = h.heapEnd := by
  rw [heapEnd, heapEnd, touches.heapPtr_eq, touches.stop_eq]

theorem untouched_eq (touches : Touches h h' start) (other : Nat) :
    h'.untouched other = h.untouched other := by
  rw [untouched, untouched, touches.heapEnd_eq]

theorem refl (h : Heap) (start : Nat) : Touches h h start := ⟨rfl, rfl, fun _ _ => rfl⟩

theorem trans (first : Touches h h' start) (second : Touches h' h'' start) :
    Touches h h'' start where
  heapPtr_eq := second.heapPtr_eq.trans first.heapPtr_eq
  size_eq := second.size_eq.trans first.size_eq
  same := (first.untouched_eq start ▸ second.same).trans first.same

theorem mono (touches : Touches h h' later) (ordered : start ≤ later) : Touches h h' start where
  heapPtr_eq := touches.heapPtr_eq
  size_eq := touches.size_eq
  same := touches.same.mono fun place member => by
    rw [mem_untouched] at member ⊢
    omega

theorem before (touches : Touches h h' start) : Set.EqOn h'.ram h.ram (Set.Iio start) :=
  touches.same.mono fun _ below => .inl below

/-- A store to a header of a cell, or to the field `prev` of the last one. -/
theorem store {width address value : Nat} (ordered : start ≤ address)
    (inside : address + width ≤ h.heapEnd ∨
      h.heapEnd + 8 ≤ address ∧ address + width ≤ h.heapEnd + 12) :
    Touches h { h with ram := h.ram.store width address value } start where
  heapPtr_eq := rfl
  size_eq := rfl
  same := Memory.store_eqOn fun place member => by
    rw [mem_untouched] at member
    omega

end Touches

/-- The cells from the one at `ptr` on are laid out up to the end of the heap. -/
structure Reached (h : Heap) (ptr prev : Nat) (cells : List Cell) : Prop where
  laid : Laid h.ram h.heapPtr ptr prev cells
  total_eq : ptr + total cells = h.stop
  bound : h.heapPtr + h.stop + sizeofStructMem ≤ 2 ^ 32

variable {h : Heap} {ptr prev : Nat} {c d : Cell} {back : List Cell}

theorem Reached.next_eq (reached : Reached h ptr prev (c :: back)) :
    h.next (h.heapPtr + ptr) = ptr + c.size :=
  reached.laid.head.next_eq

/-- The first cell ends before the last header, and exactly there if it is the last cell. -/
theorem Reached.next_le (reached : Reached h ptr prev (c :: back)) : ptr + c.size ≤ h.stop := by
  have total_eq := reached.total_eq
  rw [total_cons] at total_eq
  omega

theorem Reached.next_eq_stop_iff (reached : Reached h ptr prev (c :: back)) :
    ptr + c.size = h.stop ↔ back = [] := by
  have total_eq := reached.total_eq
  rw [total_cons] at total_eq
  cases back with
  | nil => simpa using total_eq
  | cons d back =>
    have header := d.header
    simp only [sizeofStructMem, total_cons] at header total_eq
    simp
    omega

/-- The space behind the header, as the source computes it. -/
theorem Reached.space (reached : Reached h ptr prev (c :: back)) :
    sub32 (h.next (h.heapPtr + ptr)) (add32 ptr sizeofStructMem) = c.size - sizeofStructMem := by
  have le := reached.next_le
  have bound := reached.bound
  have header := c.header
  simp only [sizeofStructMem] at *
  rw [reached.next_eq, add32_of_lt (by omega), sub32_of_le (by omega) (by omega)]
  omega

/-- Cutting a cell in two. The cells behind do not know of it yet. -/
theorem Reached.cut (reached : Reached h ptr prev (c :: back)) (ptr2 : Nat)
    (kept : Option (List UInt8)) (first : ptr + sizeofStructMem ≤ ptr2)
    (second : ptr2 + sizeofStructMem ≤ ptr + c.size) (same : kept.isSome = c.content.isSome)
    (holds : ∀ bytes, kept = some bytes → Holds h.ram (h.heapPtr + ptr + sizeofStructMem) bytes)
    (fits : ∀ bytes, kept = some bytes → ptr + sizeofStructMem + bytes.length ≤ ptr2) :
    IsCell (h.cut ptr ptr2).ram (h.heapPtr + ptr) prev ptr2 kept ∧
      IsCell (h.cut ptr ptr2).ram (h.heapPtr + ptr2) ptr (ptr + c.size) none ∧
      Laid (h.cut ptr ptr2).ram h.heapPtr (ptr + c.size) ptr back ∧
      Touches h (h.cut ptr ptr2) (h.heapPtr + ptr) := by
  have le := reached.next_le
  have bound := reached.bound
  have next_eq := reached.next_eq
  obtain ⟨cell, rest⟩ := reached.laid
  simp only [sizeofStructMem] at first second bound
  have read : (h.setUsed (h.heapPtr + ptr2) 0).next (h.heapPtr + ptr) = ptr + c.size := by
    rw [← next_eq]
    exact Memory.load_store_of_disjoint (by omega)
  rw [Heap.cut]
  simp only [read]
  simp only [setUsed, Heap.setNext, Heap.setPrev]
  -- the header of the second cell, then the field of the first
  generalize made : ((h.ram.store 2 (h.heapPtr + ptr2 + 2) 0).store 4 (h.heapPtr + ptr2 + 4)
    (ptr + c.size)).store 4 (h.heapPtr + ptr2 + 8) ptr = ram
  have kept_eq : Set.EqOn ram h.ram
      {place | place < h.heapPtr + ptr2 ∨ h.heapPtr + ptr2 + 12 ≤ place} := by
    rw [← made]
    refine (Memory.store_eqOn ?_).trans ((Memory.store_eqOn ?_).trans (Memory.store_eqOn ?_)) <;>
      rintro place (below | above) <;> omega
  refine ⟨?_, ?_, ?_, ?_⟩
  · refine IsCell.setNext ((cell.reread same holds).congr (h.heapPtr + ptr2) ?_ ?_ ?_) (by omega)
    · simp only [sizeofStructMem]
      omega
    · intro bytes held
      have := fits bytes held
      omega
    · exact kept_eq.mono fun place member => .inl member.2
  · have new : IsCell ram (h.heapPtr + ptr2) ptr (ptr + c.size) none :=
      made ▸ isCell_new h.ram (h.heapPtr + ptr2) (by omega) (by omega)
    refine new.congr (h.heapPtr + ptr2 + sizeofStructMem) le_rfl (by simp) (Memory.store_eqOn ?_)
    rintro place ⟨lower, -⟩
    omega
  · refine rest.congr ((Memory.store_eqOn ?_).trans (kept_eq.mono ?_))
    · rintro place ⟨lower, -⟩
      omega
    · rintro place ⟨lower, -⟩
      exact .inr (by omega)
  · have region : h.heapEnd = h.heapPtr + h.stop := rfl
    refine ⟨rfl, rfl, (Memory.store_eqOn ?_).trans (kept_eq.mono ?_)⟩
    · intro place member
      rw [mem_untouched] at member
      omega
    · intro place member
      rw [mem_untouched] at member
      show _ ∨ _
      omega

/-- The cells behind know where they start from. -/
theorem relink_spec {ptr2 place stale : Nat} (next_eq : h.next (h.heapPtr + ptr2) = place)
    (laid : Laid h.ram h.heapPtr place stale back) (total_eq : place + total back = h.stop)
    (small : ptr2 < 2 ^ 32) :
    Laid (h.relink ptr2).ram h.heapPtr place ptr2 back ∧
      Touches h (h.relink ptr2) (h.heapPtr + place) := by
  rw [relink]
  simp only [next_eq]
  split_ifs with last
  · refine ⟨laid.setPrev small, Touches.store (by omega) (.inl ?_)⟩
    -- another cell follows, so that there is room for its header
    cases back with
    | nil => exact absurd total_eq last
    | cons d back =>
      have header := d.header
      simp only [sizeofStructMem, total_cons] at header total_eq
      rw [heapEnd]
      omega
  · obtain rfl : back = [] := by
      cases back with
      | nil => rfl
      | cons d back =>
        have header := d.header
        simp only [sizeofStructMem, total_cons] at header total_eq
        omega
    exact ⟨trivial, .refl _ _⟩

section Cut

variable {first second : Cell}

/-- A cell is cut in two, and the cells behind know of it. -/
theorem Reached.cut_relink (reached : Reached h ptr prev (c :: back))
    (sizes : first.size + second.size = c.size) (free : second.content = none)
    (same : first.content.isSome = c.content.isSome)
    (holds : ∀ bytes, first.content = some bytes →
      Holds h.ram (h.heapPtr + ptr + sizeofStructMem) bytes) :
    Reached ((h.cut ptr (ptr + first.size)).relink (ptr + first.size)) ptr prev
        (first :: second :: back) ∧
      Touches h ((h.cut ptr (ptr + first.size)).relink (ptr + first.size)) (h.heapPtr + ptr) := by
  have le := reached.next_le
  have bound := reached.bound
  have total_eq := reached.total_eq
  have firstHeader := first.header
  have secondHeader := second.header
  have unit : sizeofStructMem = 16 := rfl
  rw [total_cons] at total_eq
  obtain ⟨front, middle, behind, touches⟩ := reached.cut (ptr + first.size) first.content
    (by omega) (by omega) same holds fun bytes held => by
      have fits := first.fits bytes held
      omega
  have heapPtr_eq : (h.cut ptr (ptr + first.size)).heapPtr = h.heapPtr := rfl
  obtain ⟨relaid, linked⟩ := relink_spec (h := h.cut ptr (ptr + first.size)) middle.next_eq behind
    (by rw [touches.stop_eq]; omega) (by omega)
  have below := linked.before
  rw [heapPtr_eq] at below relaid linked
  have final := touches.trans (linked.mono (by omega))
  refine ⟨⟨?_, ?_, ?_⟩, final⟩
  · rw [final.heapPtr_eq]
    refine ⟨front.congr (h.heapPtr + (ptr + first.size)) (by omega) ?_ (below.mono ?_), ?_, ?_⟩
    · intro bytes held
      have fits := first.fits bytes held
      omega
    · rintro place ⟨-, upper⟩
      show place < _
      omega
    · rw [free, Nat.add_assoc, sizes]
      refine middle.congr (h.heapPtr + (ptr + c.size)) (by omega) (by simp) (below.mono ?_)
      rintro place ⟨-, upper⟩
      exact upper
    · rw [Nat.add_assoc, sizes]
      exact relaid
  · rw [final.stop_eq, total_cons, total_cons]
    omega
  · rw [final.heapPtr_eq, final.stop_eq]
    exact bound

end Cut

section Fields

variable {marked : Cell}

/-- A change of the first cell alone. -/
theorem Reached.replace_head (reached : Reached h ptr prev (c :: back)) {ram : Memory}
    (size_eq : marked.size = c.size)
    (cell : IsCell ram (h.heapPtr + ptr) prev (ptr + c.size) marked.content)
    (same : ∀ place, place < h.heapPtr + ptr ∨ h.heapPtr + (ptr + c.size) ≤ place →
      ram place = h.ram place) :
    Reached { h with ram := ram } ptr prev (marked :: back) ∧
      Touches h { h with ram := ram } (h.heapPtr + ptr) := by
  have le := reached.next_le
  refine ⟨⟨⟨?_, ?_⟩, ?_, reached.bound⟩, rfl, rfl, ?_⟩
  · rw [size_eq]
    exact cell
  · rw [size_eq]
    refine reached.laid.2.congr ?_
    rintro place ⟨lower, -⟩
    exact same place (.inr lower)
  · have total_eq := reached.total_eq
    rw [total_cons] at total_eq ⊢
    rw [size_eq]
    exact total_eq
  · intro place member
    rw [mem_untouched, heapEnd] at member
    exact same place (by omega)

/-- Taking a free cell with the bytes that are in it. -/
theorem Reached.mark (reached : Reached h ptr prev (c :: back)) (free : c.content = none)
    (size_eq : marked.size = c.size) {bytes : List UInt8} (taken : marked.content = some bytes)
    (holds : Holds h.ram (h.heapPtr + ptr + sizeofStructMem) bytes) :
    Reached ((h.setUsed (h.heapPtr + ptr) 1).setMagic (h.heapPtr + ptr) heapMagic) ptr prev
        (marked :: back) ∧
      Touches h ((h.setUsed (h.heapPtr + ptr) 1).setMagic (h.heapPtr + ptr) heapMagic)
        (h.heapPtr + ptr) := by
  have header := c.header
  have cell := reached.laid.head
  rw [free] at cell
  refine reached.replace_head size_eq (taken ▸ cell.mark holds) fun place outside => ?_
  simp only [sizeofStructMem] at header
  exact (Memory.store_outside (by omega)).trans (Memory.store_outside (by omega))

/-- Giving back the cell at the front. -/
theorem Reached.unmark (reached : Reached h ptr prev (c :: back)) (free : marked.content = none)
    (size_eq : marked.size = c.size) :
    Reached ((h.setUsed (h.heapPtr + ptr) 0).setMagic (h.heapPtr + ptr) 0) ptr prev
        (marked :: back) ∧
      Touches h ((h.setUsed (h.heapPtr + ptr) 0).setMagic (h.heapPtr + ptr) 0)
        (h.heapPtr + ptr) := by
  have header := c.header
  refine reached.replace_head size_eq (free ▸ reached.laid.head.unmark) fun place outside => ?_
  simp only [sizeofStructMem] at header
  exact (Memory.store_outside (by omega)).trans (Memory.store_outside (by omega))

/-- The bytes behind the header of a block in use change, and with them what its client has. -/
theorem Reached.fill (reached : Reached h ptr prev (c :: back)) (used : c.content.isSome)
    (size_eq : marked.size = c.size) {ram : Memory} {bytes : List UInt8}
    (now : marked.content = some bytes)
    (holds : Holds ram (h.heapPtr + ptr + sizeofStructMem) bytes)
    (same : ∀ place, place < h.heapPtr + ptr + sizeofStructMem ∨
      h.heapPtr + (ptr + c.size) ≤ place → ram place = h.ram place) :
    Reached { h with ram := ram } ptr prev (marked :: back) ∧
      Touches h { h with ram := ram } (h.heapPtr + ptr) := by
  have cell := reached.laid.head
  have word : ∀ width offset, offset + width ≤ sizeofStructMem →
      ram.load width (h.heapPtr + ptr + offset) = h.ram.load width (h.heapPtr + ptr + offset) := by
    intro width offset before
    refine Memory.load_congr fun place member => same place (.inl ?_)
    have upper := member.2
    omega
  refine reached.replace_head size_eq ?_ fun place outside => same place (by omega)
  rw [now]
  refine ⟨?_, ?_, ?_, fun _ => ?_, ?_⟩
  · rw [word 2 2 (by decide), cell.used_eq, used]
    rfl
  · rw [word 4 4 (by decide), cell.next_eq]
  · rw [word 4 8 (by decide), cell.prev_eq]
  · exact (word 2 0 (by decide)).trans (cell.magic_eq used)
  · intro other others
    obtain rfl : bytes = other := Option.some.inj others
    exact holds

/-- A client writes a byte of its block. -/
theorem Reached.write (reached : Reached h ptr prev (c :: back)) {bytes : List UInt8}
    (held : c.content = some bytes) (size_eq : marked.size = c.size) {i : Nat} {byte : UInt8}
    (inside : i < bytes.length) (written : marked.content = some (bytes.set i byte)) :
    Reached { h with ram := Function.update h.ram (h.heapPtr + ptr + sizeofStructMem + i) byte }
        ptr prev (marked :: back) ∧
      Touches h { h with ram := Function.update h.ram (h.heapPtr + ptr + sizeofStructMem + i) byte }
        (h.heapPtr + ptr) := by
  have fits := c.fits bytes held
  refine reached.fill (by rw [held]; rfl) size_eq written ?_ fun place outside => ?_
  · intro j bound
    rw [List.length_set] at bound
    by_cases here : j = i
    · subst here
      rw [List.getElem?_set_self bound, Function.update_self]
    · rw [List.getElem?_set_ne (Ne.symm here), Function.update_of_ne (by omega)]
      exact reached.laid.head.holds bytes held j bound
  · exact Function.update_of_ne (by omega) _ _

/-- Two free cells become one. -/
theorem Reached.join (reached : Reached h ptr prev (c :: d :: back)) (free : c.content = none)
    (joined : marked.content = none) (size_eq : marked.size = c.size + d.size) :
    let next := ptr + c.size + d.size
    Reached ((h.setNext (h.heapPtr + ptr) next).setPrev (h.heapPtr + next) ptr) ptr prev
        (marked :: back) ∧
      Touches h ((h.setNext (h.heapPtr + ptr) next).setPrev (h.heapPtr + next) ptr)
        (h.heapPtr + ptr) := by
  intro next
  have total_eq := reached.total_eq
  have bound := reached.bound
  have header := c.header
  have small : next = ptr + c.size + d.size := rfl
  have unit : sizeofStructMem = 16 := rfl
  rw [total_cons, total_cons] at total_eq
  obtain ⟨cell, -, rest⟩ := reached.laid
  have touches : Touches h ((h.setNext (h.heapPtr + ptr) next).setPrev (h.heapPtr + next) ptr)
      (h.heapPtr + ptr) := by
    have first : Touches h (h.setNext (h.heapPtr + ptr) next) (h.heapPtr + ptr) :=
      Touches.store (by omega) (.inl (by rw [heapEnd]; omega))
    refine first.trans (Touches.store (by omega) ?_)
    · have same : (h.setNext (h.heapPtr + ptr) next).heapEnd = h.heapPtr + h.stop := rfl
      rw [same]
      cases back with
      | nil =>
        rw [total_nil] at total_eq
        omega
      | cons e back =>
        have last := e.header
        rw [total_cons] at total_eq
        omega
  refine ⟨⟨⟨?_, ?_⟩, ?_, bound⟩, touches⟩
  · have next_eq : ptr + marked.size = next := by omega
    rw [free] at cell
    rw [joined, next_eq]
    refine (cell.setNext (show next < 2 ^ 32 by omega)).congr (h.heapPtr + next) (by omega)
      (by simp) ?_
    refine Memory.store_eqOn fun place member => ?_
    have upper := member.2
    omega
  · have next_eq : ptr + marked.size = next := by omega
    rw [next_eq]
    refine Laid.setPrev (Laid.congr rest ?_) (show ptr < 2 ^ 32 by omega)
    refine Memory.store_eqOn fun place member => ?_
    have lower := member.1
    omega
  · show ptr + total (marked :: back) = h.stop
    rw [total_cons]
    omega

end Fields

section Functions

variable {second joined : Cell} {size : Nat}

theorem addUsed_eq (h : Heap) (amount : Nat) : h.addUsed amount =
    { h with
      usedMem := add32 h.usedMem amount
      maxMem := max h.maxMem (add32 h.usedMem amount) } := by
  rw [addUsed]
  dsimp only
  split_ifs with higher
  · rw [max_eq_right higher.le]
  · rw [max_eq_left (Nat.le_of_not_lt higher)]

theorem addUsed_setMagic (h : Heap) (amount mem value : Nat) :
    (h.addUsed amount).setMagic mem value = (h.setMagic mem value).addUsed amount := by
  rw [addUsed_eq, addUsed_eq]
  rfl

/-- The cells after a call that has counted a block as used. -/
structure Taken (h h' : Heap) (ptr prev size : Nat) (cells : List Cell) : Prop where
  reached : Reached h' ptr prev cells
  touches : Touches h h' (h.heapPtr + ptr)
  lfree_eq : h'.lfree = h.lfree
  usedMem_eq : h'.usedMem = add32 h.usedMem size
  maxMem_eq : h'.maxMem = max h.maxMem (add32 h.usedMem size)

theorem Taken.addUsed {h h' : Heap} {cells : List Cell}
    (marked : Reached h' ptr prev cells ∧ Touches h h' (h.heapPtr + ptr))
    (lfree_eq : h'.lfree = h.lfree) (usedMem_eq : h'.usedMem = h.usedMem)
    (maxMem_eq : h'.maxMem = h.maxMem) (amount : Nat) :
    Taken h (h'.addUsed amount) ptr prev amount cells := by
  obtain ⟨⟨laid, total_eq, bound⟩, heapPtr_eq, size_eq, same⟩ := marked
  rw [addUsed_eq]
  exact ⟨⟨laid, total_eq, bound⟩, ⟨heapPtr_eq, size_eq, same⟩, lfree_eq, by rw [usedMem_eq],
    by rw [usedMem_eq, maxMem_eq]⟩

theorem relink_eq (h : Heap) (ptr2 : Nat) :
    h.relink ptr2 = { h with ram := (h.relink ptr2).ram } := by
  rw [relink]
  split <;> rfl

theorem lfree_relink (h : Heap) (ptr2 : Nat) : (h.relink ptr2).lfree = h.lfree := by
  rw [relink_eq]

theorem usedMem_relink (h : Heap) (ptr2 : Nat) : (h.relink ptr2).usedMem = h.usedMem := by
  rw [relink_eq]

theorem maxMem_relink (h : Heap) (ptr2 : Nat) : (h.relink ptr2).maxMem = h.maxMem := by
  rw [relink_eq]

/-- The header behind is told before or after the cell is marked as used. -/
theorem relink_setUsed (value : Nat) {ptr2 : Nat} (ordered : ptr + sizeofStructMem ≤ ptr2)
    (behind : ptr2 ≤ h.next (h.heapPtr + ptr2)) :
    (h.setUsed (h.heapPtr + ptr) value).relink ptr2 =
      (h.relink ptr2).setUsed (h.heapPtr + ptr) value := by
  have unit : sizeofStructMem = 16 := rfl
  have next_eq : (h.setUsed (h.heapPtr + ptr) value).next (h.heapPtr + ptr2) =
      h.next (h.heapPtr + ptr2) := Memory.load_store_of_disjoint (by omega)
  rw [relink, relink]
  simp only [next_eq, show (h.setUsed (h.heapPtr + ptr) value).heapPtr = h.heapPtr from rfl,
    show (h.setUsed (h.heapPtr + ptr) value).stop = h.stop from rfl]
  split_ifs
  · simp only [setUsed, Heap.setPrev]
    rw [Memory.store_comm (by omega)]
  · rfl

/-- The bytes in RAM from an address on. -/
def bytesAt (ram : Memory) (start count : Nat) : List UInt8 :=
  (List.range count).map fun i => ram (start + i)

@[simp] theorem length_bytesAt (ram : Memory) (start count : Nat) :
    (bytesAt ram start count).length = count := by simp [bytesAt]

theorem holds_bytesAt (ram : Memory) (start count : Nat) :
    Holds ram start (bytesAt ram start count) := by
  intro i bound
  rw [length_bytesAt] at bound
  simp [bytesAt, bound]

/-- A free cell is taken as a whole, with the bytes that are in it. -/
theorem Reached.exists_mark (reached : Reached h ptr prev (c :: back)) (free : c.content = none)
    {count : Nat} (enough : sizeofStructMem + count ≤ c.size) :
    ∃ marked bytes, marked.size = c.size ∧ marked.content = some bytes ∧ bytes.length = count ∧
      Reached ((h.setUsed (h.heapPtr + ptr) 1).setMagic (h.heapPtr + ptr) heapMagic) ptr prev
        (marked :: back) ∧
      Touches h ((h.setUsed (h.heapPtr + ptr) 1).setMagic (h.heapPtr + ptr) heapMagic)
        (h.heapPtr + ptr) :=
  let bytes := bytesAt h.ram (h.heapPtr + ptr + sizeofStructMem) count
  ⟨.holding c.size bytes (by simpa [bytes] using enough) c.aligned, bytes, rfl, rfl,
    length_bytesAt _ _ _, reached.mark free rfl rfl (holds_bytesAt _ _ _)⟩

/-- Taking a block that is not much larger than needed. -/
theorem Reached.take_small (reached : Reached h ptr prev (c :: back)) (free : c.content = none)
    (small : c.size < size + sizeofStructMem + sizeofStructMem + minSizeAligned)
    {count : Nat} (enough : sizeofStructMem + count ≤ c.size) :
    ∃ marked bytes, marked.size = c.size ∧ marked.content = some bytes ∧ bytes.length = count ∧
      Taken h ((h.take ptr size).setMagic (h.heapPtr + ptr) heapMagic) ptr prev c.size
        (marked :: back) := by
  obtain ⟨marked, bytes, size_eq, taken, length, done⟩ := reached.exists_mark free enough
  refine ⟨marked, bytes, size_eq, taken, length, ?_⟩
  have le := reached.next_le
  have bound := reached.bound
  have header := c.header
  have unit : sizeofStructMem = 16 := rfl
  have next_eq : (h.setUsed (h.heapPtr + ptr) 1).next (h.heapPtr + ptr) = ptr + c.size := by
    rw [← reached.next_eq]
    exact Memory.load_store_of_disjoint (by omega)
  have amount : sub32 (ptr + c.size) ptr = c.size := by
    rw [sub32_of_le (by omega) (by omega)]
    omega
  have code : (h.take ptr size).setMagic (h.heapPtr + ptr) heapMagic =
      ((h.setUsed (h.heapPtr + ptr) 1).setMagic (h.heapPtr + ptr) heapMagic).addUsed c.size := by
    rw [take]
    dsimp only
    rw [reached.space, if_neg (by omega), next_eq, amount, addUsed_setMagic]
  rw [code]
  exact Taken.addUsed done rfl rfl rfl _

/-- Taking the front of a larger block. -/
theorem Reached.take_large (reached : Reached h ptr prev (c :: back)) (free : c.content = none)
    (sizes : sizeofStructMem + size + second.size = c.size) (rest_free : second.content = none)
    (large : sizeofStructMem + minSizeAligned ≤ second.size) {count : Nat}
    (enough : count ≤ size) :
    ∃ first bytes, first.size = sizeofStructMem + size ∧ first.content = some bytes ∧
      bytes.length = count ∧
      Taken h ((h.take ptr size).setMagic (h.heapPtr + ptr) heapMagic) ptr prev
        (size + sizeofStructMem) (first :: second :: back) := by
  have le := reached.next_le
  have bound := reached.bound
  have header := second.header
  have unit : sizeofStructMem = 16 := rfl
  have aligned : rtAlignSize ∣ sizeofStructMem + size :=
    (Nat.dvd_add_left second.aligned).mp (sizes ▸ c.aligned)
  obtain ⟨whole, whole_size, whole_free⟩ : ∃ whole : Cell,
      whole.size = sizeofStructMem + size ∧ whole.content = none :=
    ⟨.free _ (Nat.le_add_right _ _) aligned, rfl, rfl⟩
  have ordered := Nat.add_le_add_left whole.header ptr
  have sum : add32 (add32 ptr sizeofStructMem) size = ptr + whole.size := by
    rw [add32_of_lt (show ptr + sizeofStructMem < 2 ^ 32 by omega), add32_of_lt (by omega)]
    omega
  have behind : (h.cut ptr (ptr + whole.size)).next (h.heapPtr + (ptr + whole.size)) =
      ptr + c.size :=
    (reached.cut _ none ordered (by omega) (by rw [free]) (by simp) (by simp)).2.1.next_eq
  obtain ⟨relinked, touches⟩ := reached.cut_relink (whole_size ▸ sizes) rest_free
    (by rw [free, whole_free]) (by simp [whole_free])
  obtain ⟨first, bytes, size_eq, taken, length, done, later⟩ :=
    relinked.exists_mark whole_free (whole_size ▸ Nat.add_le_add_left enough sizeofStructMem)
  rw [touches.heapPtr_eq] at done later
  refine ⟨first, bytes, size_eq.trans whole_size, taken, length, ?_⟩
  have swapped : ((h.cut ptr (ptr + whole.size)).setUsed (h.heapPtr + ptr) 1).relink
      (ptr + whole.size) =
      ((h.cut ptr (ptr + whole.size)).relink (ptr + whole.size)).setUsed (h.heapPtr + ptr) 1 :=
    relink_setUsed (h := h.cut ptr (ptr + whole.size)) 1 ordered
      (le_of_le_of_eq (by omega) behind.symm)
  have code : (h.take ptr size).setMagic (h.heapPtr + ptr) heapMagic =
      ((((h.cut ptr (ptr + whole.size)).relink (ptr + whole.size)).setUsed (h.heapPtr + ptr)
        1).setMagic (h.heapPtr + ptr) heapMagic).addUsed (size + sizeofStructMem) := by
    rw [take]
    dsimp only
    rw [reached.space, if_pos (by omega), sum, swapped, addUsed_setMagic]
  have lfree_eq := lfree_relink (h.cut ptr (ptr + whole.size)) (ptr + whole.size)
  have usedMem_eq := usedMem_relink (h.cut ptr (ptr + whole.size)) (ptr + whole.size)
  have maxMem_eq := maxMem_relink (h.cut ptr (ptr + whole.size)) (ptr + whole.size)
  rw [code]
  generalize (h.cut ptr (ptr + whole.size)).relink (ptr + whole.size) = linked at *
  exact Taken.addUsed ⟨done, touches.trans later⟩ lfree_eq usedMem_eq maxMem_eq _

end Functions

section Holes

variable {joined : Cell}

/-- The cells after a call that has joined cells and moved `lfree`. -/
structure Joined (h h' : Heap) (ptr prev lfree : Nat) (cells : List Cell) : Prop where
  reached : Reached h' ptr prev cells
  touches : Touches h h' (h.heapPtr + ptr)
  lfree_eq : h'.lfree = lfree
  usedMem_eq : h'.usedMem = h.usedMem
  maxMem_eq : h'.maxMem = h.maxMem

theorem Reached.used_eq (reached : Reached h ptr prev (c :: back)) :
    h.used (h.heapPtr + ptr) = c.content.isSome.toNat :=
  reached.laid.head.used_eq

theorem Reached.tail (reached : Reached h ptr prev (c :: back)) :
    Reached h (ptr + c.size) ptr back where
  laid := reached.laid.2
  total_eq := by
    rw [← reached.total_eq, total_cons, Nat.add_assoc]
  bound := reached.bound

theorem ite_lfree (h : Heap) (condition : Prop) [Decidable condition] (lfree : Nat) :
    (if condition then { h with lfree := lfree } else h) =
      { h with lfree := if condition then lfree else h.lfree } := by
  split_ifs <;> rfl

/-- The statements that join the cell at `ptr` with the one behind it, after `lfree` may
have been moved. -/
theorem Reached.join_lfree (reached : Reached h ptr prev (c :: d :: back))
    (free : c.content = none) (joined_free : joined.content = none)
    (size_eq : joined.size = c.size + d.size) (lfree : Nat) :
    let mem := h.heapPtr + ptr
    let nmem := h.heapPtr + (ptr + c.size)
    let h' := ({ h with lfree := lfree } : Heap).setNext mem (h.next nmem)
    Joined h (h'.setPrev (h'.heapPtr + h'.next nmem) (mem - h'.heapPtr)) ptr prev lfree
      (joined :: back) := by
  intro mem nmem h'
  have header := c.header
  have unit : sizeofStructMem = 16 := rfl
  have behind : h.next nmem = ptr + c.size + d.size := reached.tail.next_eq
  -- the second cell is read again after the first has been changed
  have again : h'.next nmem = ptr + c.size + d.size :=
    (Memory.load_store_of_disjoint (by omega)).trans behind
  have distance : mem - h'.heapPtr = ptr := Nat.add_sub_cancel_left _ _
  obtain ⟨⟨laid, total_eq, bound⟩, heapPtr_eq, size_eq, same⟩ :=
    reached.join free joined_free size_eq
  rw [again, distance]
  simp only [h', behind]
  exact ⟨⟨laid, total_eq, bound⟩, ⟨heapPtr_eq, size_eq, same⟩, rfl, rfl, rfl⟩

theorem Reached.plugForward_of_free (reached : Reached h ptr prev (c :: d :: back))
    (free : c.content = none) (next_free : d.content = none) (joined_free : joined.content = none)
    (size_eq : joined.size = c.size + d.size) :
    Joined h (h.plugForward (h.heapPtr + ptr)) ptr prev
      (if h.lfree = h.heapPtr + (ptr + c.size) then h.heapPtr + ptr else h.lfree)
      (joined :: back) := by
  have header := c.header
  have unit : sizeofStructMem = 16 := rfl
  have unused : h.used (h.heapPtr + (ptr + c.size)) = 0 := by
    rw [reached.tail.used_eq, next_free]
    rfl
  have inside : h.heapPtr + (ptr + c.size) ≠ h.heapEnd := by
    intro last
    have stops : ptr + c.size = h.stop := Nat.add_left_cancel last
    simp [reached.next_eq_stop_iff] at stops
  rw [plugForward]
  simp only [reached.next_eq]
  rw [if_pos ⟨by omega, unused, inside⟩, ite_lfree]
  exact reached.join_lfree free joined_free size_eq _

/-- Nothing is joined if the next cell is used, or if there is none. -/
theorem Reached.plugForward_of_used (reached : Reached h ptr prev (c :: back))
    (used : ∀ d ∈ back.head?, d.content.isSome) : h.plugForward (h.heapPtr + ptr) = h := by
  rw [plugForward]
  simp only [reached.next_eq]
  refine if_neg ?_
  rintro ⟨-, unused, inside⟩
  cases back with
  | nil =>
    apply inside
    rw [heapEnd, reached.next_eq_stop_iff.mpr rfl]
  | cons d back =>
    rw [reached.tail.used_eq, used d rfl] at unused
    cases unused

/-- Joining with the free cell before. -/
theorem Reached.plugBackward_of_free (reached : Reached h ptr prev (c :: d :: back))
    (free : c.content = none) (joined_free : joined.content = none)
    (size_eq : joined.size = c.size + d.size) :
    Joined h (h.plugBackward (h.heapPtr + (ptr + c.size))) ptr prev
      (if h.lfree = h.heapPtr + (ptr + c.size) then h.heapPtr + ptr else h.lfree)
      (joined :: back) := by
  have header := c.header
  have unit : sizeofStructMem = 16 := rfl
  have before : h.prev (h.heapPtr + (ptr + c.size)) = ptr := reached.tail.laid.head.prev_eq
  have unused : h.used (h.heapPtr + ptr) = 0 := by
    rw [reached.used_eq, free]
    rfl
  rw [plugBackward]
  simp only [before]
  rw [if_pos ⟨by omega, unused⟩, ite_lfree]
  exact reached.join_lfree free joined_free size_eq _

/-- Nothing is joined if the cell before is used. -/
theorem Reached.plugBackward_of_used (reached : Reached h ptr prev (c :: d :: back))
    (used : c.content.isSome) : h.plugBackward (h.heapPtr + (ptr + c.size)) = h := by
  have before : h.prev (h.heapPtr + (ptr + c.size)) = ptr := reached.tail.laid.head.prev_eq
  rw [plugBackward]
  simp only [before]
  refine if_neg ?_
  rintro ⟨-, unused⟩
  rw [reached.used_eq, used] at unused
  cases unused

/-- Nothing is joined if there is no cell before. -/
theorem Reached.plugBackward_of_first (reached : Reached h 0 0 (c :: back)) :
    h.plugBackward h.heapPtr = h := by
  have before : h.prev h.heapPtr = 0 := reached.laid.head.prev_eq
  rw [plugBackward]
  simp only [before]
  exact if_neg fun joined => joined.1 rfl

end Holes

end BadmintonRobot.Kernel.Heap
