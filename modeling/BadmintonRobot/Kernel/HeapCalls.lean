import BadmintonRobot.Kernel.HeapLists

/-!
# The calls of the heap

What `rt_malloc`, `rt_free` and the section of `rt_realloc` do to a heap that is in order:
they end, they leave a heap in order, and they change one block of the clients.
-/

namespace BadmintonRobot.Kernel.Heap

open Semantics

variable {h h' : Heap} {ptr prev size : Nat} {c d : Cell} {front back cells new : List Cell}

/-- The cells tile the heap, `lfree` is at a free cell or at the end, and the statistics are
right. -/
structure InOrder (h : Heap) (cells : List Cell) : Prop where
  reached : Reached h 0 0 cells
  room : minSizeAligned ≤ h.memSizeAligned
  aligned : rtAlignSize ∣ h.heapPtr
  endsLarge : EndsLarge cells
  lfree : ∃ x, h.lfree = h.heapPtr + x ∧ (FreeAt 0 cells x ∨ x = h.stop)
  usedMem_eq : h.usedMem = usedTotal cells

/-- The heap between two calls. -/
structure Represents (h : Heap) (cells : List Cell) : Prop extends InOrder h cells where
  separated : Separated cells

section Positions

theorem Reached.drop (reached : Reached h 0 0 (front ++ back)) :
    Reached h (total front) (lastPlace 0 0 front) back where
  laid := by simpa using (laid_append.mp reached.laid).2
  total_eq := by simpa using reached.total_eq
  bound := reached.bound

theorem Reached.glue (reached : Reached h 0 0 (front ++ back))
    (touches : Touches h h' (h.heapPtr + total front))
    (changed : Reached h' (total front) (lastPlace 0 0 front) new) :
    Reached h' 0 0 (front ++ new) where
  laid := by
    rw [touches.heapPtr_eq]
    refine reached.laid.replace (by simpa using touches.before) ?_
    simpa [touches.heapPtr_eq] using changed.laid
  total_eq := by simpa using changed.total_eq
  bound := changed.bound

end Positions

section Loops

/-- A cell that can be taken for `size` bytes. -/
def Fits (size : Nat) (c : Cell) : Prop := c.content = none ∧ sizeofStructMem + size ≤ c.size

/-- The loop of `rt_malloc` finds the first cell that fits. A cell that fits exactly and is
the last of the heap is passed over. -/
theorem Reached.search (reached : Reached h ptr prev cells) {fuel : Nat}
    (enough : cells.length < fuel) (small : size ≤ h.memSizeAligned) :
    (h.search size fuel ptr = some none ∧ ∀ front c back, cells = front ++ c :: back →
      Fits size c → back = [] ∧ c.size = sizeofStructMem + size) ∨
    ∃ front c back, cells = front ++ c :: back ∧ Fits size c ∧ (∀ d ∈ front, ¬Fits size d) ∧
      h.search size fuel ptr = some (some (ptr + total front)) := by
  have bound := reached.bound
  have limit : sub32 h.memSizeAligned size = h.memSizeAligned - size :=
    sub32_of_le small (by simp only [stop, sizeofStructMem] at bound; omega)
  have stop_eq : h.stop = h.memSizeAligned + sizeofStructMem := rfl
  induction cells generalizing ptr prev fuel with
  | nil =>
    obtain ⟨fuel, rfl⟩ := Nat.exists_eq_succ_of_ne_zero (Nat.ne_of_gt (Nat.zero_lt_of_lt enough))
    have total_eq := reached.total_eq
    rw [total_nil] at total_eq
    left
    rw [Heap.search, limit, if_neg (by omega)]
    exact ⟨rfl, by simp⟩
  | cons c cells ih =>
    obtain ⟨fuel, rfl⟩ := Nat.exists_eq_succ_of_ne_zero (Nat.ne_of_gt (Nat.zero_lt_of_lt enough))
    have header := c.header
    rw [Heap.search, limit]
    simp only [reached.space, reached.used_eq]
    rw [reached.next_eq]
    by_cases inside : ptr < h.memSizeAligned - size
    · rw [if_pos inside]
      by_cases fits : Fits size c
      · right
        refine ⟨[], c, cells, rfl, fits, by simp, ?_⟩
        have room := fits.2
        rw [if_pos ⟨by rw [fits.1]; rfl, by omega⟩, total_nil, Nat.add_zero]
      · rw [if_neg]
        · rcases ih reached.tail (by simpa using enough) with ⟨none, only⟩ |
            ⟨front, d, back, rfl, found, first, result⟩
          · refine .inl ⟨none, fun front d back split taken => ?_⟩
            cases front with
            | nil =>
              obtain ⟨rfl, -⟩ := List.cons_eq_cons.mp split
              exact absurd taken fits
            | cons e front =>
              obtain ⟨-, rfl⟩ := List.cons_eq_cons.mp split
              exact only front d back rfl taken
          · refine .inr ⟨c :: front, d, back, rfl, found, ?_, ?_⟩
            · simpa [fits] using first
            · rw [result, total_cons, Nat.add_assoc]
        · rintro ⟨unused, room⟩
          refine fits ⟨?_, by omega⟩
          cases content : c.content with
          | none => rfl
          | some bytes => simp [content] at unused
    · rw [if_neg inside]
      refine .inl ⟨rfl, fun front d back split taken => ?_⟩
      have total_eq := reached.total_eq
      rw [split, total_append, total_cons] at total_eq
      have room := taken.2
      have none_left : total back = 0 := by omega
      refine ⟨?_, by omega⟩
      cases back with
      | nil => rfl
      | cons e back =>
        have last := e.header
        simp only [sizeofStructMem, total_cons] at last none_left
        omega

/-- The loop that raises `lfree` stops at the first free cell, or at the end. -/
theorem Reached.raiseLfree (reached : Reached h ptr prev cells) {fuel : Nat}
    (enough : cells.length < fuel) (here : h.lfree = h.heapPtr + ptr) :
    ∃ x, h.raiseLfree fuel = some { h with lfree := h.heapPtr + x } ∧
      (FreeAt ptr cells x ∨ x = h.stop) ∧ ∀ y, FreeAt ptr cells y → x ≤ y := by
  induction cells generalizing h ptr prev fuel with
  | nil =>
    obtain ⟨fuel, rfl⟩ := Nat.exists_eq_succ_of_ne_zero (Nat.ne_of_gt (Nat.zero_lt_of_lt enough))
    have ends : ptr = h.stop := by simpa using reached.total_eq
    refine ⟨ptr, ?_, .inr ends, by simp⟩
    rw [Heap.raiseLfree, if_neg, ← here]
    rintro ⟨-, inside⟩
    exact inside (by rw [here, heapEnd, ends])
  | cons c cells ih =>
    obtain ⟨fuel, rfl⟩ := Nat.exists_eq_succ_of_ne_zero (Nat.ne_of_gt (Nat.zero_lt_of_lt enough))
    have used_eq := reached.used_eq
    rw [← here] at used_eq
    cases content : c.content with
    | none =>
      refine ⟨ptr, ?_, .inl (.inl ⟨rfl, content⟩), fun y free => free.le⟩
      rw [Heap.raiseLfree, if_neg, ← here]
      rintro ⟨taken, -⟩
      rw [used_eq, content] at taken
      exact taken rfl
    | some bytes =>
      have next_eq := reached.next_eq
      rw [← here] at next_eq
      have inside : h.lfree ≠ h.heapEnd := by
        have le := reached.next_le
        have header := c.header
        simp only [sizeofStructMem] at header
        rw [here, heapEnd]
        omega
      let later : Heap := { h with lfree := h.heapPtr + (ptr + c.size) }
      have onward : Reached later (ptr + c.size) ptr cells :=
        ⟨reached.tail.laid, reached.tail.total_eq, reached.tail.bound⟩
      obtain ⟨x, result, place, lowest⟩ := ih onward (by simpa using enough) rfl
      refine ⟨x, ?_, ?_, ?_⟩
      · rw [Heap.raiseLfree, if_pos ⟨by rw [used_eq, content]; exact Nat.one_ne_zero, inside⟩,
          next_eq]
        exact result
      · exact place.imp .inr id
      · rintro y (⟨-, free⟩ | free)
        · rw [content] at free
          cases free
        · exact lowest y free

end Loops

section Malloc

/-- The size that `rt_malloc` looks for. -/
def rounded (size : Nat) : Nat :=
  if rtAlign size < minSizeAligned then minSizeAligned else rtAlign size

theorem rtAlignSize_dvd_rtAlign (size : Nat) : rtAlignSize ∣ rtAlign size := Dvd.intro_left _ rfl

theorem rtAlignSize_dvd_rounded (size : Nat) : rtAlignSize ∣ rounded size := by
  rw [rounded]
  split_ifs
  · decide
  · exact rtAlignSize_dvd_rtAlign size

/-- The size is rounded up, unless it is within the alignment of the end of the address
space. -/
theorem le_rtAlign (small : size ≤ 2 ^ 32 - rtAlignSize) : size ≤ rtAlign size := by
  simp only [rtAlign, rtAlignSize] at *
  rw [add32_of_lt (by omega)]
  omega

theorem le_rounded (small : size ≤ 2 ^ 32 - rtAlignSize) : size ≤ rounded size := by
  have le := le_rtAlign small
  rw [rounded]
  split_ifs <;> omega

/-- Taking the cell at `ptr`: what is left of it may become a cell of its own. -/
theorem Reached.take (reached : Reached h ptr prev (c :: back)) (fits : Fits size c)
    (multiple : rtAlignSize ∣ size) {count : Nat} (enough : count ≤ size) :
    ∃ (first : Cell) (rest : Option Cell) (bytes : List UInt8),
      first.content = some bytes ∧ bytes.length = count ∧
      (∀ d ∈ rest, d.content = none ∧ sizeofStructMem < d.size) ∧
      first.size + total rest.toList = c.size ∧
      Taken h ((h.take ptr size).setMagic (h.heapPtr + ptr) heapMagic) ptr prev first.size
        (first :: (rest.toList ++ back)) := by
  obtain ⟨free, room⟩ := fits
  by_cases large : size + sizeofStructMem + sizeofStructMem + minSizeAligned ≤ c.size
  · have unit : sizeofStructMem = 16 := rfl
    let second : Cell := .free (c.size - (sizeofStructMem + size)) (by omega)
      (Nat.dvd_sub c.aligned (Nat.dvd_add (by decide) multiple))
    have sizes : sizeofStructMem + size + second.size = c.size := Nat.add_sub_of_le room
    have remains : sizeofStructMem + minSizeAligned ≤ second.size := by omega
    obtain ⟨first, bytes, size_eq, taken, length, done⟩ :=
      reached.take_large free sizes rfl remains enough
    refine ⟨first, some second, bytes, taken, length, ?_, ?_, ?_⟩
    · rintro d ⟨⟩
      refine ⟨rfl, ?_⟩
      simp only [minSizeAligned] at remains
      omega
    · simp [size_eq, sizes]
    · rw [size_eq, Nat.add_comm sizeofStructMem]
      exact done
  · have small : c.size < size + sizeofStructMem + sizeofStructMem + minSizeAligned :=
      Nat.lt_of_not_le large
    obtain ⟨first, bytes, size_eq, taken, length, done⟩ :=
      reached.take_small free small (Nat.le_trans (Nat.add_le_add_left enough _) room)
    exact ⟨first, none, bytes, taken, length, by simp, by simp [size_eq], size_eq ▸ done⟩

/-- The pointer `lfree` is at the lowest free cell. -/
def Lowest (h : Heap) (cells : List Cell) : Prop := ∀ y, FreeAt 0 cells y → h.lfree ≤ h.heapPtr + y

/-- A client has got the block at `p`. -/
structure Allocated (h h' : Heap) (cells cells' : List Cell) (p : Nat) (bytes : List UInt8) :
    Prop where
  represents : Represents h' cells'
  touches : Touches h h' h.heapPtr
  fresh : contents h.heapPtr cells p = none
  added : contents h.heapPtr cells' = Function.update (contents h.heapPtr cells) p (some bytes)
  aligned : rtAlignSize ∣ p
  maxMem_eq : h'.maxMem = max h.maxMem h'.usedMem
  lowest : Lowest h cells → Lowest h' cells'

section Cells

variable {first : Cell} {rest : Option Cell} {bytes : List UInt8}

/-- The cells after one of them has been taken. -/
theorem separated_take (separated : Separated (front ++ c :: back)) (free : c.content = none)
    (taken : first.content = some bytes) (rest_free : ∀ d ∈ rest, d.content = none) :
    Separated (front ++ first :: (rest.toList ++ back)) := by
  obtain ⟨before, behind, -⟩ := separated_append.mp separated
  obtain ⟨next, after⟩ := separated_cons.mp behind
  refine separated_append.mpr ⟨before, separated_cons.mpr ⟨?_, ?_⟩, ?_⟩
  · exact fun d _ => .inl (by rw [taken]; rfl)
  · cases rest with
    | none => exact after
    | some d =>
      refine separated_cons.mpr ⟨fun e head => .inr ?_, after⟩
      simpa [free] using next e head
  · rintro e - d ⟨⟩
    exact .inr (by rw [taken]; rfl)

theorem endsLarge_take (endsLarge : EndsLarge (front ++ c :: back))
    (rest_large : ∀ d ∈ rest, sizeofStructMem < d.size)
    (sizes : first.size + total rest.toList = c.size) :
    EndsLarge (front ++ first :: (rest.toList ++ back)) := by
  obtain ⟨last, behind⟩ := endsLarge_append_cons.mp endsLarge
  cases rest with
  | none =>
    refine endsLarge_append_cons.mpr ⟨fun ends => ?_, behind⟩
    have whole : first.size = c.size := by simpa using sizes
    rw [whole]
    exact last ends
  | some d =>
    refine endsLarge_append_cons.mpr ⟨by simp, ?_⟩
    exact endsLarge_cons.mpr ⟨fun _ => rest_large d rfl, behind⟩

theorem contents_take {start : Nat} (taken : first.content = some bytes)
    (rest_free : ∀ d ∈ rest, d.content = none)
    (sizes : first.size + total rest.toList = c.size) :
    contents start (front ++ first :: (rest.toList ++ back)) =
      Function.update (contents start (front ++ c :: back))
        (start + total front + sizeofStructMem) (some bytes) := by
  cases rest with
  | none =>
    rw [← taken]
    exact contents_replace (by simpa using sizes)
  | some d =>
    let whole : Cell := .holding c.size bytes (by have := first.fits bytes taken; omega) c.aligned
    have joined : contents start (front ++ first :: d :: back) =
        contents start (front ++ whole :: back) :=
      contents_split (rest_free d rfl) taken.symm (by simpa [whole, Cell.holding] using sizes.symm)
    rw [show (some d).toList ++ back = d :: back from rfl, joined]
    exact contents_replace (c := whole) rfl

end Cells

theorem InOrder.total_eq (order : InOrder h cells) : total cells = h.stop := by
  simpa using order.reached.total_eq

/-- The place of `lfree` cuts the cells in two, and a free cell is behind it. -/
theorem InOrder.split_lfree (order : InOrder h cells) : ∃ low high, cells = low ++ high ∧
    h.lfree = h.heapPtr + total low ∧ ∀ c ∈ high.head?, c.content = none := by
  obtain ⟨x, lfree_eq, free | ends⟩ := order.lfree
  · obtain ⟨low, c, high, rfl, unused, rfl⟩ := free.split
    refine ⟨low, c :: high, rfl, by simpa using lfree_eq, ?_⟩
    rintro d ⟨⟩
    exact unused
  · exact ⟨cells, [], by simp, by rw [lfree_eq, order.total_eq, ends], by simp⟩

/-- Taking a cell leaves the heap in order, before `lfree` is raised. -/
theorem InOrder.taken (order : InOrder h (front ++ c :: back)) (free : c.content = none)
    {first : Cell} {rest : Option Cell} {bytes : List UInt8} (taken : first.content = some bytes)
    (rest_free : ∀ d ∈ rest, d.content = none) (sizes : first.size + total rest.toList = c.size)
    (done : Taken h h' (total front) (lastPlace 0 0 front) first.size
      (first :: (rest.toList ++ back))) :
    Reached h' 0 0 (front ++ first :: (rest.toList ++ back)) ∧
      h'.usedMem = usedTotal (front ++ first :: (rest.toList ++ back)) ∧
      h'.maxMem = max h.maxMem h'.usedMem ∧ Touches h h' h.heapPtr := by
  have reached := order.reached.glue done.touches done.reached
  have bound := reached.bound
  have whole : total (front ++ first :: (rest.toList ++ back)) = h'.stop := by
    simpa using reached.total_eq
  have le := usedTotal_le (front ++ first :: (rest.toList ++ back))
  have rest_unused : usedTotal rest.toList = 0 := by
    cases rest with
    | none => rfl
    | some d => simp [rest_free d rfl]
  have sum : usedTotal (front ++ first :: (rest.toList ++ back)) = h.usedMem + first.size := by
    rw [order.usedMem_eq]
    simp [taken, free, rest_unused]
    omega
  have used_eq : h'.usedMem = usedTotal (front ++ first :: (rest.toList ++ back)) := by
    have unit : sizeofStructMem = 16 := rfl
    rw [done.usedMem_eq, add32_of_lt (by omega), sum]
  refine ⟨reached, used_eq, ?_, done.touches.mono (by omega)⟩
  rw [done.maxMem_eq, ← done.usedMem_eq]

/-- Fuel for every loop over the cells. -/
theorem Reached.length_lt_fuel (reached : Reached h ptr prev cells) : cells.length < h.fuel := by
  have length := length_le_total cells
  have total_eq := reached.total_eq
  rw [fuel]
  omega

/-- After the block behind `front` has been taken, `lfree` is at a free cell again. -/
theorem InOrder.raised (order : InOrder h (front ++ c :: back))
    (reached : Reached h' 0 0 (front ++ new)) (heapPtr_eq : h'.heapPtr = h.heapPtr)
    (lfree_eq : h'.lfree = h.lfree) (above : h.lfree ≤ h.heapPtr + total front) :
    ∃ x, (if h.heapPtr + total front = h'.lfree then h'.raiseLfree h'.fuel else some h') =
        some { h' with lfree := h'.heapPtr + x } ∧ (FreeAt 0 (front ++ new) x ∨ x = h'.stop) ∧
      (Lowest h (front ++ c :: back) → ∀ y, FreeAt 0 (front ++ new) y → x ≤ y) := by
  by_cases here : h.heapPtr + total front = h'.lfree
  · obtain ⟨x, result, place, lowest⟩ := reached.drop.raiseLfree reached.drop.length_lt_fuel
      (by rw [heapPtr_eq, here])
    refine ⟨x, ?_, ?_, ?_⟩
    · rw [if_pos here, result]
    · exact place.imp (fun free => freeAt_append.mpr (.inr (by simpa using free))) id
    · intro low y free
      rcases freeAt_append.mp free with before | behind
      · -- a free cell before the old `lfree` was not there
        have below := before.lt
        have least := low y (freeAt_append.mpr (.inl before))
        omega
      · exact lowest y (by simpa using behind)
  · obtain ⟨x, x_eq, place⟩ := order.lfree
    have le := order.reached.drop.next_le
    have header := c.header
    simp only [sizeofStructMem] at header
    have free : FreeAt 0 front x := by
      rcases place with free | rfl
      · rcases freeAt_append.mp free with before | ⟨same, -⟩ | behind
        · exact before
        · omega
        · have later := behind.le
          omega
      · omega
    refine ⟨x, ?_, .inl (freeAt_append.mpr (.inl free)), ?_⟩
    · have same : h'.heapPtr + x = h'.lfree := by omega
      rw [if_neg here, same]
    · intro low y other
      rcases freeAt_append.mp other with before | behind
      · have least := low y (freeAt_append.mpr (.inl before))
        omega
      · have later := behind.le
        omega

/-- A cell that fits is handed out. -/
theorem Represents.claim (represents : Represents h (front ++ c :: back)) (fits : Fits size c)
    (multiple : rtAlignSize ∣ size) (above : h.lfree ≤ h.heapPtr + total front) {count : Nat}
    (enough : count ≤ size) :
    ∃ h' cells' bytes, h.claim (total front) size = some h' ∧ bytes.length = count ∧
      Allocated h h' (front ++ c :: back) cells' (h.heapPtr + total front + sizeofStructMem)
        bytes := by
  have order := represents.toInOrder
  obtain ⟨first, rest, bytes, taken, length, rest_spec, sizes, done⟩ :=
    order.reached.drop.take fits multiple enough
  have code : h.claim (total front) size =
      let marked := (h.take (total front) size).setMagic (h.heapPtr + total front) heapMagic
      if h.heapPtr + total front = marked.lfree then marked.raiseLfree marked.fuel
      else some marked := rfl
  -- what follows needs nothing of the marked heap but what is known of the cells
  generalize (h.take (total front) size).setMagic (h.heapPtr + total front) heapMagic = marked
    at code done
  have rest_free : ∀ d ∈ rest, d.content = none := fun d member => (rest_spec d member).1
  obtain ⟨reached, used_eq, max_eq, touches⟩ := order.taken fits.1 taken rest_free sizes done
  obtain ⟨x, raised, place, lowest⟩ :=
    order.raised reached touches.heapPtr_eq done.lfree_eq above
  refine ⟨_, front ++ first :: (rest.toList ++ back), bytes, code.trans raised, length, ?_⟩
  exact {
    represents := {
      reached := ⟨reached.laid, reached.total_eq, reached.bound⟩
      room := order.room.trans_eq touches.size_eq.symm
      aligned := touches.heapPtr_eq ▸ order.aligned
      endsLarge := endsLarge_take order.endsLarge (fun d member => (rest_spec d member).2) sizes
      lfree := ⟨x, rfl, place⟩
      usedMem_eq := used_eq
      separated := separated_take represents.separated fits.1 taken rest_free }
    touches := ⟨touches.heapPtr_eq, touches.size_eq, touches.same⟩
    fresh := (contents_self front back c h.heapPtr).trans fits.1
    added := contents_take taken rest_free sizes
    aligned := Nat.dvd_add (Nat.dvd_add order.aligned (rtAlignSize_dvd_total front)) (by decide)
    maxMem_eq := max_eq
    lowest := fun low y free => Nat.add_le_add_left (lowest low y free) _ }

theorem rtMalloc_eq_none {size : Nat} (positive : size ≠ 0)
    (small : ¬ rtAlign size > h.memSizeAligned)
    (result : h.search (rounded size) h.fuel (h.lfree - h.heapPtr) = some none) :
    h.rtMalloc size = some (h, none) := by
  rw [Heap.rtMalloc, if_neg positive]
  dsimp only
  rw [rounded] at result
  rw [if_neg small, result]

theorem rtMalloc_eq_some {size ptr : Nat} {h' : Heap} (positive : size ≠ 0)
    (small : ¬ rtAlign size > h.memSizeAligned)
    (result : h.search (rounded size) h.fuel (h.lfree - h.heapPtr) = some (some ptr))
    (claimed : h.claim ptr (rounded size) = some h') :
    h.rtMalloc size = some (h', some (h.heapPtr + ptr + sizeofStructMem)) := by
  rw [Heap.rtMalloc, if_neg positive]
  dsimp only
  rw [rounded] at result claimed
  rw [if_neg small, result]
  dsimp only
  rw [claimed, Option.map_some]

/-- The function `rt_malloc` returns. It fails only if no cell from `lfree` on fits, apart from
one that is the last of the heap and fits exactly. -/
theorem Represents.rtMalloc (represents : Represents h cells) (size : Nat) {count : Nat}
    (enough : count ≤ rounded size) :
    (h.rtMalloc size = some (h, none) ∧ (size = 0 ∨ h.memSizeAligned < rtAlign size ∨
      ∀ front c back, cells = front ++ c :: back → h.lfree ≤ h.heapPtr + total front →
        Fits (rounded size) c → back = [] ∧ c.size = sizeofStructMem + rounded size)) ∨
    ∃ h' cells' p bytes, h.rtMalloc size = some (h', some p) ∧ bytes.length = count ∧
      Allocated h h' cells cells' p bytes ∧
      ∃ front c back, cells = front ++ c :: back ∧ Fits (rounded size) c ∧
        p = h.heapPtr + total front + sizeofStructMem := by
  have order := represents.toInOrder
  by_cases zero : size = 0
  · exact .inl ⟨by rw [Heap.rtMalloc, if_pos zero], .inl zero⟩
  by_cases large : rtAlign size > h.memSizeAligned
  · exact .inl ⟨by rw [Heap.rtMalloc, if_neg zero]; exact if_pos large, .inr (.inl large)⟩
  have small : rounded size ≤ h.memSizeAligned := by
    have room := order.room
    rw [rounded]
    split_ifs <;> omega
  obtain ⟨low, high, rfl, lfree_eq, -⟩ := order.split_lfree
  have from_lfree : h.lfree - h.heapPtr = total low := by rw [lfree_eq, Nat.add_sub_cancel_left]
  rcases order.reached.drop.search order.reached.drop.length_lt_fuel small with
    ⟨result, only⟩ | ⟨mid, c, back, rfl, fits, -, result⟩
  · rw [← from_lfree] at result
    refine .inl ⟨rtMalloc_eq_none zero large result, .inr (.inr fun front c back split above fits => ?_)⟩
    obtain ⟨mid, -, rfl⟩ := exists_eq_append_of_total_le split (by omega)
    exact only mid c back rfl fits
  · rw [← List.append_assoc] at represents ⊢
    have above : h.lfree ≤ h.heapPtr + total (low ++ mid) := by
      rw [lfree_eq, total_append]
      omega
    obtain ⟨h', cells', bytes, claimed, length, allocated⟩ :=
      represents.claim fits (rtAlignSize_dvd_rounded size) above enough
    rw [← total_append, ← from_lfree] at result
    exact .inr ⟨h', cells', _, bytes, rtMalloc_eq_some zero large result claimed, length, allocated,
      low ++ mid, c, back, rfl, fits, rfl⟩

end Malloc

end BadmintonRobot.Kernel.Heap
