import BadmintonRobot.Kernel.HeapCalls

/-!
# Giving memory back

A block that is freed, and the end of one that is made smaller, becomes a free cell. The
function `plug_holes` joins it with its neighbours, so that no two free cells are left side
by side.
-/

namespace BadmintonRobot.Kernel.Heap

open Semantics

variable {h h' h'' : Heap} {c d joined : Cell} {front back cells cells' cells'' : List Cell}

/-- Cells may have been joined; the clients do not see it. -/
structure Plugged (h h' : Heap) (cells cells' : List Cell) : Prop where
  order : InOrder h' cells'
  touches : Touches h h' h.heapPtr
  contents_eq : contents h.heapPtr cells' = contents h.heapPtr cells
  usedMem_eq : h'.usedMem = h.usedMem
  maxMem_eq : h'.maxMem = h.maxMem
  lfree_le : h'.lfree ≤ h.lfree
  lowest : Lowest h cells → Lowest h' cells'

theorem InOrder.plugged_self (order : InOrder h cells) : Plugged h h cells cells :=
  ⟨order, .refl _ _, rfl, rfl, rfl, le_rfl, id⟩

theorem Plugged.trans (first : Plugged h h' cells cells') (second : Plugged h' h'' cells' cells'') :
    Plugged h h'' cells cells'' where
  order := second.order
  touches := first.touches.trans (first.touches.heapPtr_eq ▸ second.touches)
  contents_eq := by
    rw [← first.contents_eq, ← first.touches.heapPtr_eq, second.contents_eq]
  usedMem_eq := second.usedMem_eq.trans first.usedMem_eq
  maxMem_eq := second.maxMem_eq.trans first.maxMem_eq
  lfree_le := second.lfree_le.trans first.lfree_le
  lowest low := second.lowest (first.lowest low)

theorem freeAt_join (free : c.content = none) (next_free : d.content = none)
    (joined_free : joined.content = none) (sizes : joined.size = c.size + d.size) (y : Nat) :
    FreeAt 0 (front ++ c :: d :: back) y ↔
      FreeAt 0 (front ++ joined :: back) y ∨ y = total front + c.size := by
  simp only [freeAt_append, freeAt_cons, free, next_free, joined_free, and_true, Nat.zero_add,
    sizes, Nat.add_assoc]
  tauto

/-- Two free neighbours have been joined. -/
theorem InOrder.join (order : InOrder h (front ++ c :: d :: back)) (free : c.content = none)
    (next_free : d.content = none) (joined_free : joined.content = none)
    (sizes : joined.size = c.size + d.size)
    (done : Joined h h' (total front) (lastPlace 0 0 front)
      (if h.lfree = h.heapPtr + (total front + c.size) then h.heapPtr + total front else h.lfree)
      (joined :: back)) :
    Plugged h h' (front ++ c :: d :: back) (front ++ joined :: back) := by
  have heapPtr_eq := done.touches.heapPtr_eq
  have stop_eq := done.touches.stop_eq
  have header := c.header
  simp only [sizeofStructMem] at header
  have freeAt_iff : ∀ y, FreeAt 0 (front ++ c :: d :: back) y ↔
      FreeAt 0 (front ++ joined :: back) y ∨ y = total front + c.size :=
    freeAt_join free next_free joined_free sizes
  have start : FreeAt 0 (front ++ joined :: back) (total front) := by
    simp [joined_free]
  refine ⟨⟨order.reached.glue done.touches done.reached, ?_, ?_, ?_, ?_, ?_⟩, ?_, ?_,
    done.usedMem_eq, done.maxMem_eq, ?_, ?_⟩
  · rw [done.touches.size_eq]
    exact order.room
  · rw [heapPtr_eq]
    exact order.aligned
  · obtain ⟨-, last⟩ := endsLarge_append_cons.mp order.endsLarge
    refine endsLarge_append_cons.mpr ⟨fun _ => ?_, (endsLarge_cons.mp last).2⟩
    have large := d.header
    simp only [sizeofStructMem] at large ⊢
    omega
  · obtain ⟨x, x_eq, place⟩ := order.lfree
    rw [done.lfree_eq, heapPtr_eq, stop_eq]
    by_cases moved : x = total front + c.size
    · exact ⟨total front, if_pos (by omega), .inl start⟩
    · refine ⟨x, by rw [if_neg (by omega), x_eq], place.imp_left fun free => ?_⟩
      exact ((freeAt_iff x).mp free).resolve_right moved
  · rw [done.usedMem_eq, order.usedMem_eq]
    simp [free, next_free, joined_free]
  · exact done.touches.mono (by omega)
  · exact (contents_split next_free (joined_free.trans free.symm) sizes).symm
  · rw [done.lfree_eq]
    split_ifs <;> omega
  · intro low y other
    have first := low _ ((freeAt_iff _).mpr (.inl start))
    rw [done.lfree_eq, heapPtr_eq, if_neg (by omega)]
    exact low y ((freeAt_iff y).mpr (.inl other))

/-- After the first half of `plug_holes` no free cell is behind. -/
theorem InOrder.plugForward (order : InOrder h (front ++ c :: back)) (free : c.content = none)
    (separated : Separated back) :
    ∃ c' back', Plugged h (h.plugForward (h.heapPtr + total front)) (front ++ c :: back)
        (front ++ c' :: back') ∧ c'.content = none ∧ Separated back' ∧
      ∀ d ∈ back'.head?, d.content.isSome := by
  by_cases used : ∀ d ∈ back.head?, d.content.isSome
  · refine ⟨c, back, ?_, free, separated, used⟩
    rw [order.reached.drop.plugForward_of_used used]
    exact order.plugged_self
  · obtain ⟨d, rest, rfl, next_free⟩ : ∃ d rest, back = d :: rest ∧ d.content = none := by
      cases back with
      | nil => simp at used
      | cons d rest => exact ⟨d, rest, rfl, by simpa using used⟩
    obtain ⟨after, rest_separated⟩ := separated_cons.mp separated
    refine ⟨.free (c.size + d.size) (Nat.le_add_right_of_le c.header)
      (Nat.dvd_add c.aligned d.aligned), rest, ?_, rfl, rest_separated, ?_⟩
    · exact order.join free next_free rfl rfl
        (order.reached.drop.plugForward_of_free free next_free rfl rfl)
    · intro e head
      simpa [next_free] using after e head

/-- After the second half no free cell is before. -/
theorem InOrder.plugBackward (order : InOrder h (front ++ c :: back)) (free : c.content = none)
    (separated : Separated front) :
    ∃ front' c', Plugged h (h.plugBackward (h.heapPtr + total front)) (front ++ c :: back)
        (front' ++ c' :: back) ∧ c'.content = none ∧ Separated front' ∧
      ∀ d ∈ front'.getLast?, d.content.isSome := by
  rcases List.eq_nil_or_concat front with rfl | ⟨before, d, rfl⟩
  · refine ⟨[], c, ?_, free, separated, by simp⟩
    rw [total_nil, Nat.add_zero, order.reached.plugBackward_of_first]
    exact order.plugged_self
  · simp only [List.concat_eq_append, List.append_assoc, List.singleton_append] at order separated ⊢
    have place : total (before ++ [d]) = total before + d.size := by simp
    rw [place]
    by_cases used : d.content.isSome
    · refine ⟨before ++ [d], c, ?_, free, separated, by simpa using used⟩
      rw [order.reached.drop.plugBackward_of_used used]
      simpa using order.plugged_self
    · have unused : d.content = none := by simpa using used
      obtain ⟨before_separated, -, last⟩ := separated_append.mp separated
      refine ⟨before, .free (d.size + c.size) (Nat.le_add_right_of_le d.header)
        (Nat.dvd_add d.aligned c.aligned), ?_, rfl, before_separated, ?_⟩
      · exact order.join unused free rfl rfl
          (order.reached.drop.plugBackward_of_free unused rfl rfl)
      · intro e member
        simpa [unused] using last e member d rfl

/-- A free cell between others is joined with its neighbours. -/
theorem InOrder.plugHoles (order : InOrder h (front ++ c :: back)) (free : c.content = none)
    (before : Separated front) (behind : Separated back) :
    ∃ cells', Plugged h (h.plugHoles (h.heapPtr + total front)) (front ++ c :: back) cells' ∧
      Separated cells' := by
  obtain ⟨c', back', forward, free', behind', next_used⟩ := order.plugForward free behind
  obtain ⟨front', c'', backward, free'', before', last_used⟩ :=
    forward.order.plugBackward free' before
  rw [forward.touches.heapPtr_eq] at backward
  refine ⟨front' ++ c'' :: back', forward.trans backward, ?_⟩
  refine separated_append.mpr ⟨before', separated_cons.mpr ⟨fun d head => .inr (next_used d head),
    behind'⟩, fun d last e _ => .inl (last_used d last)⟩

/-- A client has given back the block at `p`, or has it with other bytes. -/
structure Changed (h h' : Heap) (cells cells' : List Cell) (p : Nat)
    (content : Option (List UInt8)) : Prop where
  represents : Represents h' cells'
  touches : Touches h h' h.heapPtr
  contents_eq : contents h.heapPtr cells' =
    Function.update (contents h.heapPtr cells) p content
  usedMem_le : h'.usedMem ≤ h.usedMem
  maxMem_eq : h'.maxMem = h.maxMem

theorem Plugged.changed {p : Nat} {content : Option (List UInt8)}
    (plugged : Plugged h' h'' cells' cells'') (separated : Separated cells'')
    (touches : Touches h h' h.heapPtr) (usedMem_le : h'.usedMem ≤ h.usedMem)
    (maxMem_eq : h'.maxMem = h.maxMem)
    (contents_eq : contents h.heapPtr cells' =
      Function.update (contents h.heapPtr cells) p content) :
    Changed h h'' cells cells'' p content where
  represents := ⟨plugged.order, separated⟩
  touches := touches.trans (touches.heapPtr_eq ▸ plugged.touches)
  contents_eq := by rw [← contents_eq, ← touches.heapPtr_eq, plugged.contents_eq]
  usedMem_le := plugged.usedMem_eq.trans_le usedMem_le
  maxMem_eq := plugged.maxMem_eq.trans maxMem_eq

section Free

variable {bytes : List UInt8}

/-- The pointer to a block passes the test of `rt_free` and `rt_realloc`, also for a block
without bytes: that is not the last of the heap. -/
theorem InOrder.pointer_inside (order : InOrder h (front ++ c :: back)) :
    ¬(h.heapPtr + total front + sizeofStructMem < h.heapPtr ∨
      h.heapPtr + total front + sizeofStructMem ≥ h.heapEnd) := by
  have le := order.reached.drop.next_le
  have header := c.header
  have stop_eq : h.heapEnd = h.heapPtr + h.stop := rfl
  obtain ⟨last, -⟩ := endsLarge_append_cons.mp order.endsLarge
  by_cases empty : back = []
  · have large := last empty
    omega
  · have more := (not_congr order.reached.drop.next_eq_stop_iff).mpr empty
    omega

/-- The heap when the block behind `front` has been marked as free. -/
def released (h : Heap) (front : List Cell) (c : Cell) : Heap :=
  let mem := h.heapPtr + total front
  let h' := (h.setUsed mem 0).setMagic mem 0
  { h' with
    lfree := if mem < h.lfree then mem else h.lfree
    usedMem := h.usedMem - c.size }

theorem InOrder.rtFree_eq (order : InOrder h (front ++ c :: back))
    (held : c.content = some bytes) :
    h.rtFree (some (h.heapPtr + total front + sizeofStructMem)) =
      (h.released front c).plugHoles (h.heapPtr + total front) := by
  have le := order.reached.drop.next_le
  have bound := order.reached.bound
  have unit : sizeofStructMem = 16 := rfl
  have header := c.header
  have used : c.size ≤ h.usedMem := by
    rw [order.usedMem_eq]
    simp [held]
    omega
  have fits : h.usedMem < 2 ^ 32 := by
    have most := usedTotal_le (front ++ c :: back)
    rw [order.total_eq, ← order.usedMem_eq] at most
    omega
  let mem := h.heapPtr + total front
  have distance : mem + sizeofStructMem - sizeofStructMem = mem := Nat.add_sub_cancel _ _
  have next_eq : ∀ lfree, ({ (h.setUsed mem 0).setMagic mem 0 with lfree := lfree } : Heap).next mem =
      total front + c.size := fun _ =>
    ((Memory.load_store_of_disjoint (by omega)).trans
      (Memory.load_store_of_disjoint (by omega))).trans order.reached.drop.next_eq
  have length : sub32 (total front + c.size) (mem - h.heapPtr) = c.size := by
    rw [show mem - h.heapPtr = total front from Nat.add_sub_cancel_left _ _,
      sub32_of_le (by omega) (by omega), Nat.add_sub_cancel_left]
  have amount : sub32 h.usedMem (sub32 (total front + c.size) (mem - h.heapPtr)) =
      h.usedMem - c.size := by
    rw [length, sub32_of_le used fits]
  rw [rtFree]
  dsimp only
  rw [if_neg order.pointer_inside, distance, ite_lfree, next_eq]
  exact congrArg (fun amount => ({ (h.setUsed mem 0).setMagic mem 0 with
    lfree := if mem < h.lfree then mem else h.lfree, usedMem := amount } : Heap).plugHoles mem)
    amount

theorem freeAt_released (held : c.content = some bytes) (free : d.content = none)
    (size_eq : d.size = c.size) (y : Nat) : FreeAt 0 (front ++ d :: back) y ↔
      FreeAt 0 (front ++ c :: back) y ∨ y = total front := by
  simp only [freeAt_append, freeAt_cons, free, held, size_eq, Nat.zero_add]
  tauto

/-- The block that is given back becomes a free cell. -/
theorem InOrder.released (order : InOrder h (front ++ c :: back)) (held : c.content = some bytes)
    (free : d.content = none) (size_eq : d.size = c.size) :
    InOrder (h.released front c) (front ++ d :: back) ∧
      Touches h (h.released front c) (h.heapPtr + total front) ∧
      (Lowest h (front ++ c :: back) → Lowest (h.released front c) (front ++ d :: back)) := by
  obtain ⟨⟨laid, total_eq, bound⟩, heapPtr_eq, stop_eq, same⟩ :=
    order.reached.drop.unmark free size_eq
  have touches : Touches h (h.released front c) (h.heapPtr + total front) :=
    ⟨heapPtr_eq, stop_eq, same⟩
  have freeAt_iff : ∀ y, FreeAt 0 (front ++ d :: back) y ↔
      FreeAt 0 (front ++ c :: back) y ∨ y = total front := freeAt_released held free size_eq
  refine ⟨⟨order.reached.glue touches ⟨laid, total_eq, bound⟩, order.room, order.aligned, ?_, ?_, ?_⟩,
    touches, ?_⟩
  · obtain ⟨last, behind⟩ := endsLarge_append_cons.mp order.endsLarge
    exact endsLarge_append_cons.mpr ⟨fun empty => size_eq ▸ last empty, behind⟩
  · obtain ⟨x, x_eq, place⟩ := order.lfree
    by_cases lower : h.heapPtr + total front < h.lfree
    · exact ⟨total front, if_pos lower, .inl ((freeAt_iff _).mpr (.inr rfl))⟩
    · exact ⟨x, (if_neg lower).trans x_eq, place.imp_left fun other => (freeAt_iff x).mpr (.inl other)⟩
  · show h.usedMem - c.size = _
    rw [order.usedMem_eq]
    simp [held, free]
    omega
  · intro low y other
    show (if h.heapPtr + total front < h.lfree then _ else _) ≤ h.heapPtr + y
    rcases (freeAt_iff y).mp other with earlier | rfl
    · have least := low y earlier
      split_ifs <;> omega
    · split_ifs <;> omega

/-- The function `rt_free` on a block that a client holds. -/
theorem Represents.rtFree (represents : Represents h cells) {p : Nat}
    (held : contents h.heapPtr cells p = some bytes) :
    ∃ cells', Changed h (h.rtFree (some p)) cells cells' p none ∧
      (h.rtFree (some p)).lfree < p ∧
      (Lowest h cells → Lowest (h.rtFree (some p)) cells') := by
  obtain ⟨front, c, back, rfl, content, rfl⟩ := exists_of_contents held
  have order := represents.toInOrder
  obtain ⟨before, behind, -⟩ := separated_append.mp represents.separated
  let unused : Cell := .free c.size c.header c.aligned
  obtain ⟨released, touches, low⟩ := order.released content (d := unused) rfl rfl
  obtain ⟨cells', plugged, separated⟩ :=
    released.plugHoles rfl before (separated_cons.mp behind).2
  rw [touches.heapPtr_eq, ← order.rtFree_eq content] at plugged
  refine ⟨cells', plugged.changed separated (touches.mono (by omega))
    (Nat.sub_le h.usedMem c.size) rfl ?_, ?_, ?_⟩
  · exact contents_replace (c := unused) rfl
  · have unit : sizeofStructMem = 16 := rfl
    have lowered : (h.released front c).lfree ≤ h.heapPtr + total front := by
      show (if h.heapPtr + total front < h.lfree then _ else _) ≤ _
      split_ifs <;> omega
    have le := plugged.lfree_le
    omega
  · exact fun lowest => plugged.lowest (low lowest)

end Free

section Resize

variable {bytes kept : List UInt8} {newsize : Nat}

theorem freeAt_replace (used : c.content.isSome) (still : d.content.isSome)
    (size_eq : d.size = c.size) (y : Nat) :
    FreeAt 0 (front ++ d :: back) y ↔ FreeAt 0 (front ++ c :: back) y := by
  have first : c.content ≠ none := Option.isSome_iff_ne_none.mp used
  have second : d.content ≠ none := Option.isSome_iff_ne_none.mp still
  simp [freeAt_append, freeAt_cons, first, second, size_eq]

theorem separated_replace (separated : Separated (front ++ c :: back)) (still : d.content.isSome) :
    Separated (front ++ d :: back) := by
  obtain ⟨before, behind, -⟩ := separated_append.mp separated
  refine separated_append.mpr ⟨before, separated_cons.mpr ⟨fun _ _ => .inl still,
    (separated_cons.mp behind).2⟩, ?_⟩
  rintro e - f ⟨⟩
  exact .inr still

/-- A block in use with other bytes in it. -/
theorem Represents.rewrite (represents : Represents h (front ++ c :: back))
    (used : c.content.isSome) (still : d.content.isSome) (size_eq : d.size = c.size)
    (changed : Reached h' (total front) (lastPlace 0 0 front) (d :: back))
    (touches : Touches h h' (h.heapPtr + total front)) (lfree_eq : h'.lfree = h.lfree)
    (usedMem_eq : h'.usedMem = h.usedMem) : Represents h' (front ++ d :: back) := by
  refine ⟨⟨represents.reached.glue touches changed, ?_, ?_, ?_, ?_, ?_⟩, ?_⟩
  · rw [touches.size_eq]
    exact represents.room
  · rw [touches.heapPtr_eq]
    exact represents.aligned
  · obtain ⟨last, behind⟩ := endsLarge_append_cons.mp represents.endsLarge
    exact endsLarge_append_cons.mpr ⟨fun empty => size_eq ▸ last empty, behind⟩
  · obtain ⟨x, x_eq, place⟩ := represents.lfree
    rw [lfree_eq, touches.heapPtr_eq, touches.stop_eq]
    exact ⟨x, x_eq, place.imp_left (freeAt_replace used still size_eq x).mpr⟩
  · rw [usedMem_eq, represents.usedMem_eq]
    simp [used, still, size_eq]
  · exact separated_replace represents.separated still

/-- The same bytes in RAM, of which more or fewer are the client's. -/
theorem Reached.reread {ptr prev : Nat} (reached : Reached h ptr prev (c :: back))
    (held : c.content = some bytes) (now : d.content = some kept) (size_eq : d.size = c.size)
    (holds : Holds h.ram (h.heapPtr + ptr + sizeofStructMem) kept) :
    Reached h ptr prev (d :: back) := by
  refine (reached.replace_head size_eq ?_ fun _ _ => rfl).1
  refine reached.laid.head.reread (by rw [held, now]; rfl) ?_
  intro other same
  obtain rfl : kept = other := Option.some.inj (now.symm.trans same)
  exact holds

/-- Bytes that are at the same address are the same. -/
theorem getElem?_eq_of_holds {ram : Memory} {start : Nat} (first : Holds ram start bytes)
    (second : Holds ram start kept) : ∀ i < min bytes.length kept.length, kept[i]? = bytes[i]? := by
  intro i both
  rw [first i (by omega), second i (by omega)]

variable {first second whole : Cell}

/-- A store behind the bytes that stay the client's. -/
theorem Reached.store_tail {ptr prev : Nat} (reached : Reached h ptr prev (c :: back))
    (held : c.content = some kept) (width address value : Nat)
    (behind : h.heapPtr + ptr + sizeofStructMem + kept.length ≤ address)
    (inside : address + width ≤ h.heapPtr + (ptr + c.size)) :
    Reached { h with ram := h.ram.store width address value } ptr prev (c :: back) ∧
      Touches h { h with ram := h.ram.store width address value } (h.heapPtr + ptr) := by
  refine reached.replace_head rfl ?_ fun place outside => Memory.store_outside (by omega)
  refine reached.laid.head.congr address (by omega) ?_ (Memory.store_eqOn ?_)
  · intro other same
    obtain rfl : kept = other := Option.some.inj (held.symm.trans same)
    exact behind
  · rintro place ⟨-, upper⟩
    omega

theorem freeAt_cut (held : c.content = some bytes) (sizes : first.size + second.size = c.size)
    {x : Nat} (free : FreeAt 0 (front ++ c :: back) x) :
    FreeAt 0 (front ++ first :: second :: back) x := by
  rcases freeAt_append.mp free with before | ⟨-, unused⟩ | behind
  · exact freeAt_append.mpr (.inl before)
  · rw [held] at unused
    cases unused
  · refine freeAt_append.mpr (.inr (.inr (.inr ?_)))
    rw [Nat.add_assoc, sizes]
    exact behind

/-- The heap when the end of the block behind `front` has been cut off. -/
def cutOff (h : Heap) (front : List Cell) (first second : Cell) : Heap :=
  let ptr2 := total front + first.size
  let h := { h with usedMem := h.usedMem - second.size }
  ((h.setMagic (h.heapPtr + ptr2) heapMagic).cut (total front) ptr2).relink ptr2

theorem lfree_cutOff : (h.cutOff front first second).lfree = h.lfree := by
  rw [cutOff]
  dsimp only
  rw [lfree_relink]
  rfl

theorem usedMem_cutOff : (h.cutOff front first second).usedMem = h.usedMem - second.size := by
  rw [cutOff]
  dsimp only
  rw [usedMem_relink]
  rfl

theorem maxMem_cutOff : (h.cutOff front first second).maxMem = h.maxMem := by
  rw [cutOff]
  dsimp only
  rw [maxMem_relink]
  rfl

/-- The block that is cut has been written at its new end, and is otherwise as it was. -/
theorem Represents.reached_cutOff (represents : Represents h (front ++ c :: back))
    (held : c.content = some bytes) (now : first.content = some kept)
    (rest_free : second.content = none) (sizes : first.size + second.size = c.size)
    (holds : Holds h.ram (h.heapPtr + total front + sizeofStructMem) kept) :
    Reached (h.cutOff front first second) (total front) (lastPlace 0 0 front)
        (first :: second :: back) ∧
      Touches h (h.cutOff front first second) (h.heapPtr + total front) := by
  have fits := first.fits kept now
  have large := second.header
  have unit : sizeofStructMem = 16 := rfl
  obtain ⟨whole, whole_size, whole_content⟩ : ∃ whole : Cell,
      whole.size = c.size ∧ whole.content = some kept :=
    ⟨.holding c.size kept (by omega) c.aligned, rfl, rfl⟩
  have reread : Reached h (total front) (lastPlace 0 0 front) (whole :: back) :=
    represents.reached.drop.reread held whole_content whole_size holds
  obtain ⟨⟨laid, total_eq, bound⟩, heapPtr_eq, size_eq, same⟩ :=
    reread.store_tail whole_content 2 (h.heapPtr + (total front + first.size)) heapMagic (by omega)
      (by omega)
  have before : Reached (({ h with usedMem := h.usedMem - second.size } : Heap).setMagic
      (h.heapPtr + (total front + first.size)) heapMagic) (total front) (lastPlace 0 0 front)
      (whole :: back) := ⟨laid, total_eq, bound⟩
  obtain ⟨reached, linked⟩ := before.cut_relink (whole_size ▸ sizes) rest_free
    (by rw [now, whole_content]) fun other now_other =>
      laid.head.holds other (whole_content.trans (now.symm.trans now_other))
  have touched : Touches h (({ h with usedMem := h.usedMem - second.size } : Heap).setMagic
      (h.heapPtr + (total front + first.size)) heapMagic) (h.heapPtr + total front) :=
    ⟨heapPtr_eq, size_eq, same⟩
  exact ⟨reached, touched.trans linked⟩

/-- The cells when a block has been cut and its end is free. -/
theorem Represents.cutOff (represents : Represents h (front ++ c :: back))
    (held : c.content = some bytes) (now : first.content = some kept)
    (rest_free : second.content = none) (sizes : first.size + second.size = c.size)
    (rest_large : sizeofStructMem < second.size)
    (holds : Holds h.ram (h.heapPtr + total front + sizeofStructMem) kept) :
    InOrder (h.cutOff front first second) (front ++ first :: second :: back) := by
  obtain ⟨reached, touches⟩ := represents.reached_cutOff held now rest_free sizes holds
  refine ⟨represents.reached.glue touches reached, ?_, ?_, ?_, ?_, ?_⟩
  · rw [touches.size_eq]
    exact represents.room
  · rw [touches.heapPtr_eq]
    exact represents.aligned
  · obtain ⟨-, behind⟩ := endsLarge_append_cons.mp represents.endsLarge
    exact endsLarge_append_cons.mpr ⟨by simp, endsLarge_cons.mpr ⟨fun _ => rest_large, behind⟩⟩
  · obtain ⟨x, x_eq, place⟩ := represents.lfree
    rw [lfree_cutOff, touches.heapPtr_eq, touches.stop_eq]
    exact ⟨x, x_eq, place.imp_left (freeAt_cut held sizes)⟩
  · rw [usedMem_cutOff, represents.usedMem_eq]
    simp [held, now, rest_free]
    omega

/-- The branch of `rt_realloc` that splits a block. -/
theorem Represents.split (represents : Represents h (front ++ c :: back)) (first second : Cell)
    (held : c.content = some bytes) (now : first.content = some kept)
    (first_size : first.size = sizeofStructMem + newsize) (rest_free : second.content = none)
    (sizes : first.size + second.size = c.size) (rest_large : sizeofStructMem < second.size)
    (holds : Holds h.ram (h.heapPtr + total front + sizeofStructMem) kept) :
    ∃ cells', Changed h (h.split (total front) (c.size - sizeofStructMem) newsize)
      (front ++ c :: back) cells' (h.heapPtr + total front + sizeofStructMem) (some kept) := by
  have le := represents.reached.drop.next_le
  have bound := represents.reached.bound
  have unit : sizeofStructMem = 16 := rfl
  have amount : sub32 h.usedMem (sub32 (c.size - sizeofStructMem) newsize) =
      h.usedMem - second.size := by
    have used : c.size ≤ h.usedMem := by
      rw [represents.usedMem_eq]
      simp [held]
      omega
    have fits : h.usedMem < 2 ^ 32 := by
      have most := usedTotal_le (front ++ c :: back)
      rw [represents.total_eq, ← represents.usedMem_eq] at most
      omega
    have difference : sub32 (c.size - sizeofStructMem) newsize = second.size := by
      rw [sub32_of_le (by omega) (by omega)]
      omega
    rw [difference, sub32_of_le (by omega) fits]
  have sum : add32 (add32 (total front) sizeofStructMem) newsize = total front + first.size := by
    rw [add32_of_lt (show total front + sizeofStructMem < 2 ^ 32 by omega), add32_of_lt (by omega)]
    omega
  have code : h.split (total front) (c.size - sizeofStructMem) newsize =
      (h.cutOff front first second).plugHoles (h.heapPtr + (total front + first.size)) := by
    rw [Heap.split]
    dsimp only
    rw [amount, sum]
    rfl
  have order := represents.cutOff held now rest_free sizes rest_large holds
  obtain ⟨-, touches⟩ := represents.reached_cutOff held now rest_free sizes holds
  obtain ⟨before, behind, -⟩ := separated_append.mp represents.separated
  have place : total (front ++ [first]) = total front + first.size := by simp
  have apart : Separated (front ++ [first]) :=
    separated_append.mpr ⟨before, List.isChain_singleton _, by
      rintro e - f ⟨⟩
      exact .inr (by rw [now]; rfl)⟩
  rw [List.append_cons] at order
  obtain ⟨cells', plugged, separated⟩ :=
    order.plugHoles rest_free apart (separated_cons.mp behind).2
  rw [touches.heapPtr_eq, place, ← code] at plugged
  refine ⟨cells', plugged.changed separated (touches.mono (by omega))
    (usedMem_cutOff.trans_le (Nat.sub_le _ _)) maxMem_cutOff ?_⟩
  have fits := first.fits kept now
  let whole : Cell := .holding c.size kept (by omega) c.aligned
  have joined : contents h.heapPtr (front ++ first :: second :: back) =
      contents h.heapPtr (front ++ whole :: back) :=
    contents_split rest_free now.symm sizes.symm
  rw [← List.append_cons, joined]
  exact contents_replace (c := whole) rfl

/-- The size of a block, as `rt_realloc` computes it. -/
theorem Represents.blockSize_eq (represents : Represents h (front ++ c :: back)) :
    h.blockSize (h.heapPtr + total front + sizeofStructMem) = c.size - sizeofStructMem := by
  have le := represents.reached.drop.next_le
  have bound := represents.reached.bound
  have header := c.header
  have unit : sizeofStructMem = 16 := rfl
  have length : sub32 (total front + c.size) (total front) = c.size := by
    rw [sub32_of_le (by omega) (by omega), Nat.add_sub_cancel_left]
  rw [blockSize, Nat.add_sub_cancel, Nat.add_sub_cancel_left, represents.reached.drop.next_eq, length,
    sub32_of_le header (by omega)]

/-- The section of `rt_realloc` on a block that a client holds: the block keeps its place
with at least the size asked for, or nothing has happened. -/
theorem Represents.resize (represents : Represents h cells) {p : Nat}
    (held : contents h.heapPtr cells p = some bytes) (multiple : rtAlignSize ∣ newsize)
    (small : newsize ≤ h.memSizeAligned) {count : Nat} (enough : count ≤ newsize) :
    h.resize p newsize = (h, false) ∨
    ∃ h' cells' kept, h.resize p newsize = (h', true) ∧ kept.length = count ∧
      (∀ i < min bytes.length kept.length, kept[i]? = bytes[i]?) ∧
      Changed h h' cells cells' p (some kept) := by
  obtain ⟨front, c, back, rfl, content, rfl⟩ := exists_of_contents held
  have size_eq := represents.blockSize_eq
  have le := represents.reached.drop.next_le
  have bound := represents.reached.bound
  have header := c.header
  have unit : sizeofStructMem = 16 := rfl
  have holds := represents.reached.drop.laid.head.holds bytes content
  let kept := bytesAt h.ram (h.heapPtr + total front + sizeofStructMem) count
  have kept_holds : Holds h.ram (h.heapPtr + total front + sizeofStructMem) kept :=
    holds_bytesAt _ _ _
  have length : kept.length = count := length_bytesAt _ _ _
  have code : h.resize (h.heapPtr + total front + sizeofStructMem) newsize =
      if c.size - sizeofStructMem = newsize then (h, true)
      else if add32 (add32 newsize sizeofStructMem) minSize < c.size - sizeofStructMem then
        (h.split (total front) (c.size - sizeofStructMem) newsize, true)
      else (h, false) := by
    rw [Heap.resize, if_neg represents.pointer_inside]
    rw [blockSize] at size_eq
    simp only [size_eq]
    rw [Nat.add_sub_cancel, Nat.add_sub_cancel_left]
  rw [code]
  split_ifs with same less
  · let whole : Cell := .holding c.size kept (by omega) c.aligned
    refine .inr ⟨h, front ++ whole :: back, kept, rfl, length,
      getElem?_eq_of_holds holds kept_holds, ⟨?_, .refl _ _, contents_replace (c := whole) rfl, le_rfl, rfl⟩⟩
    exact represents.rewrite (by rw [content]; rfl) rfl rfl
      (represents.reached.drop.reread content rfl rfl kept_holds) (.refl _ _) rfl rfl
  · have sum : add32 (add32 newsize sizeofStructMem) minSize = newsize + 28 := by
      have stop_eq : h.stop = h.memSizeAligned + sizeofStructMem := rfl
      rw [add32_of_lt (show newsize + sizeofStructMem < 2 ^ 32 by omega), add32_of_lt] <;>
        simp only [minSize] <;> omega
    rw [sum] at less
    let first : Cell := .holding (sizeofStructMem + newsize) kept (by omega)
      (Nat.dvd_add (by decide) multiple)
    let second : Cell := .free (c.size - (sizeofStructMem + newsize)) (by omega)
      (Nat.dvd_sub c.aligned first.aligned)
    have sizes : first.size + second.size = c.size :=
      Nat.add_sub_of_le (show sizeofStructMem + newsize ≤ c.size by omega)
    obtain ⟨cells', changed⟩ := represents.split first second content rfl rfl rfl sizes
      (by simp only [second, Cell.free]; omega) kept_holds
    exact .inr ⟨_, cells', kept, rfl, length, getElem?_eq_of_holds holds kept_holds, changed⟩
  · exact .inl rfl

end Resize

end BadmintonRobot.Kernel.Heap
