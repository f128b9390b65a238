import BadmintonRobot.Kernel.HeapRuns

/-!
# How the heap is used

The statistics against the headers in RAM, when `rt_malloc` fails, what is left when every
block has been given back, and the functions that are made of several calls.
-/

namespace BadmintonRobot.Kernel

open Semantics Heap

namespace Heap

/-- The blocks from `ptr` on as the headers give them: their sizes, and whether they are used. -/
def walk (h : Heap) : (fuel ptr : Nat) → List (Nat × Bool)
  | 0, _ => []
  | fuel + 1, ptr =>
    if ptr < h.stop then
      (h.next (h.heapPtr + ptr) - ptr, h.used (h.heapPtr + ptr) ≠ 0) ::
        h.walk fuel (h.next (h.heapPtr + ptr))
    else []

/-- The blocks of the heap. -/
def headers (h : Heap) : List (Nat × Bool) := h.walk h.fuel 0

theorem Reached.walk {h : Heap} {ptr prev fuel : Nat} {cells : List Cell}
    (reached : Reached h ptr prev cells) (enough : cells.length < fuel) :
    h.walk fuel ptr = cells.map fun c => (c.size, c.content.isSome) := by
  induction cells generalizing ptr prev fuel with
  | nil =>
    obtain ⟨fuel, rfl⟩ := Nat.exists_eq_succ_of_ne_zero (Nat.ne_of_gt (Nat.zero_lt_of_lt enough))
    have total_eq := reached.total_eq
    rw [total_nil] at total_eq
    rw [Heap.walk, if_neg (by omega), List.map_nil]
  | cons c cells ih =>
    obtain ⟨fuel, rfl⟩ := Nat.exists_eq_succ_of_ne_zero (Nat.ne_of_gt (Nat.zero_lt_of_lt enough))
    have le := reached.next_le
    have header := c.header
    simp only [sizeofStructMem] at header
    rw [Heap.walk, if_pos (by omega), reached.next_eq, reached.used_eq,
      ih reached.tail (by simpa using enough), List.map_cons, Nat.add_sub_cancel_left]
    cases c.content <;> rfl

theorem Represents.headers_eq {h : Heap} {cells : List Cell} (represents : Represents h cells) :
    h.headers = cells.map fun c => (c.size, c.content.isSome) :=
  represents.reached.walk represents.reached.length_lt_fuel

theorem sum_headers (cells : List Cell) :
    ((cells.map fun c => (c.size, c.content.isSome)).map Prod.fst).sum = total cells := by
  simp [total, Function.comp_def]

theorem sum_used_headers (cells : List Cell) :
    (((cells.map fun c => (c.size, c.content.isSome)).filter Prod.snd).map Prod.fst).sum =
      usedTotal cells := by
  induction cells with
  | nil => rfl
  | cons c cells ih =>
    cases used : c.content.isSome with
    | false => simpa [used] using ih
    | true => simpa [used] using ih

section Reallocation

variable {h h' : Heap} {p q size : Nat}

theorem rtRealloc_eq_kept (small : ¬ rtAlign size > h.memSizeAligned)
    (stays : h.resize p (rtAlign size) = (h', true)) :
    h.rtRealloc (some p) size = some (h', some p) := by
  rw [Heap.rtRealloc]
  dsimp only
  rw [if_neg small, stays]

theorem rtRealloc_eq_none (small : ¬ rtAlign size > h.memSizeAligned)
    (moves : h.resize p (rtAlign size) = (h, false))
    (failed : h.rtMalloc (rtAlign size) = some (h, none)) :
    h.rtRealloc (some p) size = some (h, none) := by
  rw [Heap.rtRealloc]
  dsimp only
  rw [if_neg small, moves]
  dsimp only
  rw [failed, Option.map_some]

theorem rtRealloc_eq_moved (small : ¬ rtAlign size > h.memSizeAligned)
    (moves : h.resize p (rtAlign size) = (h, false))
    (got : h.rtMalloc (rtAlign size) = some (h', some q)) :
    h.rtRealloc (some p) size = some (Heap.rtFree { h' with
      ram := rtMemcpy h'.ram q p (min (h.blockSize p) (rtAlign size)) } (some p), some q) := by
  rw [Heap.rtRealloc]
  dsimp only
  rw [if_neg small, moves]
  dsimp only
  rw [got, Option.map_some]

end Reallocation

end Heap

namespace Clients

variable {ram : Memory} {beginAddr endAddr : Nat} {requests : List Request} {s : Clients}

/-- The blocks fill the heap, no two unused ones are neighbours, and `used_mem` counts the
bytes of those in use. -/
theorem heap_statistics (area : Area beginAddr endAddr)
    (steps : Steps (Takes Clients.step) (start ram beginAddr endAddr) requests s) :
    (s.heap.headers.map Prod.fst).sum = rtAlignDown endAddr - rtAlign beginAddr - sizeofStructMem ∧
    s.heap.headers.IsChain (fun first second => first.2 ∨ second.2) ∧
    s.heap.usedMem = ((s.heap.headers.filter Prod.snd).map Prod.fst).sum := by
  obtain ⟨cells, reaches⟩ := reaches_of_steps area steps
  have represents := reaches.serves.represents
  rw [represents.headers_eq, sum_headers, sum_used_headers]
  refine ⟨?_, ?_, represents.usedMem_eq⟩
  · have ends := reaches.serves.heapEnd_eq
    rw [heapEnd, reaches.serves.heapPtr_eq] at ends
    rw [represents.total_eq]
    omega
  · rw [List.isChain_map]
    exact represents.separated

theorem heap_statistics_two_blocks :
    ∃ s, Steps (Takes Clients.step) (start (fun _ => 0) 8 136)
        [.alloc 10 (some 24), .alloc 20 (some 56)] s ∧
      (s.heap.headers.map Prod.fst).sum = rtAlignDown 136 - rtAlign 8 - sizeofStructMem ∧
      s.heap.headers.IsChain (fun first second => first.2 ∨ second.2) ∧
      s.heap.usedMem = ((s.heap.headers.filter Prod.snd).map Prod.fst).sum := by
  obtain ⟨s, steps⟩ := exists_steps (start (fun _ => 0) 8 136)
    [.alloc 10 (some 24), .alloc 20 (some 56)] (by decide +kernel)
  exact ⟨s, steps, heap_statistics area_small steps⟩

theorem Serves.maxMem_mono {low high : Nat} {mid : Clients} {cells : List Cell}
    (serves : Serves low high mid cells) (steps : Steps (Takes Clients.step) mid requests s) :
    mid.heap.maxMem ≤ s.heap.maxMem := by
  have kept : ∃ cells, Serves low high s cells ∧ mid.heap.maxMem ≤ s.heap.maxMem := by
    induction steps with
    | refl => exact ⟨cells, serves, le_rfl⟩
    | step _ taken ih =>
      obtain ⟨cells, serves, le⟩ := ih
      obtain ⟨cells', advance⟩ := serves.advance taken
      refine ⟨cells', advance.serves, ?_⟩
      rw [advance.maxMem_eq]
      exact le.trans (le_max_left _ _)
  exact kept.choose_spec.2

/-- The value of `max_mem` is the largest that `used_mem` has had. -/
theorem max_mem_is_maximum (area : Area beginAddr endAddr)
    (steps : Steps (Takes Clients.step) (start ram beginAddr endAddr) requests s) :
    (∀ front back mid, requests = front ++ back →
      Steps (Takes Clients.step) (start ram beginAddr endAddr) front mid →
      Steps (Takes Clients.step) mid back s → mid.heap.usedMem ≤ s.heap.maxMem) ∧
    ∃ front back mid, requests = front ++ back ∧
      Steps (Takes Clients.step) (start ram beginAddr endAddr) front mid ∧
      Steps (Takes Clients.step) mid back s ∧ mid.heap.usedMem = s.heap.maxMem := by
  constructor
  · intro front back mid _ before behind
    obtain ⟨cells, reaches⟩ := reaches_of_steps area before
    exact reaches.serves.usedMem_le.trans (reaches.serves.maxMem_mono behind)
  · induction steps with
    | refl =>
      refine ⟨[], [], _, rfl, .refl, .refl, ?_⟩
      rw [start_heap_eq area]
    | @step labels current next label prior taken ih =>
      obtain ⟨cells, reaches⟩ := reaches_of_steps area prior
      obtain ⟨cells', advance⟩ := reaches.serves.advance taken
      obtain ⟨front, back, mid, rfl, before, behind, peak⟩ := ih
      rcases le_total next.heap.usedMem current.heap.maxMem with below | above
      · refine ⟨front, back ++ [label], mid, by rw [List.append_assoc], before,
          behind.step taken, ?_⟩
        rw [advance.maxMem_eq, max_eq_left below, peak]
      · refine ⟨_, [], next, (List.append_nil _).symm, prior.step taken, .refl, ?_⟩
        rw [advance.maxMem_eq, max_eq_right above]

theorem max_mem_is_maximum_after_free :
    ∃ s, Steps (Takes Clients.step) (start (fun _ => 0) 8 136)
        [.alloc 10 (some 24), .free 24] s ∧
      (∀ front back mid, [.alloc 10 (some 24), .free 24] = front ++ back →
        Steps (Takes Clients.step) (start (fun _ => 0) 8 136) front mid →
        Steps (Takes Clients.step) mid back s → mid.heap.usedMem ≤ s.heap.maxMem) ∧
      ∃ front back mid, [.alloc 10 (some 24), .free 24] = front ++ back ∧
        Steps (Takes Clients.step) (start (fun _ => 0) 8 136) front mid ∧
        Steps (Takes Clients.step) mid back s ∧ mid.heap.usedMem = s.heap.maxMem := by
  obtain ⟨s, steps⟩ := exists_steps (start (fun _ => 0) 8 136)
    [.alloc 10 (some 24), .free 24] (by decide +kernel)
  exact ⟨s, steps, max_mem_is_maximum area_small steps⟩

/-- A request fails only if it is for no bytes, for more than the heap has, or if no unused
block is large enough. An unused block at the end of the heap that would fit exactly is not
found. Runs in which `rt_realloc` shortens a block are excluded: the space that this sets
free can be below `lfree`, where `rt_malloc` does not look. -/
theorem malloc_fails_without_room (area : Area beginAddr endAddr)
    (steps : Steps (Takes Clients.step) (start ram beginAddr endAddr) requests s)
    (steady : ∀ p size, .resize p size true ∉ requests) {size : Nat} {next : Clients}
    (failed : s.step (.alloc size none) = some next) :
    size = 0 ∨ s.heap.memSizeAligned < rtAlign size ∨
    ∀ front bytes back, s.heap.headers = front ++ (bytes, false) :: back →
      sizeofStructMem + rounded size ≤ bytes →
        back = [] ∧ bytes = sizeofStructMem + rounded size := by
  obtain ⟨cells, reaches⟩ := reaches_of_steps area steps
  have represents := reaches.serves.represents
  have lowest := reaches.lowest steady
  rw [Clients.step, Option.ite_none_right_eq_some] at failed
  obtain ⟨roundable, failed⟩ := failed
  rcases represents.rtMalloc size (le_rounded roundable) with
    ⟨-, zero | large | only⟩ | ⟨h, cells', p, bytes, code, -⟩
  · exact .inl zero
  · exact .inr (.inl large)
  · refine .inr (.inr fun front bytes back split enough => ?_)
    rw [represents.headers_eq, List.map_eq_append_iff] at split
    obtain ⟨before, behind, rfl, rfl, split⟩ := split
    obtain ⟨c, after, rfl, here, rfl⟩ := List.map_eq_cons_iff.mp split
    obtain ⟨rfl, unused⟩ := Prod.mk.inj here
    have free : c.content = none := by simpa using unused
    have above : s.heap.lfree ≤ s.heap.heapPtr + total before := lowest _ (by simp [free])
    obtain ⟨rfl, whole⟩ := only before c after rfl above ⟨free, enough⟩
    exact ⟨rfl, whole⟩
  · rw [code] at failed
    simp at failed

/-- The whole heap cannot be had in one block: its free block fits exactly, and is the last. -/
theorem malloc_fails_without_room_whole :
    ∃ s next, Steps (Takes Clients.step) (start (fun _ => 0) 8 136) [] s ∧
      s.step (.alloc 96 none) = some next ∧
      ((96 : Nat) = 0 ∨ s.heap.memSizeAligned < rtAlign 96 ∨
      ∀ front bytes back, s.heap.headers = front ++ (bytes, false) :: back →
        sizeofStructMem + rounded 96 ≤ bytes →
          back = [] ∧ bytes = sizeofStructMem + rounded 96) := by
  have failed : ((start (fun _ => 0) 8 136).step (.alloc 96 none)).isSome := by decide +kernel
  obtain ⟨next, failed⟩ := Option.isSome_iff_exists.mp failed
  exact ⟨_, next, .refl, failed,
    malloc_fails_without_room area_small .refl (by simp) failed⟩

/-- When every block has been given back, the heap is one unused block again, and every size
that can be rounded to less than the heap is granted at its front. -/
theorem heap_restored (area : Area beginAddr endAddr)
    (steps : Steps (Takes Clients.step) (start ram beginAddr endAddr) requests s)
    (nobody : ∀ p, s.granted p = none) :
    s.heap.headers = [(s.heap.stop, false)] ∧ s.heap.lfree = s.heap.heapPtr ∧
    s.heap.usedMem = 0 ∧
    ∀ size, 0 < size → Roundable size → rounded size < s.heap.memSizeAligned →
      ∃ next, s.step (.alloc size (some (rtAlign beginAddr + sizeofStructMem))) = some next := by
  obtain ⟨cells, reaches⟩ := reaches_of_steps area steps
  have serves := reaches.serves
  have represents := serves.represents
  have lfree_eq := reaches.restores nobody
  have nonempty : cells ≠ [] := by
    rintro rfl
    have total_eq := represents.total_eq
    simp [stop, sizeofStructMem] at total_eq
  obtain ⟨c, rfl, free⟩ := eq_singleton_of_contents represents.separated nonempty fun p => by
    simpa [nobody p] using (serves.granted_eq p).symm
  have size_eq : c.size = s.heap.stop := by simpa using represents.total_eq
  refine ⟨?_, lfree_eq, ?_, ?_⟩
  · rw [represents.headers_eq, List.map_singleton, size_eq, free]
    rfl
  · rw [represents.usedMem_eq]
    simp [free]
  · intro size positive roundable small
    have le : rtAlign size ≤ rounded size := by
      rw [rounded]
      split_ifs <;> omega
    have stop_eq : s.heap.stop = s.heap.memSizeAligned + sizeofStructMem := rfl
    rcases represents.rtMalloc size (le_rounded roundable) with
      ⟨-, zero | large | only⟩ | ⟨h, cells', p, bytes, code, -, -, front, d, back, split, -, rfl⟩
    · omega
    · omega
    · have fits := (only [] c [] rfl (by simp [lfree_eq]) ⟨free, by omega⟩).2
      omega
    · obtain rfl : front = [] := by
        rcases front with _ | ⟨e, front⟩
        · rfl
        · simp at split
      rw [serves.heapPtr_eq, total_nil, Nat.add_zero] at code
      exact ⟨_, by rw [Clients.step, if_pos roundable, code]; exact if_pos rfl⟩

theorem heap_restored_after_free :
    ∃ s, Steps (Takes Clients.step) (start (fun _ => 0) 8 136)
        [.alloc 10 (some 24), .alloc 20 (some 56), .free 24, .free 56] s ∧
      s.heap.headers = [(s.heap.stop, false)] ∧ s.heap.lfree = s.heap.heapPtr ∧
      s.heap.usedMem = 0 ∧
      ∀ size, 0 < size → Roundable size → rounded size < s.heap.memSizeAligned →
        ∃ next, s.step (.alloc size (some (rtAlign 8 + sizeofStructMem))) = some next := by
  obtain ⟨s, steps⟩ := exists_steps (start (fun _ => 0) 8 136)
    [.alloc 10 (some 24), .alloc 20 (some 56), .free 24, .free 56] (by decide +kernel)
  have nobody : ∀ p, s.granted p = none := by
    intro p
    rw [granted_of_steps steps]
    simp only [List.foldl, book, Function.update_apply, start]
    split_ifs <;> rfl
  exact ⟨s, steps, heap_restored area_small steps nobody⟩

section Moves

variable {low high : Nat} {cells cells' : List Cell} {p q n size : Nat}

/-- Bytes written into a block, of which the first `size` are the client's. -/
theorem Serves.overwrite (serves : Serves low high s cells) {held : List UInt8}
    (here : contents low cells q = some held) (fits : size ≤ held.length) {ram : Memory}
    (outside : ∀ place, place < q ∨ q + held.length ≤ place → ram place = s.heap.ram place) :
    ∃ cells', contents low cells' =
        Function.update (contents low cells) q (some (bytesAt ram q size)) ∧
      Serves low high ⟨{ s.heap with ram := ram }, Function.update s.granted q (some size)⟩
        cells' := by
  obtain ⟨front, c, back, rfl, content, rfl⟩ := exists_of_contents here
  have heapPtr_eq := serves.heapPtr_eq
  subst heapPtr_eq
  have room := c.fits held content
  let bytes := bytesAt ram (s.heap.heapPtr + total front + sizeofStructMem) size
  let filled : Cell := .holding c.size bytes (by simp [bytes]; omega) c.aligned
  obtain ⟨reached, touches⟩ := serves.represents.reached.drop.fill (by rw [content]; rfl)
    (show filled.size = c.size from rfl) rfl (holds_bytesAt ram _ size)
    fun place beyond => outside place (by omega)
  have changed : Changed s.heap { s.heap with ram := ram } (front ++ c :: back)
      (front ++ filled :: back) (s.heap.heapPtr + total front + sizeofStructMem) (some bytes) :=
    ⟨serves.represents.rewrite (by rw [content]; rfl) rfl rfl reached touches rfl rfl,
      touches.mono (Nat.le_add_right _ _), contents_replace (c := filled) rfl, le_rfl, rfl⟩
  obtain ⟨contents_eq, after⟩ := serves.of_changed changed
  rw [Option.map_some, length_bytesAt] at after
  exact ⟨front ++ filled :: back, contents_eq, after⟩

/-- A block with the same bytes in two heaps. -/
theorem Serves.ram_kept {s' : Clients} (serves : Serves low high s cells)
    (later : Serves low high s' cells') (same : contents low cells' p = contents low cells p)
    (owned : s.granted p = some n) : ∀ i < n, s'.heap.ram (p + i) = s.heap.ram (p + i) := by
  intro i inside
  obtain ⟨bytes, block, rfl⟩ := serves.exists_bytes owned
  have now := later.ram_eq (same.trans block) inside
  exact Option.some.inj (now.symm.trans (serves.ram_eq block inside))

/-- The branch of `rt_realloc` that moves the bytes to a new block. -/
theorem Serves.move (serves : Serves low high s cells) (size : Nat) {bytes : List UInt8}
    (held : contents low cells p = some bytes) {h : Heap} {block : List UInt8}
    (allocated : Allocated s.heap h cells cells' q block) (enough : size ≤ block.length)
    (whole : bytes.length ≤ s.heap.blockSize p) :
    let h' := Heap.rtFree { h with
      ram := rtMemcpy h.ram q p (min (s.heap.blockSize p) block.length) } (some p)
    s.granted q = none ∧ ∃ cells'',
      Serves low high ⟨h', Function.update (Function.update s.granted p none) q (some size)⟩
        cells'' ∧
      (∀ i < min bytes.length size, h'.ram (q + i) = s.heap.ram (p + i)) ∧
      ∀ r m, r ≠ p → s.granted r = some m → ∀ i < m, h'.ram (r + i) = s.heap.ram (r + i) := by
  intro h'
  obtain ⟨fresh, added, first⟩ := serves.of_allocated allocated
  have apart : q ≠ p := by
    rintro rfl
    rw [held] at fresh
    cases fresh
  have outside : ∀ place, place < q ∨ q + block.length ≤ place →
      rtMemcpy h.ram q p (min (s.heap.blockSize p) block.length) place = h.ram place := by
    intro place outside
    rw [rtMemcpy, if_neg (by omega)]
  obtain ⟨copies, copied, second⟩ :=
    first.overwrite (by rw [added, Function.update_self]) enough outside
  have still : contents low copies p = some bytes := by
    rw [copied, Function.update_of_ne apart.symm, added, Function.update_of_ne apart.symm, held]
  obtain ⟨cells'', changed, -⟩ := second.represents.rtFree (second.heapPtr_eq.symm ▸ still)
  obtain ⟨removed, third⟩ := second.of_changed changed
  have unowned : s.granted q = none := by rw [serves.granted_eq, fresh]; rfl
  refine ⟨unowned, cells'', ?_, ?_, ?_⟩
  · have granted_eq : Function.update (Function.update (Function.update s.granted q
        (some block.length)) q (some size)) p none =
        Function.update (Function.update s.granted p none) q (some size) := by
      rw [Function.update_idem, Function.update_comm apart]
    rw [← granted_eq]
    exact third
  · intro i inside
    have now := third.ram_eq (show contents low cells'' q = _ by
      rw [removed, Function.update_of_ne apart, copied, Function.update_self])
      (show i < (bytesAt _ _ size).length by rw [length_bytesAt]; omega)
    rw [holds_bytesAt _ _ _ i (by rw [length_bytesAt]; omega), Option.some.injEq] at now
    have owned : s.granted p = some bytes.length := by rw [serves.granted_eq, held]; rfl
    have before : h.ram (p + i) = s.heap.ram (p + i) :=
      serves.ram_kept first (by rw [added, Function.update_of_ne apart.symm]) owned i (by omega)
    rw [← now, ← before, rtMemcpy, if_pos (by omega), Nat.add_sub_cancel_left]
  · intro r m other theirs
    have elsewhere : r ≠ q := by
      rintro rfl
      rw [unowned] at theirs
      cases theirs
    refine serves.ram_kept third ?_ theirs
    rw [removed, Function.update_of_ne other, copied, Function.update_of_ne elsewhere, added,
      Function.update_of_ne elsewhere]

/-- The function `rt_realloc` on a block of `n` bytes. It fails and leaves everything as it
was, or the client has a block of the size it asked for, at the same place or a new one, with
the bytes that it had. -/
theorem Serves.rtRealloc (serves : Serves low high s cells) (owned : s.granted p = some n)
    (roundable : Roundable size) :
    s.heap.rtRealloc (some p) size = some (s.heap, none) ∨
    ∃ h q cells', s.heap.rtRealloc (some p) size = some (h, some q) ∧
      (q = p ∨ s.granted q = none) ∧
      Serves low high ⟨h, Function.update (Function.update s.granted p none) q (some size)⟩ cells' ∧
      (∀ i < min n size, h.ram (q + i) = s.heap.ram (p + i)) ∧
      ∀ r m, r ≠ p → s.granted r = some m → ∀ i < m, h.ram (r + i) = s.heap.ram (r + i) := by
  obtain ⟨bytes, held, length⟩ := serves.exists_bytes owned
  have heapPtr_eq := serves.heapPtr_eq
  by_cases large : rtAlign size > s.heap.memSizeAligned
  · exact .inl (by rw [Heap.rtRealloc]; exact if_pos large)
  have le := le_rtAlign roundable
  rcases serves.represents.resize (heapPtr_eq.symm ▸ held) (rtAlignSize_dvd_rtAlign size)
      (Nat.le_of_not_lt large) le with
    moves | ⟨h, cells', kept, stays, rfl, same, changed⟩
  · have bound := serves.represents.reached.bound
    have fits : Roundable (rtAlign size) := by
      simp only [stop, sizeofStructMem] at bound
      simp only [Roundable, rtAlignSize]
      omega
    have whole : bytes.length ≤ s.heap.blockSize p := by
      subst heapPtr_eq
      obtain ⟨front, c, back, rfl, content, rfl⟩ := exists_of_contents held
      have room := c.fits bytes content
      rw [serves.represents.blockSize_eq]
      omega
    rcases serves.represents.rtMalloc (rtAlign size) (le_rounded fits) with
      ⟨failed, -⟩ | ⟨h, cells', q, block, got, same, allocated, -⟩
    · exact .inl (rtRealloc_eq_none large moves failed)
    · obtain ⟨unowned, cells'', after, kept, others⟩ :=
        serves.move size held allocated (by omega) whole
      rw [same] at after kept others
      exact .inr ⟨_, q, cells'', rtRealloc_eq_moved large moves got, .inr unowned, after, length ▸ kept, others⟩
  · obtain ⟨contents_eq, after⟩ := serves.of_changed changed
    refine .inr ⟨h, p, cells', rtRealloc_eq_kept large stays, .inl rfl, ?_, ?_, ?_⟩
    · rw [Function.update_idem]
      exact after
    · intro i inside
      have now := after.ram_eq (by rw [contents_eq, Function.update_self])
        (show i < kept.length by omega)
      rw [same i (by omega)] at now
      exact Option.some.inj (now.symm.trans (serves.ram_eq held (by omega)))
    · intro r m other theirs
      refine serves.ram_kept after ?_ theirs
      rw [contents_eq, Function.update_of_ne other]

/-- The function `rt_calloc`. It fails and leaves everything as it was, or the client has a
block of zeros. The product of its arguments is a 32-bit word. -/
theorem Serves.rtCalloc (serves : Serves low high s cells) (count size : Nat)
    (roundable : Roundable (count * size % 2 ^ 32)) :
    s.heap.rtCalloc count size = some (s.heap, none) ∨
    ∃ h q cells', s.heap.rtCalloc count size = some (h, some q) ∧ s.granted q = none ∧
      Serves low high ⟨h, Function.update s.granted q (some (count * size % 2 ^ 32))⟩ cells' ∧
      (∀ i < count * size % 2 ^ 32, h.ram (q + i) = 0) ∧
      ∀ r m, s.granted r = some m → ∀ i < m, h.ram (r + i) = s.heap.ram (r + i) := by
  generalize total_eq : count * size % 2 ^ 32 = amount at roundable
  rcases serves.represents.rtMalloc amount (le_rounded roundable) with
    ⟨failed, -⟩ | ⟨h, cells', q, block, got, rfl, allocated, -⟩
  · exact .inl (by rw [Heap.rtCalloc, total_eq, failed]; rfl)
  · have code : s.heap.rtCalloc count size =
        some ({ h with ram := rtMemset h.ram q 0 block.length }, some q) := by
      rw [Heap.rtCalloc, total_eq, got]
      rfl
    obtain ⟨fresh, added, first⟩ := serves.of_allocated allocated
    have unowned : s.granted q = none := by rw [serves.granted_eq, fresh]; rfl
    have outside : ∀ place, place < q ∨ q + block.length ≤ place →
        rtMemset h.ram q 0 block.length place = h.ram place := by
      intro place outside
      rw [rtMemset, if_neg (by omega)]
    obtain ⟨cells'', filled, second⟩ :=
      first.overwrite (by rw [added, Function.update_self]) le_rfl outside
    refine .inr ⟨_, q, cells'', code, unowned, ?_, ?_, ?_⟩
    · rw [Function.update_idem] at second
      exact second
    · intro i inside
      show rtMemset h.ram q 0 block.length (q + i) = 0
      rw [rtMemset, if_pos (by omega)]
    · intro r m theirs
      have elsewhere : r ≠ q := by
        rintro rfl
        rw [unowned] at theirs
        cases theirs
      refine serves.ram_kept second ?_ theirs
      rw [filled, Function.update_of_ne elsewhere, added, Function.update_of_ne elsewhere]

end Moves

end Clients

end BadmintonRobot.Kernel
