import BadmintonRobot.Kernel.HeapReturns

/-!
# Clients of the heap

Clients ask for blocks, use them and give them back, in any order. A client stays within what
it asked for. What it sees is an allocator: blocks inside the heap that do not overlap, with
the bytes that were written to them.
-/

namespace BadmintonRobot.Kernel

open Semantics Heap

/-- The heap with the blocks that were handed out, and the size that was asked for. -/
structure Clients where
  heap : Heap
  granted : Nat → Option Nat

/-- A client writes a byte. -/
def Heap.poke (h : Heap) (place : Nat) (byte : UInt8) : Heap :=
  { h with ram := Function.update h.ram place byte }

namespace Clients

/-- The heap as the startup code leaves it. -/
def start (ram : Memory) (beginAddr endAddr : Nat) : Clients where
  heap := Heap.rtSystemHeapInit ⟨ram, 0, 0, 0, 0, 0⟩ beginAddr endAddr
  granted _ := none

/-- A size that can be rounded up in 32 bits. -/
abbrev Roundable (size : Nat) : Prop := size ≤ 2 ^ 32 - rtAlignSize

/-- A request and the code's answer to it. Clients use the bytes they asked for. -/
def step (s : Clients) : Request → Option Clients
  | .alloc size result =>
    if Roundable size then
      (s.heap.rtMalloc size).bind fun
        | (h, none) => if result = none then some { s with heap := h } else none
        | (h, some p) => if result = some p then
            some ⟨h, Function.update s.granted p (some size)⟩ else none
    else none
  | .free p =>
    if (s.granted p).isSome then
      some ⟨s.heap.rtFree (some p), Function.update s.granted p none⟩
    else none
  | .resize p size granted =>
    if (s.granted p).isSome ∧ Roundable size then
      if rtAlign size > s.heap.memSizeAligned then if granted then none else some s
      else
        match s.heap.resize p (rtAlign size) with
        | (h, true) =>
          if granted then some ⟨h, Function.update s.granted p (some size)⟩ else none
        | (h, false) => if granted then none else some { s with heap := h }
    else none
  | .read p i byte =>
    if i < (s.granted p).getD 0 ∧ s.heap.ram (p + i) = byte then some s else none
  | .write p i byte =>
    if i < (s.granted p).getD 0 then
      some { s with heap := s.heap.poke (p + i) byte }
    else none

variable {low high : Nat} {s s' : Clients} {cells cells' : List Cell} {request : Request}
  {p : Nat}

/-- What the clients hold after a request, from its answer alone. -/
def book (granted : Nat → Option Nat) : Request → Nat → Option Nat
  | .alloc size (some p) => Function.update granted p (some size)
  | .free p => Function.update granted p none
  | .resize p size true => Function.update granted p (some size)
  | _ => granted

theorem granted_of_step (taken : s.step request = some s') :
    s'.granted = book s.granted request := by
  cases request with
  | alloc size result =>
    rw [step, Option.ite_none_right_eq_some] at taken
    obtain ⟨-, taken⟩ := taken
    obtain ⟨⟨h, answer⟩, -, taken⟩ := Option.bind_eq_some_iff.mp taken
    cases answer with
    | none =>
      obtain ⟨rfl, now⟩ := Option.ite_none_right_eq_some.mp taken
      rw [← Option.some.inj now]
      rfl
    | some q =>
      obtain ⟨rfl, now⟩ := Option.ite_none_right_eq_some.mp taken
      rw [← Option.some.inj now]
      rfl
  | free p =>
    rw [step, Option.ite_none_right_eq_some] at taken
    rw [← Option.some.inj taken.2]
    rfl
  | resize p size granted =>
    rw [step, Option.ite_none_right_eq_some] at taken
    obtain ⟨-, taken⟩ := taken
    by_cases large : rtAlign size > s.heap.memSizeAligned
    · rw [if_pos large] at taken
      obtain ⟨refused, taken⟩ := Option.ite_none_left_eq_some.mp taken
      obtain rfl : granted = false := by simpa using refused
      rw [← Option.some.inj taken]
      rfl
    · rw [if_neg large] at taken
      rcases resized : s.heap.resize p (rtAlign size) with ⟨h, kept⟩
      rw [resized] at taken
      cases kept with
      | true =>
        obtain ⟨rfl, now⟩ := Option.ite_none_right_eq_some.mp taken
        rw [← Option.some.inj now]
        rfl
      | false =>
        obtain ⟨refused, taken⟩ := Option.ite_none_left_eq_some.mp taken
        obtain rfl : granted = false := by simpa using refused
        rw [← Option.some.inj taken]
        rfl
  | read p i byte =>
    rw [step, Option.ite_none_right_eq_some] at taken
    rw [← Option.some.inj taken.2]
    rfl
  | write p i byte =>
    rw [step, Option.ite_none_right_eq_some] at taken
    rw [← Option.some.inj taken.2]
    rfl

theorem granted_of_steps {first : Clients} {requests : List Request}
    (steps : Steps (Takes Clients.step) first requests s) :
    s.granted = requests.foldl book first.granted := by
  induction steps with
  | refl => rfl
  | step _ taken ih => rw [granted_of_step taken, ih, List.foldl_append, List.foldl_cons, List.foldl_nil]

/-- The heap between two addresses is in order, and the clients hold the blocks in it. -/
structure Serves (low high : Nat) (s : Clients) (cells : List Cell) : Prop where
  heapPtr_eq : s.heap.heapPtr = low
  heapEnd_eq : s.heap.heapEnd = high
  represents : Represents s.heap cells
  granted_eq : ∀ p, s.granted p = (contents low cells p).map List.length
  usedMem_le : s.heap.usedMem ≤ s.heap.maxMem

/-- What the clients hold. -/
def Serves.blocks (serves : Serves low high s cells) : Blocks low high :=
  Heap.blocks low cells high <| by
    rw [← serves.heapPtr_eq, ← serves.heapEnd_eq, heapEnd, serves.represents.total_eq]

/-- Once every block has been given back, the search starts at the front again. -/
def Restores (s : Clients) : Prop :=
  (∀ p, s.granted p = none) → s.heap.lfree = s.heap.heapPtr

/-- What one request does. -/
structure Advance (low high : Nat) (s s' : Clients) (cells cells' : List Cell)
    (request : Request) : Prop where
  serves : Serves low high s' cells'
  answer : ∀ before after : Blocks low high, before.contents = contents low cells →
    after.contents = contents low cells' → before.Step rtAlignSize request after
  outside : Set.EqOn s'.heap.ram s.heap.ram (s.heap.untouched low)
  maxMem_eq : s'.heap.maxMem = max s.heap.maxMem s'.heap.usedMem
  lowest : (∀ p size, request ≠ .resize p size true) → Lowest s.heap cells →
    Lowest s'.heap cells'
  restores : Restores s → Restores s'

/-- A request that leaves everything as it is. -/
theorem Serves.stay (serves : Serves low high s cells)
    (answer : ∀ blocks : Blocks low high, blocks.contents = contents low cells →
      blocks.Step rtAlignSize request blocks) : Advance low high s s cells cells request where
  serves := serves
  answer before after first second := by
    obtain rfl : before = after := Blocks.ext (first.trans second.symm)
    exact answer before first
  outside _ _ := rfl
  maxMem_eq := (max_eq_left serves.usedMem_le).symm
  lowest _ := id
  restores := id

theorem Serves.exists_bytes (serves : Serves low high s cells) {n : Nat}
    (granted : s.granted p = some n) :
    ∃ bytes, contents low cells p = some bytes ∧ bytes.length = n := by
  rw [serves.granted_eq, Option.map_eq_some_iff] at granted
  exact granted

/-- The blocks after one of them has changed. -/
theorem Serves.granted_update (serves : Serves low high s cells) {content : Option (List UInt8)}
    (changed : contents low cells' = Function.update (contents low cells) p content) :
    ∀ q, Function.update s.granted p (content.map List.length) q =
      (contents low cells' q).map List.length := by
  intro q
  rw [changed]
  by_cases here : q = p
  · subst here
    rw [Function.update_self, Function.update_self]
  · rw [Function.update_of_ne here, Function.update_of_ne here, serves.granted_eq]

/-- The heap serves its clients when one of them has got a block. -/
theorem Serves.of_allocated (serves : Serves low high s cells) {h : Heap} {bytes : List UInt8}
    (allocated : Allocated s.heap h cells cells' p bytes) :
    contents low cells p = none ∧
      contents low cells' = Function.update (contents low cells) p (some bytes) ∧
      Serves low high ⟨h, Function.update s.granted p (some bytes.length)⟩ cells' := by
  have heapPtr_eq := serves.heapPtr_eq
  have added := allocated.added
  have fresh := allocated.fresh
  rw [heapPtr_eq] at added fresh
  refine ⟨fresh, added, ?_, ?_, allocated.represents, serves.granted_update added, ?_⟩
  · exact allocated.touches.heapPtr_eq.trans heapPtr_eq
  · exact allocated.touches.heapEnd_eq.trans serves.heapEnd_eq
  · show h.usedMem ≤ h.maxMem
    rw [allocated.maxMem_eq]
    exact le_max_right _ _

theorem Serves.alloc (serves : Serves low high s cells) {size : Nat} {result : Option Nat}
    (taken : s.step (.alloc size result) = some s') :
    ∃ cells', Advance low high s s' cells cells' (.alloc size result) := by
  rw [step, Option.ite_none_right_eq_some] at taken
  obtain ⟨roundable, taken⟩ := taken
  have enough := le_rounded roundable
  rcases serves.represents.rtMalloc size enough with
    ⟨failed, -⟩ | ⟨h, cells', p, bytes, code, rfl, allocated, -⟩
  · simp only [failed, Option.bind_some, Option.ite_none_right_eq_some, Option.some.injEq] at taken
    obtain ⟨rfl, rfl⟩ := taken
    exact ⟨cells, serves.stay fun blocks _ => .exhausted size⟩
  · simp only [code, Option.bind_some, Option.ite_none_right_eq_some, Option.some.injEq] at taken
    obtain ⟨rfl, rfl⟩ := taken
    obtain ⟨fresh, added, after⟩ := serves.of_allocated allocated
    refine ⟨cells', after, ?_, ?_, allocated.maxMem_eq, fun _ => allocated.lowest, ?_⟩
    · intro before after first second
      exact .alloc bytes (by rw [first, fresh]) allocated.aligned (by rw [first, second, added])
    · exact serves.heapPtr_eq ▸ allocated.touches.same
    · intro _ nobody
      simpa using nobody p

/-- The heap serves its clients when a block has changed, and no other. -/
theorem Serves.of_changed (serves : Serves low high s cells) {h : Heap}
    {content : Option (List UInt8)} (changed : Changed s.heap h cells cells' p content) :
    contents low cells' = Function.update (contents low cells) p content ∧
      Serves low high ⟨h, Function.update s.granted p (content.map List.length)⟩ cells' := by
  have heapPtr_eq := serves.heapPtr_eq
  have contents_eq := changed.contents_eq
  rw [heapPtr_eq] at contents_eq
  refine ⟨contents_eq, ?_, ?_, changed.represents, serves.granted_update contents_eq, ?_⟩
  · exact changed.touches.heapPtr_eq.trans heapPtr_eq
  · exact changed.touches.heapEnd_eq.trans serves.heapEnd_eq
  · show h.usedMem ≤ h.maxMem
    rw [changed.maxMem_eq]
    exact changed.usedMem_le.trans serves.usedMem_le

/-- A request that changes a block. -/
theorem Serves.change (serves : Serves low high s cells) {h : Heap}
    {content : Option (List UInt8)} (changed : Changed s.heap h cells cells' p content)
    (answer : ∀ before after : Blocks low high, before.contents = contents low cells →
      after.contents = Function.update before.contents p content →
        before.Step rtAlignSize request after)
    (lowest : (∀ p size, request ≠ .resize p size true) → Lowest s.heap cells → Lowest h cells')
    (restores : content = none → (∀ q, contents low cells' q = none) → h.lfree = h.heapPtr) :
    Advance low high s ⟨h, Function.update s.granted p (content.map List.length)⟩ cells cells'
      request := by
  obtain ⟨contents_eq, after⟩ := serves.of_changed changed
  refine ⟨after, ?_, ?_, ?_, lowest, ?_⟩
  · intro before after first second
    exact answer before after first (by rw [first, second, contents_eq])
  · exact serves.heapPtr_eq ▸ changed.touches.same
  · show h.maxMem = max s.heap.maxMem h.usedMem
    rw [changed.maxMem_eq, max_eq_left (changed.usedMem_le.trans serves.usedMem_le)]
  · intro _ nobody
    refine restores ?_ fun q => ?_
    · simpa using nobody p
    · simpa using (after.granted_eq q).symm.trans (nobody q)

theorem Serves.free (serves : Serves low high s cells)
    (taken : s.step (.free p) = some s') :
    ∃ cells', Advance low high s s' cells cells' (.free p) := by
  simp only [step] at taken
  split_ifs at taken with granted
  obtain rfl := Option.some.inj taken
  obtain ⟨n, granted⟩ := Option.isSome_iff_exists.mp granted
  obtain ⟨bytes, held, -⟩ := serves.exists_bytes granted
  obtain ⟨cells', changed, lowered, lowest⟩ :=
    serves.represents.rtFree (serves.heapPtr_eq.symm ▸ held)
  refine ⟨cells', serves.change changed (fun before after first second => ?_) (fun _ => lowest)
    fun _ nobody => ?_⟩
  · exact .free (by rw [first, held]) second
  · -- the only cell starts at the front, and `lfree` is not behind it
    have heapPtr_eq := changed.touches.heapPtr_eq
    have stop_eq := changed.touches.stop_eq
    have inside := (contents_inside held).2
    rw [serves.represents.total_eq, ← serves.heapPtr_eq] at inside
    have nonempty : cells' ≠ [] := by
      rintro rfl
      have total_eq := changed.represents.total_eq
      simp [stop, sizeofStructMem] at total_eq
    obtain ⟨c, rfl, -⟩ :=
      eq_singleton_of_contents changed.represents.separated nonempty nobody
    obtain ⟨x, lfree_eq, (⟨rfl, -⟩ | none) | rfl⟩ := changed.represents.lfree
    · exact lfree_eq
    · exact none.elim
    · omega

theorem Serves.resize (serves : Serves low high s cells) {size : Nat} {granted : Bool}
    (taken : s.step (.resize p size granted) = some s') :
    ∃ cells', Advance low high s s' cells cells' (.resize p size granted) := by
  rw [step, Option.ite_none_right_eq_some] at taken
  obtain ⟨⟨client, roundable⟩, taken⟩ := taken
  obtain ⟨n, owned⟩ := Option.isSome_iff_exists.mp client
  obtain ⟨bytes, held, -⟩ := serves.exists_bytes owned
  have refused : granted = false → s' = s →
      ∃ cells', Advance low high s s' cells cells' (.resize p size granted) := by
    rintro rfl rfl
    exact ⟨cells, serves.stay fun blocks same => .refused (by rw [same, held])⟩
  by_cases large : rtAlign size > s.heap.memSizeAligned
  · rw [if_pos large, Option.ite_none_left_eq_some] at taken
    exact refused (by simpa using taken.1) (Option.some.inj taken.2).symm
  · rw [if_neg large] at taken
    rcases serves.represents.resize (serves.heapPtr_eq.symm ▸ held)
        (rtAlignSize_dvd_rtAlign size) (Nat.le_of_not_lt large) (le_rtAlign roundable) with
      code | ⟨h, cells', kept, code, length, same, changed⟩
    · simp only [code, Option.ite_none_left_eq_some] at taken
      exact refused (by simpa using taken.1) (Option.some.inj taken.2).symm
    · simp only [code, Option.ite_none_right_eq_some] at taken
      obtain ⟨rfl, taken⟩ := taken
      obtain rfl := Option.some.inj taken
      subst length
      refine ⟨cells', serves.change changed (fun before after first second => ?_) ?_ (by simp)⟩
      · exact .resize kept (by rw [first, held]) same second
      · exact fun other => absurd rfl (other p kept.length)

/-- The bytes of a block are those in RAM. -/
theorem Serves.ram_eq (serves : Serves low high s cells) {bytes : List UInt8} {i : Nat}
    (held : contents low cells p = some bytes) (inside : i < bytes.length) :
    bytes[i]? = some (s.heap.ram (p + i)) := by
  obtain ⟨front, c, back, rfl, content, rfl⟩ := exists_of_contents held
  have holds := serves.represents.reached.drop.laid.head.holds bytes content
  rw [serves.heapPtr_eq] at holds
  exact holds i inside

theorem Serves.read (serves : Serves low high s cells) {i : Nat} {byte : UInt8}
    (taken : s.step (.read p i byte) = some s') :
    ∃ cells', Advance low high s s' cells cells' (.read p i byte) := by
  rw [step, Option.ite_none_right_eq_some] at taken
  obtain ⟨⟨inside, rfl⟩, taken⟩ := taken
  obtain rfl := Option.some.inj taken
  cases granted : s.granted p with
  | none => simp [granted] at inside
  | some n =>
    obtain ⟨bytes, held, rfl⟩ := serves.exists_bytes granted
    rw [granted] at inside
    refine ⟨cells, serves.stay fun blocks same => .read (by rw [same, held]) ?_⟩
    exact serves.ram_eq held inside

theorem Serves.write (serves : Serves low high s cells) {i : Nat} {byte : UInt8}
    (taken : s.step (.write p i byte) = some s') :
    ∃ cells', Advance low high s s' cells cells' (.write p i byte) := by
  rw [step, Option.ite_none_right_eq_some] at taken
  obtain ⟨inside, taken⟩ := taken
  obtain rfl := Option.some.inj taken
  cases granted : s.granted p with
  | none => simp [granted] at inside
  | some n =>
    obtain ⟨bytes, held, rfl⟩ := serves.exists_bytes granted
    rw [granted] at inside
    replace inside : i < bytes.length := inside
    obtain ⟨front, c, back, rfl, content, rfl⟩ := exists_of_contents held
    have fits := c.fits bytes content
    let written : Cell := .holding c.size (bytes.set i byte) (by simpa using fits) c.aligned
    have heapPtr_eq := serves.heapPtr_eq
    subst heapPtr_eq
    obtain ⟨reached, touches⟩ := serves.represents.reached.drop.write content
      (show written.size = c.size from rfl) inside rfl
    have changed : Changed s.heap
        (s.heap.poke (s.heap.heapPtr + total front + sizeofStructMem + i) byte)
        (front ++ c :: back) (front ++ written :: back)
        (s.heap.heapPtr + total front + sizeofStructMem) (some (bytes.set i byte)) :=
      ⟨serves.represents.rewrite (by rw [content]; rfl) rfl rfl reached touches rfl rfl,
        touches.mono (Nat.le_add_right _ _), contents_replace (c := written) rfl, le_rfl, rfl⟩
    have unchanged : Function.update s.granted (s.heap.heapPtr + total front + sizeofStructMem)
        ((some (bytes.set i byte)).map List.length) = s.granted := by
      rw [Option.map_some, List.length_set, ← granted, Function.update_eq_self]
    refine ⟨front ++ written :: back, ?_⟩
    rw [← unchanged]
    refine serves.change changed (fun before after first second => ?_) (fun _ low y free => ?_)
      (by simp)
    · exact .write (by rw [first, held]) inside second
    · exact low y ((freeAt_replace (c := c) (d := written) (by rw [content]; rfl) rfl rfl y).mp free)

/-- What every request does. -/
theorem Serves.advance (serves : Serves low high s cells) (taken : s.step request = some s') :
    ∃ cells', Advance low high s s' cells cells' request := by
  cases request with
  | alloc size result => exact serves.alloc taken
  | free p => exact serves.free taken
  | resize p size granted => exact serves.resize taken
  | read p i byte => exact serves.read taken
  | write p i byte => exact serves.write taken

section Start

/-- Addresses between which a heap fits, with room for the smallest block. -/
structure Area (beginAddr endAddr : Nat) : Prop where
  roundable : Roundable beginAddr
  bound : endAddr < 2 ^ 32
  room : rtAlign beginAddr + (2 * sizeofStructMem + minSizeAligned) ≤ rtAlignDown endAddr

variable {ram : Memory} {beginAddr endAddr : Nat}

/-- The RAM with the first and the last header of an empty heap. -/
def format (ram : Memory) (base stop : Nat) : Memory :=
  let ram := ram.store 2 base heapMagic
  let ram := ram.store 4 (base + 4) stop
  let ram := ram.store 4 (base + 8) 0
  let ram := ram.store 2 (base + 2) 0
  let ram := ram.store 2 (base + stop) heapMagic
  let ram := ram.store 2 (base + stop + 2) 1
  let ram := ram.store 4 (base + stop + 4) stop
  ram.store 4 (base + stop + 8) stop

theorem isCell_format {base stop : Nat} (large : sizeofStructMem ≤ stop) (small : stop < 2 ^ 32) :
    IsCell (format ram base stop) base 0 stop none := by
  have zero : 0 < 256 ^ 4 := by decide
  have unused : 0 < 256 ^ 2 := by decide
  simp only [sizeofStructMem] at large
  refine ⟨?_, ?_, ?_, by simp, by simp⟩ <;> rw [format] <;>
    simp (disch := omega) only [Memory.load_store_of_disjoint, Memory.load_store_of_lt]
  rfl

theorem eqOn_format (ram : Memory) (base stop : Nat) :
    Set.EqOn (format ram base stop) ram
      {place | place < base ∨ base + stop + sizeofStructMem ≤ place} := by
  rintro place outside
  replace outside : place < base ∨ base + stop + 16 ≤ place := outside
  rw [format]
  simp (disch := omega) only [Memory.store_outside]

theorem start_heap_eq (area : Area beginAddr endAddr) (ram : Memory) :
    (start ram beginAddr endAddr).heap =
      { ram := format ram (rtAlign beginAddr)
          (rtAlignDown endAddr - rtAlign beginAddr - 2 * sizeofStructMem + sizeofStructMem)
        heapPtr := rtAlign beginAddr
        memSizeAligned := rtAlignDown endAddr - rtAlign beginAddr - 2 * sizeofStructMem
        lfree := rtAlign beginAddr, usedMem := 0, maxMem := 0 } := by
  have room := area.room
  simp only [sizeofStructMem, minSizeAligned] at room
  rw [start, rtSystemHeapInit, if_pos]
  · rfl
  · simp only [sizeofStructMem]
    omega

/-- After the initialisation one free cell takes the whole heap. -/
theorem start_serves (area : Area beginAddr endAddr) (ram : Memory) :
    ∃ c, c.content = none ∧
      Serves (rtAlign beginAddr) (rtAlignDown endAddr - sizeofStructMem)
        (start ram beginAddr endAddr) [c] := by
  have room := area.room
  have bound := area.bound
  have down : rtAlignDown endAddr ≤ endAddr := Nat.div_mul_le_self _ _
  have unit : sizeofStructMem = 16 := rfl
  have least : minSizeAligned = 16 := rfl
  have first := rtAlignSize_dvd_rtAlign beginAddr
  have second : rtAlignSize ∣ rtAlignDown endAddr := Dvd.intro_left _ rfl
  have heap_eq := start_heap_eq area ram
  generalize size_eq : rtAlignDown endAddr - rtAlign beginAddr - 2 * sizeofStructMem = size at heap_eq
  have multiple : rtAlignSize ∣ size :=
    size_eq ▸ Nat.dvd_sub (Nat.dvd_sub second first) (by decide)
  let c : Cell := .free (size + sizeofStructMem) (Nat.le_add_left _ _)
    (Nat.dvd_add multiple (by decide))
  have cell : IsCell (format ram (rtAlign beginAddr) (size + sizeofStructMem)) (rtAlign beginAddr)
      0 (size + sizeofStructMem) none := isCell_format (by omega) (by omega)
  have nobody : (start ram beginAddr endAddr).granted = fun _ => none := rfl
  refine ⟨c, rfl, ?_⟩
  generalize start ram beginAddr endAddr = s at heap_eq nobody
  obtain ⟨heap, granted⟩ := s
  obtain rfl : heap = _ := heap_eq
  obtain rfl : granted = _ := nobody
  refine ⟨rfl, ?_, ⟨⟨⟨⟨?_, trivial⟩, ?_, ?_⟩, ?_, first, ?_, ⟨0, rfl, .inl (.inl ⟨rfl, rfl⟩)⟩, rfl⟩,
    List.isChain_singleton _⟩, ?_, le_rfl⟩
  · simp only [heapEnd, stop]
    omega
  · rw [Nat.zero_add]
    exact cell
  · simp [c, Cell.free, stop]
  · simp only [stop]
    omega
  · show minSizeAligned ≤ size
    omega
  · rintro d ⟨⟩
    show sizeofStructMem < size + sizeofStructMem
    omega
  · intro p
    rw [contents_cons_free rfl]
    rfl

end Start

section Runs

variable {ram : Memory} {beginAddr endAddr : Nat} {requests : List Request}

/-- What holds after any requests. -/
structure Reaches (ram : Memory) (beginAddr endAddr : Nat) (requests : List Request)
    (s : Clients) (cells : List Cell) : Prop where
  serves : Serves (rtAlign beginAddr) (rtAlignDown endAddr - sizeofStructMem) s cells
  simulated : ∀ blocks : Blocks (rtAlign beginAddr) (rtAlignDown endAddr - sizeofStructMem),
    blocks.contents = contents (rtAlign beginAddr) cells →
      Steps (Blocks.Step rtAlignSize) (Blocks.empty _ _) requests blocks
  outside : ∀ place, place < rtAlign beginAddr ∨ rtAlignDown endAddr ≤ place →
    s.heap.ram place = ram place
  lowest : (∀ p size, .resize p size true ∉ requests) → Lowest s.heap cells
  restores : Restores s

theorem start_reaches (area : Area beginAddr endAddr) (ram : Memory) :
    ∃ cells, Reaches ram beginAddr endAddr [] (start ram beginAddr endAddr) cells := by
  obtain ⟨c, free, serves⟩ := start_serves area ram
  have heap_eq := start_heap_eq area ram
  refine ⟨[c], serves, ?_, ?_, ?_, ?_⟩
  · intro blocks same
    rw [contents_cons_free free] at same
    obtain rfl : blocks = Blocks.empty _ _ := Blocks.ext same
    exact .refl
  · intro place outside
    have room := area.room
    rw [heap_eq]
    refine eqOn_format _ _ _ ?_
    show _ ∨ _
    simp only [sizeofStructMem, minSizeAligned] at room ⊢
    omega
  · rintro - y (⟨rfl, -⟩ | none)
    · rw [heap_eq]
      exact le_rfl
    · exact none.elim
  · rintro -
    rw [heap_eq]

theorem Reaches.step {cells : List Cell} (area : Area beginAddr endAddr)
    (reaches : Reaches ram beginAddr endAddr requests s cells)
    (taken : s.step request = some s') :
    ∃ cells', Reaches ram beginAddr endAddr (requests ++ [request]) s' cells' := by
  obtain ⟨cells', advance⟩ := reaches.serves.advance taken
  refine ⟨cells', advance.serves, ?_, ?_, ?_, advance.restores reaches.restores⟩
  · intro blocks same
    have before := reaches.simulated reaches.serves.blocks rfl
    exact before.step (advance.answer _ blocks rfl same)
  · intro place outside
    rw [← reaches.outside place outside]
    refine advance.outside ?_
    have ends := reaches.serves.heapEnd_eq
    have room := area.room
    simp only [sizeofStructMem] at ends room
    rw [mem_untouched]
    omega
  · intro steady
    simp only [List.mem_append, List.mem_singleton, not_or] at steady
    exact advance.lowest (fun p size => Ne.symm (steady p size).2)
      (reaches.lowest fun p size => (steady p size).1)

theorem reaches_of_steps (area : Area beginAddr endAddr)
    (steps : Steps (Takes Clients.step) (start ram beginAddr endAddr) requests s) :
    ∃ cells, Reaches ram beginAddr endAddr requests s cells := by
  induction steps with
  | refl => exact start_reaches area ram
  | step _ taken ih =>
    obtain ⟨cells, reaches⟩ := ih
    exact reaches.step area taken

theorem exists_steps (first : Clients) (requests : List Request)
    (taken : (run Clients.step first requests).isSome) :
    ∃ s, Steps (Takes Clients.step) first requests s := by
  obtain ⟨s, taken⟩ := Option.isSome_iff_exists.mp taken
  exact ⟨s, steps_of_run taken⟩

theorem area_small : Area 8 136 := ⟨by decide, by decide, by decide⟩

end Runs

end Clients

end BadmintonRobot.Kernel
