import BadmintonRobot.Kernel.MessageQueue
import BadmintonRobot.Semantics.Linked

/-!
# The slots of a message queue

The slots do not overlap, and each is on the list of the messages, on the free list, or on
neither. What every critical section does to the two lists.
-/

namespace BadmintonRobot.Kernel.MessageQueue

open Semantics

variable {Thread : Type} {q q' : MessageQueue Thread} {queued unused : List Nat} {msg other : Nat}

/-- An address of a slot. -/
def IsSlot (q : MessageQueue Thread) (msg : Nat) : Prop := ∃ temp < q.maxMsgs, msg = q.slot temp

/-- The pool is somewhere in the memory, but not at `RT_NULL`. -/
structure Placed (q : MessageQueue Thread) : Prop where
  positive : 0 < q.msgPool
  inside : q.slot q.maxMsgs ≤ 2 ^ 32
  few : q.maxMsgs < 2 ^ 16

theorem IsSlot.pos (placed : Placed q) (slot : IsSlot q msg) : 0 < msg := by
  obtain ⟨temp, -, rfl⟩ := slot
  exact Nat.add_pos_left placed.positive _

theorem slot_succ (q : MessageQueue Thread) (temp : Nat) :
    q.slot (temp + 1) = q.slot temp + (q.msgSize + sizeofMqMessage) := by
  rw [slot, slot, Nat.succ_mul, Nat.add_assoc]

theorem slot_mono {few many : Nat} (q : MessageQueue Thread) (le : few ≤ many) :
    q.slot few ≤ q.slot many := by
  rw [slot, slot]
  exact Nat.add_le_add_left (Nat.mul_le_mul_right _ le) _

theorem slot_apart {few many : Nat} (q : MessageQueue Thread) (less : few < many) :
    q.slot few + (q.msgSize + sizeofMqMessage) ≤ q.slot many :=
  (slot_succ q few).symm.le.trans (slot_mono q less)

theorem IsSlot.lt (placed : Placed q) (slot : IsSlot q msg) : msg < 2 ^ 32 := by
  obtain ⟨temp, less, rfl⟩ := slot
  have apart := slot_apart q less
  have inside := placed.inside
  simp only [sizeofMqMessage] at apart
  omega

/-- Two slots do not overlap. -/
theorem IsSlot.apart (slot : IsSlot q msg) (slot' : IsSlot q other) (different : msg ≠ other) :
    msg + (q.msgSize + sizeofMqMessage) ≤ other ∨
      other + (q.msgSize + sizeofMqMessage) ≤ msg := by
  obtain ⟨few, -, rfl⟩ := slot
  obtain ⟨many, -, rfl⟩ := slot'
  rcases Nat.lt_trichotomy few many with less | rfl | more
  · exact .inl (slot_apart q less)
  · exact absurd rfl different
  · exact .inr (slot_apart q more)

/-- What a critical section leaves as it was: the messages in the slots, and the links of the
slots that it does not touch. -/
structure Relinks (touched : List Nat) (q q' : MessageQueue Thread) : Prop where
  msgPool_eq : q'.msgPool = q.msgPool
  msgSize_eq : q'.msgSize = q.msgSize
  maxMsgs_eq : q'.maxMsgs = q.maxMsgs
  suspendThread_eq : q'.suspendThread = q.suspendThread
  payload : ∀ msg, IsSlot q msg → ∀ i < q.msgSize,
    q'.ram (msg + sizeofMqMessage + i) = q.ram (msg + sizeofMqMessage + i)
  links : ∀ msg, IsSlot q msg → msg ∉ touched → q'.next msg = q.next msg

namespace Relinks

variable {touched more : List Nat}

theorem slot_eq (relinks : Relinks touched q q') (temp : Nat) : q'.slot temp = q.slot temp := by
  rw [slot, slot, relinks.msgPool_eq, relinks.msgSize_eq]

theorem isSlot (relinks : Relinks touched q q') : IsSlot q' msg ↔ IsSlot q msg := by
  simp only [IsSlot, relinks.maxMsgs_eq, relinks.slot_eq]

theorem placed (relinks : Relinks touched q q') (placed : Placed q) : Placed q' := by
  refine ⟨relinks.msgPool_eq ▸ placed.positive, ?_, relinks.maxMsgs_eq ▸ placed.few⟩
  rw [relinks.slot_eq, relinks.maxMsgs_eq]
  exact placed.inside

theorem trans {q'' : MessageQueue Thread} (first : Relinks touched q q')
    (second : Relinks more q' q'') : Relinks (touched ++ more) q q'' where
  msgPool_eq := second.msgPool_eq.trans first.msgPool_eq
  msgSize_eq := second.msgSize_eq.trans first.msgSize_eq
  maxMsgs_eq := second.maxMsgs_eq.trans first.maxMsgs_eq
  suspendThread_eq := second.suspendThread_eq.trans first.suspendThread_eq
  payload msg slot i inside := by
    rw [second.payload msg (first.isSlot.mpr slot) i (first.msgSize_eq.symm ▸ inside),
      first.payload msg slot i inside]
  links msg slot outside := by
    rw [List.mem_append, not_or] at outside
    rw [second.links msg (first.isSlot.mpr slot) outside.2, first.links msg slot outside.1]

/-- A step that changes no memory. -/
theorem of_ram_eq (msgPool_eq : q'.msgPool = q.msgPool) (msgSize_eq : q'.msgSize = q.msgSize)
    (maxMsgs_eq : q'.maxMsgs = q.maxMsgs) (suspendThread_eq : q'.suspendThread = q.suspendThread)
    (ram_eq : q'.ram = q.ram) : Relinks [] q q' where
  msgPool_eq := msgPool_eq
  msgSize_eq := msgSize_eq
  maxMsgs_eq := maxMsgs_eq
  suspendThread_eq := suspendThread_eq
  payload msg _ i _ := by rw [ram_eq]
  links msg _ _ := by rw [next, next, ram_eq]

theorem setNext (slot : IsSlot q msg) (link : Option Nat) :
    Relinks [msg] q (q.setNext msg link) where
  msgPool_eq := rfl
  msgSize_eq := rfl
  maxMsgs_eq := rfl
  suspendThread_eq := rfl
  payload other slot' i inside := by
    refine Memory.store_outside ?_
    by_cases same : other = msg
    · simp only [sizeofMqMessage]
      omega
    · have apart := slot.apart slot' (Ne.symm same)
      simp only [sizeofMqMessage] at apart ⊢
      omega
  links other slot' outside := by
    rw [List.mem_singleton] at outside
    have apart := slot.apart slot' (Ne.symm outside)
    simp only [sizeofMqMessage] at apart
    rw [MessageQueue.setNext, next, next]
    dsimp only
    rw [Memory.load_store_of_disjoint (by omega)]

end Relinks

theorem next_setNext {link : Option Nat} (valid : ∀ target ∈ link, 0 < target ∧ target < 2 ^ 32) :
    (q.setNext msg link).next msg = link := by
  rw [MessageQueue.setNext, next]
  dsimp only
  cases link with
  | none => rw [Option.getD_none, Memory.load_store_of_lt _ _ (by decide), if_pos rfl]
  | some target =>
    obtain ⟨positive, small⟩ := valid target rfl
    rw [Option.getD_some, Memory.load_store_of_lt _ _ (show target < 256 ^ 4 by omega),
      if_neg (Nat.ne_of_gt positive)]

/-- The two lists of slots. -/
structure Lists (q : MessageQueue Thread) (queued unused : List Nat) : Prop where
  placed : Placed q
  queue : Linked q.next q.msgQueueHead queued
  tail_eq : q.msgQueueTail = queued.getLast?
  free : Linked q.next q.msgQueueFree unused
  nodup : (queued ++ unused).Nodup
  slots : ∀ msg ∈ queued ++ unused, IsSlot q msg

/-- The two lists of slots, with the number of messages. -/
structure Pool (q : MessageQueue Thread) (queued unused : List Nat) : Prop
    extends Lists q queued unused where
  entry_eq : q.entry = queued.length

namespace Lists

theorem length_le (lists : Lists q queued unused) : queued.length + unused.length ≤ q.maxMsgs := by
  have inside : (queued ++ unused).toFinset ⊆ (Finset.range q.maxMsgs).image q.slot := by
    intro msg member
    obtain ⟨temp, less, rfl⟩ := lists.slots msg (List.mem_toFinset.mp member)
    exact Finset.mem_image_of_mem _ (Finset.mem_range.mpr less)
  calc queued.length + unused.length = (queued ++ unused).toFinset.card := by
        rw [List.toFinset_card_of_nodup lists.nodup, List.length_append]
    _ ≤ ((Finset.range q.maxMsgs).image q.slot).card := Finset.card_le_card inside
    _ ≤ q.maxMsgs := by simpa using Finset.card_image_le (s := Finset.range q.maxMsgs) (f := q.slot)

/-- A link to the front of a list can be stored in a slot. -/
theorem valid {link : Option Nat} {cells : List Nat} (placed : Placed q)
    (linked : Linked q.next link cells) (slots : ∀ msg ∈ cells, IsSlot q msg) :
    ∀ target ∈ link, 0 < target ∧ target < 2 ^ 32 := by
  rintro target rfl
  cases cells with
  | nil => cases linked
  | cons first cells =>
    obtain rfl := Option.some.inj linked.1
    have slot := slots target (by simp)
    exact ⟨slot.pos placed, slot.lt placed⟩

/-- Links outside the lists can change. -/
theorem congr {touched : List Nat} (lists : Lists q queued unused)
    (relinks : Relinks touched q q') (outside : ∀ msg ∈ queued ++ unused, msg ∉ touched)
    (head : q'.msgQueueHead = q.msgQueueHead) (tail : q'.msgQueueTail = q.msgQueueTail)
    (first : q'.msgQueueFree = q.msgQueueFree) : Lists q' queued unused where
  placed := relinks.placed lists.placed
  queue := by
    rw [head]
    refine lists.queue.congr fun msg member => ?_
    have either := List.mem_append_left unused member
    exact relinks.links msg (lists.slots msg either) (outside msg either)
  tail_eq := tail.trans lists.tail_eq
  free := by
    rw [first]
    refine lists.free.congr fun msg member => ?_
    have either := List.mem_append_right queued member
    exact relinks.links msg (lists.slots msg either) (outside msg either)
  nodup := lists.nodup
  slots msg member := relinks.isSlot.mpr (lists.slots msg member)

/-- A slot off the free list. -/
theorem claim (lists : Lists q queued (msg :: unused)) (fields : Relinks [] q q')
    (head : q'.msgQueueHead = q.msgQueueHead) (tail : q'.msgQueueTail = q.msgQueueTail)
    (first : q'.msgQueueFree = q.next msg) : Lists q' queued unused := by
  have fewer : (queued ++ unused).Sublist (queued ++ msg :: unused) :=
    (List.sublist_cons_self msg unused).append_left queued
  have same : ∀ other ∈ queued ++ unused, q'.next other = q.next other := fun other member =>
    fields.links other (lists.slots other (fewer.subset member)) List.not_mem_nil
  refine ⟨fields.placed lists.placed, ?_, tail.trans lists.tail_eq, ?_,
    lists.nodup.sublist fewer, ?_⟩
  · rw [head]
    exact lists.queue.congr fun other member => same other (List.mem_append_left unused member)
  · rw [first]
    exact lists.free.2.congr fun other member => same other (List.mem_append_right queued member)
  · exact fun other member => fields.isSlot.mpr (lists.slots other (fewer.subset member))

/-- A slot that is on neither list becomes free. -/
theorem release (lists : Lists q queued unused) (slot : IsSlot q msg)
    (fresh : msg ∉ queued ++ unused) :
    Lists (q.release msg) queued (msg :: unused) ∧ Relinks [msg] q (q.release msg) := by
  have relinks : Relinks [msg] q (q.release msg) := (Relinks.setNext slot q.msgQueueFree).trans
    (Relinks.of_ram_eq rfl rfl rfl rfl rfl)
  have link : (q.release msg).next msg = q.msgQueueFree := by
    refine next_setNext (valid lists.placed lists.free fun other member => ?_)
    exact lists.slots other (List.mem_append_right queued member)
  have outside : ∀ other ∈ queued ++ unused, other ∉ [msg] := by
    intro other member
    rw [List.mem_singleton]
    rintro rfl
    exact fresh member
  refine ⟨⟨relinks.placed lists.placed, ?_, lists.tail_eq, ⟨rfl, ?_⟩, ?_, ?_⟩, relinks⟩
  · refine lists.queue.congr fun other member => ?_
    have either := List.mem_append_left unused member
    exact relinks.links other (lists.slots other either) (outside other either)
  · rw [link]
    refine lists.free.congr fun other member => ?_
    have either := List.mem_append_right queued member
    exact relinks.links other (lists.slots other either) (outside other either)
  · exact List.perm_middle.nodup_iff.mpr (List.nodup_cons.mpr ⟨fresh, lists.nodup⟩)
  · intro other member
    rw [relinks.isSlot]
    rcases List.mem_cons.mp (List.perm_middle.mem_iff.mp member) with rfl | member
    · exact slot
    · exact lists.slots other member

/-- The first message off its list, apart from the number of messages. -/
theorem takeFirst (lists : Lists q (msg :: queued) unused) (fields : Relinks [] q q')
    (head : q'.msgQueueHead = q.next msg)
    (tail : q'.msgQueueTail = if q.msgQueueTail = some msg then none else q.msgQueueTail)
    (first : q'.msgQueueFree = q.msgQueueFree) : Lists q' queued unused where
  placed := fields.placed lists.placed
  queue := by
    rw [head]
    refine lists.queue.2.congr fun other member => fields.links other (lists.slots other ?_) (by simp)
    simp [member]
  tail_eq := by
    rw [tail, lists.tail_eq]
    cases queued with
    | nil => simp
    | cons second queued =>
      rw [List.getLast?_cons_cons, if_neg]
      intro again
      have member := List.mem_of_getLast? again
      have nodup := lists.nodup
      rw [List.cons_append, List.nodup_cons] at nodup
      exact nodup.1 (List.mem_append_left unused member)
  free := by
    rw [first]
    refine lists.free.congr fun other member => fields.links other (lists.slots other ?_) (by simp)
    simp [member]
  nodup := (List.nodup_cons.mp lists.nodup).2
  slots other member := fields.isSlot.mpr (lists.slots other (List.mem_cons_of_mem _ member))

/-- A slot that is on neither list is put behind the messages. -/
theorem linkLast (lists : Lists q queued unused) (slot : IsSlot q msg)
    (fresh : msg ∉ queued ++ unused) (ends : q.next msg = none) :
    Lists (q.linkLast msg) (queued ++ [msg]) unused ∧ Relinks queued q (q.linkLast msg) ∧
      (q.linkLast msg).entry = (q.entry + 1) % 2 ^ 16 := by
  have nodup : (queued ++ [msg] ++ unused).Nodup := by
    rw [List.append_assoc, List.singleton_append]
    exact List.perm_middle.nodup_iff.mpr (List.nodup_cons.mpr ⟨fresh, lists.nodup⟩)
  have slots : ∀ other ∈ queued ++ [msg] ++ unused, IsSlot q other := by
    intro other member
    rw [List.append_assoc, List.singleton_append] at member
    rcases List.mem_cons.mp (List.perm_middle.mem_iff.mp member) with rfl | member
    · exact slot
    · exact lists.slots other member
  rcases List.eq_nil_or_concat' queued with rfl | ⟨front, last, rfl⟩
  · have tail : q.msgQueueTail = none := lists.tail_eq
    have head : q.msgQueueHead = none := lists.queue
    have code : q.linkLast msg = { q with
        msgQueueTail := some msg, msgQueueHead := some msg, entry := (q.entry + 1) % 2 ^ 16 } := by
      simp only [MessageQueue.linkLast, tail, head, if_true]
    have relinks : Relinks [] q (q.linkLast msg) := by
      rw [code]
      exact Relinks.of_ram_eq rfl rfl rfl rfl rfl
    have same : ∀ other, IsSlot q other → (q.linkLast msg).next other = q.next other :=
      fun other slot' => relinks.links other slot' List.not_mem_nil
    refine ⟨⟨relinks.placed lists.placed, ⟨by rw [code], (same msg slot).trans ends⟩,
      by rw [code]; rfl, ?_, nodup, ?_⟩, relinks, by rw [code]⟩
    swap
    · exact fun other member => relinks.isSlot.mpr (slots other member)
    have first : (q.linkLast msg).msgQueueFree = q.msgQueueFree := by rw [code]
    rw [first]
    exact lists.free.congr fun other member => same other (lists.slots other (by simp [member]))
  · have tail : q.msgQueueTail = some last := by rw [lists.tail_eq, List.getLast?_concat]
    have head : q.msgQueueHead ≠ none := by
      intro none
      have queue := lists.queue
      rw [none] at queue
      cases front <;> cases queue.1
    have last_slot : IsSlot q last := lists.slots last (by simp)
    have code : q.linkLast msg = { q.setNext last (some msg) with
        msgQueueTail := some msg, entry := (q.entry + 1) % 2 ^ 16 } := by
      simp only [MessageQueue.linkLast, tail]
      rw [if_neg (by exact head)]
      rfl
    have relinks : Relinks [last] q (q.linkLast msg) := by
      rw [code]
      exact (Relinks.setNext last_slot (some msg)).trans (Relinks.of_ram_eq rfl rfl rfl rfl rfl)
    have joins : (q.linkLast msg).next last = some msg := by
      rw [code]
      refine next_setNext ?_
      rintro target ⟨⟩
      exact ⟨slot.pos lists.placed, slot.lt lists.placed⟩
    have parts : front.Nodup ∧ last ∉ front ∧ last ∉ unused ∧ msg ≠ last := by
      have all := lists.nodup
      simp only [List.append_assoc, List.singleton_append, List.perm_middle.nodup_iff,
        List.nodup_cons, List.mem_append, not_or] at all
      refine ⟨(List.nodup_append.mp all.2).1, all.1.1, all.1.2, ?_⟩
      rintro rfl
      simp at fresh
    obtain ⟨-, before, behind, different⟩ := parts
    have same : ∀ other, IsSlot q other → other ≠ last →
        (q.linkLast msg).next other = q.next other :=
      fun other slot' apart => relinks.links other slot' (by simpa using apart)
    refine ⟨⟨relinks.placed lists.placed, ?_, ?_, ?_, nodup, ?_⟩, ?_, by rw [code]⟩
    · have head_eq : (q.linkLast msg).msgQueueHead = q.msgQueueHead := by rw [code]; rfl
      rw [head_eq, List.append_assoc]
      refine lists.queue.append ((same msg slot different).trans ends) joins
        fun other member => same other (lists.slots other (by simp [member])) ?_
      rintro rfl
      exact before member
    · rw [code, List.getLast?_concat]
    · have first : (q.linkLast msg).msgQueueFree = q.msgQueueFree := by rw [code]; rfl
      rw [first]
      refine lists.free.congr fun other member =>
        same other (lists.slots other (by simp [member])) ?_
      rintro rfl
      exact behind member
    · exact fun other member => relinks.isSlot.mpr (slots other member)
    · exact { relinks with
        links := fun other slot' outside => same other slot' fun equal => outside (by simp [equal]) }

/-- A slot that is on neither list is put before the messages. -/
theorem linkFirst (lists : Lists q queued unused) (slot : IsSlot q msg)
    (fresh : msg ∉ queued ++ unused) :
    Lists (q.linkFirst msg) (msg :: queued) unused ∧ Relinks [msg] q (q.linkFirst msg) ∧
      (q.linkFirst msg).entry = (q.entry + 1) % 2 ^ 16 := by
  have code : q.linkFirst msg = { q.setNext msg q.msgQueueHead with
      msgQueueHead := some msg
      msgQueueTail := if q.msgQueueTail = none then some msg else q.msgQueueTail
      entry := (q.entry + 1) % 2 ^ 16 } := by
    by_cases none : q.msgQueueTail = none
    · simp only [MessageQueue.linkFirst, setNext, none, if_true]
    · simp only [MessageQueue.linkFirst, setNext, none, if_false]
  have relinks : Relinks [msg] q (q.linkFirst msg) := by
    rw [code]
    exact (Relinks.setNext slot q.msgQueueHead).trans (Relinks.of_ram_eq rfl rfl rfl rfl rfl)
  have link : (q.linkFirst msg).next msg = q.msgQueueHead := by
    rw [code]
    refine next_setNext (valid lists.placed lists.queue fun other member => ?_)
    exact lists.slots other (List.mem_append_left unused member)
  have same : ∀ other ∈ queued ++ unused, (q.linkFirst msg).next other = q.next other := by
    intro other member
    refine relinks.links other (lists.slots other member) ?_
    rw [List.mem_singleton]
    rintro rfl
    exact fresh member
  refine ⟨⟨relinks.placed lists.placed, ⟨by rw [code], ?_⟩, ?_, ?_, ?_, ?_⟩, relinks, by rw [code]⟩
  · rw [link]
    exact lists.queue.congr fun other member => same other (List.mem_append_left unused member)
  · rw [code]
    dsimp only
    rw [lists.tail_eq]
    cases queued with
    | nil => rfl
    | cons first queued =>
      rw [if_neg (by simp), List.getLast?_cons_cons]
  · have first : (q.linkFirst msg).msgQueueFree = q.msgQueueFree := by rw [code]; rfl
    rw [first]
    exact lists.free.congr fun other member => same other (List.mem_append_right queued member)
  · exact List.nodup_cons.mpr ⟨fresh, lists.nodup⟩
  · intro other member
    rw [relinks.isSlot]
    rcases List.mem_cons.mp member with rfl | member
    · exact slot
    · exact lists.slots other member

/-- The loop that frees every message. -/
theorem drain (lists : Lists q queued unused) {fuel : Nat} (enough : queued.length < fuel) :
    ∃ q', MessageQueue.drain fuel q = some q' ∧ Lists q' [] (queued.reverse ++ unused) ∧
      Relinks queued q q' := by
  induction queued generalizing q unused fuel with
  | nil =>
    obtain ⟨fuel, rfl⟩ := Nat.exists_eq_succ_of_ne_zero (Nat.ne_of_gt enough)
    have head : q.msgQueueHead = none := lists.queue
    exact ⟨q, by simp only [MessageQueue.drain, head], lists, Relinks.of_ram_eq rfl rfl rfl rfl rfl⟩
  | cons msg queued ih =>
    obtain ⟨fuel, rfl⟩ := Nat.exists_eq_succ_of_ne_zero (Nat.ne_of_gt (Nat.zero_lt_of_lt enough))
    have head : q.msgQueueHead = some msg := lists.queue.1
    have slot : IsSlot q msg := lists.slots msg (by simp)
    obtain ⟨taken, code, fields, taken_head, tail, first⟩ : ∃ taken,
        MessageQueue.drain (fuel + 1) q = MessageQueue.drain fuel (taken.release msg) ∧
        Relinks [] q taken ∧ taken.msgQueueHead = q.next msg ∧
        taken.msgQueueTail = (if q.msgQueueTail = some msg then none else q.msgQueueTail) ∧
        taken.msgQueueFree = q.msgQueueFree := by
      refine ⟨_, by simp only [MessageQueue.drain, head]; rfl, ?_⟩
      generalize q.next msg = link
      split_ifs <;> exact ⟨Relinks.of_ram_eq rfl rfl rfl rfl rfl, rfl, rfl, rfl⟩
    have shorter := lists.takeFirst fields taken_head tail first
    have fresh : msg ∉ queued ++ unused := (List.nodup_cons.mp lists.nodup).1
    obtain ⟨released, relinks⟩ := shorter.release (fields.isSlot.mpr slot) fresh
    obtain ⟨q', rest, empty, more⟩ := ih released (by simpa using enough)
    refine ⟨q', code.trans rest, ?_, (fields.trans relinks).trans more⟩
    rw [List.reverse_cons, List.append_assoc, List.singleton_append]
    exact empty

end Lists

namespace Pool

theorem claim_eq_none (pool : Pool q queued []) : q.claim = none := by
  have first : q.msgQueueFree = none := pool.free
  rw [MessageQueue.claim, first, Option.map_none]

/-- A slot off the free list. -/
theorem claim (pool : Pool q queued (msg :: unused)) :
    ∃ q', q.claim = some (msg, q') ∧ Pool q' queued unused ∧ Relinks [] q q' := by
  have first : q.msgQueueFree = some msg := pool.free.1
  obtain ⟨taken, code, fields, head, tail, taken_first, entry⟩ : ∃ taken,
      q.claim = some (msg, taken) ∧ Relinks [] q taken ∧ taken.msgQueueHead = q.msgQueueHead ∧
      taken.msgQueueTail = q.msgQueueTail ∧ taken.msgQueueFree = q.next msg ∧
      taken.entry = q.entry := by
    refine ⟨_, by rw [MessageQueue.claim, first, Option.map_some], ?_⟩
    generalize q.next msg = link
    exact ⟨Relinks.of_ram_eq rfl rfl rfl rfl rfl, rfl, rfl, rfl, rfl⟩
  have lists := pool.toLists.claim fields head tail taken_first
  exact ⟨taken, code, ⟨lists, entry.trans pool.entry_eq⟩, fields⟩

/-- The number of messages does not overflow. -/
theorem of_lists {cells : List Nat} (lists : Lists q' cells unused)
    (entry_eq : q'.entry = (q.entry + 1) % 2 ^ 16) (pool : Pool q queued unused)
    (longer : cells.length = queued.length + 1) : Pool q' cells unused := by
  have small := lists.length_le
  have few := lists.placed.few
  refine ⟨lists, ?_⟩
  rw [entry_eq, pool.entry_eq, Nat.mod_eq_of_lt (by omega), longer]

theorem linkLast (pool : Pool q queued unused) (slot : IsSlot q msg)
    (fresh : msg ∉ queued ++ unused) (ends : q.next msg = none) :
    Pool (q.linkLast msg) (queued ++ [msg]) unused ∧ Relinks queued q (q.linkLast msg) := by
  obtain ⟨lists, relinks, entry_eq⟩ := pool.toLists.linkLast slot fresh ends
  exact ⟨of_lists lists entry_eq pool (by simp), relinks⟩

theorem linkFirst (pool : Pool q queued unused) (slot : IsSlot q msg)
    (fresh : msg ∉ queued ++ unused) :
    Pool (q.linkFirst msg) (msg :: queued) unused ∧ Relinks [msg] q (q.linkFirst msg) := by
  obtain ⟨lists, relinks, entry_eq⟩ := pool.toLists.linkFirst slot fresh
  exact ⟨of_lists lists entry_eq pool rfl, relinks⟩

theorem takeFirst (pool : Pool q (msg :: queued) unused) :
    ∃ q', q.takeFirst = some (msg, q') ∧ Pool q' queued unused ∧ Relinks [] q q' := by
  have head : q.msgQueueHead = some msg := pool.queue.1
  have entry_eq := pool.entry_eq
  have small := pool.length_le
  have few := pool.placed.few
  rw [List.length_cons] at entry_eq small
  obtain ⟨taken, code, fields, taken_head, tail, first, taken_entry⟩ : ∃ taken,
      q.takeFirst = some (msg, taken) ∧
      Relinks [] q taken ∧ taken.msgQueueHead = q.next msg ∧
      taken.msgQueueTail = (if q.msgQueueTail = some msg then none else q.msgQueueTail) ∧
      taken.msgQueueFree = q.msgQueueFree ∧ taken.entry = (q.entry + (2 ^ 16 - 1)) % 2 ^ 16 := by
    refine ⟨_, by rw [MessageQueue.takeFirst, head, Option.map_some], ?_⟩
    generalize q.next msg = link
    split_ifs <;> exact ⟨Relinks.of_ram_eq rfl rfl rfl rfl rfl, rfl, rfl, rfl, rfl⟩
  refine ⟨taken, code, ⟨pool.toLists.takeFirst fields taken_head tail first, ?_⟩, fields⟩
  rw [taken_entry, entry_eq]
  omega

theorem release (pool : Pool q queued unused) (slot : IsSlot q msg)
    (fresh : msg ∉ queued ++ unused) :
    Pool (q.release msg) queued (msg :: unused) ∧ Relinks [msg] q (q.release msg) := by
  obtain ⟨lists, relinks⟩ := pool.toLists.release slot fresh
  exact ⟨⟨lists, pool.entry_eq⟩, relinks⟩

/-- The link of a slot that is on neither list is cleared. -/
theorem clear (pool : Pool q queued unused) (slot : IsSlot q msg)
    (fresh : msg ∉ queued ++ unused) :
    Pool (q.setNext msg none) queued unused ∧ (q.setNext msg none).next msg = none ∧
      Relinks [msg] q (q.setNext msg none) := by
  have relinks := Relinks.setNext slot (none : Option Nat)
  refine ⟨⟨pool.toLists.congr relinks (fun other member => ?_) rfl rfl rfl, pool.entry_eq⟩,
    next_setNext (by simp), relinks⟩
  rw [List.mem_singleton]
  rintro rfl
  exact fresh member

end Pool

/-- A byte of a message is written. The links stay as they are. -/
theorem next_write (slot : IsSlot q msg) (slot' : IsSlot q other) {i : Nat} (inside : i < q.msgSize)
    (byte : UInt8) :
    ({ q with ram := Function.update q.ram (msg + sizeofMqMessage + i) byte } :
      MessageQueue Thread).next other = q.next other := by
  rw [next, next]
  dsimp only
  rw [Memory.load_congr]
  rintro place ⟨lower, upper⟩
  refine Function.update_of_ne ?_ _ _
  rintro rfl
  by_cases same : other = msg
  · simp only [sizeofMqMessage] at upper
    omega
  · have apart := slot.apart slot' (Ne.symm same)
    simp only [sizeofMqMessage] at apart lower upper
    omega

theorem Pool.write (pool : Pool q queued unused) (slot : IsSlot q msg) {i : Nat}
    (inside : i < q.msgSize) (byte : UInt8) :
    Pool { q with ram := Function.update q.ram (msg + sizeofMqMessage + i) byte } queued unused where
  placed := ⟨pool.placed.positive, pool.placed.inside, pool.placed.few⟩
  queue := pool.queue.congr fun _ member =>
    next_write slot (pool.slots _ (List.mem_append_left unused member)) inside byte
  tail_eq := pool.tail_eq
  free := pool.free.congr fun _ member =>
    next_write slot (pool.slots _ (List.mem_append_right queued member)) inside byte
  nodup := pool.nodup
  slots := pool.slots
  entry_eq := pool.entry_eq

section Init

/-- The loop of `rt_mq_init` links the slots up to some number. -/
theorem initFree_lists (placed : Placed q) (queue : q.msgQueueHead = none)
    (tail : q.msgQueueTail = none) (free : q.msgQueueFree = none) {count : Nat}
    (few : count ≤ q.maxMsgs) :
    Lists (q.initFree count) [] ((List.range count).reverse.map q.slot) ∧
      ∃ touched, Relinks touched q (q.initFree count) := by
  induction count with
  | zero =>
    refine ⟨⟨placed, queue, tail, free, List.nodup_nil, by simp⟩, [], ?_⟩
    exact Relinks.of_ram_eq rfl rfl rfl rfl rfl
  | succ count ih =>
    obtain ⟨lists, touched, relinks⟩ := ih (Nat.le_of_succ_le few)
    have here : (q.initFree count).slot count = q.slot count := relinks.slot_eq count
    have slot : IsSlot (q.initFree count) (q.slot count) :=
      relinks.isSlot.mpr ⟨count, few, rfl⟩
    have fresh : q.slot count ∉ [] ++ (List.range count).reverse.map q.slot := by
      rw [List.nil_append, List.mem_map]
      rintro ⟨temp, member, same⟩
      have apart := slot_apart q (List.mem_range.mp (List.mem_reverse.mp member))
      simp only [sizeofMqMessage] at apart
      omega
    obtain ⟨released, more⟩ := lists.release slot fresh
    have code : q.initFree (count + 1) = (q.initFree count).release (q.slot count) := by
      rw [initFree, MessageQueue.release, here]
    rw [code, List.range_succ, List.reverse_append, List.reverse_singleton, List.singleton_append,
      List.map_cons]
    exact ⟨released, _, relinks.trans more⟩

end Init

end BadmintonRobot.Kernel.MessageQueue
