import BadmintonRobot.Kernel.HeapChanges
import BadmintonRobot.Semantics.Allocation

/-!
# What a list of cells says

Where the free cells are, how many bytes are in use, and which blocks the clients hold.
-/

namespace BadmintonRobot.Kernel.Heap

open Semantics

variable {place start x p : Nat} {c d e : Cell} {front back cells : List Cell}

/-- A free cell starts at `x`, where the first cell starts at `place`. -/
def FreeAt : (place : Nat) → List Cell → (x : Nat) → Prop
  | _, [], _ => False
  | place, c :: cells, x => x = place ∧ c.content = none ∨ FreeAt (place + c.size) cells x

@[simp] theorem freeAt_nil : ¬FreeAt place [] x := id

@[simp] theorem freeAt_cons : FreeAt place (c :: cells) x ↔
    x = place ∧ c.content = none ∨ FreeAt (place + c.size) cells x := Iff.rfl

@[simp] theorem freeAt_append : FreeAt place (front ++ back) x ↔
    FreeAt place front x ∨ FreeAt (place + total front) back x := by
  induction front generalizing place with
  | nil => simp
  | cons c front ih => simp [ih, or_assoc, Nat.add_assoc]

theorem FreeAt.le (free : FreeAt place cells x) : place ≤ x := by
  induction cells generalizing place with
  | nil => exact free.elim
  | cons c cells ih =>
    rcases free with ⟨rfl, -⟩ | later
    · exact le_rfl
    · exact (Nat.le_add_right _ _).trans (ih later)

theorem FreeAt.lt (free : FreeAt place cells x) : x < place + total cells := by
  induction cells generalizing place with
  | nil => exact free.elim
  | cons c cells ih =>
    have header := c.header
    simp only [sizeofStructMem] at header
    rw [total_cons]
    rcases free with ⟨rfl, -⟩ | later
    · omega
    · have := ih later
      omega

/-- The cells up to a free one, and those from it on. -/
theorem FreeAt.split (free : FreeAt place cells x) : ∃ front c back,
    cells = front ++ c :: back ∧ c.content = none ∧ x = place + total front := by
  induction cells generalizing place with
  | nil => exact free.elim
  | cons c cells ih =>
    rcases free with ⟨rfl, unused⟩ | later
    · exact ⟨[], c, cells, rfl, unused, rfl⟩
    · obtain ⟨front, d, back, rfl, unused, rfl⟩ := ih later
      exact ⟨c :: front, d, back, rfl, unused, by rw [total_cons, Nat.add_assoc]⟩

/-- The bytes of the cells in use, with their headers. -/
def usedTotal : List Cell → Nat
  | [] => 0
  | c :: cells => (if c.content.isSome then c.size else 0) + usedTotal cells

@[simp] theorem usedTotal_nil : usedTotal [] = 0 := rfl

@[simp] theorem usedTotal_cons : usedTotal (c :: cells) =
    (if c.content.isSome then c.size else 0) + usedTotal cells := rfl

@[simp] theorem usedTotal_append :
    usedTotal (front ++ back) = usedTotal front + usedTotal back := by
  induction front with
  | nil => simp
  | cons c front ih => simp [ih, Nat.add_assoc]

theorem usedTotal_le (cells : List Cell) : usedTotal cells ≤ total cells := by
  induction cells with
  | nil => simp
  | cons c cells ih =>
    rw [usedTotal_cons, total_cons]
    split_ifs <;> omega

/-- The blocks that clients hold, by the address behind the header. The first cell is at the
address `start`. -/
def contents : (start : Nat) → List Cell → (p : Nat) → Option (List UInt8)
  | _, [], _ => none
  | start, c :: cells, p =>
    if p = start + sizeofStructMem then c.content else contents (start + c.size) cells p

@[simp] theorem contents_nil : contents start [] p = none := rfl

theorem contents_cons : contents start (c :: cells) p =
    if p = start + sizeofStructMem then c.content else contents (start + c.size) cells p := rfl

theorem contents_eq_none_of_lt (before : p < start + sizeofStructMem) :
    contents start cells p = none := by
  induction cells generalizing start with
  | nil => rfl
  | cons c cells ih => rw [contents_cons, if_neg (by omega), ih (by omega)]

theorem contents_eq_none_of_gt (behind : start + total cells < p) :
    contents start cells p = none := by
  induction cells generalizing start with
  | nil => rfl
  | cons c cells ih =>
    have header := c.header
    rw [total_cons] at behind
    rw [contents_cons, if_neg (by omega), ih (by omega)]

theorem contents_append : contents start (front ++ back) p =
    (contents start front p).or (contents (start + total front) back p) := by
  induction front generalizing start with
  | nil => simp
  | cons c front ih =>
    rw [List.cons_append, contents_cons, contents_cons, total_cons]
    split_ifs with here
    · have header := c.header
      simp only [sizeofStructMem] at header
      rw [contents_eq_none_of_lt (by omega), Option.or_none]
    · rw [ih, Nat.add_assoc]

/-- Free cells do not show. -/
theorem contents_cons_free (free : c.content = none) :
    contents start (c :: cells) = contents (start + c.size) cells := by
  funext p
  have header := c.header
  simp only [sizeofStructMem] at header
  rw [contents_cons]
  split_ifs with here
  · rw [free, contents_eq_none_of_lt (by omega)]
  · rfl

/-- A cell whose end is a free cell. -/
theorem contents_split (free : d.content = none) (same : e.content = c.content)
    (sizes : e.size = c.size + d.size) :
    contents start (front ++ c :: d :: back) = contents start (front ++ e :: back) := by
  funext p
  rw [contents_append, contents_append, contents_cons, contents_cons_free free, contents_cons, same,
    sizes, Nat.add_assoc (start + total front)]

/-- A cell with another content. -/
theorem contents_replace (size_eq : c.size = d.size) :
    contents start (front ++ c :: back) =
      Function.update (contents start (front ++ d :: back))
        (start + total front + sizeofStructMem) c.content := by
  funext p
  by_cases here : p = start + total front + sizeofStructMem
  · subst here
    rw [Function.update_self, contents_append, contents_cons, if_pos rfl,
      contents_eq_none_of_gt (by simp [sizeofStructMem]), Option.none_or]
  · rw [Function.update_of_ne here, contents_append, contents_append, contents_cons, contents_cons,
      if_neg here, if_neg here, size_eq]

/-- A block that a client holds is a cell in use. -/
theorem exists_of_contents {bytes : List UInt8} (held : contents start cells p = some bytes) :
    ∃ front, ∃ c : Cell, ∃ back, cells = front ++ c :: back ∧ c.content = some bytes ∧
      p = start + total front + sizeofStructMem := by
  induction cells generalizing start with
  | nil => cases held
  | cons c cells ih =>
    rw [contents_cons] at held
    split_ifs at held with here
    · exact ⟨[], c, cells, rfl, held, here⟩
    · obtain ⟨front, d, back, rfl, content, rfl⟩ := ih held
      exact ⟨c :: front, d, back, rfl, content, by rw [total_cons, Nat.add_assoc start]⟩

theorem contents_self (front back : List Cell) (c : Cell) (start : Nat) :
    contents start (front ++ c :: back) (start + total front + sizeofStructMem) = c.content := by
  rw [contents_append, contents_cons, if_pos rfl,
    contents_eq_none_of_gt (by simp [sizeofStructMem]), Option.none_or]

/-- The blocks lie inside the heap. -/
theorem contents_inside {bytes : List UInt8} (held : contents start cells p = some bytes) :
    start ≤ p ∧ p + bytes.length ≤ start + total cells := by
  obtain ⟨front, c, back, rfl, content, rfl⟩ := exists_of_contents held
  have fits := c.fits bytes content
  rw [total_append, total_cons]
  omega

/-- The blocks do not overlap. -/
theorem contents_apart {q : Nat} {bytes others : List UInt8}
    (first : contents start cells p = some bytes) (second : contents start cells q = some others)
    (ordered : p < q) : p + bytes.length ≤ q := by
  obtain ⟨front, c, back, rfl, content, rfl⟩ := exists_of_contents first
  have fits := c.fits bytes content
  rw [contents_append, contents_eq_none_of_gt (by omega), Option.none_or, contents_cons,
    if_neg (by omega)] at second
  by_contra overlap
  rw [contents_eq_none_of_lt (by omega)] at second
  cases second

/-- What the clients of a heap hold. -/
def blocks (start : Nat) (cells : List Cell) (stop : Nat) (ends : start + total cells ≤ stop) :
    Blocks start stop where
  contents := contents start cells
  inside held := ⟨(contents_inside held).1, (contents_inside held).2.trans ends⟩
  apart := contents_apart

/-- No two free cells are neighbours. -/
def Separated (cells : List Cell) : Prop :=
  cells.IsChain fun c d => c.content.isSome ∨ d.content.isSome

theorem separated_append : Separated (front ++ back) ↔ Separated front ∧ Separated back ∧
    ∀ c ∈ front.getLast?, ∀ d ∈ back.head?, c.content.isSome ∨ d.content.isSome :=
  List.isChain_append

theorem separated_cons : Separated (c :: cells) ↔
    (∀ d ∈ cells.head?, c.content.isSome ∨ d.content.isSome) ∧ Separated cells :=
  List.isChain_cons

/-- If nobody holds a block, one free cell takes the whole heap. -/
theorem eq_singleton_of_contents (separated : Separated cells) (nonempty : cells ≠ [])
    (nobody : ∀ p, contents start cells p = none) : ∃ c : Cell, cells = [c] ∧ c.content = none := by
  have free : ∀ front (c : Cell) back, cells = front ++ c :: back → c.content = none := by
    rintro front c back rfl
    rw [← contents_self front back c start]
    exact nobody _
  rcases cells with _ | ⟨c, _ | ⟨d, rest⟩⟩
  · exact absurd rfl nonempty
  · exact ⟨c, rfl, free [] c [] rfl⟩
  · have first := free [] c (d :: rest) rfl
    have second := free [c] d rest rfl
    have apart := (separated_cons.mp separated).1 d rfl
    simp [first, second] at apart

/-- The last cell has room for more than its header. -/
def EndsLarge (cells : List Cell) : Prop := ∀ c ∈ cells.getLast?, sizeofStructMem < c.size

theorem endsLarge_append_cons : EndsLarge (front ++ c :: back) ↔
    (back = [] → sizeofStructMem < c.size) ∧ EndsLarge back := by
  rw [EndsLarge, List.getLast?_append_of_ne_nil _ (List.cons_ne_nil c back)]
  cases back with
  | nil => simp [EndsLarge]
  | cons d back => simp [EndsLarge, List.getLast?_cons_cons]

theorem endsLarge_cons : EndsLarge (c :: back) ↔
    (back = [] → sizeofStructMem < c.size) ∧ EndsLarge back := by
  rw [← List.nil_append (c :: back), endsLarge_append_cons]

end BadmintonRobot.Kernel.Heap
