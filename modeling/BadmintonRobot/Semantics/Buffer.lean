import Mathlib

/-!
# Buffers of a fixed size

A buffer is accessed in pieces, and a piece that does not lie inside has no result. Words
are stored with their lowest byte first, and strings end with a zero byte.
-/

namespace BadmintonRobot.Semantics

/-- The bytes of a buffer. -/
abbrev Buffer (size : Nat) := Fin size → UInt8

namespace Buffer

variable {size : Nat} {buf next : Buffer size} {base count : Nat} {bytes : List UInt8}

/-- The byte at a position. -/
def get? (buf : Buffer size) (i : Nat) : Option UInt8 :=
  if inside : i < size then some (buf ⟨i, inside⟩) else none

/-- Read `count` bytes. -/
def load (buf : Buffer size) (base count : Nat) : Option (List UInt8) :=
  if inside : base + count ≤ size then
    some (List.ofFn fun i : Fin count => buf ⟨base + i, by omega⟩)
  else none

/-- Write bytes one after another. -/
def store (buf : Buffer size) (base : Nat) (bytes : List UInt8) : Option (Buffer size) :=
  if base + bytes.length ≤ size then
    some fun i => if base ≤ i ∧ i < base + bytes.length then bytes.getD (i - base) 0 else buf i
  else none

theorem load_eq_some_iff :
    buf.load base count = some bytes ↔
      base + count ≤ size ∧ bytes.length = count ∧
        ∀ i, i < count → bytes[i]? = buf.get? (base + i) := by
  rw [load]
  split
  · next inside =>
    rw [Option.some.injEq]
    constructor
    · rintro rfl
      refine ⟨inside, List.length_ofFn, fun i bound => ?_⟩
      simp [get?, bound, show base + i < size by omega]
    · rintro ⟨-, length, same⟩
      apply List.ext_getElem?
      intro i
      by_cases bound : i < count
      · rw [same i bound]
        simp [get?, bound, show base + i < size by omega]
      · simp [length, bound]
  · next outside => simp [outside]

/-- A write succeeds exactly if it stays inside. -/
theorem store_eq_none : buf.store base bytes = none ↔ size < base + bytes.length := by
  simp [store]

theorem le_of_store (stored : buf.store base bytes = some next) : base + bytes.length ≤ size := by
  by_contra outside
  rw [store_eq_none.mpr (by omega)] at stored
  cases stored

theorem get?_store (stored : buf.store base bytes = some next) (i : Nat) :
    next.get? i = if base ≤ i ∧ i < base + bytes.length then bytes[i - base]? else buf.get? i := by
  rw [store] at stored
  split at stored
  · next inside =>
    rw [← Option.some.inj stored]
    by_cases piece : base ≤ i ∧ i < base + bytes.length
    · have bound : i - base < bytes.length := by omega
      simp [get?, piece, bound, show i < size by omega]
    · simp [get?, piece]
  · next outside => cases stored

theorem exists_store (buf : Buffer size) (inside : base + bytes.length ≤ size) :
    ∃ next, buf.store base bytes = some next :=
  ⟨_, if_pos inside⟩

/-- What was written is read. -/
theorem load_store (stored : buf.store base bytes = some next) :
    next.load base bytes.length = some bytes := by
  refine load_eq_some_iff.mpr ⟨le_of_store stored, rfl, fun i bound => ?_⟩
  rw [get?_store stored, if_pos (by omega), Nat.add_sub_cancel_left]

/-- A write leaves the pieces before and behind it as they are. -/
theorem load_store_of_disjoint (stored : buf.store base bytes = some next) {other : Nat}
    (disjoint : other + count ≤ base ∨ base + bytes.length ≤ other) {kept : List UInt8}
    (loaded : buf.load other count = some kept) : next.load other count = some kept := by
  obtain ⟨inside, length, same⟩ := load_eq_some_iff.mp loaded
  refine load_eq_some_iff.mpr ⟨inside, length, fun i bound => ?_⟩
  rw [get?_store stored, if_neg (by omega), same i bound]

/-- The first bytes of a piece. -/
theorem load_take (loaded : buf.load base count = some bytes) {fewer : Nat}
    (le : fewer ≤ count) : buf.load base fewer = some (bytes.take fewer) := by
  obtain ⟨inside, length, same⟩ := load_eq_some_iff.mp loaded
  refine load_eq_some_iff.mpr ⟨by omega, by simp [length, le], fun i bound => ?_⟩
  rw [List.getElem?_take_of_lt bound, same i (by omega)]

/-- Two pieces one behind the other. -/
theorem load_append {back : List UInt8} (front : buf.load base bytes.length = some bytes)
    (behind : buf.load (base + bytes.length) back.length = some back) :
    buf.load base (bytes ++ back).length = some (bytes ++ back) := by
  obtain ⟨-, -, frontSame⟩ := load_eq_some_iff.mp front
  obtain ⟨inside, -, backSame⟩ := load_eq_some_iff.mp behind
  have length : (bytes ++ back).length = bytes.length + back.length := List.length_append
  refine load_eq_some_iff.mpr ⟨by omega, rfl, fun i bound => ?_⟩
  by_cases first : i < bytes.length
  · rw [List.getElem?_append_left first, frontSame i first]
  · rw [List.getElem?_append_right (by omega), backSame _ (by omega)]
    congr 1
    omega

end Buffer

section Words

/-- The bytes of a word, the lowest first. -/
def wordBytes (word : UInt32) : List UInt8 :=
  [0, 1, 2, 3].map fun i => UInt8.ofNat (word.toNat / 256 ^ i)

/-- The word with the given bytes. -/
def wordOfBytes (bytes : List UInt8) : UInt32 :=
  UInt32.ofNat (bytes.foldr (fun byte rest => byte.toNat + 256 * rest) 0)

@[simp] theorem length_wordBytes (word : UInt32) : (wordBytes word).length = 4 := rfl

@[simp] theorem wordOfBytes_wordBytes (word : UInt32) : wordOfBytes (wordBytes word) = word := by
  apply UInt32.toNat.inj
  have bound := word.toNat_lt
  simp [wordOfBytes, wordBytes]
  omega

end Words

section Strings

/-- What string functions see of some bytes. -/
def cString (bytes : List UInt8) : List UInt8 := bytes.takeWhile (· ≠ 0)

/-- The string at `base` is `text`: `strcmp` returns 0. -/
def Buffer.isString {size : Nat} (buf : Buffer size) (base : Nat) (text : List UInt8) : Bool :=
  buf.load base (text.length + 1) = some (text ++ [0])

theorem cString_append_zero (bytes rest : List UInt8) :
    cString (bytes ++ 0 :: rest) = cString bytes := by
  induction bytes with
  | nil => simp [cString]
  | cons byte bytes ih =>
    by_cases zero : byte = 0
    · simp [cString, zero]
    · simpa [cString, zero] using ih

theorem cString_of_forall_ne {bytes : List UInt8} (nonzero : ∀ byte ∈ bytes, byte ≠ 0) :
    cString bytes = bytes := by
  induction bytes with
  | nil => rfl
  | cons byte bytes ih =>
    have rest := ih fun other member => nonzero other (List.mem_cons_of_mem byte member)
    simpa [cString, nonzero byte List.mem_cons_self] using rest

/-- A string written with its end is equal to `text` only if it is what string functions
see of the bytes written. -/
theorem cString_eq_of_isString {size : Nat} {buf : Buffer size} {base : Nat}
    {bytes text : List UInt8}
    (loaded : buf.load base (bytes.length + 1) = some (bytes ++ [0]))
    (nonzero : ∀ byte ∈ text, byte ≠ 0) (same : buf.isString base text = true) :
    cString bytes = text := by
  have compared : buf.load base (text.length + 1) = some (text ++ [0]) := by
    simpa [Buffer.isString] using same
  rcases le_total (text.length + 1) (bytes.length + 1) with shorter | longer
  · have start := Option.some.inj (compared.symm.trans (Buffer.load_take loaded shorter))
    calc cString bytes
      _ = cString (bytes ++ [0]) := (cString_append_zero bytes []).symm
      _ = cString ((text ++ [0]) ++ (bytes ++ [0]).drop (text.length + 1)) := by
        rw [start, List.take_append_drop]
      _ = cString text := by rw [List.append_assoc, List.singleton_append, cString_append_zero]
      _ = text := cString_of_forall_ne nonzero
  · have start := Option.some.inj (loaded.symm.trans (Buffer.load_take compared longer))
    calc cString bytes
      _ = cString (bytes ++ [0]) := (cString_append_zero bytes []).symm
      _ = cString ((bytes ++ [0]) ++ (text ++ [0]).drop (bytes.length + 1)) := by
        rw [List.append_assoc, List.singleton_append, cString_append_zero, cString_append_zero]
      _ = cString (text ++ [0]) := by rw [start, List.take_append_drop]
      _ = cString text := cString_append_zero text []
      _ = text := cString_of_forall_ne nonzero

namespace Buffer

variable {size : Nat}

/-- The bytes before the first zero byte from `base` on, if there is one. -/
def string? (buf : Buffer size) (base : Nat) : Option (List UInt8) :=
  if inside : base < size then
    if buf ⟨base, inside⟩ = 0 then some []
    else (buf.string? (base + 1)).map (buf ⟨base, inside⟩ :: ·)
  else none
termination_by size - base

/-- The function `strcpy`, byte by byte, within one buffer. -/
def strcpy (buf : Buffer size) (dst src : Nat) : Option (Buffer size) :=
  if inside : src < size then do
    let next ← buf.store dst [buf ⟨src, inside⟩]
    if buf ⟨src, inside⟩ = 0 then return next
    next.strcpy (dst + 1) (src + 1)
  else none
termination_by size - src

theorem get?_eq_some_iff {buf : Buffer size} {i : Nat} {byte : UInt8} :
    buf.get? i = some byte ↔ ∃ inside : i < size, buf ⟨i, inside⟩ = byte := by
  rw [get?]
  split
  · next inside => simp [inside]
  · next outside => simp [outside]

theorem string?_eq {buf : Buffer size} {base : Nat} {byte : UInt8}
    (first : buf.get? base = some byte) :
    buf.string? base =
      if byte = 0 then some [] else (buf.string? (base + 1)).map (byte :: ·) := by
  obtain ⟨inside, rfl⟩ := get?_eq_some_iff.mp first
  rw [string?, dif_pos inside]

theorem strcpy_eq {buf : Buffer size} {src : Nat} {byte : UInt8}
    (first : buf.get? src = some byte) (dst : Nat) :
    buf.strcpy dst src = (buf.store dst [byte]).bind fun next =>
      if byte = 0 then some next else next.strcpy (dst + 1) (src + 1) := by
  obtain ⟨inside, rfl⟩ := get?_eq_some_iff.mp first
  rw [strcpy, dif_pos inside]
  rfl

theorem string?_of_load {buf : Buffer size} {base : Nat} {text : List UInt8}
    (nonzero : ∀ byte ∈ text, byte ≠ 0)
    (loaded : buf.load base (text.length + 1) = some (text ++ [0])) :
    buf.string? base = some text := by
  obtain ⟨-, -, same⟩ := load_eq_some_iff.mp loaded
  clear loaded
  induction text generalizing base with
  | nil =>
    have first : buf.get? base = some 0 := (same 0 (by simp)).symm
    rw [string?_eq first, if_pos rfl]
  | cons byte text ih =>
    have rest : buf.string? (base + 1) = some text := by
      refine ih (fun other member => nonzero other (List.mem_cons_of_mem byte member)) fun i bound => ?_
      rw [Nat.add_assoc, Nat.add_comm 1 i, ← same (i + 1) (Nat.succ_lt_succ bound)]
      rfl
    have first : buf.get? base = some byte := (same 0 (by simp)).symm
    rw [string?_eq first, if_neg (nonzero byte List.mem_cons_self), rest, Option.map_some]

/-- A byte written where it was. -/
theorem store_self {buf : Buffer size} {i : Nat} {byte : UInt8} (here : buf.get? i = some byte) :
    buf.store i [byte] = some buf := by
  obtain ⟨inside, rfl⟩ := get?_eq_some_iff.mp here
  rw [store, List.length_singleton, if_pos (Nat.succ_le_of_lt inside)]
  congr 1
  funext place
  by_cases same : i = place.val
  · subst same
    simp
  · rw [if_neg (by simp; omega)]

/-- A string copied onto itself. -/
theorem strcpy_self {buf : Buffer size} {base : Nat} {text : List UInt8}
    (string : buf.string? base = some text) : buf.strcpy base base = some buf := by
  have inside : base < size := by
    by_contra outside
    rw [string?, dif_neg outside] at string
    cases string
  have first : buf.get? base = some (buf ⟨base, inside⟩) := get?_eq_some_iff.mpr ⟨inside, rfl⟩
  rw [strcpy_eq first, store_self first, Option.bind_some]
  rw [string?_eq first] at string
  split_ifs with zero
  · rfl
  · rw [if_neg zero] at string
    obtain ⟨rest, behind, -⟩ := Option.map_eq_some_iff.mp string
    exact strcpy_self behind
termination_by size - base

/-- A string copied to the place behind its first byte is overtaken by its own copy. -/
theorem strcpy_succ {buf : Buffer size} {base : Nat} {byte : UInt8}
    (first : buf.get? base = some byte) (nonzero : byte ≠ 0) :
    buf.strcpy (base + 1) base = none := by
  obtain ⟨inside, -⟩ := get?_eq_some_iff.mp first
  -- Each byte that is read is the one that was written before it.
  induction left : size - base generalizing buf base with
  | zero => omega
  | succ left ih =>
    rw [strcpy_eq first]
    cases stored : buf.store (base + 1) [byte] with
    | none => rfl
    | some next =>
      have bound := le_of_store stored
      rw [Option.bind_some, if_neg nonzero]
      refine ih ?_ (Nat.lt_of_succ_le bound) (by omega)
      rw [get?_store stored]
      simp

end Buffer

end Strings

end BadmintonRobot.Semantics
