import Mathlib
import BadmintonRobot.Screen.Editors
import BadmintonRobot.Semantics.Run

/-!
# The list of parameters

`Input_List` shows three entries of a list on a page. Three keys open an editor for one of them,
without a look at how many there are, so that on the last page an entry behind the list can be chosen.
The editor works on a copy of type `double`, and the copy is written back even if the editor is
cancelled; an integer of 64 bits then comes back rounded.

What is shown is left out, and the arithmetic of `float` is that of the rational numbers. A byte that is
no key number is ignored, as `empty1` is.
-/

namespace BadmintonRobot.Screen

open General Numeric Semantics

section Conversion

/-- `Value_Type`. -/
inductive ValueType where
  | int8 | uint8 | int16 | uint16 | int32 | uint32 | int64 | uint64 | fp32 | fp64
deriving DecidableEq, Repr

/-- The least and the greatest value of an integer type. -/
def ValueType.range : ValueType → Option (Int × Int)
  | int8 => some (-2 ^ 7, 2 ^ 7 - 1)
  | uint8 => some (0, 2 ^ 8 - 1)
  | int16 => some (-2 ^ 15, 2 ^ 15 - 1)
  | uint16 => some (0, 2 ^ 16 - 1)
  | int32 => some (-2 ^ 31, 2 ^ 31 - 1)
  | uint32 => some (0, 2 ^ 32 - 1)
  | int64 => some (-2 ^ 63, 2 ^ 63 - 1)
  | uint64 => some (0, 2 ^ 64 - 1)
  | fp32 => none
  | fp64 => none

/-- The multiple of `unit` that is nearest to a number, the even one if there are two. -/
def nearestMultiple (unit n : Nat) : Nat :=
  if 2 * (n % unit) < unit ∨ 2 * (n % unit) = unit ∧ n / unit % 2 = 0 then n / unit * unit
  else (n / unit + 1) * unit

/-- An integer as a `double`: its first 53 bits are kept. -/
def toDouble (n : Int) : Int := n.sign * nearestMultiple (2 ^ (n.natAbs.log2 + 1 - 53)) n.natAbs

/-- The assignment of a variable of some type to `out`. -/
def load (type : ValueType) (value : ℚ) : ℚ :=
  match type.range with
  | some _ => toDouble (truncate value)
  | none => value

/-- The assignment of `out` to a variable of some type. What does not fit is undefined. -/
def save (machine : Machine) (type : ValueType) (out : ℚ) : ℚ :=
  match type.range with
  | some (least, greatest) =>
    if least ≤ truncate out ∧ truncate out ≤ greatest then (truncate out : ℚ)
    else ((least + (machine.convert out - least) % (greatest - least + 1) : Int) : ℚ)
  | none => out

theorem nearestMultiple_one (n : Nat) : nearestMultiple 1 n = n := by
  rw [nearestMultiple, Nat.mod_one, if_pos (.inl (by decide)), Nat.div_one, Nat.mul_one]

theorem toDouble_of_small {n : Int} (small : n.natAbs < 2 ^ 53) : toDouble n = n := by
  have bits : n.natAbs.log2 + 1 - 53 = 0 := by
    rcases Nat.eq_zero_or_pos n.natAbs with zero | pos
    · rw [zero]
      rfl
    · have := (Nat.log2_lt pos.ne').mpr small
      omega
  rw [toDouble, bits, pow_zero, nearestMultiple_one, Int.sign_mul_natAbs]

/-- A copy is written back as it was if it has at most 53 bits, as it has for every type but those of 64
bits. -/
theorem save_load (machine : Machine) {type : ValueType} {least greatest n : Int}
    (range : type.range = some (least, greatest)) (low : least ≤ n) (high : n ≤ greatest)
    (small : n.natAbs < 2 ^ 53) : save machine type (load type n) = n := by
  have whole (k : Int) : truncate (k : ℚ) = k := by simp [truncate]
  have copied : load type n = n := by simp only [load, range, whole, toDouble_of_small small]
  simp only [save, range, copied, whole, low, high, and_self, if_true]

end Conversion

section List

/-- `struct Input_ListValue`, without the name. -/
structure Entry where
  value : Nat
  type : ValueType
deriving DecidableEq, Repr

/-- Where the function is: at the list, in the editor for an entry with its copy `out`, or back in the
function that called it. -/
inductive Mode where
  | list
  | editor (index : Nat) (out : ℚ) (e : Editor)
  | returned

/-- The variable `nowpage`, and the variables that the entries point to. -/
structure Dialog where
  nowpage : Nat
  mode : Mode
  memory : Nat → ℚ

variable (machine : Machine) (list : List Entry)

/-- The variable `allpage`. -/
def allpage : Nat := (list.length - 1) / 3

namespace Dialog

variable (s : Dialog)

/-- The case of the keys 1 to 3. There is no result if the entry is not one of the list. -/
def choose (keyValue : Nat) : Option Dialog := do
  let index := keyValue + s.nowpage * 3 - 1
  let entry ← list[index]?
  return { s with mode := .editor index (load entry.type (s.memory entry.value)) .empty }

/-- The end of the case, after the editor has returned. -/
def writeBack (index : Nat) (out : ℚ) : Option Dialog := do
  let entry ← list[index]?
  return { s with
    mode := .list
    memory := Function.update s.memory entry.value (save machine entry.type out) }

/-- A key in the editor for an entry. -/
def pressEditor (index : Nat) (out : ℚ) (e : Editor) (key : Key) : Option Dialog :=
  match e.press key with
  | .stay e => some { s with mode := .editor index out e }
  | .ok e => s.writeBack machine list index e.value
  | .cancel => s.writeBack machine list index out

/-- A key at the list. -/
def pressList : Key → Option Dialog
  | .point => some { s with nowpage := if s.nowpage > 0 then s.nowpage - 1 else allpage list }
  | .sign => some { s with nowpage := if s.nowpage < allpage list then s.nowpage + 1 else 0 }
  | .key1 => s.choose list 1
  | .key2 => s.choose list 2
  | .key3 => s.choose list 3
  | .key7 => some { s with mode := .returned }
  | _ => some s

/-- One key. -/
def press (key : Key) : Option Dialog :=
  match s.mode with
  | .list => s.pressList list key
  | .editor index out e => s.pressEditor machine list index out e key
  | .returned => some s

end Dialog

/-- The function `Input_List` for the keys that are pressed. -/
def inputList (memory : Nat → ℚ) (keys : List Key) : Option Dialog :=
  keys.foldlM (Dialog.press machine list) ⟨0, .list, memory⟩

/-- Only the editor of an entry on the page may change a variable: the one the entry points to, and when
it is confirmed. -/
def Attributed (s : Dialog) (key : Key) (next : Dialog) : Prop :=
  ∀ address, next.memory address ≠ s.memory address →
    key = .keyOK ∧ ∃ index out e entry, s.mode = .editor index out e ∧ index / 3 = s.nowpage ∧
      list[index]? = some entry ∧ entry.value = address

/-- The page exists, nothing behind the list is accessed, and every change of a variable is attributed
to an editor. -/
def Proper (memory : Nat → ℚ) (keys : List Key) : Prop :=
  ∀ earlier later, keys = earlier ++ later →
    ∃ s, inputList machine list memory earlier = some s ∧ s.nowpage ≤ allpage list ∧
      ∀ key rest, later = key :: rest →
        ∃ next, s.press machine list key = some next ∧ Attributed list s key next

/-- The keys that do harm: an entry that is not there is chosen, or an editor is cancelled whose copy is
not written back as it was. -/
def Harms (s : Dialog) (key : Key) : Prop :=
  match s.mode with
  | .list =>
    (key = .key1 ∧ list.length ≤ s.nowpage * 3) ∨ (key = .key2 ∧ list.length ≤ s.nowpage * 3 + 1) ∨
      (key = .key3 ∧ list.length ≤ s.nowpage * 3 + 2)
  | .editor index out _ =>
    key = .keyback ∧ ∃ entry, list[index]? = some entry ∧
      save machine entry.type out ≠ s.memory entry.value
  | .returned => False

/-- The page exists, and an editor is open only for an entry on it. -/
structure Orderly (s : Dialog) : Prop where
  page : s.nowpage ≤ allpage list
  editor : ∀ index out e, s.mode = .editor index out e → index < list.length ∧ index / 3 = s.nowpage

/-- What a key may do: harm that shows at once, or nothing but what it should. -/
def Settled (s : Dialog) (key : Key) : Prop :=
  (Harms machine list s key ∧
    ∀ next, s.press machine list key = some next →
      Orderly list next ∧ ¬ Attributed list s key next) ∨
  ¬ Harms machine list s key ∧
    ∃ next, s.press machine list key = some next ∧ Orderly list next ∧ Attributed list s key next

/-- No key does harm where it is pressed. -/
def Careful (memory : Nat → ℚ) (keys : List Key) : Prop :=
  ∀ earlier key later, keys = earlier ++ key :: later →
    ∀ s, inputList machine list memory earlier = some s → ¬ Harms machine list s key

variable {list}

section Run

variable (memory : Nat → ℚ)

end Run

/-- A list with one entry, and the integer behind the last that a `double` can count to. -/
def single (type : ValueType) : List Entry := [⟨0, type⟩]

def beyond : Nat → ℚ := fun _ => 2 ^ 53 + 1

end List

end BadmintonRobot.Screen
