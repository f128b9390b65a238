import Mathlib
import BadmintonRobot.Screen.Editors
import BadmintonRobot.Semantics.Run

/-!
# The buffers of the editors

`Input_IntValue`, `Input_DoubleValue` and `Input_FloatValue` keep the typed text in an array of 20
characters, with the sign in front and the index `i` behind the last character, and the last two of them
remember in `point` that a point has been typed. The editors of `Screen.Editors` are what these buffers
stand for.
-/

namespace BadmintonRobot.Screen

open General Numeric Semantics

section Source

/-- The local variables `str` and `i` of an editor. What is behind the 20 elements of `str` is other
memory. -/
structure Text where
  str : Nat → Char
  i : Nat

/-- The local variables of `Input_DoubleValue` and `Input_FloatValue`. -/
structure PointText extends Text where
  point : UInt32

/-- What a key leads to: the next turn of the loop, the evaluation of the text, or the end. -/
inductive Outcome (B : Type) where
  | stay (buffer : B)
  | ok (buffer : B)
  | cancel

namespace Text

/-- The variables in front of the loop. -/
def initial : Text where
  str j := if j = 0 then ' ' else '\x00'
  i := 1

/-- A key with a character. -/
def type (t : Text) (c : Char) : Text :=
  if t.i < 14 then { str := Function.update t.str t.i c, i := t.i + 1 } else t

/-- The key of the sign. -/
def toggle (t : Text) : Text :=
  { t with str := Function.update t.str 0 (if t.str 0 = ' ' then '-' else ' ') }

/-- The key that deletes a character. -/
def erase (t : Text) : Text :=
  if t.i > 1 then { str := Function.update t.str (t.i - 1) '\x00', i := t.i - 1 } else t

/-- The characters that the loop for the key `keyOK` reads. -/
def typed (t : Text) : List Char := (List.range (t.i - 1)).map fun j => t.str (j + 1)

end Text

namespace PointText

def initial : PointText := { Text.initial with point := 0 }

@[inherit_doc Text.type] def type (b : PointText) (c : Char) : PointText :=
  { b with toText := b.toText.type c }

@[inherit_doc Text.toggle] def toggle (b : PointText) : PointText :=
  { b with toText := b.toText.toggle }

/-- The key of the point. -/
def typePoint (b : PointText) : PointText :=
  if b.point = 0 ∧ b.i < 14 then { toText := b.toText.type '.', point := 1 } else b

/-- The key that deletes a character, which may be the point. -/
def erase (b : PointText) : PointText :=
  if b.i > 1 then
    { toText := b.toText.erase, point := if b.str (b.i - 1) = '.' then 0 else b.point }
  else b

end PointText

/-- The `switch` of `Input_IntValue`. -/
def switchInt (t : Text) (keyValue : UInt32) : Outcome Text :=
  match keyValue.toNat with
  | 1 => .stay (t.type '1')
  | 2 => .stay (t.type '2')
  | 3 => .stay (t.type '3')
  | 4 => .stay (t.type '4')
  | 7 => .stay (t.type '5')
  | 8 => .stay (t.type '6')
  | 9 => .stay (t.type '7')
  | 10 => .stay (t.type '8')
  | 13 => .stay (t.type '9')
  | 14 => .stay (t.type '0')
  | 16 => .stay t.toggle
  | 17 => .stay t.erase
  | 18 => .ok t
  | 5 => .cancel
  | _ => .stay t

/-- The `switch` of `Input_DoubleValue`. -/
def switchDouble (b : PointText) (keyValue : UInt32) : Outcome PointText :=
  match keyValue.toNat with
  | 1 => .stay (b.type '1')
  | 2 => .stay (b.type '2')
  | 3 => .stay (b.type '3')
  | 4 => .stay (b.type '4')
  | 7 => .stay (b.type '5')
  | 8 => .stay (b.type '6')
  | 9 => .stay (b.type '7')
  | 10 => .stay (b.type '8')
  | 13 => .stay (b.type '9')
  | 14 => .stay (b.type '0')
  | 15 => .stay b.typePoint
  | 16 => .stay b.toggle
  | 17 => .stay b.erase
  | 18 => .ok b
  | 5 => .cancel
  | _ => .stay b

/-- The `switch` of `Input_FloatValue`. -/
def switchFloat (b : PointText) (keyValue : UInt32) : Outcome PointText :=
  match keyValue.toNat with
  | 1 => .stay (b.type '1')
  | 2 => .stay (b.type '2')
  | 3 => .stay (b.type '3')
  | 4 => .stay (b.type '4')
  | 7 => .stay (b.type '5')
  | 8 => .stay (b.type '6')
  | 9 => .stay (b.type '7')
  | 10 => .stay (b.type '8')
  | 13 => .stay (b.type '9')
  | 14 => .stay (b.type '0')
  | 15 => .stay b.typePoint
  | 16 => .stay b.toggle
  | 17 => .stay b.erase
  | 18 => .ok b
  | 5 => .cancel
  | _ => .stay b

/-- The buffer at the next turn of the loop, if the function has not returned. -/
def Outcome.next {B : Type} : Outcome B → Option B
  | .stay buffer => some buffer
  | _ => none

/-- The buffer after some keys, while the text is edited. -/
def edited {B : Type} (switch : B → UInt32 → Outcome B) (initial : B) (keys : List UInt32) : Option B :=
  run (fun buffer keyValue => (switch buffer keyValue).next) initial keys

end Source

section Invariant

/-- There is a point in the text. -/
def Text.HasPoint (t : Text) : Prop := ∃ j, 1 ≤ j ∧ j < t.i ∧ t.str j = '.'

/-- A sign, digits with at most one point up to the index, and zeros behind it. -/
structure Text.Kept (t : Text) : Prop where
  index : 1 ≤ t.i ∧ t.i ≤ 14
  sign : t.str 0 = ' ' ∨ t.str 0 = '-'
  text : ∀ j, 1 ≤ j → j < t.i → (t.str j).isDigit ∨ t.str j = '.'
  single : ∀ j k, 1 ≤ j → j < t.i → 1 ≤ k → k < t.i → t.str j = '.' → t.str k = '.' → j = k
  blank : ∀ j, t.i ≤ j → j < 20 → t.str j = '\x00'

/-- The flag says whether there is a point. -/
structure PointText.Kept (b : PointText) : Prop where
  text : b.toText.Kept
  point : b.point ≠ 0 ↔ b.toText.HasPoint

end Invariant

section Shape

/-- What holds whatever is typed. -/
structure Text.Shape (t : Text) : Prop where
  index : 1 ≤ t.i ∧ t.i ≤ 14
  sign : t.str 0 = ' ' ∨ t.str 0 = '-'
  blank : ∀ j, t.i ≤ j → j < 20 → t.str j = '\x00'

namespace Text

variable {t : Text} {c : Char}

theorem type_of_lt (room : t.i < 14) :
    t.type c = { str := Function.update t.str t.i c, i := t.i + 1 } := if_pos room

theorem type_of_not_lt (full : ¬t.i < 14) : t.type c = t := if_neg full

theorem erase_of_lt (filled : 1 < t.i) :
    t.erase = { str := Function.update t.str (t.i - 1) '\x00', i := t.i - 1 } := if_pos filled

theorem erase_of_not_lt (empty : ¬1 < t.i) : t.erase = t := if_neg empty

theorem shape_initial : initial.Shape := by
  refine ⟨by decide, .inl rfl, fun j behind _ => ?_⟩
  exact if_neg (Nat.ne_of_gt behind)

/-- Only the key of the sign changes the sign. -/
theorem str_zero_type (low : 1 ≤ t.i) : (t.type c).str 0 = t.str 0 := by
  by_cases room : t.i < 14
  · rw [type_of_lt room]
    exact Function.update_of_ne (by omega) _ _
  · rw [type_of_not_lt room]

theorem str_zero_erase : t.erase.str 0 = t.str 0 := by
  by_cases filled : 1 < t.i
  · rw [erase_of_lt filled]
    exact Function.update_of_ne (by omega) _ _
  · rw [erase_of_not_lt filled]

theorem str_zero_toggle : t.toggle.str 0 = if t.str 0 = ' ' then '-' else ' ' := by
  simp [toggle]

theorem Shape.type (shape : t.Shape) : (t.type c).Shape := by
  obtain ⟨low, high⟩ := shape.index
  have sign := shape.sign
  rw [← str_zero_type (c := c) low] at sign
  by_cases room : t.i < 14
  · rw [type_of_lt room] at sign ⊢
    refine ⟨⟨Nat.le_add_left 1 t.i, room⟩, sign, fun j behind inside => ?_⟩
    have further : t.i + 1 ≤ j := behind
    exact (Function.update_of_ne (by omega) _ _).trans (shape.blank j (by omega) inside)
  · rwa [type_of_not_lt room]

theorem Shape.toggle (shape : t.Shape) : t.toggle.Shape := by
  have low := shape.index.1
  refine ⟨shape.index, ?_, fun j behind inside => ?_⟩
  · rw [str_zero_toggle]
    split_ifs
    · exact .inr rfl
    · exact .inl rfl
  · have further : t.i ≤ j := behind
    exact (Function.update_of_ne (by omega) _ _).trans (shape.blank j behind inside)

theorem Shape.erase (shape : t.Shape) : t.erase.Shape := by
  obtain ⟨low, high⟩ := shape.index
  have sign := shape.sign
  rw [← str_zero_erase] at sign
  by_cases filled : 1 < t.i
  · rw [erase_of_lt filled] at sign ⊢
    refine ⟨⟨Nat.le_sub_one_of_lt filled, (Nat.sub_le t.i 1).trans high⟩, sign, fun j behind inside => ?_⟩
    have further : t.i - 1 ≤ j := behind
    by_cases last : j = t.i - 1
    · exact last ▸ Function.update_self _ _ _
    · exact (Function.update_of_ne last _ _).trans (shape.blank j (by omega) inside)
  · rwa [erase_of_not_lt filled]

end Text

end Shape

section View

variable {t : Text} {c : Char}

namespace Text

/-- The editor that a buffer stands for. -/
def view (t : Text) (point : Bool) : Editor := ⟨decide (t.str 0 = '-'), t.typed, point⟩

theorem length_typed (t : Text) : t.typed.length = t.i - 1 := by simp [typed]

theorem typed_type (shape : t.Shape) (room : t.i < 14) : (t.type c).typed = t.typed ++ [c] := by
  obtain ⟨before, index⟩ : ∃ before, t.i = before + 1 := ⟨t.i - 1, by have := shape.index; omega⟩
  rw [type_of_lt room, typed, typed, index]
  dsimp only
  rw [Nat.add_sub_cancel, Nat.add_sub_cancel, List.range_succ, List.map_append, List.map_singleton,
    Function.update_self]
  congr 1
  refine List.map_congr_left fun j member => Function.update_of_ne ?_ _ _
  have := List.mem_range.mp member
  omega

theorem typed_toggle (t : Text) : t.toggle.typed = t.typed := by
  simp [typed, toggle]

theorem typed_split (filled : 1 < t.i) :
    t.typed = t.erase.typed ++ [t.str (t.i - 1)] := by
  obtain ⟨before, index⟩ : ∃ before, t.i = before + 2 := ⟨t.i - 2, by omega⟩
  rw [erase_of_lt filled, typed, typed, index]
  dsimp only
  rw [show before + 2 - 1 = before + 1 by omega, Nat.add_sub_cancel, List.range_succ, List.map_append,
    List.map_singleton]
  congr 1
  refine List.map_congr_left fun j member => (Function.update_of_ne ?_ _ _).symm
  have := List.mem_range.mp member
  omega

variable (shape : t.Shape) (point : Bool)

include shape

theorem length_view : (t.view point).str.length + 1 = t.i := by
  have low := shape.index.1
  rw [view, length_typed]
  omega

theorem view_type : (t.type c).view point = (t.view point).type c := by
  rw [Editor.type, length_view shape]
  by_cases room : t.i < 14
  · simp only [if_pos room, view, typed_type shape room, str_zero_type shape.index.1]
  · rw [if_neg room, type_of_not_lt room]

theorem view_toggle :
    t.toggle.view point = { t.view point with negative := !(t.view point).negative } := by
  simp only [view, typed_toggle, str_zero_toggle]
  rcases shape.sign with plus | minus
  · simp [plus]
  · simp [minus]

/-- The key that deletes a character clears the flag with the point. -/
theorem view_erase :
    t.erase.view (if 1 < t.i ∧ t.str (t.i - 1) = '.' then false else point) =
      (t.view point).delete := by
  rw [Editor.delete, length_view shape]
  by_cases filled : 1 < t.i
  · have last : t.typed.getLast? = some (t.str (t.i - 1)) := by
      rw [typed_split filled, List.getLast?_concat]
    have front : t.typed.dropLast = t.erase.typed := by
      rw [typed_split filled, List.dropLast_concat]
    simp only [view, last, front, str_zero_erase, gt_iff_lt, filled, true_and, if_true, Option.some.injEq]
  · rw [if_neg filled, if_neg fun deletes => filled deletes.1, erase_of_not_lt filled]

end Text

namespace PointText

variable {b : PointText}

@[inherit_doc Text.view] def view (b : PointText) : Editor := b.toText.view (decide (b.point ≠ 0))

theorem view_typePoint (shape : b.toText.Shape) : b.typePoint.view = b.view.typePoint := by
  have unset : b.view.point = false ↔ b.point = 0 := by simp [view, Text.view]
  have length : b.view.str.length + 1 = b.i := Text.length_view shape _
  rw [typePoint, Editor.typePoint, length]
  by_cases room : b.point = 0 ∧ b.i < 14
  · have typed : (b.toText.type '.').view true = { b.view.type '.' with point := true } := by
      simp only [Text.view_type shape, Editor.type, length, Text.length_view shape, if_pos room.2]
      rfl
    rw [if_pos room, if_pos ⟨unset.mpr room.1, room.2⟩, ← typed]
    rfl
  · rw [if_neg room, if_neg fun free => room ⟨unset.mp free.1, free.2⟩]

theorem view_erase (shape : b.toText.Shape) : b.erase.view = b.view.delete := by
  rw [view, view, ← Text.view_erase shape, erase]
  by_cases filled : 1 < b.i
  · rw [if_pos filled]
    by_cases point : b.str (b.i - 1) = '.'
    · simp [filled, point]
    · simp [point]
  · rw [if_neg filled, if_neg fun deletes => filled deletes.1, Text.erase_of_not_lt filled]

end PointText

end View

section Refinement

/-- The key with a number. The numbers of no key are ignored. -/
def keyOf : Nat → Key
  | 1 => .key1
  | 2 => .key2
  | 3 => .key3
  | 4 => .key4
  | 5 => .keyback
  | 6 => .emergency
  | 7 => .key5
  | 8 => .key6
  | 9 => .key7
  | 10 => .key8
  | 11 => .empty1
  | 12 => .empty2
  | 13 => .key9
  | 14 => .key0
  | 15 => .point
  | 16 => .sign
  | 17 => .keydelete
  | 18 => .keyOK
  | _ => .empty1

def Outcome.view {B : Type} (view : B → Editor) : Outcome B → Edit
  | .stay buffer => .stay (view buffer)
  | .ok buffer => .ok (view buffer)
  | .cancel => .cancel

theorem view_switchInt {t : Text} (shape : t.Shape) (keyValue : UInt32) :
    (switchInt t keyValue).view (Text.view · false) = pressInt (t.view false) (keyOf keyValue.toNat) := by
  unfold switchInt
  generalize keyValue.toNat = n
  rcases Nat.lt_or_ge n 19 with key | none
  · have deletes := Text.view_erase shape false
    rw [ite_self] at deletes
    interval_cases n <;> simp only [Outcome.view, keyOf, pressInt, Editor.press, Text.view_type shape,
      Text.view_toggle shape, deletes, reduceCtorEq, if_false, if_true]
  · obtain ⟨rest, rfl⟩ := Nat.exists_eq_add_of_le' none
    rfl

theorem view_switchDouble {b : PointText} (shape : b.toText.Shape) (keyValue : UInt32) :
    (switchDouble b keyValue).view PointText.view = b.view.press (keyOf keyValue.toNat) := by
  have types (c : Char) : (b.type c).view = b.view.type c := Text.view_type shape _
  have toggles : b.toggle.view = { b.view with negative := !b.view.negative } := Text.view_toggle shape _
  unfold switchDouble
  generalize keyValue.toNat = n
  rcases Nat.lt_or_ge n 19 with key | none
  · interval_cases n <;> simp only [Outcome.view, keyOf, Editor.press, types, toggles,
      PointText.view_typePoint shape, PointText.view_erase shape]
  · obtain ⟨rest, rfl⟩ := Nat.exists_eq_add_of_le' none
    rfl

/-- The two functions with a point have the same cases. -/
theorem switchFloat_eq : switchFloat = switchDouble := rfl

/-- The loop of an editor: the buffer for the key `keyOK`, or nothing for `keyback`. -/
def runBuffer {B : Type} (switch : B → UInt32 → Outcome B) : B → List UInt32 → Option (Option B)
  | _, [] => none
  | buffer, key :: keys =>
    match switch buffer key with
    | .stay buffer => runBuffer switch buffer keys
    | .ok buffer => some (some buffer)
    | .cancel => some none

/-- A loop over buffers runs as the one over the editors that they stand for. -/
theorem runBuffer_view {B : Type} {switch : B → UInt32 → Outcome B} {press : Editor → Key → Edit}
    {view : B → Editor} {Good : B → Prop}
    (agree : ∀ b, Good b → ∀ key, (switch b key).view view = press (view b) (keyOf key.toNat))
    (kept : ∀ b, Good b → ∀ key next, switch b key = .stay next → Good next)
    {b : B} (good : Good b) (keys : List UInt32) :
    (runBuffer switch b keys).map (Option.map view) =
      runEditor press (view b) (keys.map fun key => keyOf key.toNat) := by
  induction keys generalizing b with
  | nil => rfl
  | cons key keys ih =>
    rw [List.map_cons, runBuffer, runEditor, ← agree b good key]
    cases outcome : switch b key with
    | stay next => exact ih (kept b good key next outcome)
    | ok confirmed => rfl
    | cancel => rfl

end Refinement

section Kept

variable {t next : Text} {b after : PointText} {keyValue : UInt32}

theorem shape_switchInt (shape : t.Shape) (stays : switchInt t keyValue = .stay next) : next.Shape := by
  unfold switchInt at stays
  split at stays <;> cases stays
  case h_11 => exact shape.toggle
  case h_12 => exact shape.erase
  case h_15 => exact shape
  all_goals exact shape.type

theorem shape_switchDouble (shape : b.toText.Shape) (stays : switchDouble b keyValue = .stay after) :
    after.toText.Shape := by
  unfold switchDouble at stays
  split at stays <;> cases stays
  case h_11 =>
    rw [PointText.typePoint]
    split_ifs
    · exact shape.type
    · exact shape
  case h_12 => exact shape.toggle
  case h_13 =>
    by_cases filled : b.i > 1
    · rw [PointText.erase, if_pos filled]
      exact shape.erase
    · rw [PointText.erase, if_neg filled]
      exact shape
  case h_16 => exact shape
  all_goals exact shape.type

/-- The buffers of `Input_IntValue`. -/
structure Text.Whole (t : Text) : Prop where
  shape : t.Shape
  digits : ∀ c ∈ t.typed, c.isDigit

theorem whole_initial : Text.initial.Whole := ⟨Text.shape_initial, nofun⟩

theorem whole_switchInt (whole : t.Whole) (stays : switchInt t keyValue = .stay next) : next.Whole := by
  have pressed := view_switchInt whole.shape keyValue
  rw [stays] at pressed
  exact ⟨shape_switchInt whole.shape stays,
    isDigit_pressInt (t.view false) _ (next.view false) whole.digits (.inl pressed.symm)⟩

/-- The buffers of `Input_DoubleValue` and `Input_FloatValue`. -/
structure PointText.Decimal (b : PointText) : Prop where
  shape : b.toText.Shape
  typed : Typed b.view

theorem decimal_initial : PointText.initial.Decimal := ⟨Text.shape_initial, typed_empty⟩

theorem decimal_switchDouble (decimal : b.Decimal) (stays : switchDouble b keyValue = .stay after) :
    after.Decimal := by
  have pressed := view_switchDouble decimal.shape keyValue
  rw [stays] at pressed
  exact ⟨shape_switchDouble decimal.shape stays,
    typed_press b.view _ after.view decimal.typed (.inl pressed.symm)⟩

/-- The characters of the text one by one. -/
theorem getElem?_typed {j : Nat} (positive : 1 ≤ j) (inside : j < t.i) :
    t.typed[j - 1]? = some (t.str j) := by
  have small : j - 1 < t.i - 1 := by omega
  rw [Text.typed, List.getElem?_map, List.getElem?_range small, Option.map_some,
    Nat.sub_add_cancel positive]

theorem mem_typed {j : Nat} (positive : 1 ≤ j) (inside : j < t.i) : t.str j ∈ t.typed :=
  List.mem_of_getElem? (getElem?_typed positive inside)

theorem hasPoint_iff : t.HasPoint ↔ '.' ∈ t.typed := by
  constructor
  · rintro ⟨j, positive, inside, point⟩
    exact point ▸ mem_typed positive inside
  · intro member
    obtain ⟨j, range, point⟩ := List.mem_map.mp member
    have inside := List.mem_range.mp range
    exact ⟨j + 1, by omega, by omega, point⟩

theorem Text.Whole.kept (whole : t.Whole) : t.Kept := by
  have digit {j : Nat} (positive : 1 ≤ j) (inside : j < t.i) : (t.str j).isDigit :=
    whole.digits _ (mem_typed positive inside)
  refine ⟨whole.shape.index, whole.shape.sign, ?_, ?_, whole.shape.blank⟩
  · exact fun j positive inside => .inl (digit positive inside)
  · intro j k positive inside _ _ point _
    exact absurd point (ne_point_of_isDigit (digit positive inside))

/-- A text with one point has it in one place. -/
theorem eq_length_of_point {whole fraction : List Char} {n : Nat} (digits : ∀ c ∈ whole, c.isDigit)
    (decimals : ∀ c ∈ fraction, c.isDigit) (point : (whole ++ '.' :: fraction)[n]? = some '.') :
    n = whole.length := by
  rcases Nat.lt_trichotomy n whole.length with front | same | behind
  · rw [List.getElem?_append_left front] at point
    exact absurd rfl (ne_point_of_isDigit (digits '.' (List.mem_of_getElem? point)))
  · exact same
  · obtain ⟨k, rfl⟩ := Nat.exists_eq_add_of_lt behind
    rw [List.getElem?_append_right (by omega), show whole.length + k + 1 - whole.length = k + 1 by omega,
      List.getElem?_cons_succ] at point
    exact absurd rfl (ne_point_of_isDigit (decimals '.' (List.mem_of_getElem? point)))

theorem PointText.Decimal.kept (decimal : b.Decimal) : b.Kept := by
  have shape := decimal.shape
  have flag : b.point ≠ 0 ↔ b.view.point = true := by simp [PointText.view, Text.view]
  rcases decimal.typed.text with ⟨unset, digits⟩ | ⟨set, whole, fraction, split, digits, decimals⟩
  · have whole : b.toText.Whole := ⟨shape, digits⟩
    refine ⟨whole.kept, ?_⟩
    rw [flag, hasPoint_iff, unset]
    exact iff_of_false Bool.false_ne_true fun member => ne_point_of_isDigit (digits '.' member) rfl
  · have split : b.toText.typed = whole ++ '.' :: fraction := split
    have place {j : Nat} (positive : 1 ≤ j) (inside : j < b.i) (point : b.str j = '.') :
        j - 1 = whole.length := by
      refine eq_length_of_point digits decimals ?_
      rw [← split, getElem?_typed positive inside, point]
    refine ⟨⟨shape.index, shape.sign, ?_, ?_, shape.blank⟩, ?_⟩
    · intro j positive inside
      have member := mem_typed positive inside
      rw [split, List.mem_append, List.mem_cons] at member
      rcases member with front | point | behind
      · exact .inl (digits _ front)
      · exact .inr point
      · exact .inl (decimals _ behind)
    · intro j k positive inside positive' inside' first second
      have one := place positive inside first
      have other := place positive' inside' second
      omega
    · rw [flag, hasPoint_iff, set, split]
      simp

/-- What every key keeps holds for the buffer as long as it is edited. -/
theorem edited_invariant {B : Type} {switch : B → UInt32 → Outcome B} {initial buffer : B}
    {Good : B → Prop} (kept : ∀ b, Good b → ∀ key next, switch b key = .stay next → Good next)
    (good : Good initial) {keys : List UInt32} (reached : edited switch initial keys = some buffer) :
    Good buffer := by
  refine (steps_of_run reached).invariant good fun current key next held taken => ?_
  cases outcome : switch current key with
  | stay next =>
    rw [Takes, outcome] at taken
    exact Option.some.inj taken ▸ kept current held key next outcome
  | ok confirmed =>
    rw [Takes, outcome] at taken
    cases taken
  | cancel =>
    rw [Takes, outcome] at taken
    cases taken

/-- The buffers of the three editors are well formed at every time, and two of them are the same. -/
theorem edited_kept (keys : List UInt32) :
    (∀ t, edited switchInt Text.initial keys = some t → t.Kept) ∧
      (∀ b, edited switchDouble PointText.initial keys = some b → b.Kept) ∧
      (∀ b, edited switchFloat PointText.initial keys = some b → b.Kept) ∧
      edited switchDouble PointText.initial keys = edited switchFloat PointText.initial keys := by
  have decimals : ∀ b, edited switchDouble PointText.initial keys = some b → b.Kept := fun b reached =>
    (edited_invariant (fun _ decimal _ _ => decimal_switchDouble decimal) decimal_initial reached).kept
  refine ⟨fun t reached => ?_, decimals, ?_, by rw [switchFloat_eq]⟩
  · exact (edited_invariant (fun _ whole _ _ => whole_switchInt whole) whole_initial reached).kept
  · rw [switchFloat_eq]
    exact decimals

/-- The keys for 1, the point, 2 and the sign, and one that deletes the 2. -/
theorem edited_kept_minusOne :
    ∃ b, edited switchDouble PointText.initial [1, 15, 2, 16, 17] = some b ∧ b.i = 3 ∧ b.point = 1 ∧
      b.Kept :=
  ⟨_, rfl, rfl, rfl, (edited_kept [1, 15, 2, 16, 17]).2.1 _ rfl⟩

end Kept

section Input

/-- The variable `*address` when an editor returns, with its text in a buffer. -/
def bufferedValue {B V : Type} (switch : B → UInt32 → Outcome B) (initial : B) (value : B → V)
    (address : V) (keys : List UInt32) : Option V :=
  (runBuffer switch initial keys).map fun answer => answer.elim address value

/-- The function `Input_IntValue` with its buffer. -/
def bufferedIntValue (machine : Machine) : Int → List UInt32 → Option Int :=
  bufferedValue switchInt Text.initial fun t =>
    let temp := intLoop machine t.typed
    if t.str 0 = '-' then machine.int (-temp) else temp

/-- The number that `Input_DoubleValue` and `Input_FloatValue` store. -/
def PointText.value (b : PointText) : ℚ :=
  let temp : ℚ := (b.typed.foldl Editor.evaluate (0, 0)).1
  if b.str 0 = '-' then -temp else temp

/-- The function `Input_DoubleValue` with its buffer. -/
def bufferedDoubleValue : ℚ → List UInt32 → Option ℚ :=
  bufferedValue switchDouble PointText.initial PointText.value

/-- The function `Input_FloatValue` with its buffer. -/
def bufferedFloatValue : ℚ → List UInt32 → Option ℚ :=
  bufferedValue switchFloat PointText.initial PointText.value

theorem bufferedValue_eq {B V : Type} (view : B → Editor) (Good : B → Prop)
    {switch : B → UInt32 → Outcome B} {press : Editor → Key → Edit} {value : B → V}
    {number : Editor → V} {initial : B}
    (agree : ∀ b, Good b → ∀ key, (switch b key).view view = press (view b) (keyOf key.toNat))
    (kept : ∀ b, Good b → ∀ key next, switch b key = .stay next → Good next) (good : Good initial)
    (empty : view initial = .empty) (values : ∀ b, value b = number (view b)) (address : V)
    (keys : List UInt32) :
    bufferedValue switch initial value address keys =
      inputValue press number address (keys.map fun key => keyOf key.toNat) := by
  rw [bufferedValue, inputValue, ← empty, ← runBuffer_view agree kept good keys, Option.map_map]
  congr 1
  funext answer
  cases answer with
  | none => rfl
  | some b => exact values b

/-- The editors of texts are what the functions with their buffers do. -/
theorem bufferedIntValue_eq (machine : Machine) (address : Int) (keys : List UInt32) :
    bufferedIntValue machine address keys =
      inputIntValue machine address (keys.map fun key => keyOf key.toNat) := by
  refine bufferedValue_eq (Text.view · false) Text.Shape (fun _ shape => view_switchInt shape)
    (fun _ shape _ _ => shape_switchInt shape) Text.shape_initial rfl (fun t => ?_) address keys
  simp [intValue, Text.view]

theorem bufferedDoubleValue_eq (address : ℚ) (keys : List UInt32) :
    bufferedDoubleValue address keys =
      inputDoubleValue address (keys.map fun key => keyOf key.toNat) := by
  refine bufferedValue_eq PointText.view (·.toText.Shape) (fun _ shape => view_switchDouble shape)
    (fun _ shape _ _ => shape_switchDouble shape) Text.shape_initial rfl (fun b => ?_) address keys
  simp [PointText.value, Editor.value, PointText.view, Text.view]

theorem bufferedFloatValue_eq (address : ℚ) (keys : List UInt32) :
    bufferedFloatValue address keys =
      inputFloatValue address (keys.map fun key => keyOf key.toNat) :=
  bufferedDoubleValue_eq address keys

end Input

end BadmintonRobot.Screen
