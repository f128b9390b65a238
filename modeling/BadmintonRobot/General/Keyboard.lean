import Mathlib.Algebra.Notation.Defs
import Mathlib.Data.Nat.Cast.Defs

/-!
# The keyboard and the editor of numbers

The key numbers of `M_KeyNumTpye`, and `Input_DoubleValue`, which lets a number be typed. Nothing is
assumed of the arithmetic of `float`, in which the typed text is evaluated. The screen is left out.
-/

namespace BadmintonRobot.General

/-- The keys, in the order of `M_KeyNumTpye`. -/
inductive Key where
  | key1 | key2 | key3 | key4 | keyback | emergency
  | key5 | key6 | key7 | key8 | empty1 | empty2
  | key9 | key0 | point | sign | keydelete | keyOK
deriving DecidableEq, Repr

/-- The local variables of `Input_DoubleValue`. `negative` is the sign in `str[0]`, `str` holds what
follows it up to the index `i`, and `point` says that there is a point in it. -/
structure Editor where
  negative : Bool
  str : List Char
  point : Bool
deriving DecidableEq, Repr

/-- What a key leads to. -/
inductive Edit where
  | stay (editor : Editor)
  | ok (editor : Editor)
  | cancel
deriving DecidableEq, Repr

namespace Editor

/-- The variables when the editor is entered. -/
def empty : Editor where
  negative := false
  str := []
  point := false

/-- Append a character, if `i < 14`. -/
def type (c : Char) (e : Editor) : Editor :=
  if e.str.length + 1 < 14 then { e with str := e.str ++ [c] } else e

/-- The key of the point. -/
def typePoint (e : Editor) : Editor :=
  if e.point = false ∧ e.str.length + 1 < 14 then { e.type '.' with point := true } else e

/-- The key that deletes the last character. -/
def delete (e : Editor) : Editor :=
  if e.str.length + 1 > 1 then
    { e with
      point := if e.str.getLast? = some '.' then false else e.point
      str := e.str.dropLast }
  else e

/-- The `switch` of `Input_DoubleValue`. -/
def press (e : Editor) : Key → Edit
  | .key1 => .stay (e.type '1')
  | .key2 => .stay (e.type '2')
  | .key3 => .stay (e.type '3')
  | .key4 => .stay (e.type '4')
  | .key5 => .stay (e.type '5')
  | .key6 => .stay (e.type '6')
  | .key7 => .stay (e.type '7')
  | .key8 => .stay (e.type '8')
  | .key9 => .stay (e.type '9')
  | .key0 => .stay (e.type '0')
  | .point => .stay e.typePoint
  | .sign => .stay { e with negative := !e.negative }
  | .keydelete => .stay e.delete
  | .keyOK => .ok e
  | .keyback => .cancel
  | .emergency | .empty1 | .empty2 => .stay e

section Value

variable {F : Type} [Zero F] [Add F] [Sub F] [Mul F] [Div F] [Neg F] [NatCast F]

/-- A turn of the loop that evaluates the text, with `temp` and `point`. -/
def evaluate (s : F × UInt32) (c : Char) : F × UInt32 :=
  if c = '.' then (s.1, 10)
  else if s.2 = 0 then (s.1 * (10 : Nat) + c.toNat - ('0'.toNat : Nat), 0)
  else (s.1 + ((c.toNat - '0'.toNat : Nat) : F) / (s.2.toNat : Nat), s.2 * 10)

/-- The number that is stored for the key `keyOK`. -/
def value (e : Editor) : F :=
  let temp : F := (e.str.foldl evaluate (0, 0)).1
  if e.negative then -temp else temp

end Value

end Editor

end BadmintonRobot.General
