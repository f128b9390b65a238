import Mathlib
import BadmintonRobot.General.Mystring

/-!
# Writing on the screen

The screen shows the 160 characters of `LCD_Table`. `LCD_SetXY` sets the place of the next character,
and every character that is written is stored there and moves it on. Nothing stops it at the end of
the table.

`LCD_WriteNum` is written over any arithmetic. Over the rational numbers its text is the number cut
off behind five decimals.
-/

namespace BadmintonRobot.Screen

open General Numeric Semantics

section Num

variable {F : Type} [Zero F] [LT F] [DecidableLT F] [Neg F] [Sub F] [Mul F] [NatCast F] [IntCast F]

/-- The variable `flag` of `LCD_WriteNum`: the place behind the last decimal that is not zero. -/
def lastDecimal (str : List Char) : Nat :=
  str.zipIdx.foldl (fun flag decimal => if decimal.1 ≠ '0' then decimal.2 + 1 else flag) 0

/-- The characters that `LCD_WriteNum` writes. -/
def writeNumText (machine : Machine) (toInt : F → Int) (data : F) : List Char :=
  let sign := if data < 0 then ['-'] else []
  let data := if data < 0 then -data else data
  let str := decimalLoop machine toInt 5 (data - (toInt data : F))
  let flag := lastDecimal str
  sign ++ int2StrText machine (toInt data) ++ (if flag ≠ 0 then ['.'] else []) ++ str.take flag ++
    List.replicate (6 - flag) ' '

end Num

section Table

/-- The variables `LCD_Table` and `LCD_Index`. -/
structure Lcd where
  table : Buffer 160
  index : UInt8

/-- The function `LCD_WriteChar`. It has no result if it stores outside of the table. -/
def Lcd.writeChar (lcd : Lcd) (ch : UInt8) : Option Lcd := do
  let table ← lcd.table.store lcd.index.toNat [ch]
  return { table, index := lcd.index + 1 }

/-- The function `LCD_SetXY`. -/
def Lcd.setXY (lcd : Lcd) (x : Fin 20) (y : Fin 8) : Lcd :=
  { lcd with index := UInt8.ofNat (y * 20 + x) }

/-- The calls of the functions that write. -/
inductive Call (F : Type) where
  | setXY (x : Fin 20) (y : Fin 8)
  | writeChar (ch : UInt8)
  | writeString (str : List UInt8)
  | writeInt (val : Int32)
  | writeNum (data : F)

variable {F : Type} [Zero F] [LT F] [DecidableLT F] [Neg F] [Sub F] [Mul F] [NatCast F] [IntCast F]
  (machine : Machine) (toInt : F → Int)

/-- The characters that a call writes, one after another. A string ends before its first zero byte. -/
def Call.text : Call F → List UInt8
  | setXY _ _ => []
  | writeChar ch => [ch]
  | writeString str => cString str
  | writeInt val => ascii (int2StrText machine val.toInt)
  | writeNum data => ascii (writeNumText machine toInt data)

def Call.execute (lcd : Lcd) : Call F → Option Lcd
  | setXY x y => some (lcd.setXY x y)
  | call => (call.text machine toInt).foldlM Lcd.writeChar lcd

/-- The screen after some calls. -/
def execute (calls : List (Call F)) (lcd : Lcd) : Option Lcd :=
  calls.foldlM (Call.execute machine toInt) lcd

/-- The place behind the last character: the one that was set, and as many as were written since. -/
def extent (calls : List (Call F)) : Nat :=
  calls.foldl (fun place call =>
    match call with
    | .setXY x y => y * 20 + x
    | call => place + (call.text machine toInt).length) 0

/-- Every store goes into the table, whatever is on the screen at first. -/
def Safe (calls : List (Call F)) : Prop :=
  ∀ table, ∃ lcd, execute machine toInt calls ⟨table, 0⟩ = some lcd

/-- The characters never reach beyond the end of the table. -/
def Fits (calls : List (Call F)) : Prop :=
  ∀ earlier, earlier <+: calls → extent machine toInt earlier ≤ 160

theorem writeChar_of_lt {lcd : Lcd} {place : Nat} (index : lcd.index.toNat = place)
    (inside : place < 160) (ch : UInt8) :
    ∃ next, lcd.writeChar ch = some next ∧ next.index.toNat = place + 1 := by
  have room : lcd.index.toNat + [ch].length ≤ 160 := by
    rw [index]
    exact inside
  obtain ⟨table, stored⟩ := Buffer.exists_store lcd.table room
  refine ⟨⟨table, lcd.index + 1⟩, by rw [Lcd.writeChar, stored]; rfl, ?_⟩
  rw [UInt8.toNat_add, index]
  exact Nat.mod_eq_of_lt (show place + 1 < 2 ^ 8 by omega)

theorem writeChar_of_le {lcd : Lcd} (outside : 160 ≤ lcd.index.toNat) (ch : UInt8) :
    lcd.writeChar ch = none := by
  have overrun : lcd.table.store lcd.index.toNat [ch] = none :=
    Buffer.store_eq_none.mpr (Nat.lt_succ_of_le outside)
  rw [Lcd.writeChar, overrun]
  rfl

/-- Characters written from a place on stay in the table exactly if there is room for them. -/
theorem foldlM_writeChar (text : List UInt8) {lcd : Lcd} {place : Nat}
    (index : lcd.index.toNat = place) (inside : place ≤ 160) :
    if place + text.length ≤ 160 then
      ∃ next, text.foldlM Lcd.writeChar lcd = some next ∧ next.index.toNat = place + text.length
    else text.foldlM Lcd.writeChar lcd = none := by
  induction text generalizing lcd place with
  | nil =>
    rw [List.length_nil, Nat.add_zero, if_pos inside]
    exact ⟨lcd, rfl, index⟩
  | cons ch text ih =>
    rw [List.foldlM_cons, List.length_cons, Nat.add_comm text.length, ← Nat.add_assoc]
    rcases Nat.lt_or_ge place 160 with room | full
    · obtain ⟨next, written, moved⟩ := writeChar_of_lt index room ch
      rw [written]
      exact ih moved room
    · rw [writeChar_of_le (by omega) ch, if_neg (by omega)]
      rfl

/-- One call, from a place in the table or right behind it. -/
theorem Call.execute_spec (call : Call F) (calls : List (Call F)) {lcd : Lcd}
    (index : lcd.index.toNat = extent machine toInt calls)
    (inside : extent machine toInt calls ≤ 160) :
    if extent machine toInt (calls ++ [call]) ≤ 160 then
      ∃ next, call.execute machine toInt lcd = some next ∧
        next.index.toNat = extent machine toInt (calls ++ [call])
    else call.execute machine toInt lcd = none := by
  have snoc : extent machine toInt (calls ++ [call]) =
      match call with
      | .setXY x y => y * 20 + x
      | call => extent machine toInt calls + (call.text machine toInt).length := by
    rw [extent, List.foldl_append]
    rfl
  rw [snoc]
  cases call with
  | setXY x y =>
    have place : (y : Nat) * 20 + x < 160 := by omega
    rw [if_pos place.le]
    exact ⟨lcd.setXY x y, rfl, UInt8.toNat_ofNat_of_lt' (place.trans (by decide))⟩
  | writeChar ch => exact foldlM_writeChar _ index inside
  | writeString str => exact foldlM_writeChar _ index inside
  | writeInt val => exact foldlM_writeChar _ index inside
  | writeNum data => exact foldlM_writeChar _ index inside

theorem fits_snoc (calls : List (Call F)) (call : Call F) :
    Fits machine toInt (calls ++ [call]) ↔
      Fits machine toInt calls ∧ extent machine toInt (calls ++ [call]) ≤ 160 := by
  constructor
  · intro fits
    exact ⟨fun earlier before => fits earlier (before.trans (List.prefix_append _ _)),
      fits _ (List.prefix_refl _)⟩
  · rintro ⟨fits, last⟩ earlier before
    rcases List.prefix_concat_iff.mp before with rfl | before
    · exact last
    · exact fits earlier before

theorem execute_snoc (calls : List (Call F)) (call : Call F) (lcd : Lcd) :
    execute machine toInt (calls ++ [call]) lcd =
      (execute machine toInt calls lcd).bind fun next => call.execute machine toInt next := by
  simp [execute, Option.bind_eq_bind]

/-- A sequence of calls, from the start of the table. -/
theorem execute_spec (calls : List (Call F)) (table : Buffer 160) :
    (Fits machine toInt calls ∧ ∃ lcd, execute machine toInt calls ⟨table, 0⟩ = some lcd ∧
      lcd.index.toNat = extent machine toInt calls) ∨
    ¬ Fits machine toInt calls ∧ execute machine toInt calls ⟨table, 0⟩ = none := by
  induction calls using List.reverseRecOn with
  | nil =>
    refine .inl ⟨fun earlier before => ?_, ⟨table, 0⟩, rfl, rfl⟩
    rw [List.prefix_nil.mp before]
    exact Nat.zero_le 160
  | append_singleton calls call ih =>
    rw [fits_snoc, execute_snoc]
    rcases ih with ⟨fits, lcd, reached, index⟩ | ⟨overrun, failed⟩
    · have step := call.execute_spec machine toInt calls index (fits calls (List.prefix_refl _))
      rw [reached, Option.bind_some]
      split at step
      case isTrue room => exact .inl ⟨⟨fits, room⟩, step⟩
      case isFalse full => exact .inr ⟨fun both => full both.2, step⟩
    · exact .inr ⟨fun both => overrun both.1, by rw [failed]; rfl⟩

/-- The stores stay in the table exactly if the characters written since a place was set never reach
beyond its end. -/
theorem safe_iff_fits (calls : List (Call F)) :
    Safe machine toInt calls ↔ Fits machine toInt calls := by
  constructor
  · intro safe
    obtain ⟨lcd, reached⟩ := safe fun _ => 0
    rcases execute_spec machine toInt calls fun _ => 0 with ⟨fits, -⟩ | ⟨-, failed⟩
    · exact fits
    · exact nomatch reached.symm.trans failed
  · intro fits table
    rcases execute_spec machine toInt calls table with ⟨-, lcd, reached, -⟩ | ⟨overrun, -⟩
    · exact ⟨lcd, reached⟩
    · exact absurd fits overrun

/-- Two characters at the last place of the screen. -/
def corner : List (Call ℚ) := [.setXY 19 7, .writeString [0x4F, 0x4B, 0]]

theorem not_safe_corner :
    execute wrapping wrapping.toInt corner ⟨fun _ => 0x20, 0⟩ = none ∧
      ¬ Safe wrapping wrapping.toInt corner := by
  have overrun : execute wrapping wrapping.toInt corner ⟨fun _ => 0x20, 0⟩ = none := rfl
  refine ⟨overrun, fun safe => ?_⟩
  obtain ⟨lcd, reached⟩ := safe fun _ => 0x20
  exact nomatch overrun.symm.trans reached

end Table

section Decimal

variable (machine : Machine)

/-- The decimals before the last one that is not zero. -/
theorem take_lastDecimal (str : List Char) :
    str.take (lastDecimal str) = str.rdropWhile (· = '0') ∧
      lastDecimal str = (str.rdropWhile (· = '0')).length := by
  induction str using List.reverseRecOn with
  | nil => exact ⟨rfl, rfl⟩
  | append_singleton str last ih =>
    have step : lastDecimal (str ++ [last]) =
        if last ≠ '0' then str.length + 1 else lastDecimal str := by
      simp [lastDecimal, List.zipIdx_append]
    rw [step]
    by_cases zero : last = '0'
    · have le : lastDecimal str ≤ str.length := by
        rw [ih.2]
        exact (List.rdropWhile_prefix _ _).length_le
      rw [if_neg (not_not.mpr zero), List.rdropWhile_concat_pos _ _ _ (by simpa using zero),
        List.take_append_of_le_length le]
      exact ih
    · rw [if_pos zero, List.rdropWhile_concat_neg _ _ _ (by simpa using zero), ← List.length_singleton,
        ← List.length_append, List.take_length]
      exact ⟨rfl, rfl⟩

/-- A number as it is meant to be shown: a sign, its whole part, and its first five decimals behind a
point, without the zeros at their end, if one of them is not zero. -/
def display (data : ℚ) : List Char :=
  (if data < 0 then ['-'] else []) ++ Nat.toDigits 10 ⌊|data|⌋₊ ++
    (if ∃ c ∈ decimals |data| 5, c ≠ '0' then
      '.' :: (decimals |data| 5).rdropWhile (· = '0') else [])

theorem display_eq (data : ℚ) :
    display data =
      numeral (decide (data < 0)) ⌊|data|⌋₊ ((decimals |data| 5).rdropWhile (· = '0')) := by
  have shown : (∃ c ∈ decimals |data| 5, c ≠ '0') ↔
      ¬ (decimals |data| 5).rdropWhile (· = '0') = [] := by
    simp [List.rdropWhile_eq_nil_iff]
  rw [display, numeral]
  simp only [shown, ite_not, decide_eq_true_eq]

/-- The text is the number as it is meant to be shown, followed by blanks, and is read as the number
cut off behind five decimals. -/
theorem writeNumText_eq {data : ℚ} (small : |data| < 2 ^ 31) :
    (∃ blanks, writeNumText machine machine.toInt data =
      display data ++ List.replicate blanks ' ') ∧
    readDecimal (display data) = some (truncateAt data 5) := by
  have nonneg : 0 ≤ |data| := abs_nonneg data
  have floor : ⌊|data|⌋₊ < 2 ^ 31 := (Nat.floor_lt nonneg).mpr (by exact_mod_cast small)
  have int : IsInt (⌊|data|⌋₊ : Int) := ⟨by omega, by omega⟩
  have whole : int2StrText machine (⌊|data|⌋₊ : Int) = Nat.toDigits 10 ⌊|data|⌋₊ := by
    rw [int2StrText_eq machine int (by omega), numeral]
    simp
  obtain ⟨taken, flag⟩ := take_lastDecimal (decimals |data| 5)
  refine ⟨⟨6 - lastDecimal (decimals |data| 5), ?_⟩, ?_⟩
  · have point : (if lastDecimal (decimals |data| 5) ≠ 0 then ['.'] else []) ++
        (decimals |data| 5).rdropWhile (· = '0') =
        if (decimals |data| 5).rdropWhile (· = '0') = [] then []
        else '.' :: (decimals |data| 5).rdropWhile (· = '0') := by
      rw [flag]
      cases (decimals |data| 5).rdropWhile (· = '0') <;> rfl
    simp only [writeNumText, magnitude_eq]
    rw [decimalLoop_sub machine 5 nonneg small, toInt_of_nonneg machine nonneg small, whole, taken,
      display_eq, numeral]
    simp only [List.append_assoc, ← point, decide_eq_true_eq]
  · rw [display_eq]
    exact readDecimal_numeral_rdropWhile data 5

theorem writeNumText_negative :
    |(-13 / 4 : ℚ)| < 2 ^ 31 ∧
      (∃ blanks, writeNumText wrapping wrapping.toInt (-13 / 4) =
        display (-13 / 4) ++ List.replicate blanks ' ') ∧
      readDecimal (display (-13 / 4)) = some (truncateAt (-13 / 4) 5) := by
  have small : |(-13 / 4 : ℚ)| < 2 ^ 31 := by norm_num [abs_of_neg]
  exact ⟨small, writeNumText_eq wrapping small⟩

end Decimal

end BadmintonRobot.Screen
