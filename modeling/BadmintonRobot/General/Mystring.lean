import Mathlib
import BadmintonRobot.Numeric.Decimal
import BadmintonRobot.Semantics.Buffer

/-!
# Numbers as text

`Int2Str` writes an integer into the static buffer `DataConvBuff`, and `Float2Str` calls it and then
copies the text to where it is already. The smallest integer has no negative, so that its text is
wrong. For a number between -1 and 0 the sign is written first and the text copied to the place
behind it, where it overtakes itself and leaves the buffer.

The arithmetic of `float` is that of the rational numbers. Nothing is assumed of the operations that
C leaves undefined.
-/

namespace BadmintonRobot.General

open Numeric Semantics

/-- The values of the type `int`. -/
def IsInt (n : Int) : Prop := -2 ^ 31 ≤ n ∧ n < 2 ^ 31

instance : DecidablePred IsInt := fun n => inferInstanceAs (Decidable (-2 ^ 31 ≤ n ∧ n < 2 ^ 31))

/-- What the machine makes of the operations that C leaves undefined. -/
structure Machine where
  overflow : Int → Int
  convert : ℚ → Int

namespace Machine

variable (machine : Machine)

/-- The result of an operation on values of type `int`. -/
def int (n : Int) : Int := if IsInt n then n else (machine.overflow n).bmod (2 ^ 32)

theorem int_of_isInt {n : Int} (inside : IsInt n) : machine.int n = n := if_pos inside

/-- The conversion `(int)x`. -/
def toInt (x : ℚ) : Int :=
  if IsInt (truncate x) then truncate x else (machine.convert x).bmod (2 ^ 32)

end Machine

/-- The conversion of an `int` to a `char`. -/
def toChar (n : Int) : Char := Char.ofNat (n % 256).toNat

/-- The loop of `Int2Str`. -/
def int2StrLoop (i : Nat) (intData : Int) (flag : Bool) : List Char :=
  if i > 0 then
    let d := intData.tdiv i
    if d ≠ 0 ∨ flag then toChar (d + 0x30) :: int2StrLoop (i / 10) (intData - d * i) true
    else int2StrLoop (i / 10) intData flag
  else []
termination_by i

/-- The characters that `Int2Str` writes before the zero byte. -/
def int2StrText (machine : Machine) (intData : Int) : List Char :=
  if intData = 0 then ['0']
  else if intData < 0 then '-' :: int2StrLoop 1000000000 (machine.int (intData * -1)) false
  else int2StrLoop 1000000000 intData false

/-- The bytes of a text, and back. -/
def ascii (text : List Char) : List UInt8 := text.map fun c => UInt8.ofNat c.toNat

def chars (bytes : List UInt8) : List Char := bytes.map fun byte => Char.ofNat byte.toNat

/-- The variable `DataConvBuff`. -/
abbrev DataConvBuff := Buffer 25

/-- The text in the buffer. -/
def DataConvBuff.text (buff : DataConvBuff) : Option (List Char) := (buff.string? 0).map chars

/-- The function `Int2Str`. It has no result if it writes outside of the buffer. -/
def int2Str (machine : Machine) (intData : Int) (buff : DataConvBuff) : Option DataConvBuff :=
  buff.store 0 (ascii (int2StrText machine intData) ++ [0])

section Decimals

variable {F : Type} [Sub F] [Mul F] [NatCast F] [IntCast F]

/-- The loop that writes decimals, for any arithmetic and conversion `(int)`. -/
def decimalLoop (machine : Machine) (toInt : F → Int) : Nat → F → List Char
  | 0, _ => []
  | count + 1, data =>
    let data := data * (10 : Nat)
    toChar (machine.int (toInt data + '0'.toNat)) ::
      decimalLoop machine toInt count (data - (toInt data : F))

end Decimals

/-- The function `Float2Str`. It has no result if it reads or writes outside of the buffer. -/
def float2Str (machine : Machine) (floatData : ℚ) (pointNum : Int) (buff : DataConvBuff) :
    Option DataConvBuff := do
  let small : Bool := floatData < 0 ∧ floatData > -1
  let ptr := if small then 1 else 0
  let buff ← if small then buff.store 0 (ascii ['-']) else some buff
  let buff ← int2Str machine (machine.toInt floatData) buff
  let buff ← buff.strcpy ptr 0
  let temp ← buff.string? 0
  let ptr := ptr + temp.length
  if pointNum > 0 then
    let data := if floatData < 0 then -floatData else floatData
    buff.store ptr
      (ascii ('.' :: decimalLoop machine machine.toInt pointNum.toNat (data - machine.toInt data)) ++
        [0])
  else some buff

section Loop

theorem int2StrLoop_zero (intData : Int) (flag : Bool) : int2StrLoop 0 intData flag = [] := by
  rw [int2StrLoop, if_neg (Nat.lt_irrefl 0)]

theorem pow_succ_div (count : Nat) : 10 ^ (count + 1) / 10 = 10 ^ count := by
  rw [pow_succ, Nat.mul_div_cancel _ (by decide)]

/-- A turn of the loop. -/
theorem int2StrLoop_pow (count : Nat) (intData : Int) (flag : Bool) :
    int2StrLoop (10 ^ (count + 1) / 10) intData flag =
      if intData.tdiv (10 ^ count) ≠ 0 ∨ flag then
        toChar (intData.tdiv (10 ^ count) + 0x30) ::
          int2StrLoop (10 ^ count / 10) (intData.tmod (10 ^ count)) true
      else int2StrLoop (10 ^ count / 10) intData flag := by
  rw [int2StrLoop, pow_succ_div, if_pos (Nat.pow_pos (by decide))]
  push_cast
  rw [Int.tmod_def, mul_comm (10 ^ count : Int)]

theorem toChar_digit {digit : Nat} (small : digit < 10) :
    toChar ((digit : Int) + 0x30) = Nat.digitChar digit := by
  interval_cases digit <;> rfl

theorem tdiv_tmod_pow (n count : Nat) :
    (n : Int).tdiv (10 ^ count) = (n / 10 ^ count : Nat) ∧
      (n : Int).tmod (10 ^ count) = (n % 10 ^ count : Nat) :=
  ⟨by exact_mod_cast Int.ofNat_tdiv n (10 ^ count), by exact_mod_cast Int.ofNat_tmod n (10 ^ count)⟩

/-- Behind the first digit every digit is written. -/
theorem int2StrLoop_true (count n : Nat) (small : n < 10 ^ count) :
    int2StrLoop (10 ^ count / 10) n true = padded count n := by
  induction count generalizing n with
  | zero => exact int2StrLoop_zero n true
  | succ count ih =>
    have digit : n / 10 ^ count < 10 := Nat.div_lt_of_lt_mul (by rwa [← pow_succ])
    obtain ⟨first, rest⟩ := tdiv_tmod_pow n count
    rw [int2StrLoop_pow, if_pos (.inr rfl), first, rest, toChar_digit digit,
      ih _ (Nat.mod_lt _ (by positivity)), padded_mod, padded_succ_front, Nat.mod_eq_of_lt digit]

/-- The digits of a positive number, from the first one that is not zero. -/
theorem int2StrLoop_false (count n : Nat) (small : n < 10 ^ count) :
    int2StrLoop (10 ^ count / 10) n false = if n = 0 then [] else Nat.toDigits 10 n := by
  induction count with
  | zero =>
    obtain rfl : n = 0 := by simpa using small
    exact int2StrLoop_zero 0 false
  | succ count ih =>
    obtain ⟨first, rest⟩ := tdiv_tmod_pow n count
    rw [int2StrLoop_pow, first, rest]
    by_cases fewer : n < 10 ^ count
    · rw [Nat.div_eq_of_lt fewer, if_neg (by simp), ih fewer]
    · have digit : n / 10 ^ count < 10 := Nat.div_lt_of_lt_mul (by rwa [← pow_succ])
      have leading : 0 < n / 10 ^ count := Nat.div_pos (not_lt.mp fewer) (by positivity)
      have bound : n % 10 ^ count < 10 ^ count := Nat.mod_lt _ (by positivity)
      have split : n = n / 10 ^ count * 10 ^ count + n % 10 ^ count := (Nat.div_add_mod' ..).symm
      have digits : Nat.toDigits 10 n =
          Nat.digitChar (n / 10 ^ count) :: padded count (n % 10 ^ count) := by
        nth_rewrite 1 [split]
        rw [toDigits_append_padded leading _ _ bound, Nat.toDigits_of_lt_base digit]
        rfl
      have pos : n ≠ 0 := by
        rintro rfl
        exact fewer (by positivity)
      rw [if_pos (.inl (by exact_mod_cast leading.ne')), toChar_digit digit,
        int2StrLoop_true _ _ bound, if_neg pos, digits]

/-- For a number that is not positive, no character is above `0`. -/
theorem int2StrLoop_neg (count n : Nat) (small : n < 10 ^ count) (flag : Bool) :
    ∀ c ∈ int2StrLoop (10 ^ count / 10) (-n) flag, 0 < c.toNat ∧ c.toNat ≤ '0'.toNat := by
  induction count generalizing n flag with
  | zero =>
    intro c member
    rw [pow_zero, Nat.div_eq_of_lt (by decide), int2StrLoop_zero] at member
    cases member
  | succ count ih =>
    obtain ⟨first, rest⟩ := tdiv_tmod_pow n count
    have digit : n / 10 ^ count < 10 := Nat.div_lt_of_lt_mul (by rwa [← pow_succ])
    intro c member
    rw [int2StrLoop_pow, Int.neg_tdiv, Int.neg_tmod, first, rest] at member
    split at member
    case isTrue =>
      rcases List.mem_cons.mp member with rfl | behind
      · generalize n / 10 ^ count = d at digit
        interval_cases d <;> decide
      · exact ih _ (Nat.mod_lt _ (by positivity)) true c behind
    case isFalse zero =>
      have none : n / 10 ^ count = 0 := by
        by_contra nonzero
        exact zero (.inl (neg_ne_zero.mpr (by exact_mod_cast nonzero)))
      exact ih n ((Nat.div_eq_zero_iff_lt (by positivity)).mp none) flag c member

end Loop

section Text

/-- The digits of the numbers of type `int`, from the first one that is not zero. -/
theorem int2StrLoop_of_pos {n : Nat} (pos : 0 < n) (small : n ≤ 2 ^ 31) :
    int2StrLoop 1000000000 n false = Nat.toDigits 10 n := by
  have loop := int2StrLoop_false 10 n (by omega)
  rwa [if_neg pos.ne'] at loop

/-- The text of every integer but the smallest. -/
theorem int2StrText_eq (machine : Machine) {n : Int} (int : IsInt n) (usual : n ≠ -2 ^ 31) :
    int2StrText machine n = numeral (decide (n < 0)) n.natAbs [] := by
  unfold IsInt at int
  rw [int2StrText, numeral, if_pos rfl, List.append_nil]
  rcases lt_trichotomy n 0 with negative | rfl | above
  · have inside : IsInt (n * -1) := by
      unfold IsInt
      omega
    have magnitude : n * -1 = (n.natAbs : Int) := by omega
    rw [if_neg negative.ne, if_pos negative, machine.int_of_isInt inside, magnitude,
      int2StrLoop_of_pos (by omega) (by omega)]
    simp [negative]
  · rfl
  · have magnitude : n = (n.natAbs : Int) := by omega
    rw [if_neg above.ne', if_neg above.not_gt]
    nth_rewrite 1 [magnitude]
    rw [int2StrLoop_of_pos (by omega) (by omega)]
    simp [above.le]

/-- For the smallest integer there are digits behind the sign of a number that is smaller in size, or
characters below the digits. -/
theorem int2StrText_min (machine : Machine) :
    (∃ k, 0 < k ∧ k < 2 ^ 31 ∧ int2StrText machine (-2 ^ 31) = '-' :: Nat.toDigits 10 k) ∨
      ∃ text, int2StrText machine (-2 ^ 31) = '-' :: text ∧
        ∀ c ∈ text, 0 < c.toNat ∧ c.toNat ≤ '0'.toNat := by
  have outcome : IsInt (machine.int (-2 ^ 31 * -1)) := by
    rw [Machine.int, if_neg (by decide), IsInt]
    exact ⟨Int.le_bmod (by decide), Int.bmod_lt (by decide)⟩
  rw [int2StrText, if_neg (by decide), if_pos (by decide)]
  generalize machine.int (-2 ^ 31 * -1) = n at outcome
  unfold IsInt at outcome
  by_cases pos : 0 < n
  · obtain ⟨k, rfl⟩ := Int.eq_ofNat_of_zero_le pos.le
    exact .inl ⟨k, by omega, by omega, by rw [int2StrLoop_of_pos (by omega) (by omega)]⟩
  · obtain ⟨k, rfl⟩ : ∃ k : Nat, n = -k := ⟨n.natAbs, by omega⟩
    exact .inr ⟨_, rfl, int2StrLoop_neg 10 k (by omega) false⟩

/-- The text of the smallest integer does not stand for it. -/
theorem readDecimal_int2StrText_min (machine : Machine) :
    readDecimal (int2StrText machine (-2 ^ 31)) ≠ some (-2 ^ 31) := by
  intro read
  rcases int2StrText_min machine with ⟨k, pos, small, same⟩ | ⟨text, same, low⟩
  · have digits : ∀ c ∈ Nat.toDigits 10 k, c.isDigit := fun c =>
      Nat.isDigit_of_mem_toDigits (by decide) (by decide)
    rw [same, readDecimal, readUnsigned_whole digits,
      Nat.ofDigitChars_toDigits (by decide) (by decide), Option.map_some] at read
    have value : (k : ℚ) = 2 ^ 31 := neg_inj.mp (Option.some.inj read)
    exact small.ne (by exact_mod_cast value)
  · rw [same, readDecimal] at read
    obtain ⟨x, unsigned, negated⟩ := Option.map_eq_some_iff.mp read
    rw [eq_zero_of_readUnsigned (fun c member => (low c member).2) unsigned] at negated
    norm_num at negated

end Text

section Memory

@[simp] theorem length_ascii (text : List Char) : (ascii text).length = text.length :=
  List.length_map _

theorem ascii_append (front back : List Char) : ascii (front ++ back) = ascii front ++ ascii back :=
  List.map_append

/-- Characters that are stored as a byte other than zero. -/
def Plain (text : List Char) : Prop := ∀ c ∈ text, 0 < c.toNat ∧ c.toNat < 256

theorem plain_append {front back : List Char} (plainFront : Plain front) (plainBack : Plain back) :
    Plain (front ++ back) := fun c member =>
  (List.mem_append.mp member).elim (plainFront c) (plainBack c)

theorem plain_singleton {c : Char} (plain : 0 < c.toNat ∧ c.toNat < 256) : Plain [c] := by
  intro d member
  obtain rfl := List.mem_singleton.mp member
  exact plain

theorem plain_of_isDigit {text : List Char} (digits : ∀ c ∈ text, c.isDigit) : Plain text := by
  intro c member
  have range := toNat_of_isDigit (digits c member)
  omega

theorem plain_numeral (negative : Bool) (whole : Nat) {fraction : List Char}
    (digits : ∀ c ∈ fraction, c.isDigit) : Plain (numeral negative whole fraction) := by
  have point : Plain ['.'] := plain_singleton (by decide)
  refine plain_append (plain_append ?_ ?_) ?_
  · cases negative with
    | false => exact nofun
    | true => exact plain_singleton (by decide)
  · exact plain_of_isDigit fun c => Nat.isDigit_of_mem_toDigits (by decide) (by decide)
  · split
    · exact nofun
    · exact plain_append point (plain_of_isDigit digits)

theorem plain_int2StrText (machine : Machine) {n : Int} (int : IsInt n) :
    Plain (int2StrText machine n) := by
  have sign : Plain ['-'] := plain_singleton (by decide)
  by_cases usual : n = -2 ^ 31
  · rw [usual]
    rcases int2StrText_min machine with ⟨k, -, -, same⟩ | ⟨text, same, low⟩
    · rw [same]
      exact plain_append sign (plain_of_isDigit fun c =>
        Nat.isDigit_of_mem_toDigits (by decide) (by decide))
    · rw [same]
      exact plain_append sign fun c member =>
        ⟨(low c member).1, (low c member).2.trans_lt (by decide)⟩
  · rw [int2StrText_eq machine int usual]
    exact plain_numeral _ _ nofun

theorem chars_ascii {text : List Char} (plain : Plain text) : chars (ascii text) = text := by
  rw [chars, ascii, List.map_map]
  conv_rhs => rw [← List.map_id text]
  refine List.map_congr_left fun c member => ?_
  show Char.ofNat (UInt8.ofNat c.toNat).toNat = c
  rw [UInt8.toNat_ofNat_of_lt' (plain c member).2, Char.ofNat_toNat]

theorem ascii_ne_zero {text : List Char} (plain : Plain text) : ∀ byte ∈ ascii text, byte ≠ 0 := by
  intro byte member zero
  obtain ⟨c, inside, rfl⟩ := List.mem_map.mp member
  have value := congrArg UInt8.toNat zero
  rw [UInt8.toNat_ofNat_of_lt' (plain c inside).2] at value
  exact (plain c inside).1.ne' value

/-- What a text and a zero byte at the start of the buffer are read as. -/
theorem text_of_load {buff : DataConvBuff} {text : List Char} (plain : Plain text)
    (loaded : buff.load 0 ((ascii text).length + 1) = some (ascii text ++ [0])) :
    buff.string? 0 = some (ascii text) ∧ buff.text = some text := by
  have string := Buffer.string?_of_load (ascii_ne_zero plain) loaded
  exact ⟨string, by rw [DataConvBuff.text, string, Option.map_some, chars_ascii plain]⟩

/-- A text written over the zero byte behind another one. -/
theorem text_append {buff next : DataConvBuff} {front back : List Char} (plain : Plain (front ++ back))
    (loaded : buff.load 0 ((ascii front).length + 1) = some (ascii front ++ [0]))
    (stored : buff.store (ascii front).length (ascii back ++ [0]) = some next) :
    next.text = some (front ++ back) := by
  have kept : buff.load 0 (ascii front).length = some (ascii front) := by
    rw [Buffer.load_take loaded (Nat.le_succ _), List.take_left' rfl]
  have first := Buffer.load_store_of_disjoint stored (.inl (Nat.zero_add _).le) kept
  have second : next.load (0 + (ascii front).length) (ascii back ++ [0]).length =
      some (ascii back ++ [0]) := by
    rw [Nat.zero_add]
    exact Buffer.load_store stored
  have both := Buffer.load_append first second
  rw [← List.append_assoc, ← ascii_append, List.length_append, List.length_singleton] at both
  exact (text_of_load plain both).2

/-- The buffer after `Int2Str`. -/
theorem load_int2Str {machine : Machine} {n : Int} {buff next : DataConvBuff}
    (stored : int2Str machine n buff = some next) :
    next.load 0 ((ascii (int2StrText machine n)).length + 1) =
      some (ascii (int2StrText machine n) ++ [0]) := by
  have loaded := Buffer.load_store stored
  rwa [List.length_append, List.length_singleton] at loaded

theorem length_numeral_le (negative : Bool) {whole : Nat} (small : whole < 10 ^ 10) :
    (numeral negative whole []).length ≤ 11 := by
  have digits := (Nat.length_toDigits_le_iff (by decide) (by decide)).mpr small
  cases negative
  · simp [numeral]
    omega
  · simp [numeral]
    omega

/-- The text of every integer but the smallest fits. -/
theorem exists_int2Str (machine : Machine) {n : Int} (int : IsInt n) (usual : n ≠ -2 ^ 31)
    (buff : DataConvBuff) : ∃ next, int2Str machine n buff = some next := by
  have small : n.natAbs < 10 ^ 10 := by
    unfold IsInt at int
    omega
  have length := length_numeral_le (decide (n < 0)) small
  refine Buffer.exists_store buff ?_
  rw [int2StrText_eq machine int usual, List.length_append, length_ascii, List.length_singleton]
  omega

end Memory

section Conversion

/-- No digit of the text could be left out at its front. -/
def NoLeadingZero (text : List Char) : Prop :=
  ∀ rest, text = '0' :: rest ∨ text = '-' :: '0' :: rest → rest = []

/-- `Int2Str` writes a text that fits the buffer and is read as the number. -/
def IntText (machine : Machine) (n : Int) : Prop :=
  ∀ buff, ∃ next text, int2Str machine n buff = some next ∧ next.text = some text ∧
    readDecimal text = some (n : ℚ) ∧ NoLeadingZero text

/-- `Float2Str` writes the sign, the whole part and the decimals of the number. -/
def FloatText (machine : Machine) (x : ℚ) (count : Nat) : Prop :=
  ∀ buff, ∃ next text, float2Str machine x count buff = some next ∧ next.text = some text ∧
    text = numeral (decide (x < 0)) ⌊|x|⌋₊ (decimals |x| count) ∧
    readDecimal text = some (truncateAt x count)

theorem eq_nil_of_toDigits {whole : Nat} {rest : List Char}
    (first : Nat.toDigits 10 whole = '0' :: rest) : whole = 0 ∧ rest = [] := by
  rcases Nat.eq_zero_or_pos whole with rfl | pos
  · exact ⟨rfl, (List.cons.inj first).2.symm⟩
  · exact absurd (by rw [first]; rfl) (head_toDigits_ne_zero pos)

theorem noLeadingZero_numeral {negative : Bool} {whole : Nat} (signed : negative = true → whole ≠ 0) :
    NoLeadingZero (numeral negative whole []) := by
  intro rest same
  rw [numeral, if_pos rfl, List.append_nil] at same
  cases negative with
  | true =>
    rcases same with same | same
    · exact absurd (List.cons.inj same).1 (by decide)
    · exact absurd (eq_nil_of_toDigits (List.cons.inj same).2).1 (signed rfl)
  | false =>
    rcases same with same | same
    · exact (eq_nil_of_toDigits same).2
    · have sign : '-' ∈ Nat.toDigits 10 whole := by
        rw [show Nat.toDigits 10 whole = '-' :: '0' :: rest from same]
        exact List.mem_cons_self
      exact absurd (Nat.isDigit_of_mem_toDigits (by decide) (by decide) sign) (by decide)

theorem sign_mul_natAbs (n : Int) :
    (if decide (n < 0) = true then (-1 : ℚ) else 1) * (n.natAbs : ℚ) = n := by
  by_cases negative : n < 0
  · rw [if_pos (decide_eq_true negative), Nat.cast_natAbs, abs_of_neg negative]
    push_cast
    ring
  · rw [if_neg (by simpa using negative), Nat.cast_natAbs, abs_of_nonneg (not_lt.mp negative), one_mul]

theorem intText_iff (machine : Machine) {n : Int} (int : IsInt n) :
    IntText machine n ↔ n ≠ -2 ^ 31 := by
  constructor
  · rintro written rfl
    obtain ⟨next, text, stored, read, value, -⟩ := written fun _ => 0
    obtain ⟨-, same⟩ := text_of_load (plain_int2StrText machine int) (load_int2Str stored)
    rw [← Option.some.inj (same.symm.trans read)] at value
    exact readDecimal_int2StrText_min machine (value.trans (by push_cast; rfl))
  · intro usual buff
    obtain ⟨next, stored⟩ := exists_int2Str machine int usual buff
    obtain ⟨-, same⟩ := text_of_load (plain_int2StrText machine int) (load_int2Str stored)
    rw [int2StrText_eq machine int usual] at same
    refine ⟨next, _, stored, same, ?_, noLeadingZero_numeral fun negative => ?_⟩
    · rw [readDecimal_numeral _ _ fun _ member => absurd member List.not_mem_nil,
        List.length_nil, pow_zero, div_one, ← sign_mul_natAbs n]
      exact congrArg (fun part : ℚ => some (_ * ((n.natAbs : ℚ) + part))) Nat.cast_zero |>.trans
        (by rw [add_zero])
    · have := of_decide_eq_true negative
      omega

section Float

variable (machine : Machine)

theorem truncate_bounds {x : ℚ} (small : |x| < 2 ^ 31) :
    -2 ^ 31 < truncate x ∧ truncate x < 2 ^ 31 := by
  obtain ⟨low, high⟩ := abs_lt.mp small
  rw [truncate]
  split
  case isTrue nonneg =>
    have below : ⌊x⌋ < 2 ^ 31 := Int.floor_lt.mpr (by exact_mod_cast high)
    have := Int.floor_nonneg.mpr nonneg
    omega
  case isFalse negative =>
    have above : -2 ^ 31 < ⌈x⌉ := Int.lt_ceil.mpr (by exact_mod_cast low)
    have : ⌈x⌉ ≤ 0 := Int.ceil_le.mpr (by exact_mod_cast (not_le.mp negative).le)
    omega

theorem toInt_eq {x : ℚ} (small : |x| < 2 ^ 31) : machine.toInt x = truncate x := by
  obtain ⟨low, high⟩ := truncate_bounds small
  exact if_pos ⟨low.le, high⟩

theorem toInt_of_nonneg {x : ℚ} (nonneg : 0 ≤ x) (small : x < 2 ^ 31) :
    machine.toInt x = (⌊x⌋₊ : Int) := by
  rw [toInt_eq machine (by rwa [abs_of_nonneg nonneg]), truncate, if_pos nonneg,
    Int.natCast_floor_eq_floor nonneg]

/-- The loop writes the decimals of a fraction. -/
theorem decimalLoop_eq (count : Nat) {x : ℚ} (nonneg : 0 ≤ x) (small : x < 1) :
    decimalLoop machine machine.toInt count x = decimals x count := by
  induction count generalizing x with
  | zero => rfl
  | succ count ih =>
    have scaled : 0 ≤ x * 10 := by positivity
    have digit : ⌊x * 10⌋₊ < 10 := (Nat.floor_lt scaled).mpr (by push_cast; linarith)
    have whole : machine.toInt (x * 10) = (⌊x * 10⌋₊ : Int) :=
      toInt_of_nonneg machine scaled (by linarith)
    have le : (⌊x * 10⌋₊ : ℚ) ≤ x * 10 := Nat.floor_le scaled
    have lt : x * 10 < (⌊x * 10⌋₊ : ℚ) + 1 := Nat.lt_floor_add_one _
    have char : machine.int ((⌊x * 10⌋₊ : Int) + 0x30) = (⌊x * 10⌋₊ : Int) + 0x30 :=
      if_pos ⟨by omega, by omega⟩
    rw [decimalLoop, Nat.cast_ofNat, whole, show (('0'.toNat : Nat) : Int) = 0x30 from rfl, char, toChar_digit digit, Int.cast_natCast, ih (by linarith) (by linarith), decimals_succ,
      decimals_sub_natCast _ _ le, Nat.mod_eq_of_lt digit]

/-- The loop writes the decimals of a number whose whole part is taken off. -/
theorem decimalLoop_sub (count : Nat) {x : ℚ} (nonneg : 0 ≤ x) (small : x < 2 ^ 31) :
    decimalLoop machine machine.toInt count (x - machine.toInt x) = decimals x count := by
  have le := Nat.floor_le nonneg
  have lt := Nat.lt_floor_add_one x
  rw [toInt_of_nonneg machine nonneg small, Int.cast_natCast,
    decimalLoop_eq machine _ (by linarith) (by linarith), decimals_sub_natCast _ _ le]

theorem magnitude_eq (x : ℚ) : (if x < 0 then -x else x) = |x| := by
  split
  case isTrue negative => rw [abs_of_neg negative]
  case isFalse nonneg => rw [abs_of_nonneg (not_lt.mp nonneg)]

/-- Between -1 and 0 the copy of the text leaves the buffer. -/
theorem float2Str_small {x : ℚ} (above : -1 < x) (negative : x < 0) (pointNum : Int)
    (buff : DataConvBuff) : float2Str machine x pointNum buff = none := by
  have zero : machine.toInt x = 0 := by
    rw [toInt_eq machine (by rw [abs_of_neg negative]; linarith), truncate,
      if_neg (not_le.mpr negative), Int.ceil_eq_zero_iff]
    exact ⟨above, negative.le⟩
  obtain ⟨signed, first⟩ : ∃ next, buff.store 0 (ascii ['-']) = some next :=
    Buffer.exists_store buff (by decide)
  obtain ⟨next, second⟩ : ∃ next, int2Str machine 0 signed = some next :=
    exists_int2Str machine (by decide) (by decide) signed
  have start : next.get? 0 = some 48 := by
    rw [Buffer.get?_store second]
    rfl
  have overrun : next.strcpy 1 0 = none := Buffer.strcpy_succ start (by decide)
  simp [float2Str, above, negative, zero, first, second, overrun]

/-- Elsewhere the integer that is written has the sign and the whole part of the number. -/
theorem truncate_of_usual {x : ℚ} (usual : ¬ (-1 < x ∧ x < 0)) :
    (truncate x < 0 ↔ x < 0) ∧ (truncate x).natAbs = ⌊|x|⌋₊ := by
  by_cases negative : x < 0
  · have below : x ≤ -1 := not_lt.mp fun above => usual ⟨above, negative⟩
    have whole : (⌊-x⌋₊ : Int) = ⌊-x⌋ := Int.natCast_floor_eq_floor (by linarith)
    have ceil : ⌈x⌉ = -⌊-x⌋ := by rw [Int.floor_neg, neg_neg]
    have one : 1 ≤ ⌊-x⌋ := Int.le_floor.mpr (by push_cast; linarith)
    rw [truncate, if_neg (not_le.mpr negative), abs_of_neg negative]
    exact ⟨⟨fun _ => negative, fun _ => by omega⟩, by omega⟩
  · have nonneg : 0 ≤ x := not_lt.mp negative
    have whole : (⌊x⌋₊ : Int) = ⌊x⌋ := Int.natCast_floor_eq_floor nonneg
    rw [truncate, if_pos nonneg, abs_of_nonneg nonneg]
    exact ⟨⟨fun below => by omega, fun below => absurd below negative⟩, by omega⟩

/-- The decimals are written behind the integer, over the zero byte. -/
theorem float2Str_usual {x : ℚ} (small : |x| < 2 ^ 31) (usual : ¬ (-1 < x ∧ x < 0)) (pointNum : Int)
    {buff next : DataConvBuff} {temp : List UInt8}
    (written : int2Str machine (truncate x) buff = some next) (string : next.string? 0 = some temp) :
    float2Str machine x pointNum buff =
      if pointNum > 0 then
        next.store temp.length (ascii ('.' :: decimals |x| pointNum.toNat) ++ [0])
      else some next := by
  have large : ¬ (x < 0 ∧ x > -1) := fun ⟨negative, above⟩ => usual ⟨above, negative⟩
  have fraction := decimalLoop_sub machine pointNum.toNat (abs_nonneg x) small
  have self : next.strcpy 0 0 = some next := Buffer.strcpy_self string
  rw [float2Str]
  simp only [large, decide_false, Bool.false_eq_true, if_false, Option.bind_eq_bind,
    Option.bind_some, toInt_eq machine small, written, self, string, magnitude_eq, fraction, zero_add]

/-- Elsewhere the text is the one of the number. -/
theorem floatText_of_usual {x : ℚ} (small : |x| < 2 ^ 31) (usual : ¬ (-1 < x ∧ x < 0)) {count : Nat}
    (few : count ≤ 12) : FloatText machine x count := by
  intro buff
  obtain ⟨low, high⟩ := truncate_bounds small
  obtain ⟨sign, whole⟩ := truncate_of_usual usual
  have int : IsInt (truncate x) := ⟨low.le, high⟩
  obtain ⟨next, written⟩ := exists_int2Str machine int low.ne' buff
  have loaded := load_int2Str written
  have plain := plain_int2StrText machine int
  rw [int2StrText_eq machine int low.ne', decide_eq_decide.mpr sign, whole] at loaded plain
  obtain ⟨string, text⟩ := text_of_load plain loaded
  have value := readDecimal_numeral_decimals x count
  have body := float2Str_usual machine small usual count written string
  rcases Nat.eq_zero_or_pos count with rfl | pos
  · exact ⟨next, _, body, text, rfl, value⟩
  · have present : decimals |x| count ≠ [] := List.ne_nil_of_length_pos (by rwa [length_decimals])
    have split : numeral (decide (x < 0)) ⌊|x|⌋₊ (decimals |x| count) =
        numeral (decide (x < 0)) ⌊|x|⌋₊ [] ++ '.' :: decimals |x| count := by
      rw [numeral, numeral, if_neg present, if_pos rfl, List.append_nil]
    have length := length_numeral_le (decide (x < 0)) (show ⌊|x|⌋₊ < 10 ^ 10 by omega)
    rw [Int.toNat_natCast, if_pos (Int.natCast_pos.mpr pos)] at body
    have room : (ascii (numeral (decide (x < 0)) ⌊|x|⌋₊ [])).length +
        (ascii ('.' :: decimals |x| count) ++ [0]).length ≤ 25 := by
      rw [List.length_append, length_ascii, length_ascii, List.length_cons, length_decimals,
        List.length_singleton]
      omega
    obtain ⟨final, stored⟩ := Buffer.exists_store next room
    refine ⟨final, _, body.trans stored, ?_, rfl, value⟩
    rw [split]
    refine text_append ?_ loaded stored
    rw [← split]
    exact plain_numeral _ _ fun c => isDigit_of_mem_decimals

end Float

/-- The conversions are right for every integer but the smallest, and for every number that is not
between -1 and 0. -/
theorem conversion_iff (machine : Machine) :
    (∀ n, IsInt n → (IntText machine n ↔ n ≠ -2 ^ 31)) ∧
      ∀ x : ℚ, |x| < 2 ^ 31 → ∀ count ≤ 12,
        (FloatText machine x count ↔ ¬ (-1 < x ∧ x < 0)) := by
  refine ⟨fun n int => intText_iff machine int, fun x small count few => ⟨?_, ?_⟩⟩
  · rintro written ⟨above, negative⟩
    obtain ⟨next, text, stored, -⟩ := written fun _ => 0
    rw [float2Str_small machine above negative] at stored
    cases stored
  · intro usual
    exact floatText_of_usual machine small usual few

/-- A machine whose arithmetic wraps around. -/
def wrapping : Machine := ⟨id, fun _ => 0⟩

theorem conversion_usual :
    IsInt (-12) ∧ IntText wrapping (-12) ∧ |(-5 / 2 : ℚ)| < 2 ^ 31 ∧ FloatText wrapping (-5 / 2) 1 := by
  have small : |(-5 / 2 : ℚ)| < 2 ^ 31 := by norm_num [abs_of_neg]
  refine ⟨by decide, ((conversion_iff wrapping).1 (-12) (by decide)).mpr (by decide), small, ?_⟩
  exact ((conversion_iff wrapping).2 (-5 / 2) small 1 (by decide)).mpr (by norm_num)

/-- The text of -0.5 is never finished. -/
theorem not_floatText_half :
    |(-1 / 2 : ℚ)| < 2 ^ 31 ∧ float2Str wrapping (-1 / 2) 1 (fun _ => 0) = none ∧
      ¬ FloatText wrapping (-1 / 2) 1 := by
  have overrun : float2Str wrapping (-1 / 2) 1 (fun _ => 0) = none :=
    float2Str_small wrapping (by norm_num) (by norm_num) 1 _
  refine ⟨by norm_num [abs_of_neg], overrun, fun written => ?_⟩
  obtain ⟨next, text, stored, -⟩ := written fun _ => 0
  exact nomatch overrun.symm.trans stored

end Conversion

end BadmintonRobot.General
