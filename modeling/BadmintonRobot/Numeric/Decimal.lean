import Mathlib.Algebra.Order.Floor.Semifield
import Mathlib.Data.List.DropRight
import Mathlib.Data.List.TakeWhile
import Mathlib.Data.Rat.Floor
import Mathlib.Tactic.FieldSimp
import Mathlib.Tactic.IntervalCases
import Mathlib.Tactic.Linarith
import Mathlib.Tactic.Ring
import BadmintonRobot.Numeric.Interpolation

/-!
# Decimal text

The text of a number: a sign, digits, and digits behind a point. It is read with `Nat.ofDigitChars`.
The last digits of a number, with leading zeros, serve both for what follows the first digit of a
natural number and for the decimals of a fraction.
-/

namespace BadmintonRobot.Numeric

section Digits

theorem isDigit_digitChar {digit : Nat} (small : digit < 10) : (Nat.digitChar digit).isDigit := by
  interval_cases digit <;> rfl

theorem toNat_of_isDigit {c : Char} (digit : c.isDigit) : 48 ≤ c.toNat ∧ c.toNat ≤ 57 := by
  simp only [Char.isDigit, ge_iff_le, Bool.and_eq_true, decide_eq_true_eq,
    UInt32.le_iff_toNat_le] at digit
  exact digit

/-- The last `count` digits of a number. -/
def padded : Nat → Nat → List Char
  | 0, _ => []
  | count + 1, n => padded count (n / 10) ++ [Nat.digitChar (n % 10)]

@[simp] theorem padded_zero (n : Nat) : padded 0 n = [] := rfl

theorem padded_succ (count n : Nat) :
    padded (count + 1) n = padded count (n / 10) ++ [Nat.digitChar (n % 10)] := rfl

@[simp] theorem length_padded (count n : Nat) : (padded count n).length = count := by
  induction count generalizing n with
  | zero => rfl
  | succ count ih => rw [padded_succ, List.length_append, ih, List.length_singleton]

/-- The same digits from the front. -/
theorem padded_succ_front (count n : Nat) :
    padded (count + 1) n = Nat.digitChar (n / 10 ^ count % 10) :: padded count n := by
  induction count generalizing n with
  | zero => rw [padded_succ, padded_zero, padded_zero, pow_zero, Nat.div_one, List.nil_append]
  | succ count ih =>
    rw [padded_succ, ih, padded_succ, Nat.div_div_eq_div_mul, ← pow_succ', List.cons_append]

theorem isDigit_of_mem_padded {count n : Nat} {c : Char} (member : c ∈ padded count n) :
    c.isDigit := by
  induction count generalizing n with
  | zero => exact absurd member List.not_mem_nil
  | succ count ih =>
    rcases List.mem_append.mp member with front | last
    · exact ih front
    · rw [List.mem_singleton.mp last]
      exact isDigit_digitChar (Nat.mod_lt _ (by decide))

/-- Only the last digits matter. -/
theorem padded_mod (count n : Nat) : padded count (n % 10 ^ count) = padded count n := by
  induction count generalizing n with
  | zero => rfl
  | succ count ih =>
    rw [padded_succ, padded_succ, pow_succ', Nat.mod_mul_right_div_self, ih, Nat.mod_mul_right_mod]

theorem ofDigitChars_append_digit (text : List Char) {digit : Nat} (small : digit < 10) :
    Nat.ofDigitChars 10 (text ++ [Nat.digitChar digit]) 0 =
      10 * Nat.ofDigitChars 10 text 0 + digit := by
  rw [Nat.ofDigitChars_append, Nat.ofDigitChars_cons, Nat.toNat_digitChar_of_lt_ten small]
  exact congrArg (10 * Nat.ofDigitChars 10 text 0 + ·) (Nat.add_sub_cancel_left ..)

theorem ofDigitChars_padded (count n : Nat) :
    Nat.ofDigitChars 10 (padded count n) 0 = n % 10 ^ count := by
  induction count generalizing n with
  | zero => exact (Nat.mod_one n).symm
  | succ count ih =>
    rw [padded_succ, ofDigitChars_append_digit _ (Nat.mod_lt _ (by decide)), ih, pow_succ',
      Nat.mod_mul, Nat.add_comm]

/-- Behind the digits of a number, the last digits of a longer one. -/
theorem toDigits_append_padded {first : Nat} (pos : 0 < first) (count rest : Nat)
    (small : rest < 10 ^ count) :
    Nat.toDigits 10 (first * 10 ^ count + rest) = Nat.toDigits 10 first ++ padded count rest := by
  induction count generalizing rest with
  | zero =>
    obtain rfl : rest = 0 := by simpa using small
    simp
  | succ count ih =>
    have shorter : rest / 10 < 10 ^ count := Nat.div_lt_of_lt_mul (by rwa [← pow_succ'])
    have split : first * 10 ^ (count + 1) + rest =
        10 * (first * 10 ^ count + rest / 10) + rest % 10 := by
      rw [pow_succ, Nat.mul_add, Nat.add_assoc, Nat.div_add_mod]
      ring
    rw [split, ← Nat.toDigits_append_toDigits (by decide) (by positivity) (Nat.mod_lt _ (by decide)),
      ih _ shorter, Nat.toDigits_of_lt_base (Nat.mod_lt _ (by decide)), padded_succ,
      List.append_assoc]

/-- No number but zero starts with a zero. -/
theorem head_toDigits_ne_zero {n : Nat} (pos : 0 < n) : (Nat.toDigits 10 n).head? ≠ some '0' := by
  induction n using Nat.strongRecOn with
  | ind n ih =>
    by_cases digit : n < 10
    · rw [Nat.toDigits_of_lt_base digit]
      interval_cases n <;> decide
    · have shorter : 0 < n / 10 := Nat.div_pos (not_lt.mp digit) (by decide)
      rw [← Nat.div_add_mod n 10,
        ← Nat.toDigits_append_toDigits (by decide) shorter (Nat.mod_lt _ (by decide)),
        List.head?_append_of_ne_nil _ Nat.toDigits_ne_nil]
      exact ih _ (Nat.div_lt_self pos (by decide)) shorter

theorem ofDigitChars_eq_zero {text : List Char} (low : ∀ c ∈ text, c.toNat ≤ '0'.toNat) :
    Nat.ofDigitChars 10 text 0 = 0 := by
  induction text with
  | nil => rfl
  | cons c text ih =>
    rw [Nat.ofDigitChars_cons, Nat.sub_eq_zero_of_le (low c List.mem_cons_self)]
    exact ih fun other member => low other (List.mem_cons_of_mem c member)

end Digits

section Reading

/-- The number that digits stand for. -/
def readDigits (text : List Char) : Option Nat :=
  if text.all Char.isDigit then some (Nat.ofDigitChars 10 text 0) else none

/-- The number that digits, or digits and a point and digits, stand for. -/
def readUnsigned (text : List Char) : Option ℚ := do
  let whole ← readDigits (text.takeWhile (· ≠ '.'))
  let fraction := (text.dropWhile (· ≠ '.')).tail
  let part ← readDigits fraction
  return whole + part / 10 ^ fraction.length

/-- The number that a text with or without a minus sign stands for. -/
def readDecimal : List Char → Option ℚ
  | '-' :: text => (readUnsigned text).map Neg.neg
  | text => readUnsigned text

/-- The text of a number: a sign, its whole part, and its decimals behind a point if there are any. -/
def numeral (negative : Bool) (whole : Nat) (fraction : List Char) : List Char :=
  (if negative then ['-'] else []) ++ Nat.toDigits 10 whole ++
    (if fraction = [] then [] else '.' :: fraction)

theorem readDigits_of_forall {text : List Char} (digits : ∀ c ∈ text, c.isDigit) :
    readDigits text = some (Nat.ofDigitChars 10 text 0) :=
  if_pos (List.all_eq_true.mpr digits)

theorem ne_point_of_isDigit {c : Char} (digit : c.isDigit) : c ≠ '.' := by
  rintro rfl
  exact absurd digit (by decide)

theorem readUnsigned_whole {whole : List Char} (digits : ∀ c ∈ whole, c.isDigit) :
    readUnsigned whole = some (Nat.ofDigitChars 10 whole 0 : ℚ) := by
  have inside : ∀ c ∈ whole, decide (c ≠ '.') = true := fun c member =>
    decide_eq_true (ne_point_of_isDigit (digits c member))
  rw [readUnsigned, List.takeWhile_eq_self_iff.mpr inside, List.dropWhile_eq_nil_iff.mpr inside,
    readDigits_of_forall digits]
  simp [readDigits]

theorem readUnsigned_point {whole fraction : List Char} (wholeDigits : ∀ c ∈ whole, c.isDigit)
    (digits : ∀ c ∈ fraction, c.isDigit) :
    readUnsigned (whole ++ '.' :: fraction) =
      some ((Nat.ofDigitChars 10 whole 0 : ℚ) +
        (Nat.ofDigitChars 10 fraction 0 : ℚ) / 10 ^ fraction.length) := by
  have inside : ∀ c ∈ whole, decide (c ≠ '.') = true := fun c member =>
    decide_eq_true (ne_point_of_isDigit (wholeDigits c member))
  rw [readUnsigned, List.takeWhile_append_of_pos inside, List.dropWhile_append_of_pos inside,
    List.takeWhile_cons_of_neg (by decide), List.dropWhile_cons_of_neg (by decide), List.append_nil,
    readDigits_of_forall wholeDigits]
  simp [readDigits_of_forall digits]

/-- A text without a character above `0` stands for nothing but zero. -/
theorem eq_zero_of_readUnsigned {text : List Char} {x : ℚ}
    (low : ∀ c ∈ text, c.toNat ≤ '0'.toNat) (read : readUnsigned text = some x) : x = 0 := by
  have digits : ∀ {part : List Char} {n : Nat}, part ⊆ text → readDigits part = some n → n = 0 := by
    intro part n inside some
    rw [readDigits] at some
    split at some
    · rw [← Option.some.inj some]
      exact ofDigitChars_eq_zero fun c member => low c (inside member)
    · cases some
  rw [readUnsigned] at read
  obtain ⟨whole, wholeRead, read⟩ := Option.bind_eq_some_iff.mp read
  obtain ⟨fraction, fractionRead, read⟩ := Option.bind_eq_some_iff.mp read
  have wholeZero := digits (List.takeWhile_prefix _).subset wholeRead
  have fractionZero := digits
    ((List.tail_suffix _).trans (List.dropWhile_suffix _)).subset fractionRead
  rw [← Option.some.inj read, wholeZero, fractionZero]
  simp

theorem readUnsigned_numeral (whole : Nat) {fraction : List Char}
    (digits : ∀ c ∈ fraction, c.isDigit) :
    readUnsigned (Nat.toDigits 10 whole ++ if fraction = [] then [] else '.' :: fraction) =
      some ((whole : ℚ) + (Nat.ofDigitChars 10 fraction 0 : ℚ) / 10 ^ fraction.length) := by
  have wholeDigits : ∀ c ∈ Nat.toDigits 10 whole, c.isDigit := fun c =>
    Nat.isDigit_of_mem_toDigits (by decide) (by decide)
  split
  case isTrue empty =>
    rw [List.append_nil, readUnsigned_whole wholeDigits,
      Nat.ofDigitChars_toDigits (by decide) (by decide), empty]
    simp
  case isFalse => rw [readUnsigned_point wholeDigits digits,
    Nat.ofDigitChars_toDigits (by decide) (by decide)]

theorem ne_minus_of_isDigit {c : Char} (digit : c.isDigit) : c ≠ '-' := by
  rintro rfl
  exact absurd digit (by decide)

/-- A text that does not start with a sign, behind a sign or without one. -/
theorem readDecimal_signed (negative : Bool) {text : List Char} {x : ℚ}
    (unsigned : ∀ c ∈ text.head?, c ≠ '-') (read : readUnsigned text = some x) :
    readDecimal ((if negative then ['-'] else []) ++ text) =
      some ((if negative then -1 else 1) * x) := by
  cases negative with
  | true =>
    rw [if_pos rfl, List.singleton_append, readDecimal, read, Option.map_some, if_pos rfl, neg_one_mul]
  | false =>
    have plain : readDecimal text = readUnsigned text := by
      cases text with
      | nil => rfl
      | cons c text =>
        rw [readDecimal]
        intro rest same
        exact unsigned c rfl (List.cons.inj same).1
    rw [if_neg Bool.false_ne_true, List.nil_append, plain, read, if_neg Bool.false_ne_true, one_mul]

theorem readDecimal_numeral (negative : Bool) (whole : Nat) {fraction : List Char}
    (digits : ∀ c ∈ fraction, c.isDigit) :
    readDecimal (numeral negative whole fraction) =
      some ((if negative then -1 else 1) *
        ((whole : ℚ) + (Nat.ofDigitChars 10 fraction 0 : ℚ) / 10 ^ fraction.length)) := by
  rw [numeral, List.append_assoc]
  refine readDecimal_signed negative ?_ (readUnsigned_numeral whole digits)
  intro c first
  rw [List.head?_append_of_ne_nil _ Nat.toDigits_ne_nil] at first
  exact ne_minus_of_isDigit
    (Nat.isDigit_of_mem_toDigits (by decide) (by decide) (List.mem_of_mem_head? first))

end Reading

section Fraction

/-- The first decimals of a number. -/
def decimals (x : ℚ) (count : Nat) : List Char := padded count ⌊x * 10 ^ count⌋₊

/-- A number without its decimals from some place on. -/
def truncateAt (x : ℚ) (count : Nat) : ℚ := truncate (x * 10 ^ count) / 10 ^ count

@[simp] theorem decimals_zero (x : ℚ) : decimals x 0 = [] := rfl

@[simp] theorem length_decimals (x : ℚ) (count : Nat) : (decimals x count).length = count :=
  length_padded ..

theorem isDigit_of_mem_decimals {x : ℚ} {count : Nat} {c : Char} (member : c ∈ decimals x count) :
    c.isDigit := isDigit_of_mem_padded member

theorem floor_mul_pow_div (x : ℚ) (count : Nat) : ⌊x * 10 ^ count⌋₊ / 10 ^ count = ⌊x⌋₊ := by
  rw [← Nat.floor_div_natCast, Nat.cast_pow, Nat.cast_ofNat, mul_div_cancel_right₀ _ (by positivity)]

/-- The first decimal is the last digit of the whole part of ten times the number. -/
theorem decimals_succ (x : ℚ) (count : Nat) :
    decimals x (count + 1) = Nat.digitChar (⌊x * 10⌋₊ % 10) :: decimals (x * 10) count := by
  rw [decimals, padded_succ_front, decimals, pow_succ', ← mul_assoc, floor_mul_pow_div]

/-- The decimals of a number are those of its fraction. -/
theorem decimals_sub_natCast (x : ℚ) (n : Nat) (le : (n : ℚ) ≤ x) (count : Nat) :
    decimals (x - n) count = decimals x count := by
  have split : ⌊x * 10 ^ count⌋₊ = ⌊(x - n) * 10 ^ count⌋₊ + 10 ^ count * n := by
    rw [← Nat.floor_add_natCast (by have := sub_nonneg.mpr le; positivity)]
    congr 1
    push_cast
    ring
  rw [decimals, decimals, ← padded_mod count ⌊x * 10 ^ count⌋₊, split, Nat.add_mul_mod_self_left,
    padded_mod]

/-- The whole part and the decimals of a number together. -/
theorem floor_add_decimals (x : ℚ) (count : Nat) :
    (⌊x⌋₊ : ℚ) + (Nat.ofDigitChars 10 (decimals x count) 0 : ℚ) / 10 ^ count =
      (⌊x * 10 ^ count⌋₊ : ℚ) / 10 ^ count := by
  have split := Nat.div_add_mod' ⌊x * 10 ^ count⌋₊ (10 ^ count)
  rw [floor_mul_pow_div] at split
  rw [decimals, ofDigitChars_padded, eq_div_iff (by positivity), add_mul,
    div_mul_cancel₀ _ (by positivity)]
  nth_rewrite 2 [← split]
  push_cast
  rfl

theorem truncateAt_eq (x : ℚ) (count : Nat) :
    truncateAt x count =
      (if x < 0 then -1 else 1) * ((⌊|x| * 10 ^ count⌋₊ : ℚ) / 10 ^ count) := by
  have scale : (0 : ℚ) < 10 ^ count := by positivity
  by_cases negative : x < 0
  · have below : ¬ 0 ≤ x * 10 ^ count := not_le.mpr (mul_neg_of_neg_of_pos negative scale)
    have whole : ((⌊-(x * 10 ^ count)⌋₊ : Int) : ℚ) = ⌊-(x * 10 ^ count)⌋ :=
      congrArg Int.cast (Int.natCast_floor_eq_floor (by linarith))
    rw [truncateAt, truncate, if_neg below, if_pos negative, abs_of_neg negative, neg_mul x,
      ← Int.cast_natCast, whole, Int.floor_neg]
    push_cast
    ring
  · have above : 0 ≤ x * 10 ^ count := mul_nonneg (not_lt.mp negative) scale.le
    have whole : ((⌊x * 10 ^ count⌋₊ : Int) : ℚ) = ⌊x * 10 ^ count⌋ :=
      congrArg Int.cast (Int.natCast_floor_eq_floor above)
    rw [truncateAt, truncate, if_pos above, if_neg negative, abs_of_nonneg (not_lt.mp negative),
      ← Int.cast_natCast, whole, one_mul]

/-- The text of a number with some decimals. -/
theorem readDecimal_numeral_decimals (x : ℚ) (count : Nat) :
    readDecimal (numeral (decide (x < 0)) ⌊|x|⌋₊ (decimals |x| count)) =
      some (truncateAt x count) := by
  rw [readDecimal_numeral _ _ fun c => isDigit_of_mem_decimals, length_decimals, floor_add_decimals,
    truncateAt_eq]
  simp

/-- Zeros at the end of a fraction do not matter. -/
theorem ofDigitChars_rdropWhile (fraction : List Char) :
    (Nat.ofDigitChars 10 (fraction.rdropWhile (· = '0')) 0 : ℚ) /
        10 ^ (fraction.rdropWhile (· = '0')).length =
      (Nat.ofDigitChars 10 fraction 0 : ℚ) / 10 ^ fraction.length := by
  induction fraction using List.reverseRecOn with
  | nil => rfl
  | append_singleton fraction last ih =>
    by_cases zero : last = '0'
    · have last : Nat.ofDigitChars 10 (fraction ++ ['0']) 0 = 10 * Nat.ofDigitChars 10 fraction 0 :=
        ofDigitChars_append_digit fraction (Nat.zero_lt_succ 9)
      rw [zero, List.rdropWhile_concat_pos _ _ _ (by decide), ih, last, List.length_append,
        List.length_singleton, pow_succ']
      push_cast
      rw [mul_div_mul_left _ _ (by norm_num)]
    · rw [List.rdropWhile_concat_neg _ _ _ (by simpa using zero)]

/-- The text of a number with some decimals, without the zeros at its end. -/
theorem readDecimal_numeral_rdropWhile (x : ℚ) (count : Nat) :
    readDecimal (numeral (decide (x < 0)) ⌊|x|⌋₊ ((decimals |x| count).rdropWhile (· = '0'))) =
      some (truncateAt x count) := by
  have digits : ∀ c ∈ (decimals |x| count).rdropWhile (· = '0'), c.isDigit := fun c member =>
    isDigit_of_mem_decimals ((List.rdropWhile_prefix _ _).mem member)
  rw [readDecimal_numeral _ _ digits, ofDigitChars_rdropWhile, length_decimals, floor_add_decimals,
    truncateAt_eq]
  simp

end Fraction

end BadmintonRobot.Numeric
