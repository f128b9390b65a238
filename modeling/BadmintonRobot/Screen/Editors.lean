import Mathlib
import BadmintonRobot.General.Keyboard
import BadmintonRobot.General.Mystring

/-!
# The editors of numbers

`Input_IntValue`, `Input_DoubleValue` and `Input_FloatValue` show the text that is typed on the line
`new:` and store the number that it stands for. The text may have more digits than an `int` can hold,
and more decimals than the scale of 32 bits can count.

The arithmetic of `float` is that of the rational numbers. A byte that is no key number is ignored, as
`empty1` is.
-/

namespace BadmintonRobot.Screen

open General Numeric

section Run

/-- The loop of an editor for the keys that are pressed: the text for `keyOK`, or nothing for
`keyback`. Without one of the two it does not end. -/
def runEditor (press : Editor → Key → Edit) : Editor → List Key → Option (Option Editor)
  | _, [] => none
  | e, key :: keys =>
    match press e key with
    | .stay e => runEditor press e keys
    | .ok e => some (some e)
    | .cancel => some none

/-- What every key keeps holds for the text that is confirmed. -/
theorem runEditor_invariant {press : Editor → Key → Edit} {Good : Editor → Prop}
    (kept : ∀ e key next, Good e → press e key = .stay next ∨ press e key = .ok next → Good next)
    {e final : Editor} (good : Good e) {keys : List Key}
    (confirmed : runEditor press e keys = some (some final)) : Good final := by
  induction keys generalizing e with
  | nil => cases confirmed
  | cons key keys ih =>
    rw [runEditor] at confirmed
    split at confirmed
    case h_1 next pressed => exact ih (kept e key next good (.inl pressed)) confirmed
    case h_2 next pressed =>
      rw [← Option.some.inj (Option.some.inj confirmed)]
      exact kept e key next good (.inr pressed)
    case h_3 => cases Option.some.inj confirmed

end Run

section Input

/-- The `switch` of `Input_IntValue`, which has no case for the point. -/
def pressInt (e : Editor) (key : Key) : Edit := if key = .point then .stay e else e.press key

/-- The loop of `Input_IntValue` that evaluates the text. -/
def intLoop (machine : Machine) (str : List Char) : Int :=
  str.foldl (fun temp c => machine.int (machine.int (machine.int (temp * 10) + c.toNat) - '0'.toNat)) 0

/-- The number that `Input_IntValue` stores for the key `keyOK`. -/
def intValue (machine : Machine) (e : Editor) : Int :=
  let temp := intLoop machine e.str
  if e.negative then machine.int (-temp) else temp

/-- The variable `*address` when an editor returns. -/
def inputValue {V : Type} (press : Editor → Key → Edit) (value : Editor → V) (address : V)
    (keys : List Key) : Option V :=
  (runEditor press .empty keys).map fun answer => answer.elim address value

/-- The function `Input_IntValue`. -/
def inputIntValue (machine : Machine) : Int → List Key → Option Int :=
  inputValue pressInt (intValue machine)

/-- The function `Input_DoubleValue`. -/
def inputDoubleValue : ℚ → List Key → Option ℚ := inputValue Editor.press Editor.value

/-- The function `Input_FloatValue`. -/
def inputFloatValue : ℚ → List Key → Option ℚ := inputValue Editor.press Editor.value

/-- The number on the line `new:`. If nothing is typed, the line says that the value is 0. -/
def shown (e : Editor) : Option ℚ := readDecimal ((if e.negative then ['-'] else []) ++ e.str)

/-- An editor leaves its variable alone if it is cancelled, and stores the number on the line `new:` if
it is confirmed. -/
def Exact {V : Type} (press : Editor → Key → Edit) (input : V → List Key → Option V) (number : V → ℚ)
    (keys : List Key) : Prop :=
  ∀ address,
    (runEditor press .empty keys = some none → input address keys = some address) ∧
      ∀ e, runEditor press .empty keys = some (some e) →
        ∃ stored, input address keys = some stored ∧ shown e = some (number stored)

/-- The decimals that are typed. -/
def fraction (e : Editor) : List Char := (e.str.dropWhile (· ≠ '.')).tail

end Input

section Typing

/-- A text that can be typed: at most 13 characters, with at most one point. -/
structure Typed (e : Editor) : Prop where
  short : e.str.length ≤ 13
  text : (e.point = false ∧ ∀ c ∈ e.str, c.isDigit) ∨
    e.point = true ∧ ∃ whole fraction, e.str = whole ++ '.' :: fraction ∧
      (∀ c ∈ whole, c.isDigit) ∧ ∀ c ∈ fraction, c.isDigit

theorem isDigit_concat {text : List Char} {c : Char} (digits : ∀ c ∈ text, c.isDigit)
    (digit : c.isDigit) : ∀ d ∈ text ++ [c], d.isDigit := by
  intro d member
  rcases List.mem_append.mp member with front | last
  · exact digits d front
  · rwa [List.mem_singleton.mp last]

theorem typed_empty : Typed .empty := ⟨Nat.zero_le 13, .inl ⟨rfl, nofun⟩⟩

theorem typed_type {e : Editor} (typed : Typed e) {c : Char} (digit : c.isDigit) :
    Typed (e.type c) := by
  rw [Editor.type]
  split
  case isTrue room =>
    refine ⟨by rw [List.length_append, List.length_singleton]; omega, ?_⟩
    rcases typed.text with ⟨none, digits⟩ | ⟨point, whole, fraction, split, wholeDigits, digits⟩
    · exact .inl ⟨none, isDigit_concat digits digit⟩
    · refine .inr ⟨point, whole, fraction ++ [c], ?_, wholeDigits, isDigit_concat digits digit⟩
      show e.str ++ [c] = _
      rw [split, List.append_assoc, List.cons_append]
  case isFalse => exact typed

theorem typed_typePoint {e : Editor} (typed : Typed e) : Typed e.typePoint := by
  rw [Editor.typePoint]
  split
  case isTrue room =>
    rw [Editor.type, if_pos room.2]
    refine ⟨?_, .inr ⟨rfl, e.str, [], rfl, ?_, nofun⟩⟩
    · show (e.str ++ ['.']).length ≤ 13
      rw [List.length_append, List.length_singleton]
      omega
    · rcases typed.text with ⟨-, digits⟩ | ⟨point, -⟩
      · exact digits
      · rw [room.1] at point
        cases point
  case isFalse => exact typed

theorem typed_delete {e : Editor} (typed : Typed e) : Typed e.delete := by
  rw [Editor.delete]
  split
  case isFalse => exact typed
  case isTrue =>
    refine ⟨by have := typed.short; simp only [List.length_dropLast]; omega, ?_⟩
    rcases typed.text with ⟨none, digits⟩ | ⟨point, whole, fraction, split, wholeDigits, digits⟩
    · refine .inl ⟨by simp [none], fun c member => digits c (List.dropLast_subset _ member)⟩
    · -- The character that is deleted is the point or a decimal.
      rcases List.eq_nil_or_concat fraction with rfl | ⟨front, last, rfl⟩
      · refine .inl ⟨by simp [split], ?_⟩
        show ∀ c ∈ e.str.dropLast, c.isDigit
        rw [split, List.dropLast_concat]
        exact wholeDigits
      · have decimal : last ≠ '.' := ne_point_of_isDigit (digits last (by simp))
        have same : e.str = (whole ++ '.' :: front) ++ [last] := by simp [split]
        have final : e.str.getLast? = some last := by rw [same, List.getLast?_concat]
        refine .inr ⟨by simp [final, decimal, point], whole, front, ?_, wholeDigits, fun c member =>
          digits c (by simp [member])⟩
        show e.str.dropLast = _
        rw [same, List.dropLast_concat]

theorem typed_press (e : Editor) (key : Key) (next : Editor) (typed : Typed e)
    (pressed : e.press key = .stay next ∨ e.press key = .ok next) : Typed next := by
  cases key <;>
    simp only [Editor.press, Edit.stay.injEq, Edit.ok.injEq, reduceCtorEq, or_false, false_or,
      or_self] at pressed
  case point => exact pressed ▸ typed_typePoint typed
  case keydelete => exact pressed ▸ typed_delete typed
  case sign =>
    subst pressed
    exact ⟨typed.short, typed.text⟩
  case emergency | empty1 | empty2 | keyOK => exact pressed ▸ typed
  all_goals exact pressed ▸ typed_type typed (by decide)

/-- Only digits can be typed where the point has no case. -/
theorem isDigit_pressInt (e : Editor) (key : Key) (next : Editor)
    (digits : ∀ c ∈ e.str, c.isDigit)
    (pressed : pressInt e key = .stay next ∨ pressInt e key = .ok next) :
    ∀ c ∈ next.str, c.isDigit := by
  have typing {c : Char} (digit : c.isDigit) : ∀ d ∈ (e.type c).str, d.isDigit := by
    rw [Editor.type]
    split
    case isTrue => exact isDigit_concat digits digit
    case isFalse => exact digits
  cases key <;>
    simp only [pressInt, Editor.press, reduceCtorEq, if_false, if_true, Edit.stay.injEq,
      Edit.ok.injEq, or_false, false_or, or_self] at pressed
  case keydelete =>
    subst pressed
    rw [Editor.delete]
    split
    case isTrue => exact fun c member => digits c (List.dropLast_subset _ member)
    case isFalse => exact digits
  case sign => exact pressed ▸ digits
  case point | emergency | empty1 | empty2 | keyOK => exact pressed ▸ digits
  all_goals exact pressed ▸ typing (by decide)

end Typing

section Integers

theorem intLoop_concat (machine : Machine) (str : List Char) (c : Char) :
    intLoop machine (str ++ [c]) =
      machine.int (machine.int (machine.int (intLoop machine str * 10) + c.toNat) - 48) := by
  rw [intLoop, List.foldl_append]
  rfl

theorem ofDigitChars_concat (str : List Char) {c : Char} (digit : c.isDigit) :
    Nat.ofDigitChars 10 (str ++ [c]) 0 + 48 = Nat.ofDigitChars 10 str 0 * 10 + c.toNat := by
  have := toNat_of_isDigit digit
  rw [Nat.ofDigitChars_append, Nat.ofDigitChars_cons]
  show 10 * Nat.ofDigitChars 10 str 0 + (c.toNat - 48) + 48 = _
  omega

/-- Without an overflow the loop reads the number. -/
theorem intLoop_of_small (machine : Machine) {str : List Char} (digits : ∀ c ∈ str, c.isDigit)
    (small : Nat.ofDigitChars 10 str 0 + 48 < 2 ^ 31) :
    intLoop machine str = Nat.ofDigitChars 10 str 0 := by
  induction str using List.reverseRecOn with
  | nil => rfl
  | append_singleton str c ih =>
    have digit := digits c (by simp)
    have value := ofDigitChars_concat str digit
    obtain ⟨low, high⟩ := toNat_of_isDigit digit
    have before := ih (fun d member => digits d (by simp [member])) (by omega)
    have product : IsInt (Nat.ofDigitChars 10 str 0 * 10) := ⟨by omega, by omega⟩
    have sum : IsInt (Nat.ofDigitChars 10 str 0 * 10 + c.toNat) := ⟨by omega, by omega⟩
    have difference : IsInt (Nat.ofDigitChars 10 str 0 * 10 + c.toNat - 48) := ⟨by omega, by omega⟩
    rw [intLoop_concat, before, machine.int_of_isInt product, machine.int_of_isInt sum,
      machine.int_of_isInt difference]
    omega

/-- A machine on which an overflow results in 0. -/
def zeroing : Machine := ⟨fun _ => 0, fun _ => 0⟩

theorem int_zeroing (n : Int) :
    zeroing.int n = n ∧ -2 ^ 31 ≤ n ∧ n < 2 ^ 31 ∨ zeroing.int n = 0 ∧ (n < -2 ^ 31 ∨ 2 ^ 31 ≤ n) := by
  by_cases inside : IsInt n
  · exact .inl ⟨zeroing.int_of_isInt inside, inside⟩
  · refine .inr ⟨by rw [Machine.int, if_neg inside]; rfl, ?_⟩
    unfold IsInt at inside
    omega

/-- With overflows that result in 0, the loop falls behind a number that is too large for good. -/
theorem intLoop_zeroing {str : List Char} (digits : ∀ c ∈ str, c.isDigit) :
    (intLoop zeroing str = Nat.ofDigitChars 10 str 0 ∧ Nat.ofDigitChars 10 str 0 + 48 < 2 ^ 31) ∨
      (intLoop zeroing str).natAbs < Nat.ofDigitChars 10 str 0 ∧
        2 ^ 31 ≤ Nat.ofDigitChars 10 str 0 + 48 := by
  induction str using List.reverseRecOn with
  | nil => exact .inl ⟨rfl, by decide⟩
  | append_singleton str c ih =>
    have digit := digits c (by simp)
    have value := ofDigitChars_concat str digit
    obtain ⟨low, high⟩ := toNat_of_isDigit digit
    have before := ih fun d member => digits d (by simp [member])
    rw [intLoop_concat]
    generalize intLoop zeroing str = temp at before
    generalize Nat.ofDigitChars 10 str 0 = number at before value
    generalize Nat.ofDigitChars 10 (str ++ [c]) 0 = longer at value
    have product := int_zeroing (temp * 10)
    have sum := int_zeroing (zeroing.int (temp * 10) + c.toNat)
    have difference := int_zeroing (zeroing.int (zeroing.int (temp * 10) + c.toNat) - 48)
    omega

/-- What digits with a sign are read as. -/
theorem shown_of_isDigit {e : Editor} (digits : ∀ c ∈ e.str, c.isDigit) :
    shown e = some ((if e.negative then -1 else 1) * (Nat.ofDigitChars 10 e.str 0 : ℚ)) := by
  exact readDecimal_signed _
    (fun c first => ne_minus_of_isDigit (digits c (List.mem_of_mem_head? first)))
    (readUnsigned_whole digits)

/-- The number is stored, whatever an overflow results in, exactly if there is none. -/
theorem intValue_iff {e : Editor} (digits : ∀ c ∈ e.str, c.isDigit) :
    (∀ machine, shown e = some (intValue machine e : ℚ)) ↔
      Nat.ofDigitChars 10 e.str 0 + 48 < 2 ^ 31 := by
  rw [shown_of_isDigit digits]
  constructor
  · intro exact
    by_contra large
    rcases intLoop_zeroing digits with ⟨-, small⟩ | ⟨behind, -⟩
    · exact large small
    · have stored := Option.some.inj (exact zeroing)
      have negated := int_zeroing (-intLoop zeroing e.str)
      rw [intValue] at stored
      cases sign : e.negative with
      | false =>
        rw [sign, if_neg Bool.false_ne_true, if_neg Bool.false_ne_true, one_mul] at stored
        have same : (Nat.ofDigitChars 10 e.str 0 : Int) = intLoop zeroing e.str := by
          exact_mod_cast stored
        omega
      | true =>
        rw [sign, if_pos rfl, if_pos rfl, neg_one_mul] at stored
        have same : -(Nat.ofDigitChars 10 e.str 0 : Int) = zeroing.int (-intLoop zeroing e.str) := by
          exact_mod_cast stored
        omega
  · intro small machine
    have inside : IsInt (-(Nat.ofDigitChars 10 e.str 0 : Int)) := ⟨by omega, by omega⟩
    rw [intValue, intLoop_of_small machine digits small]
    cases e.negative
    · simp
    · simp [machine.int_of_isInt inside]

end Integers

section Decimals

/-- The sum of the decimals from some place on, each divided by its power of ten. -/
def exactSum : Nat → List Char → ℚ
  | _, [] => 0
  | place, c :: rest => ((c.toNat - 48 : Nat) : ℚ) / 10 ^ (place + 1) + exactSum (place + 1) rest

/-- The same sum with the scale in 32 bits. -/
def storedSum : Nat → List Char → ℚ
  | _, [] => 0
  | place, c :: rest =>
    ((c.toNat - 48 : Nat) : ℚ) / (UInt32.ofNat (10 ^ (place + 1))).toNat + storedSum (place + 1) rest

theorem exactSum_eq (place : Nat) (decimals : List Char) :
    exactSum place decimals =
      (Nat.ofDigitChars 10 decimals 0 : ℚ) / 10 ^ (place + decimals.length) := by
  induction decimals generalizing place with
  | nil => simp [exactSum]
  | cons c rest ih =>
    have value : Nat.ofDigitChars 10 (c :: rest) 0 =
        10 ^ rest.length * (c.toNat - 48) + Nat.ofDigitChars 10 rest 0 := by
      rw [Nat.ofDigitChars_cons, Nat.ofDigitChars_eq_ofDigitChars_zero, Nat.mul_zero, Nat.zero_add]
      rfl
    have scale : (10 : ℚ) ^ (place + (c :: rest).length) = 10 ^ rest.length * 10 ^ (place + 1) := by
      rw [← pow_add, List.length_cons]
      congr 1
      omega
    have behind : (10 : ℚ) ^ (place + 1 + rest.length) = 10 ^ rest.length * 10 ^ (place + 1) := by
      rw [← pow_add, Nat.add_comm]
    rw [exactSum, ih, value, scale, behind, Nat.cast_add, Nat.cast_mul, add_div, Nat.cast_pow,
      Nat.cast_ofNat, mul_div_mul_left _ _ (by positivity)]

/-- The scale is right for nine decimals, and too small for the next three. -/
theorem scale_cases {place : Nat} (few : place < 12) :
    0 < (UInt32.ofNat (10 ^ (place + 1))).toNat ∧
      (if place < 9 then (UInt32.ofNat (10 ^ (place + 1))).toNat = 10 ^ (place + 1)
      else (UInt32.ofNat (10 ^ (place + 1))).toNat < 10 ^ (place + 1)) := by
  interval_cases place <;> decide

/-- The sums differ exactly if a decimal behind the ninth is not zero. -/
theorem storedSum_cases (place : Nat) (decimals : List Char) (digits : ∀ c ∈ decimals, c.isDigit)
    (few : place + decimals.length ≤ 12) :
    (storedSum place decimals = exactSum place decimals ∧ ∀ c ∈ decimals.drop (9 - place), c = '0') ∨
      exactSum place decimals < storedSum place decimals ∧
        ∃ c ∈ decimals.drop (9 - place), c ≠ '0' := by
  induction decimals generalizing place with
  | nil => exact .inl ⟨rfl, by simp⟩
  | cons c rest ih =>
    have digit := toNat_of_isDigit (digits c List.mem_cons_self)
    have length : (c :: rest).length = rest.length + 1 := List.length_cons
    have later := ih (place + 1) (fun d member => digits d (List.mem_cons_of_mem c member)) (by omega)
    obtain ⟨pos, scale⟩ := scale_cases (show place < 12 by omega)
    rw [exactSum, storedSum]
    by_cases early : place < 9
    · rw [if_pos early] at scale
      have behind : (c :: rest).drop (9 - place) = rest.drop (9 - (place + 1)) := by
        rw [show 9 - place = 9 - (place + 1) + 1 by omega, List.drop_succ_cons]
      rw [scale, behind, Nat.cast_pow, Nat.cast_ofNat]
      rcases later with ⟨same, zeros⟩ | ⟨less, nonzero⟩
      · exact .inl ⟨by rw [same], zeros⟩
      · exact .inr ⟨by linarith, nonzero⟩
    · rw [if_neg early] at scale
      rw [show 9 - (place + 1) = 0 by omega, List.drop_zero] at later
      rw [show 9 - place = 0 by omega, List.drop_zero]
      by_cases zero : c = '0'
      · rw [zero, show '0'.toNat - 48 = 0 from rfl, Nat.cast_zero, zero_div, zero_div, zero_add, zero_add]
        rcases later with ⟨same, zeros⟩ | ⟨less, d, member, nonzero⟩
        · exact .inl ⟨same, List.forall_mem_cons.mpr ⟨rfl, zeros⟩⟩
        · exact .inr ⟨less, d, List.mem_cons_of_mem _ member, nonzero⟩
      · -- A decimal that is divided by too little counts too much, and no later one makes up for it.
        have value : c.toNat - 48 ≠ 0 := fun none => zero (Char.toNat_inj.mp (by
          show c.toNat = 48
          omega))
        have more : ((c.toNat - 48 : Nat) : ℚ) / 10 ^ (place + 1) <
            ((c.toNat - 48 : Nat) : ℚ) / (UInt32.ofNat (10 ^ (place + 1))).toNat :=
          div_lt_div_of_pos_left (by positivity) (by exact_mod_cast pos) (by exact_mod_cast scale)
        refine .inr ⟨?_, c, List.mem_cons_self, zero⟩
        rcases later with ⟨same, -⟩ | ⟨less, -⟩
        · rw [same]
          linarith
        · linarith

theorem foldl_evaluate_whole (whole : List Char) (digits : ∀ c ∈ whole, c.isDigit) (init : Nat) :
    whole.foldl Editor.evaluate ((init : ℚ), 0) = ((Nat.ofDigitChars 10 whole init : ℚ), 0) := by
  induction whole generalizing init with
  | nil => rfl
  | cons c rest ih =>
    obtain ⟨low, -⟩ := toNat_of_isDigit (digits c List.mem_cons_self)
    have value : (init : ℚ) * (10 : Nat) + c.toNat - ('0'.toNat : Nat) =
        ((10 * init + (c.toNat - '0'.toNat) : Nat) : ℚ) := by
      rw [Nat.cast_add, Nat.cast_sub (show '0'.toNat ≤ c.toNat from low)]
      push_cast
      ring
    rw [List.foldl_cons, Editor.evaluate, if_neg (ne_point_of_isDigit (digits c List.mem_cons_self)),
      if_pos rfl, value, ih fun d member => digits d (List.mem_cons_of_mem c member),
      Nat.ofDigitChars_cons]

theorem foldl_evaluate_decimals (place : Nat) (decimals : List Char)
    (digits : ∀ c ∈ decimals, c.isDigit) (few : place + decimals.length ≤ 12) (temp : ℚ) :
    (decimals.foldl Editor.evaluate (temp, UInt32.ofNat (10 ^ (place + 1)))).1 =
      temp + storedSum place decimals := by
  induction decimals generalizing place temp with
  | nil => exact (add_zero temp).symm
  | cons c rest ih =>
    have length : (c :: rest).length = rest.length + 1 := List.length_cons
    obtain ⟨pos, -⟩ := scale_cases (show place < 12 by omega)
    have nonzero : UInt32.ofNat (10 ^ (place + 1)) ≠ 0 := by
      intro zero
      rw [zero] at pos
      exact absurd pos (by decide)
    have next : UInt32.ofNat (10 ^ (place + 1)) * 10 = UInt32.ofNat (10 ^ (place + 1 + 1)) := by
      rw [pow_succ 10 (place + 1), UInt32.ofNat_mul]
      rfl
    rw [List.foldl_cons, Editor.evaluate, if_neg (ne_point_of_isDigit (digits c List.mem_cons_self)),
      if_neg nonzero, next,
      ih (place + 1) (fun d member => digits d (List.mem_cons_of_mem c member)) (by omega), storedSum,
      add_assoc]
    rfl

theorem value_of_isDigit {e : Editor} (digits : ∀ c ∈ e.str, c.isDigit) :
    (e.value : ℚ) = (if e.negative then -1 else 1) * (Nat.ofDigitChars 10 e.str 0 : ℚ) := by
  have loop := foldl_evaluate_whole e.str digits 0
  rw [Nat.cast_zero] at loop
  rw [Editor.value, loop]
  cases e.negative <;> simp

/-- The number that is shown and the one that is stored for a text with a point. -/
theorem value_point {e : Editor} {whole decimals : List Char}
    (split : e.str = whole ++ '.' :: decimals) (wholeDigits : ∀ c ∈ whole, c.isDigit)
    (digits : ∀ c ∈ decimals, c.isDigit) (few : decimals.length ≤ 12) :
    shown e = some ((if e.negative then -1 else 1) *
        (Nat.ofDigitChars 10 whole 0 + exactSum 0 decimals)) ∧
      (e.value : ℚ) = (if e.negative then -1 else 1) *
        (Nat.ofDigitChars 10 whole 0 + storedSum 0 decimals) := by
  constructor
  · rw [exactSum_eq, Nat.zero_add, shown, split]
    refine readDecimal_signed _ (fun c first => ?_) (readUnsigned_point wholeDigits digits)
    cases whole with
    | nil => exact (Option.some.inj first) ▸ (by decide)
    | cons d rest => exact (Option.some.inj first) ▸ ne_minus_of_isDigit (wholeDigits d List.mem_cons_self)
  · have front := foldl_evaluate_whole whole wholeDigits 0
    rw [Nat.cast_zero] at front
    have point : Editor.evaluate ((Nat.ofDigitChars 10 whole 0 : ℚ), 0) '.' =
        ((Nat.ofDigitChars 10 whole 0 : ℚ), UInt32.ofNat (10 ^ (0 + 1))) := rfl
    have loop := foldl_evaluate_decimals 0 decimals digits (by omega) (Nat.ofDigitChars 10 whole 0)
    rw [Editor.value, split, List.foldl_append, front, List.foldl_cons, point, loop]
    cases e.negative <;> simp

/-- The number is stored exactly if the decimals behind the ninth are zero. -/
theorem value_iff {e : Editor} (typed : Typed e) :
    shown e = some (e.value : ℚ) ↔ ∀ c ∈ (fraction e).drop 9, c = '0' := by
  rcases typed.text with ⟨-, digits⟩ | ⟨-, whole, decimals, split, wholeDigits, digits⟩
  · have none : e.str.dropWhile (· ≠ '.') = [] := List.dropWhile_eq_nil_iff.mpr fun c member =>
      decide_eq_true (ne_point_of_isDigit (digits c member))
    rw [shown_of_isDigit digits, value_of_isDigit digits, fraction, none]
    simp
  · have length := typed.short
    rw [split, List.length_append, List.length_cons] at length
    have inside : ∀ c ∈ whole, decide (c ≠ '.') = true := fun c member =>
      decide_eq_true (ne_point_of_isDigit (wholeDigits c member))
    have behind : fraction e = decimals := by
      rw [fraction, split, List.dropWhile_append_of_pos inside,
        List.dropWhile_cons_of_neg (by decide), List.tail_cons]
    obtain ⟨line, stored⟩ := value_point split wholeDigits digits (by omega)
    have sign : (if e.negative then -1 else 1 : ℚ) ≠ 0 := by split_ifs <;> norm_num
    rw [line, stored, behind, Option.some.injEq, mul_right_inj' sign, add_right_inj]
    rcases storedSum_cases 0 decimals digits (by omega) with ⟨same, zeros⟩ | ⟨less, c, member, nonzero⟩
    · exact ⟨fun _ => zeros, fun _ => same.symm⟩
    · exact ⟨fun same => absurd same less.ne, fun zeros => absurd (zeros c member) nonzero⟩

end Decimals

section Exact

/-- An editor is exact if the value of the text that is confirmed is the number on the line. -/
theorem exact_inputValue_iff {V : Type} [Inhabited V] (press : Editor → Key → Edit)
    (value : Editor → V) (number : V → ℚ) (keys : List Key) :
    Exact press (inputValue press value) number keys ↔
      ∀ e, runEditor press .empty keys = some (some e) → shown e = some (number (value e)) := by
  constructor
  · intro exact e confirmed
    obtain ⟨stored, input, line⟩ := (exact default).2 e confirmed
    rw [inputValue, confirmed] at input
    rwa [← Option.some.inj input] at line
  · intro shown address
    refine ⟨fun cancelled => by rw [inputValue, cancelled]; rfl, fun e confirmed => ?_⟩
    exact ⟨value e, by rw [inputValue, confirmed]; rfl, shown e confirmed⟩

/-- The editors are exact for the keys that lead to no overflow: of the integer, or of the scale at a
decimal that is not zero. -/
theorem exact_iff (keys : List Key) :
    ((∀ machine, Exact pressInt (inputIntValue machine) Int.cast keys) ↔
      ∀ e, runEditor pressInt .empty keys = some (some e) →
        Nat.ofDigitChars 10 e.str 0 + 48 < 2 ^ 31) ∧
    (Exact Editor.press inputDoubleValue id keys ↔
      ∀ e, runEditor Editor.press .empty keys = some (some e) → ∀ c ∈ (fraction e).drop 9, c = '0') ∧
    (Exact Editor.press inputFloatValue id keys ↔
      ∀ e, runEditor Editor.press .empty keys = some (some e) →
        ∀ c ∈ (fraction e).drop 9, c = '0') := by
  have decimals : Exact Editor.press inputDoubleValue id keys ↔
      ∀ e, runEditor Editor.press .empty keys = some (some e) →
        ∀ c ∈ (fraction e).drop 9, c = '0' := by
    refine (exact_inputValue_iff Editor.press Editor.value id keys).trans (forall₂_congr ?_)
    intro e confirmed
    exact value_iff (runEditor_invariant typed_press typed_empty confirmed)
  refine ⟨?_, decimals, decimals⟩
  have integers (machine : Machine) := exact_inputValue_iff pressInt (intValue machine) Int.cast keys
  have digits {e : Editor} (confirmed : runEditor pressInt .empty keys = some (some e)) :
      ∀ c ∈ e.str, c.isDigit :=
    runEditor_invariant isDigit_pressInt (fun _ member => absurd member List.not_mem_nil) confirmed
  constructor
  · intro exact e confirmed
    exact (intValue_iff (digits confirmed)).mp fun machine =>
      (integers machine).mp (exact machine) e confirmed
  · intro small machine
    refine (integers machine).mpr fun e confirmed => ?_
    exact (intValue_iff (digits confirmed)).mpr (small e confirmed) machine

/-- The keys for 9999999999, and for ten decimals of which the last is 1. -/
def nines : List Key := List.replicate 10 Key.key9 ++ [Key.keyOK]

def tenth : List Key := Key.point :: List.replicate 9 Key.key0 ++ [Key.key1, Key.keyOK]

theorem not_exact_nines :
    inputIntValue wrapping 0 nines = some 1410065407 ∧
      ¬ Exact pressInt (inputIntValue wrapping) Int.cast nines ∧
      ¬ Exact Editor.press inputDoubleValue id tenth := by
  refine ⟨by decide +kernel, fun exact => ?_, fun exact => ?_⟩
  · obtain ⟨stored, input, line⟩ := (exact 0).2 _ rfl
    rw [← Option.some.inj input] at line
    exact absurd line (by decide +kernel)
  · obtain ⟨stored, input, line⟩ := (exact 0).2 _ rfl
    rw [← Option.some.inj input] at line
    exact absurd line (by decide +kernel)

end Exact

end BadmintonRobot.Screen
