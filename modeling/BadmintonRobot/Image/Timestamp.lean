import BadmintonRobot.Numeric.BitField
import Mathlib.Data.List.GetD
import Mathlib.Tactic.IntervalCases

/-!
# The time stamp of a file

`f_timestamp` gives a file the time at which the program was compiled. It reads the texts `__DATE__` and
`__TIME__` character by character and packs the numbers into the two words of a directory entry. The
compiler pads the day with a space, which is read as the digit -16.
-/

namespace BadmintonRobot.Image

open Numeric

section Source

/-- The table `mon_name`. -/
def monName : List (List Char) :=
  [['J', 'a', 'n'], ['F', 'e', 'b'], ['M', 'a', 'r'], ['A', 'p', 'r'], ['M', 'a', 'y'], ['J', 'u', 'n'],
    ['J', 'u', 'l'], ['A', 'u', 'g'], ['S', 'e', 'p'], ['O', 'c', 't'], ['N', 'o', 'v'], ['D', 'e', 'c']]

/-- The function `strncmp`. A text ends with the character zero. -/
def strncmp : List Char → List Char → Nat → Int
  | _, _, 0 => 0
  | first, second, n + 1 =>
    let c := first.headD '\x00'
    let d := second.headD '\x00'
    if c ≠ d then c.toNat - d.toNat else if c = '\x00' then 0 else strncmp first.tail second.tail n

/-- The loop of `get_mon`, from the month `i` on. -/
def getMonFrom (date : List Char) : List (List Char) → Int → Int
  | [], _ => 0
  | name :: names, i => if strncmp date name 3 = 0 then i + 1 else getMonFrom date names (i + 1)

/-- The function `get_mon`. -/
def getMon (date : List Char) : Int := getMonFrom date monName 0

/-- The expression `text[i]-'0'`. -/
def digitAt (text : List Char) (i : Nat) : Int := (text.getD i '\x00').toNat - '0'.toNat

/-- The function `get_mday`. -/
def getMday (date : List Char) : Int := digitAt date 4 * 10 + digitAt date 5

/-- The function `get_year`. -/
def getYear (date : List Char) : Int :=
  digitAt date 7 * 1000 + digitAt date 8 * 100 + digitAt date 9 * 10 + digitAt date 10

/-- The function `get_hour`. -/
def getHour (time : List Char) : Int := digitAt time 0 * 10 + digitAt time 1

/-- The function `get_min`. -/
def getMin (time : List Char) : Int := digitAt time 3 * 10 + digitAt time 4

/-- The function `get_sec`. -/
def getSec (time : List Char) : Int := digitAt time 6 * 10 + digitAt time 7

/-- The fields of `FILINFO` that are set. -/
structure FilInfo where
  fdate : UInt16
  ftime : UInt16
deriving DecidableEq, Repr

/-- The two words for the numbers. The operands of `|` are of the type `unsigned int`. -/
def packed (year month mday hour min sec : Int) : FilInfo where
  fdate := (UInt32.ofInt (year - 1980) * 512 ||| UInt32.ofInt month * 32 ||| UInt32.ofInt mday).toUInt16
  ftime := (UInt32.ofInt hour * 2048 ||| UInt32.ofInt min * 32 ||| UInt32.ofInt sec / 2).toUInt16

/-- The words that `f_timestamp` packs, for the texts `__DATE__` and `__TIME__`. -/
def stamp (date time : List Char) : FilInfo :=
  packed (getYear date) (getMon date) (getMday date) (getHour time) (getMin time) (getSec time)

variable {Result : Type} (fUtime : String → FilInfo → Result)

/-- The function `set_timestamp`. -/
def setTimestamp (obj : String) (year month mday hour min sec : Int) : Result :=
  fUtime obj (packed year month mday hour min sec)

/-- The function `f_timestamp`. -/
def fTimestamp (date time : List Char) (obj : String) : Result := fUtime obj (stamp date time)

end Source

section Calendar

/-- The days of a month. -/
def daysIn (year month : Nat) : Nat :=
  if month = 2 then if year % 4 = 0 ∧ (year % 100 ≠ 0 ∨ year % 400 = 0) then 29 else 28
  else if month = 4 ∨ month = 6 ∨ month = 9 ∨ month = 11 then 30
  else 31

/-- A date that a directory entry can hold. -/
structure Date where
  year : Nat
  month : Nat
  day : Nat
  year_le : 1980 ≤ year ∧ year ≤ 2107
  month_le : 1 ≤ month ∧ month ≤ 12
  day_le : 1 ≤ day ∧ day ≤ daysIn year month

/-- A time of day. -/
structure Clock where
  hour : Nat
  min : Nat
  sec : Nat
  hour_lt : hour < 24
  min_lt : min < 60
  sec_lt : sec < 60

/-- The name of a month in `__DATE__`. -/
def monthText : Nat → List Char
  | 1 => ['J', 'a', 'n']
  | 2 => ['F', 'e', 'b']
  | 3 => ['M', 'a', 'r']
  | 4 => ['A', 'p', 'r']
  | 5 => ['M', 'a', 'y']
  | 6 => ['J', 'u', 'n']
  | 7 => ['J', 'u', 'l']
  | 8 => ['A', 'u', 'g']
  | 9 => ['S', 'e', 'p']
  | 10 => ['O', 'c', 't']
  | 11 => ['N', 'o', 'v']
  | _ => ['D', 'e', 'c']

/-- The text `__DATE__`, in which a day of one digit is padded with a space. -/
def Date.text (date : Date) : List Char :=
  monthText date.month ++
    [' ', if date.day < 10 then ' ' else Nat.digitChar (date.day / 10), Nat.digitChar (date.day % 10),
      ' ', Nat.digitChar (date.year / 1000), Nat.digitChar (date.year / 100 % 10),
      Nat.digitChar (date.year / 10 % 10), Nat.digitChar (date.year % 10)]

/-- The text `__TIME__`. -/
def Clock.text (clock : Clock) : List Char :=
  [Nat.digitChar (clock.hour / 10), Nat.digitChar (clock.hour % 10), ':',
    Nat.digitChar (clock.min / 10), Nat.digitChar (clock.min % 10), ':',
    Nat.digitChar (clock.sec / 10), Nat.digitChar (clock.sec % 10)]

/-- The year, the month and the day in a directory entry. -/
def FilInfo.date (fno : FilInfo) : Nat × Nat × Nat :=
  (1980 + bitField 9 7 fno.fdate.toNat, bitField 5 4 fno.fdate.toNat, bitField 0 5 fno.fdate.toNat)

/-- The hour, the minute and the second in a directory entry, which counts in steps of two seconds. -/
def FilInfo.time (fno : FilInfo) : Nat × Nat × Nat :=
  (bitField 11 5 fno.ftime.toNat, bitField 5 6 fno.ftime.toNat, 2 * bitField 0 5 fno.ftime.toNat)

/-- The words stand for the date and the time, up to an odd second. -/
structure Stamped (fno : FilInfo) (date : Date) (clock : Clock) : Prop where
  date : fno.date = (date.year, date.month, date.day)
  time : fno.time = (clock.hour, clock.min, clock.sec - clock.sec % 2)

end Calendar

section Reading

/-- A digit of a text is read as its value. -/
theorem digitAt_of_getD {text : List Char} {i n : Nat} (digit : n < 10)
    (there : text.getD i '\x00' = Nat.digitChar n) : digitAt text i = n := by
  rw [digitAt, there, Nat.toNat_digitChar_of_lt_ten digit]
  show ((48 + n : Nat) : Int) - 48 = n
  omega

theorem getMon_monthText {month : Nat} (bounds : 1 ≤ month ∧ month ≤ 12) (rest : List Char) :
    getMon (monthText month ++ rest) = month := by
  obtain ⟨low, high⟩ := bounds
  interval_cases month <;> simp [getMon, getMonFrom, monName, monthText, strncmp]

theorem length_monthText (month : Nat) : (monthText month).length = 3 := by
  unfold monthText
  split <;> rfl

/-- What stands behind the month. -/
theorem getD_text (date : Date) (i : Nat) :
    date.text.getD (i + 3) '\x00' = List.getD
      [' ', if date.day < 10 then ' ' else Nat.digitChar (date.day / 10), Nat.digitChar (date.day % 10),
        ' ', Nat.digitChar (date.year / 1000), Nat.digitChar (date.year / 100 % 10),
        Nat.digitChar (date.year / 10 % 10), Nat.digitChar (date.year % 10)] i '\x00' := by
  rw [Date.text, List.getD_append_right _ _ _ _ (by rw [length_monthText]; omega), length_monthText,
    Nat.add_sub_cancel]

variable (date : Date) (clock : Clock)

theorem getMon_text : getMon date.text = date.month := getMon_monthText date.month_le _

theorem Date.day_lt : date.day < 32 := by
  have bound := date.day_le.2
  rw [daysIn] at bound
  split_ifs at bound <;> omega

/-- The day is wrong if it is padded. -/
theorem getMday_text : getMday date.text = if date.day < 10 then (date.day : Int) - 160 else date.day := by
  have range := date.day_lt
  have ones : digitAt date.text 5 = (date.day % 10 : Nat) :=
    digitAt_of_getD (by omega) (getD_text date 2)
  split_ifs with padded
  · have tens : digitAt date.text 4 = -16 := by
      rw [digitAt, getD_text date 1, List.getD_cons_succ, List.getD_cons_zero, if_pos padded]
      rfl
    rw [getMday, tens, ones]
    omega
  · have tens : digitAt date.text 4 = (date.day / 10 : Nat) := by
      refine digitAt_of_getD (by omega) ?_
      rw [getD_text date 1, List.getD_cons_succ, List.getD_cons_zero, if_neg padded]
    rw [getMday, tens, ones]
    omega

theorem getYear_text : getYear date.text = date.year := by
  have range := date.year_le
  have thousands : digitAt date.text 7 = (date.year / 1000 : Nat) :=
    digitAt_of_getD (by omega) (getD_text date 4)
  have hundreds : digitAt date.text 8 = (date.year / 100 % 10 : Nat) :=
    digitAt_of_getD (by omega) (getD_text date 5)
  have tens : digitAt date.text 9 = (date.year / 10 % 10 : Nat) :=
    digitAt_of_getD (by omega) (getD_text date 6)
  have ones : digitAt date.text 10 = (date.year % 10 : Nat) :=
    digitAt_of_getD (by omega) (getD_text date 7)
  rw [getYear, thousands, hundreds, tens, ones]
  omega

/-- Two digits of a text. -/
theorem digits_of_getD {text : List Char} {i j n : Nat} (small : n < 60)
    (tens : text.getD i '\x00' = Nat.digitChar (n / 10))
    (ones : text.getD j '\x00' = Nat.digitChar (n % 10)) :
    digitAt text i * 10 + digitAt text j = n := by
  rw [digitAt_of_getD (by omega) tens, digitAt_of_getD (by omega) ones]
  omega

theorem getHour_text : getHour clock.text = clock.hour :=
  digits_of_getD (clock.hour_lt.trans (by decide)) rfl rfl

theorem getMin_text : getMin clock.text = clock.min := digits_of_getD clock.min_lt rfl rfl

theorem getSec_text : getSec clock.text = clock.sec := digits_of_getD clock.sec_lt rfl rfl

end Reading

section Packing

theorem toNat_ofInt_natCast {n : Nat} (small : n < 2 ^ 32) : (UInt32.ofInt (n : Int)).toNat = n := by
  rw [UInt32.ofInt, UInt32.toNat_ofNat']
  omega

/-- A field of a word is put together from those of the three operands. -/
theorem bitField_word {low width : Nat} (inside : low + width ≤ 16) (first second third : UInt32) :
    bitField low width (first ||| second ||| third).toUInt16.toNat =
      bitField low width first.toNat ||| bitField low width second.toNat |||
        bitField low width third.toNat := by
  rw [UInt32.toNat_toUInt16, bitField_mod inside, UInt32.toNat_or, UInt32.toNat_or, bitField_or,
    bitField_or]

/-- The three fields of a word. Only the last operand, which is not shifted, can spoil the others. -/
theorem bitField_packed (width top : Nat) (whole : 5 + width + top = 16) {first second : UInt32}
    {high mid : Nat} (front : first.toNat = high * 2 ^ (5 + width)) (high_lt : high < 2 ^ top)
    (middle : second.toNat = mid * 2 ^ 5) (mid_lt : mid < 2 ^ width) (third : UInt32) :
    bitField (5 + width) top (first ||| second ||| third).toUInt16.toNat =
        (high ||| bitField (5 + width) top third.toNat) ∧
      bitField 5 width (first ||| second ||| third).toUInt16.toNat =
        (mid ||| bitField 5 width third.toNat) ∧
      bitField 0 5 (first ||| second ||| third).toUInt16.toNat = bitField 0 5 third.toNat := by
  have below : mid * 2 ^ 5 < 2 ^ (5 + width) := by
    rw [Nat.add_comm, pow_add]
    exact Nat.mul_lt_mul_of_pos_right mid_lt (Nat.two_pow_pos 5)
  refine ⟨?_, ?_, ?_⟩
  · rw [bitField_word (by omega), front, middle, bitField_shifted high_lt, bitField_of_lt below,
      Nat.or_zero]
  · rw [bitField_word (by omega), front, middle, bitField_above le_rfl, bitField_shifted mid_lt,
      Nat.zero_or]
  · rw [bitField_word (by decide), front, middle, bitField_above (by omega), bitField_above (by decide),
      Nat.zero_or, Nat.zero_or]

/-- An operand that is shifted by a multiplication. -/
theorem toNat_ofInt_mul {n bits : Nat} {factor : UInt32} (power : factor.toNat = 2 ^ bits)
    (small : n * 2 ^ bits < 2 ^ 32) : (UInt32.ofInt (n : Int) * factor).toNat = n * 2 ^ bits := by
  have less : n < 2 ^ 32 := lt_of_le_of_lt (Nat.le_mul_of_pos_right n (Nat.two_pow_pos bits)) small
  rw [UInt32.toNat_mul, toNat_ofInt_natCast less, power, Nat.mod_eq_of_lt small]

variable (date : Date) (clock : Clock)

/-- The operand for the day. The padding sets all bits but those of the day and one of the month. -/
theorem toNat_mday :
    (UInt32.ofInt (getMday date.text)).toNat =
      if date.day < 10 then 2 ^ 32 - 160 + date.day else date.day := by
  have range := date.day_lt
  rw [getMday_text]
  split_ifs with padded
  · rw [UInt32.ofInt, UInt32.toNat_ofNat']
    omega
  · exact toNat_ofInt_natCast (by omega)

/-- The date that the words stand for. -/
theorem date_stamp (time : List Char) :
    (stamp date.text time).date =
      if date.day < 10 then (2107, date.month ||| 11, date.day)
      else (date.year, date.month, date.day) := by
  obtain ⟨early, late⟩ := date.year_le
  have months := date.month_le
  have range := date.day_lt
  have front : (UInt32.ofInt (getYear date.text - 1980) * 512).toNat = (date.year - 1980) * 2 ^ 9 := by
    rw [getYear_text, show (date.year : Int) - 1980 = ((date.year - 1980 : Nat) : Int) by omega]
    exact toNat_ofInt_mul rfl (by omega)
  have middle : (UInt32.ofInt (getMon date.text) * 32).toNat = date.month * 2 ^ 5 := by
    rw [getMon_text]
    exact toNat_ofInt_mul rfl (by omega)
  obtain ⟨year, month, day⟩ := bitField_packed 4 7 rfl front (by omega) middle (by omega)
    (UInt32.ofInt (getMday date.text))
  rw [toNat_mday] at year month day
  rw [FilInfo.date, stamp, packed, year, month, day]
  split_ifs with padded
  · have years : bitField 9 7 (2 ^ 32 - 160 + date.day) = 2 ^ 7 - 1 := by
      unfold bitField
      omega
    have months : bitField 5 4 (2 ^ 32 - 160 + date.day) = 11 := by
      unfold bitField
      omega
    have days : bitField 0 5 (2 ^ 32 - 160 + date.day) = date.day := by
      unfold bitField
      omega
    rw [years, months, days, or_ones (by omega)]
    rfl
  · have own : bitField 0 5 date.day = date.day := by
      unfold bitField
      omega
    rw [bitField_of_lt (by omega), bitField_of_lt (by omega), own, Nat.or_zero, Nat.or_zero,
      Nat.add_sub_cancel' early]

/-- The time is packed correctly. -/
theorem time_stamp (date : List Char) :
    (stamp date clock.text).time = (clock.hour, clock.min, clock.sec - clock.sec % 2) := by
  obtain ⟨hours, mins, secs⟩ := And.intro clock.hour_lt (And.intro clock.min_lt clock.sec_lt)
  have front : (UInt32.ofInt (getHour clock.text) * 2048).toNat = clock.hour * 2 ^ 11 := by
    rw [getHour_text]
    exact toNat_ofInt_mul rfl (by omega)
  have middle : (UInt32.ofInt (getMin clock.text) * 32).toNat = clock.min * 2 ^ 5 := by
    rw [getMin_text]
    exact toNat_ofInt_mul rfl (by omega)
  have last : (UInt32.ofInt (getSec clock.text) / 2).toNat = clock.sec / 2 := by
    rw [getSec_text, UInt32.toNat_div, toNat_ofInt_natCast (by omega)]
    rfl
  have own : bitField 0 5 (clock.sec / 2) = clock.sec / 2 := by
    unfold bitField
    omega
  obtain ⟨hour, min, sec⟩ := bitField_packed 6 5 rfl front (by omega) middle (by omega)
    (UInt32.ofInt (getSec clock.text) / 2)
  rw [last] at hour min sec
  rw [FilInfo.time, stamp, packed, hour, min, sec, bitField_of_lt (by omega), bitField_of_lt (by omega),
    own, Nat.or_zero, Nat.or_zero, Nat.sub_eq_of_eq_add (Nat.div_add_mod clock.sec 2).symm]

end Packing

section Stamp

/-- The date is right if the day has two digits, or if the bits that the padding sets are set anyway. -/
theorem stamped_iff (date : Date) (clock : Clock) :
    Stamped (stamp date.text clock.text) date clock ↔
      10 ≤ date.day ∨ date.year = 2107 ∧ date.month = 11 := by
  have words := date_stamp date clock.text
  constructor
  · intro stamped
    by_contra wrong
    have padded : date.day < 10 := by omega
    have read := stamped.date
    rw [words, if_pos padded, Prod.mk.injEq, Prod.mk.injEq] at read
    obtain ⟨year, month, -⟩ := read
    have november : ∀ month ≤ 12, (month ||| 11) = month → month = 11 := by decide
    exact wrong (.inr ⟨year.symm, november date.month date.month_le.2 month⟩)
  · intro right
    refine ⟨?_, time_stamp clock date.text⟩
    rw [words]
    split_ifs with padded
    · obtain ⟨year, month⟩ := right.resolve_left (by omega)
      rw [year, month]
      rfl
    · rfl

/-- The fifth of May 2014, at noon. -/
def mayFifth : Date where
  year := 2014
  month := 5
  day := 5
  year_le := by decide
  month_le := by decide
  day_le := by decide

def noon : Clock where
  hour := 12
  min := 0
  sec := 0
  hour_lt := by decide
  min_lt := by decide
  sec_lt := by decide

/-- The file is from the month 15 of the year 2107. -/
theorem not_stamped_mayFifth :
    (stamp mayFifth.text noon.text).date = (2107, 15, 5) ∧
      ¬ Stamped (stamp mayFifth.text noon.text) mayFifth noon := by
  have words : (stamp mayFifth.text noon.text).date = (2107, 15, 5) := by decide
  exact ⟨words, fun stamped => absurd (words.symm.trans stamped.date) (by decide)⟩

end Stamp

end BadmintonRobot.Image
