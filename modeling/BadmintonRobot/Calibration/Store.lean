import Mathlib
import BadmintonRobot.Numeric.Literal
import BadmintonRobot.Semantics.Records

/-!
# The calibration file

The calibration of the gyroscope and the encoders is kept in `Init.txt`. `InitNewCard` writes one
record for each row of `SDSave` at a multiple of 50: the name between `@` and `:`, the eight bytes of
the value, and the value as text. `InitAllFromSD` reads the first 512 bytes for each row and looks for
the name behind each `@` in them, and so does `ValueSave` before it writes one record again.

The file system reads back what was written; a byte that was never written has the value that the
card had there. All rows have the type `Type_Fp64`, and the cases of the other types are left out.
A step whose effect C leaves open has no result: text that does not fit into its buffer, a read
behind the end of `SDBuffer`, a comparison with a `name_str` that was never set.
-/

namespace BadmintonRobot.Calibration

open Semantics Records

/-- The bytes of a text. -/
def ascii (text : String) : List UInt8 := text.toList.map Char.toUInt8

/-- The character `@`. -/
def mark : UInt8 := 64

/-- The character `:`. -/
def colon : UInt8 := 58

/-- A `double` as it lies in memory, the lowest byte first. -/
abbrev Fp64 := Fin 8 → UInt8

namespace Fp64

/-- The array `data` of `union udouble`. -/
def data (value : Fp64) : List UInt8 := List.ofFn value

def bits (value : Fp64) : Nat := value.data.foldr (fun byte rest => byte.toNat + 256 * rest) 0

def negative (value : Fp64) : Bool := 2 ^ 63 ≤ value.bits

def exponent (value : Fp64) : Nat := value.bits / 2 ^ 52 % 2 ^ 11

def fraction (value : Fp64) : Nat := value.bits % 2 ^ 52

/-- A quotient to the nearest integer, and to the even one of two. -/
def round (dividend divisor : Nat) : Nat :=
  let quotient := dividend / divisor
  let twice := 2 * (dividend % divisor)
  if twice < divisor ∨ twice = divisor ∧ quotient % 2 = 0 then quotient else quotient + 1

/-- The absolute value in millionths, for a finite number. -/
def millionths (value : Fp64) : Nat :=
  let mantissa := if value.exponent = 0 then value.fraction else 2 ^ 52 + value.fraction
  if 1075 ≤ value.exponent then mantissa * 10 ^ 6 * 2 ^ (value.exponent - 1075)
  else round (mantissa * 10 ^ 6) (2 ^ (1075 - max value.exponent 1))

/-- The text that `%lf` prints. -/
def text (value : Fp64) : List UInt8 :=
  (if value.negative then ascii "-" else []) ++
    if value.exponent = 2047 then ascii (if value.fraction = 0 then "inf" else "nan")
    else
      (Nat.toDigits 10 (value.millionths / 10 ^ 6)).map Char.toUInt8 ++ ascii "." ++
        -- six digits, with leading zeros
        ((Nat.toDigits 10 (10 ^ 6 + value.millionths % 10 ^ 6)).drop 1).map Char.toUInt8

end Fp64

/-- What the pointers in `SDSave` can point to. -/
inductive Field where
  | gyroConvert1
  | gyroConvert2
  | encoderConvert1 (number : Fin 2)
  | encoderConvert2 (number : Fin 2)
  | encoderR (number : Fin 2)
  | encoderRadian (number : Fin 2)
deriving DecidableEq, Repr

/-- The calibration in memory. -/
abbrev Memory := Field → Fp64

/-- `struct _SDData`. -/
structure SDData where
  name : List UInt8
  value : Field
deriving DecidableEq

/-- The table `SDSave`. -/
def sdSave : List SDData :=
  [ ⟨ascii "Gyro_convert1", .gyroConvert1⟩,
    ⟨ascii "Gyro_convert2", .gyroConvert2⟩,
    ⟨ascii "Encoder1_convert1", .encoderConvert1 0⟩,
    ⟨ascii "Encoder1_convert2", .encoderConvert2 0⟩,
    ⟨ascii "Encoder1_r", .encoderR 0⟩,
    ⟨ascii "Encoder1_radian", .encoderRadian 0⟩,
    ⟨ascii "Encoder2_convert1", .encoderConvert1 0⟩,
    ⟨ascii "Encoder2_convert2", .encoderConvert2 0⟩,
    ⟨ascii "Encoder2_r", .encoderR 0⟩,
    ⟨ascii "Encoder2_radian", .encoderRadian 0⟩,
    ⟨ascii "d", .encoderRadian 0⟩,
    ⟨ascii "Encoder2_convert1", .encoderConvert1 0⟩,
    ⟨ascii "Encoder2_convert2", .encoderConvert2 0⟩,
    ⟨ascii "Encoder2_r", .encoderR 0⟩,
    ⟨ascii "Encoder2_radian", .encoderRadian 0⟩ ]

/-- An open file. `bytes` is what the card holds at its place. -/
structure File where
  bytes : Nat → UInt8
  size : Nat
  fptr : Nat

namespace File

/-- `f_open` with `FA_CREATE_ALWAYS`. -/
def create (card : Nat → UInt8) : File := ⟨card, 0, 0⟩

/-- `f_lseek` in a file that is open for writing, which grows if necessary. -/
def fLseek (file : File) (ofs : Nat) : File :=
  { file with size := max file.size ofs, fptr := ofs }

/-- `f_write`. -/
def fWrite (file : File) (buff : List UInt8) : File where
  bytes := overlay file.bytes file.fptr buff
  size := max file.size (file.fptr + buff.length)
  fptr := file.fptr + buff.length

/-- `SD_Write`, which prints into an array of 128 bytes before it writes. -/
def sdWrite (file : File) (text : List UInt8) : Option File :=
  if text.length < 128 then some (file.fWrite text) else none

/-- `SDBuffer` when the beginning of the file has been read into it. -/
def sdBuffer (file : File) : List UInt8 :=
  (List.range 512).map fun p => if p < file.size then file.bytes p else 0

end File

/-- `Switch_Save`. -/
def switchSave (file : File) (row : SDData) (memory : Memory) : Option File :=
  (file.sdWrite (mark :: row.name ++ [colon])).bind fun file =>
    (file.fWrite (memory row.value).data).sdWrite
      (colon :: (memory row.value).text ++ ascii ";    \n")

/-- The loop of `InitNewCard`. -/
def saveRows (memory : Memory) : Nat → List SDData → File → Option File
  | _, [], file => some file
  | count, row :: rows, file =>
    (switchSave (file.fLseek (count * 50)) row memory).bind (saveRows memory (count + 1) rows)

def initNewCard (card : Nat → UInt8) (memory : Memory) : Option File :=
  saveRows memory 0 sdSave (.create card)

/-- What `sscanf` with `%[^:]` finds in the rest of `SDBuffer`. -/
def sscanf (str : List UInt8) : Option (List UInt8) :=
  let word := str.takeWhile fun c => c ≠ colon ∧ c ≠ 0
  if word.length < str.length then some word else none

/-- The loop of `located`. Its result is the place of the record with a name, if there is one. -/
def located (name : List UInt8) :
    List UInt8 → Nat → Option (List UInt8) → Option (Option Nat)
  | [], _, _ => some none
  | c :: str, index, nameStr =>
    if c = mark then
      (sscanf str).bind fun word =>
        if word.length < 20 then
          -- an empty word leaves `name_str` as it was
          (if word = [] then nameStr else some word).bind fun nameStr =>
            if nameStr = name then some (some index)
            else located name str (index + 1) (some nameStr)
        else none
    else located name str (index + 1) nameStr

/-- `rt_memcpy` of a `double` out of `SDBuffer`. -/
def loadFp64 (buffer : List UInt8) (start : Nat) : Option Fp64 :=
  if start + 8 ≤ buffer.length then some fun i => buffer.getD (start + i) 0 else none

/-- `ValueInit`. -/
def valueInit (file : File) (memory : Memory) (row : SDData) : Option Memory :=
  (located row.name file.sdBuffer 0 none).bind fun
    | none => some memory
    | some location =>
      (loadFp64 file.sdBuffer (location + 2 + row.name.length)).map fun value =>
        Function.update memory row.value value

/-- `ValueSave`. -/
def valueSave (file : File) (memory : Memory) (row : SDData) : Option File :=
  (located row.name file.sdBuffer 0 none).bind fun
    | none => some file
    | some location => switchSave (file.fLseek location) row memory

def initAllFromSD (file : File) (memory : Memory) : Option Memory :=
  sdSave.foldlM (valueInit file) memory

/-- The calibration is saved on a card, it changes, and it is read back. -/
def restored (card : Nat → UInt8) (saved changed : Memory) : Option Memory :=
  (initNewCard card saved).bind fun file => initAllFromSD file changed

end BadmintonRobot.Calibration
