import Mathlib
import BadmintonRobot.Calibration.Store

/-!
# What `InitNewCard` leaves on the card

The records lie at their places one behind the other. Names, values and the colons around them are
intact in every case; the end of a long text is overwritten by the records behind it. A character
`@` stands at the beginning of a record, among the bytes of a value, or where nothing was
written.
-/

namespace BadmintonRobot.Calibration

open Semantics Records

variable {memory saved : Memory} {card : Nat → UInt8} {row : SDData} {rows : List SDData}
  {count i k p : Nat} {file final : File}

/-- The record of a row. -/
def record (memory : Memory) (row : SDData) : List UInt8 :=
  mark :: (row.name ++ colon :: ((memory row.value).data ++
    colon :: ((memory row.value).text ++ ascii ";    \n")))

/-- Every text fits into the array in which it is printed. -/
def Fits (memory : Memory) : Prop :=
  ∀ row ∈ sdSave, (memory row.value).text.length ≤ 120

/-- The file after `InitNewCard`. -/
def contents (memory : Memory) (card : Nat → UInt8) : Nat → UInt8 :=
  layout 50 0 (sdSave.map (record memory)) card

section Saving

@[simp] theorem length_data (value : Fp64) : value.data.length = 8 := List.length_ofFn

theorem length_record (memory : Memory) (row : SDData) :
    (record memory row).length = row.name.length + (memory row.value).text.length + 17 := by
  have ending : (ascii ";    \n").length = 6 := by decide
  simp [record, ending]
  omega

theorem fWrite_fWrite (file : File) (front back : List UInt8) :
    (file.fWrite front).fWrite back = file.fWrite (front ++ back) := by
  simp only [File.fWrite, overlay_append, List.length_append, File.mk.injEq, true_and]
  omega

/-- The three writes of `Switch_Save` are one record. -/
theorem switchSave_eq (name : row.name.length ≤ 17) :
    switchSave file row memory =
      if (memory row.value).text.length ≤ 120 then some (file.fWrite (record memory row))
      else none := by
  have ending : (ascii ";    \n").length = 6 := by decide
  have head : (mark :: row.name ++ [colon]).length < 128 := by
    simp
    omega
  rw [switchSave, File.sdWrite, if_pos head, Option.bind_some, File.sdWrite]
  by_cases fits : (memory row.value).text.length ≤ 120
  · rw [if_pos fits, if_pos (by simp [ending]; omega), fWrite_fWrite, fWrite_fWrite]
    simp [record]
  · rw [if_neg fits, if_neg (by simp [ending]; omega)]

/-- Names are made of letters, digits and underscores. -/
theorem name_letters (member : row ∈ sdSave) :
    ∀ c ∈ row.name, c ≠ colon ∧ c ≠ 0 ∧ c ≠ mark := by
  have all : (sdSave.all fun row => row.name.all fun c => c != colon && c != 0 && c != mark) =
      true := by decide +kernel
  intro c letter
  have checked := List.all_eq_true.mp (List.all_eq_true.mp all row member) c letter
  simpa [and_assoc] using checked

theorem mark_not_mem_name (member : row ∈ sdSave) : mark ∉ row.name :=
  fun mem => (name_letters member mark mem).2.2 rfl

theorem name_lengths : sdSave.map (fun row => row.name.length) =
    [13, 13, 17, 17, 10, 15, 17, 17, 10, 15, 1, 17, 17, 10, 15] := by decide +kernel

theorem length_name_mem (member : row ∈ sdSave) :
    row.name.length ∈ [13, 13, 17, 17, 10, 15, 17, 17, 10, 15, 1, 17, 17, 10, 15] := by
  rw [← name_lengths]
  exact List.mem_map.mpr ⟨row, member, rfl⟩

theorem length_name (member : row ∈ sdSave) : row.name.length ≤ 17 := by
  have listed := length_name_mem member
  simp only [List.mem_cons, List.not_mem_nil, or_false] at listed
  omega

theorem name_ne_nil (member : row ∈ sdSave) : row.name ≠ [] := by
  intro empty
  have listed := length_name_mem member
  rw [empty] at listed
  exact absurd listed (by decide)

/-- The last four rows repeat earlier ones. -/
theorem mem_take_of_mem_drop (member : row ∈ sdSave.drop 11) : row ∈ sdSave.take 10 := by
  have same : sdSave.drop 11 = (sdSave.take 10).drop 6 := rfl
  rw [same] at member
  exact List.mem_of_mem_drop member

theorem saveRows_spec (names : ∀ row ∈ rows, row.name.length ≤ 17)
    (taken : saveRows memory count rows file = some final) :
    (∀ row ∈ rows, (memory row.value).text.length ≤ 120) ∧
      final.bytes = layout 50 (count * 50) (rows.map (record memory)) file.bytes ∧
      file.size ≤ final.size ∧ ∀ i < rows.length, (count + i) * 50 ≤ final.size := by
  induction rows generalizing count file with
  | nil =>
    cases taken
    exact ⟨nofun, rfl, le_rfl, nofun⟩
  | cons row rows ih =>
    rw [saveRows, switchSave_eq (names row List.mem_cons_self)] at taken
    split_ifs at taken with fits
    · rw [Option.bind_some] at taken
      obtain ⟨others, bytes, larger, further⟩ :=
        ih (fun other member => names other (List.mem_cons_of_mem row member)) taken
      have grown : max (max file.size (count * 50)) (count * 50 + (record memory row).length) ≤
          final.size := larger
      refine ⟨?_, ?_, by omega, ?_⟩
      · intro other member
        rcases List.mem_cons.mp member with rfl | member
        · exact fits
        · exact others other member
      · rw [bytes, Nat.succ_mul]
        rfl
      · intro i inside
        cases i with
        | zero => omega
        | succ i =>
          have place := further i (by simpa using inside)
          rwa [show count + (i + 1) = count + 1 + i by omega]
    · cases taken

theorem exists_saveRows (names : ∀ row ∈ rows, row.name.length ≤ 17)
    (fits : ∀ row ∈ rows, (memory row.value).text.length ≤ 120) (count : Nat) (file : File) :
    ∃ final, saveRows memory count rows file = some final := by
  induction rows generalizing count file with
  | nil => exact ⟨file, rfl⟩
  | cons row rows ih =>
    rw [saveRows, switchSave_eq (names row List.mem_cons_self),
      if_pos (fits row List.mem_cons_self), Option.bind_some]
    exact ih (fun other member => names other (List.mem_cons_of_mem row member))
      (fun other member => fits other (List.mem_cons_of_mem row member)) _ _

/-- What `InitNewCard` does if it does something definite. -/
theorem initNewCard_spec (taken : initNewCard card memory = some file) :
    Fits memory ∧ file.bytes = contents memory card ∧ 512 ≤ file.size := by
  obtain ⟨fits, bytes, -, size⟩ := saveRows_spec (fun _ => length_name) taken
  refine ⟨fits, ?_, le_trans (by decide) (size 14 (by decide))⟩
  rw [bytes, Nat.zero_mul]
  rfl

theorem exists_initNewCard (fits : Fits memory) (card : Nat → UInt8) :
    ∃ file, initNewCard card memory = some file :=
  exists_saveRows (fun _ => length_name) fits 0 _

end Saving

section Bytes

theorem toUInt8_ne_mark {c : Char} (digit : c.isDigit) : c.toUInt8 ≠ mark := by
  intro same
  have low : 48 ≤ c.toNat ∧ c.toNat ≤ 57 := Char.isDigit_iff_toNat.mp digit
  have byte : c.toNat % 256 = 64 := congrArg UInt8.toNat same
  omega

/-- The text of a number has no mark in it. -/
theorem mark_not_mem_text (value : Fp64) : mark ∉ value.text := by
  have digits : ∀ n, mark ∉ (Nat.toDigits 10 n).map Char.toUInt8 := by
    intro n member
    obtain ⟨c, digit, same⟩ := List.mem_map.mp member
    exact toUInt8_ne_mark (Nat.isDigit_of_mem_toDigits (by decide) le_rfl digit) same
  have sign : mark ∉ (if value.negative then ascii "-" else []) := by
    split_ifs <;> decide
  rw [Fp64.text, List.mem_append, not_or]
  refine ⟨sign, ?_⟩
  split_ifs
  · decide
  · decide
  · rw [List.mem_append, List.mem_append, not_or, not_or]
    refine ⟨⟨digits _, by decide⟩, fun member => ?_⟩
    rw [List.map_drop] at member
    exact digits _ (List.mem_of_mem_drop member)

/-- The bytes of a record that `located` reads, and those that `ValueInit` copies. -/
theorem record_name (k : Nat) (inside : k < row.name.length) :
    (record memory row)[1 + k]? = row.name[k]? := by
  rw [record, Nat.add_comm, List.getElem?_cons_succ, List.getElem?_append_left inside]

theorem record_colon : (record memory row)[1 + row.name.length]? = some colon := by
  rw [record, Nat.add_comm, List.getElem?_cons_succ, List.getElem?_append_right le_rfl]
  simp

theorem record_value (i : Fin 8) :
    (record memory row)[row.name.length + 2 + i]? = some (memory row.value i) := by
  have place : row.name.length + 2 + i = (row.name.length + (i + 1)) + 1 := by omega
  rw [record, place, List.getElem?_cons_succ, List.getElem?_append_right (by omega),
    Nat.add_sub_cancel_left, List.getElem?_cons_succ, List.getElem?_append_left (by simp),
    Fp64.data, List.getElem?_ofFn, dif_pos i.isLt]

theorem record_separator : (record memory row)[row.name.length + 10]? = some colon := by
  have place : row.name.length + 10 = (row.name.length + (8 + 1)) + 1 := by omega
  rw [record, place, List.getElem?_cons_succ, List.getElem?_append_right (by omega),
    Nat.add_sub_cancel_left, List.getElem?_cons_succ,
    List.getElem?_append_right (by simp)]
  simp

/-- Where a record has a mark. -/
theorem record_mark (name : mark ∉ row.name) (here : (record memory row)[k]? = some mark) :
    k = 0 ∨ row.name.length + 2 ≤ k ∧ k < row.name.length + 10 := by
  have split : record memory row = mark :: (row.name ++ [colon] ++ ((memory row.value).data ++
      (colon :: ((memory row.value).text ++ ascii ";    \n")))) := by
    simp [record]
  cases k with
  | zero => exact .inl rfl
  | succ k =>
    refine .inr ?_
    rw [split, List.getElem?_cons_succ] at here
    by_cases front : k < (row.name ++ [colon]).length
    · -- neither in the name nor at the colon behind it
      rw [List.getElem?_append_left front] at here
      rcases List.mem_append.mp (List.mem_of_getElem? here) with inName | last
      · exact absurd inName name
      · exact absurd last (by decide)
    · rw [List.getElem?_append_right (by omega)] at here
      have long : (row.name ++ [colon]).length = row.name.length + 1 := by simp
      by_cases inside : k - (row.name ++ [colon]).length < 8
      · omega
      · rw [List.getElem?_append_right (by simpa using inside)] at here
        rcases List.mem_cons.mp (List.mem_of_getElem? here) with first | behind
        · exact absurd first (by decide)
        · rcases List.mem_append.mp behind with inText | last
          · exact absurd inText (mark_not_mem_text _)
          · exact absurd last (by decide)

/-- A record is intact up to the place of the next one. -/
theorem contents_inside {byte : UInt8} (member : sdSave[i]? = some row)
    (present : (record memory row)[k]? = some byte) (own : k < 50) :
    contents memory card (i * 50 + k) = byte := by
  have written : (sdSave.map (record memory))[i]? = some (record memory row) := by
    rw [List.getElem?_map, member]
    rfl
  have stored : layout 50 0 (sdSave.map (record memory)) card (0 + i * 50 + k) = byte :=
    layout_inside written present own
  rwa [Nat.zero_add] at stored

theorem contents_begin (member : sdSave[i]? = some row) :
    contents memory card (i * 50) = mark := by
  have first : (record memory row)[0]? = some mark := rfl
  rw [← Nat.add_zero (i * 50), contents_inside member first (by decide)]

theorem contents_name (member : sdSave[i]? = some row) (inside : k < row.name.length) :
    contents memory card (i * 50 + (1 + k)) = row.name[k] := by
  have short := length_name (List.mem_of_getElem? member)
  have letter := List.getElem?_eq_getElem inside
  exact contents_inside member ((record_name k inside).trans letter) (by omega)

theorem contents_colon (member : sdSave[i]? = some row) :
    contents memory card (i * 50 + (1 + row.name.length)) = colon := by
  have short := length_name (List.mem_of_getElem? member)
  exact contents_inside member record_colon (by omega)

theorem contents_value (member : sdSave[i]? = some row) (k : Fin 8) :
    contents memory card (i * 50 + (row.name.length + 2 + k)) = memory row.value k := by
  have short := length_name (List.mem_of_getElem? member)
  exact contents_inside member (record_value k) (by omega)

theorem contents_separator (member : sdSave[i]? = some row) :
    contents memory card (i * 50 + (row.name.length + 10)) = colon := by
  have short := length_name (List.mem_of_getElem? member)
  exact contents_inside member record_separator (by omega)

/-- No record reaches a place. -/
def Unwritten (memory : Memory) (p : Nat) : Prop :=
  ∀ i row, sdSave[i]? = some row → p < i * 50 ∨ i * 50 + (record memory row).length ≤ p

theorem contents_unwritten (unwritten : Unwritten memory p) : contents memory card p = card p := by
  refine layout_outside fun i piece member => ?_
  rw [List.getElem?_map, Option.map_eq_some_iff] at member
  obtain ⟨row, here, rfl⟩ := member
  rw [Nat.zero_add]
  exact unwritten i row here

/-- Where the file has a mark. -/
theorem contents_mark (here : contents memory card p = mark) :
    (∃ i row, sdSave[i]? = some row ∧ (p = i * 50 ∨
      i * 50 + row.name.length + 2 ≤ p ∧ p < i * 50 + row.name.length + 10)) ∨
    card p = mark ∧ Unwritten memory p := by
  rcases layout_cases 50 0 (sdSave.map (record memory)) card p with
    ⟨i, piece, k, member, place, present⟩ | ⟨same, outside⟩
  · rw [List.getElem?_map, Option.map_eq_some_iff] at member
    obtain ⟨row, written, rfl⟩ := member
    refine .inl ⟨i, row, written, ?_⟩
    have letters : mark ∉ row.name := mark_not_mem_name (List.mem_of_getElem? written)
    have mark_at := record_mark letters (present.trans (congrArg some here))
    omega
  · refine .inr ⟨same.symm.trans here, fun i row written => ?_⟩
    have place := outside i (record memory row) (by rw [List.getElem?_map, written]; rfl)
    rwa [Nat.zero_add] at place

/-- The part of a file that is searched. -/
def window (bytes : Nat → UInt8) : List UInt8 := (List.range 512).map bytes

@[simp] theorem length_window (bytes : Nat → UInt8) : (window bytes).length = 512 := by
  rw [window, List.length_map, List.length_range]

theorem getElem?_window {bytes : Nat → UInt8} (inside : p < 512) :
    (window bytes)[p]? = some (bytes p) := by
  rw [window, List.getElem?_map, List.getElem?_range inside]
  rfl

theorem sdBuffer_window (size : 512 ≤ file.size) : file.sdBuffer = window file.bytes := by
  rw [File.sdBuffer, window]
  refine List.map_congr_left fun p member => ?_
  have inside := List.mem_range.mp member
  rw [if_pos (by omega)]

/-- The bytes that `ValueInit` reads. -/
def image (memory : Memory) (card : Nat → UInt8) : List UInt8 :=
  (List.range 512).map (contents memory card)

@[simp] theorem length_image (memory : Memory) (card : Nat → UInt8) :
    (image memory card).length = 512 :=
  length_window _

theorem getElem?_image (inside : p < 512) :
    (image memory card)[p]? = some (contents memory card p) :=
  getElem?_window inside

/-- The mark of a record. -/
theorem image_mark (memory : Memory) (card : Nat → UInt8) (member : sdSave[i]? = some row)
    (inside : i * 50 < 512) : (image memory card)[i * 50]? = some mark := by
  rw [getElem?_image inside, contents_begin member]

theorem sdBuffer_eq (bytes : file.bytes = contents memory card) (size : 512 ≤ file.size) :
    file.sdBuffer = image memory card := by
  rw [sdBuffer_window size, bytes]
  rfl

end Bytes

end BadmintonRobot.Calibration
