import Mathlib
import BadmintonRobot.Calibration.Layout
import BadmintonRobot.Calibration.Search

/-!
# Saving and restoring the calibration

`InitAllFromSD` restores what `InitNewCard` has saved of the gyroscope and of `Encoder[0]`, for all
values whose texts fit into the print buffer. The rows `Encoder2_*` of the table point to
`Encoder[0]`, so nothing of `Encoder[1]` is saved or restored. The bytes between the records are not
written: a mark among them can make `located` read a word that is longer than `name_str`.
-/

namespace BadmintonRobot.Calibration

open Semantics Records

variable {saved changed memory : Memory} {card : Nat → UInt8} {row next : SDData} {file : File}
  {i p : Nat}

section Names

theorem names_nodup : ((sdSave.take 10).map SDData.name).Nodup := by decide +kernel

/-- The first ten rows have different names. -/
theorem name_inj {other : SDData} {j : Nat} (here : sdSave[i]? = some row)
    (there : sdSave[j]? = some other) (first : i < 10) (second : j < 10)
    (same : row.name = other.name) : i = j := by
  refine (List.getElem?_inj (by exact first) names_nodup).mp ?_
  rw [List.getElem?_map, List.getElem?_map, List.getElem?_take_of_lt first,
    List.getElem?_take_of_lt second, here, there]
  exact congrArg some same

theorem getD_name_lengths (here : sdSave[i]? = some row) :
    [13, 13, 17, 17, 10, 15, 17, 17, 10, 15, 1, 17, 17, 10, 15].getD i 0 = row.name.length := by
  rw [← name_lengths, List.getD_eq_getElem?_getD, List.getElem?_map, here]
  rfl

theorem long_name (here : sdSave[i]? = some row) (first : i < 10) : 10 ≤ row.name.length := by
  rw [← getD_name_lengths here]
  clear here
  revert i
  decide

theorem exists_row (inside : i < 15) : ∃ row, sdSave[i]? = some row :=
  ⟨_, List.getElem?_eq_getElem inside⟩

end Names

section Words

/-- The word behind the mark of a record. -/
theorem word_head (saved : Memory) (card : Nat → UInt8) (member : sdSave[i]? = some row)
    (inside : i * 50 + row.name.length + 1 < 512) :
    sscanf ((image saved card).drop (i * 50 + 1)) = some row.name := by
  have known := List.mem_of_getElem? member
  have short := length_name known
  apply sscanf_name
  · intro c letter
    exact ⟨(name_letters known c letter).1, (name_letters known c letter).2.1⟩
  · intro k bound
    rw [List.getElem?_drop, getElem?_image (by omega), List.getElem?_eq_getElem bound,
      Nat.add_assoc, contents_name member bound]
  · rw [List.getElem?_drop, getElem?_image (by omega), Nat.add_assoc, contents_colon member]

/-- The word behind a mark among the bytes of a value. -/
theorem word_value (member : sdSave[i]? = some row) (inside : i * 50 + row.name.length + 10 < 512)
    (low : i * 50 + row.name.length + 2 ≤ p) (high : p < i * 50 + row.name.length + 10) :
    ∃ word, sscanf ((image saved card).drop (p + 1)) = some word ∧ word.length ≤ 7 := by
  have ends : ((image saved card).drop (p + 1))[i * 50 + (row.name.length + 10) - (p + 1)]? =
      some colon := by
    rw [List.getElem?_drop, Nat.add_sub_cancel' (by omega), getElem?_image (by omega),
      contents_separator member]
  obtain ⟨word, scanned, bound, -⟩ := sscanf_short ends (.inl rfl)
  exact ⟨word, scanned, by omega⟩

/-- The word behind a mark before a record. If it reaches the record, the mark of the record is part
of it. -/
theorem word_gap (saved : Memory) (card : Nat → UInt8) (member : sdSave[i + 1]? = some next)
    (inside : (i + 1) * 50 + next.name.length + 1 < 512) (before : p < (i + 1) * 50) :
    ∃ word, sscanf ((image saved card).drop (p + 1)) = some word ∧
      p + word.length ≤ (i + 1) * 50 + next.name.length ∧
      ((i + 1) * 50 ≤ p + word.length → mark ∈ word) := by
  have short := length_name (List.mem_of_getElem? member)
  have ends : ((image saved card).drop (p + 1))[(i + 1) * 50 + (1 + next.name.length) - (p + 1)]? =
      some colon := by
    rw [List.getElem?_drop, Nat.add_sub_cancel' (by omega), getElem?_image (by omega),
      contents_colon member]
  obtain ⟨word, scanned, bound, agrees⟩ := sscanf_short ends (.inl rfl)
  refine ⟨word, scanned, by omega, fun reaches => ?_⟩
  have letter := agrees ((i + 1) * 50 - (p + 1)) (by omega)
  rw [List.getElem?_drop, Nat.add_sub_cancel' (by omega), getElem?_image (by omega),
    contents_begin member] at letter
  exact List.mem_of_getElem? letter.symm

end Words

/-- A mark of the card that was not overwritten is so near to the next record that the word behind
it fits into `name_str`. -/
def Harmless (saved : Memory) (card : Nat → UInt8) : Prop :=
  ∀ i (next : SDData) p, i < 9 → sdSave[i + 1]? = some next → i * 50 ≤ p → p < (i + 1) * 50 →
    Unwritten saved p → card p = mark → (i + 1) * 50 + next.name.length ≤ p + 19

/-- The records leave so little room before each of the first ten that every mark there is harmless. -/
def Narrow (saved : Memory) : Prop :=
  ∀ i (next : SDData), i < 9 → sdSave[i + 1]? = some next → ∃ j row, j ≤ i ∧ sdSave[j]? = some row ∧
    (i + 1) * 50 + next.name.length ≤ j * 50 + (record saved row).length + 19

theorem Narrow.harmless (narrow : Narrow saved) (card : Nat → UInt8) : Harmless saved card := by
  intro i next p first member low high unwritten marked
  obtain ⟨j, row, before, written, reaches⟩ := narrow i next first member
  have place := unwritten j row written
  omega

theorem harmless_of_clean (clean : ∀ p, card p ≠ mark) : Harmless saved card :=
  fun _ _ p _ _ _ _ _ marked => absurd marked (clean p)

section Passing

/-- A mark before a record does not end the search for it, if the marks of the card do not. -/
theorem passes_mark (member : sdSave[i]? = some row) (first : i < 10) (before : p < i * 50)
    (here : contents saved card p = mark)
    (gap : card p = mark → Unwritten saved p → Passes row.name (image saved card) p) :
    Passes row.name (image saved card) p := by
  have long := long_name member first
  rcases contents_mark here with ⟨j, other, written, rfl | ⟨low, high⟩⟩ | ⟨marked, unwritten⟩
  · have short := length_name (List.mem_of_getElem? written)
    refine ⟨other.name, word_head saved card written (by omega), by omega, fun same => ?_⟩
    have equal := name_inj written member (by omega) first same
    omega
  · have known := length_name (List.mem_of_getElem? written)
    obtain ⟨word, scanned, short⟩ := word_value written (by omega) low high
    refine ⟨word, scanned, by omega, ?_⟩
    rintro rfl
    omega
  · exact gap marked unwritten

theorem passes_of_harmless (harmless : Harmless saved card) (member : sdSave[i]? = some row)
    (first : i < 10) (before : p < i * 50) (here : contents saved card p = mark) :
    Passes row.name (image saved card) p := by
  refine passes_mark member first before here fun marked unwritten => ?_
  obtain ⟨next, follows⟩ := exists_row (i := p / 50 + 1) (by omega)
  have short := length_name (List.mem_of_getElem? follows)
  have long := long_name follows (by omega)
  have near := harmless (p / 50) next p (by omega) follows (by omega) (by omega) unwritten marked
  obtain ⟨word, scanned, bound, reaches⟩ :=
    word_gap saved card (p := p) follows (by omega) (by omega)
  refine ⟨word, scanned, by omega, ?_⟩
  rintro rfl
  -- the name is longer than what is left before the record
  have name := long_name member first
  exact mark_not_mem_name (List.mem_of_getElem? member) (reaches (by omega))

/-- All words before the row `d` are short. -/
theorem words_of_harmless (harmless : Harmless saved card) (before : p < 500)
    (here : contents saved card p = mark) :
    ∃ word, sscanf ((image saved card).drop (p + 1)) = some word ∧ word.length < 20 := by
  rcases contents_mark here with ⟨j, other, written, rfl | ⟨low, high⟩⟩ | ⟨marked, unwritten⟩
  · have short := length_name (List.mem_of_getElem? written)
    exact ⟨other.name, word_head saved card written (by omega), by omega⟩
  · have known := length_name (List.mem_of_getElem? written)
    obtain ⟨word, scanned, short⟩ := word_value written (by omega) low high
    exact ⟨word, scanned, by omega⟩
  · by_cases last : p < 450
    · obtain ⟨next, follows⟩ := exists_row (i := p / 50 + 1) (by omega)
      have short := length_name (List.mem_of_getElem? follows)
      obtain ⟨word, scanned, bound, -⟩ :=
        word_gap saved card (p := p) follows (by omega) (by omega)
      have near := harmless (p / 50) next p (by omega) follows (by omega) (by omega) unwritten marked
      exact ⟨word, scanned, by omega⟩
    · -- the record before `d` is long enough
      have follows : sdSave[9 + 1]? = some ⟨ascii "d", .encoderRadian 0⟩ := rfl
      obtain ⟨word, scanned, bound, -⟩ :=
        word_gap saved card (p := p) follows (by decide) (by omega)
      have place := unwritten 9 ⟨ascii "Encoder2_radian", .encoderRadian 0⟩ rfl
      have name : (ascii "Encoder2_radian").length = 15 := by decide
      have one : (ascii "d").length = 1 := by decide
      rw [length_record] at place
      dsimp only at place bound
      exact ⟨word, scanned, by omega⟩

end Passing

section Restoring

/-- The search begins with the record of the first row. -/
theorem located_start {name : List UInt8} (other : name ≠ ascii "Gyro_convert1") :
    located name (image saved card) 0 none =
      located name ((image saved card).drop 1) 1 (some (ascii "Gyro_convert1")) := by
  have member : sdSave[0]? = some ⟨ascii "Gyro_convert1", .gyroConvert1⟩ := rfl
  have here := image_mark saved card member (by decide)
  have scanned := word_head saved card member (by decide)
  rw [Nat.zero_mul] at here scanned
  have split := drop_eq_cons here
  rw [List.drop_zero] at split
  conv_lhs => rw [split, located, if_pos rfl, scanned, Option.bind_some]
  rw [if_pos (by decide), if_neg (by decide), Option.bind_some, if_neg other.symm]

/-- Each of the first ten rows is found at its place. -/
theorem located_row (harmless : Harmless saved card) (member : sdSave[i]? = some row)
    (first : i < 10) :
    located row.name (image saved card) 0 none = some (some (i * 50)) := by
  have short := length_name (List.mem_of_getElem? member)
  have long := long_name member first
  have here := image_mark saved card member (by omega)
  have scanned := word_head saved card member (by omega)
  have nonempty : row.name ≠ [] := by
    rintro empty
    simp [empty] at long
  cases i with
  | zero =>
    rw [Nat.zero_mul] at here scanned ⊢
    have found : located row.name ((image saved card).drop 0) 0 none = some (some 0) :=
      located_here here scanned (by omega) nonempty
    rwa [List.drop_zero] at found
  | succ i =>
    have zeroth : sdSave[0]? = some ⟨ascii "Gyro_convert1", .gyroConvert1⟩ := rfl
    have other : row.name ≠ ascii "Gyro_convert1" := fun same =>
      absurd (name_inj member zeroth first (by decide) same) (by omega)
    have passes : ∀ p, 1 ≤ p → p < (i + 1) * 50 → (image saved card)[p]? = some mark →
        Passes row.name (image saved card) p := by
      intro p _ before marked
      rw [getElem?_image (by omega), Option.some.injEq] at marked
      exact passes_of_harmless harmless member first before marked
    obtain ⟨later, -, reached⟩ := located_pass (by omega) (by simp; omega) passes other.symm
    rw [located_start other, reached]
    exact located_here here scanned (by omega) nonempty

/-- The row `d` is found somewhere. -/
theorem located_d (harmless : Harmless saved card) :
    ∃ r ≤ 500, located (ascii "d") (image saved card) 0 none = some (some r) := by
  have member : sdSave[10]? = some ⟨ascii "d", .encoderRadian 0⟩ := rfl
  have here := image_mark saved card member (by decide)
  have scanned := word_head saved card member (by decide)
  rw [located_start (by decide)]
  refine located_by (by decide) here scanned (by decide) (by decide) ?_ _
  intro p _ before marked
  rw [getElem?_image (by omega), Option.some.injEq] at marked
  exact words_of_harmless harmless before marked

/-- A file that `InitNewCard` has written. -/
structure Holds (file : File) (saved : Memory) (card : Nat → UInt8) : Prop where
  bytes : file.bytes = contents saved card
  size : 512 ≤ file.size

theorem valueInit_row (holds : Holds file saved card) (harmless : Harmless saved card)
    (member : sdSave[i]? = some row) (first : i < 10) (memory : Memory) :
    valueInit file memory row = some (Function.update memory row.value (saved row.value)) := by
  have short := length_name (List.mem_of_getElem? member)
  have loaded : loadFp64 (image saved card) (i * 50 + 2 + row.name.length) =
      some (saved row.value) := by
    rw [loadFp64, if_pos (by simp; omega), Option.some.injEq]
    funext k
    have place : i * 50 + 2 + row.name.length + k = i * 50 + (row.name.length + 2 + k) := by omega
    rw [List.getD_eq_getElem?_getD, getElem?_image (by omega), place, contents_value member]
    rfl
  rw [valueInit, sdBuffer_eq holds.bytes holds.size, located_row harmless member first,
    Option.bind_some]
  dsimp only
  rw [loaded]
  rfl

theorem valueInit_d (holds : Holds file saved card) (harmless : Harmless saved card)
    (memory : Memory) :
    ∃ value, valueInit file memory ⟨ascii "d", .encoderRadian 0⟩ =
      some (Function.update memory (.encoderRadian 0) value) := by
  obtain ⟨r, bound, found⟩ := located_d harmless
  have one : (ascii "d").length = 1 := by decide
  refine ⟨fun k => (image saved card).getD (r + 2 + (ascii "d").length + k) 0, ?_⟩
  rw [valueInit, sdBuffer_eq holds.bytes holds.size]
  dsimp only
  rw [found, Option.bind_some]
  dsimp only
  rw [loadFp64, if_pos (by simp [one]; omega)]
  rfl

end Restoring

section Table

/-- Rows that are all restored. -/
theorem foldlM_valueInit {rows : List SDData}
    (restores : ∀ row ∈ rows, ∀ memory,
      valueInit file memory row = some (Function.update memory row.value (saved row.value)))
    (memory : Memory) :
    rows.foldlM (valueInit file) memory = some fun field =>
      if field ∈ rows.map SDData.value then saved field else memory field := by
  induction rows generalizing memory with
  | nil => simp
  | cons row rows ih =>
    rw [List.foldlM_cons, restores row List.mem_cons_self, Option.bind_eq_bind, Option.bind_some,
      ih fun other member => restores other (List.mem_cons_of_mem row member)]
    congr 1
    funext field
    by_cases here : field = row.value
    · simp [here]
    · simp [here]

/-- What is restored of the whole table. -/
theorem initAllFromSD_eq (holds : Holds file saved card) (harmless : Harmless saved card)
    (changed : Memory) :
    initAllFromSD file changed = some fun field =>
      if field ∈ sdSave.map SDData.value then saved field else changed field := by
  have first : ∀ row ∈ sdSave.take 10, ∀ memory,
      valueInit file memory row = some (Function.update memory row.value (saved row.value)) := by
    intro row member memory
    obtain ⟨i, here⟩ := List.mem_iff_getElem?.mp member
    have inside : i < 10 := by
      have bound := (List.getElem?_eq_some_iff.mp here).1
      simp at bound
      omega
    rw [List.getElem?_take_of_lt inside] at here
    exact valueInit_row holds harmless here inside memory
  have whole : initAllFromSD file changed =
      (sdSave.take 10 ++ ⟨ascii "d", .encoderRadian 0⟩ :: sdSave.drop 11).foldlM (valueInit file)
        changed := rfl
  have covers : ∀ field ∈ sdSave.map SDData.value,
      field ∈ (sdSave.take 10).map SDData.value := by decide
  have rewrites : Field.encoderRadian 0 ∈ (sdSave.drop 11).map SDData.value := by decide
  rw [whole, List.foldlM_append, foldlM_valueInit first, Option.bind_eq_bind, Option.bind_some,
    List.foldlM_cons]
  obtain ⟨value, read⟩ := valueInit_d holds harmless
    (fun field => if field ∈ (sdSave.take 10).map SDData.value then saved field else changed field)
  rw [read, Option.bind_eq_bind, Option.bind_some,
    foldlM_valueInit fun row member => first row (mem_take_of_mem_drop member)]
  refine congrArg some (funext fun field => ?_)
  by_cases late : field ∈ (sdSave.drop 11).map SDData.value
  · rw [if_pos late, if_pos]
    exact List.map_subset _ (List.drop_subset 11 sdSave) late
  · -- what the row `d` has stored is written again by the last rows
    have other : field ≠ .encoderRadian 0 := by
      rintro rfl
      exact late rewrites
    rw [if_neg late, Function.update_of_ne other]
    by_cases early : field ∈ (sdSave.take 10).map SDData.value
    · rw [if_pos early, if_pos (List.map_subset _ (List.take_subset 10 sdSave) early)]
    · rw [if_neg early, if_neg (mt (covers field) early)]

end Table

/-- The calibration of the second encoder, `Encoder[1]`. -/
def Field.OfEncoder2 : Field → Prop
  | .gyroConvert1 | .gyroConvert2 => False
  | .encoderConvert1 number | .encoderConvert2 number | .encoderR number
  | .encoderRadian number => number = 1

instance : DecidablePred Field.OfEncoder2
  | .gyroConvert1 | .gyroConvert2 => .isFalse id
  | .encoderConvert1 number | .encoderConvert2 number | .encoderR number
  | .encoderRadian number => decEq number 1

/-- The fields that no row of the table points to. -/
theorem not_mem_sdSave_iff (field : Field) :
    field ∉ sdSave.map SDData.value ↔ field.OfEncoder2 := by
  cases field with
  | gyroConvert1 => decide
  | gyroConvert2 => decide
  | encoderConvert1 number => revert number; decide
  | encoderConvert2 number => revert number; decide
  | encoderR number => revert number; decide
  | encoderRadian number => revert number; decide

/-- What comes back from a card on which no mark does harm. -/
theorem restored_eq (fits : Fits saved) (harmless : Harmless saved card) (changed : Memory) :
    restored card saved changed = some fun field =>
      if field ∈ sdSave.map SDData.value then saved field else changed field := by
  obtain ⟨file, written⟩ := exists_initNewCard fits card
  obtain ⟨-, bytes, size⟩ := initNewCard_spec written
  rw [restored, written, Option.bind_some]
  exact initAllFromSD_eq ⟨bytes, size⟩ harmless changed

theorem restored_iff (fits : Fits saved) (harmless : Harmless saved card) :
    restored card saved changed = some saved ↔
      ∀ field : Field, field.OfEncoder2 → changed field = saved field := by
  rw [restored_eq fits harmless, Option.some.injEq, funext_iff]
  refine forall_congr' fun field => ?_
  rw [← not_mem_sdSave_iff]
  split_ifs with present
  · exact ⟨fun _ absent => absurd present absent, fun _ => rfl⟩
  · exact ⟨fun same _ => same, fun same => same present⟩

theorem fits_of_restored {after : Memory} (back : restored card saved changed = some after) :
    Fits saved := by
  obtain ⟨file, written, -⟩ := Option.bind_eq_some_iff.mp back
  exact (initNewCard_spec written).1

section Wide

/-- A card with a single mark on it. -/
def oneMark (q : Nat) : Nat → UInt8 := fun p => if p = q then mark else 120

/-- The mark is not overwritten, and the word behind it goes on through the name of the next
record. -/
theorem word_oneMark (first : i < 9) (member : sdSave[i + 1]? = some next) {q : Nat}
    (place : q + 20 = (i + 1) * 50 + next.name.length)
    (wide : ∀ j row, j ≤ i → sdSave[j]? = some row → j * 50 + (record saved row).length ≤ q) :
    (image saved (oneMark q))[q]? = some mark ∧
      ∃ word, sscanf ((image saved (oneMark q)).drop (q + 1)) = some word ∧ word.length = 20 := by
  have known := List.mem_of_getElem? member
  have short := length_name known
  have unwritten : ∀ p, q ≤ p → p < (i + 1) * 50 → Unwritten saved p := by
    intro p low high j row written
    by_cases before : j ≤ i
    · have reaches := wide j row before written
      omega
    · refine .inl ?_
      have : (i + 1) * 50 ≤ j * 50 := Nat.mul_le_mul_right 50 (by omega)
      omega
  constructor
  · rw [getElem?_image (by omega), contents_unwritten (unwritten q le_rfl (by omega)), oneMark,
      if_pos rfl]
  · set str := (image saved (oneMark q)).drop (q + 1) with rest
    have bytes : ∀ k < 21, str[k]? = some (contents saved (oneMark q) (q + 1 + k)) := by
      intro k bound
      rw [rest, List.getElem?_drop, getElem?_image (by omega)]
    have length : (str.take 20).length = 20 := by
      have last := (List.getElem?_eq_some_iff.mp (bytes 20 (by decide))).1
      rw [List.length_take]
      omega
    refine ⟨str.take 20, sscanf_name ?_ ?_ ?_, length⟩
    · intro c letter
      obtain ⟨k, here⟩ := List.mem_iff_getElem?.mp letter
      have bound : k < 20 := length ▸ (List.getElem?_eq_some_iff.mp here).1
      rw [List.getElem?_take_of_lt bound, bytes k (by omega), Option.some.injEq] at here
      subst here
      rcases Nat.lt_trichotomy (q + 1 + k) ((i + 1) * 50) with before | same | behind
      · rw [contents_unwritten (unwritten _ (by omega) before), oneMark, if_neg (by omega)]
        decide
      · rw [same, contents_begin member]
        decide
      · obtain ⟨m, rest⟩ := Nat.exists_eq_add_of_lt behind
        have inside : m < next.name.length := by omega
        rw [rest, Nat.add_assoc, Nat.add_comm m 1, contents_name member inside]
        have letters := name_letters known _ (List.getElem_mem inside)
        exact ⟨letters.1, letters.2.1⟩
    · intro k bound
      rw [List.getElem?_take_of_lt (by omega)]
    · rw [length, bytes 20 (by decide), show q + 1 + 20 = (i + 1) * 50 + (1 + next.name.length) by
        omega, contents_colon member]

/-- The search for `Encoder2_radian` meets the mark. -/
theorem located_oneMark (first : i < 9) (member : sdSave[i + 1]? = some next) {q : Nat}
    (place : q + 20 = (i + 1) * 50 + next.name.length)
    (wide : ∀ j row, j ≤ i → sdSave[j]? = some row → j * 50 + (record saved row).length ≤ q) :
    located (ascii "Encoder2_radian") (image saved (oneMark q)) 0 none = none := by
  have short := length_name (List.mem_of_getElem? member)
  have last : sdSave[9]? = some ⟨ascii "Encoder2_radian", .encoderRadian 0⟩ := rfl
  obtain ⟨here, word, scanned, long⟩ := word_oneMark first member place wide
  have begins := wide 0 _ (Nat.zero_le i) rfl
  rw [length_record] at begins
  have passes : ∀ p, 1 ≤ p → p < q → (image saved (oneMark q))[p]? = some mark →
      Passes (ascii "Encoder2_radian") (image saved (oneMark q)) p := by
    intro p _ before marked
    rw [getElem?_image (by omega), Option.some.injEq] at marked
    refine passes_mark last (by decide) (by omega) marked fun single _ => ?_
    rw [oneMark, if_neg (by omega)] at single
    exact absurd single (by decide)
  obtain ⟨later, -, reached⟩ := located_pass (by omega) (by simp; omega) passes
    (by decide : ascii "Gyro_convert1" ≠ ascii "Encoder2_radian")
  rw [located_start (by decide), reached]
  exact located_overrun here scanned long.ge

/-- If the gap before a record is wide, there is a card on which the search for `Encoder2_radian`
overruns `name_str`. -/
theorem narrow_of_located
    (found : ∀ card, located (ascii "Encoder2_radian") (image saved card) 0 none ≠ none) :
    Narrow saved := by
  intro i next first member
  by_contra apart
  simp only [not_exists, not_and, not_le] at apart
  have short := length_name (List.mem_of_getElem? member)
  have here := apart 0 _ (Nat.zero_le i) rfl
  obtain ⟨q, place⟩ : ∃ q, q + 20 = (i + 1) * 50 + next.name.length :=
    ⟨(i + 1) * 50 + next.name.length - 20, by omega⟩
  refine found (oneMark q) (located_oneMark first member place fun j row before written => ?_)
  have room := apart j row before written
  omega

/-- Then nothing comes back from the card. -/
theorem narrow_of_restored (back : ∀ card, restored card saved changed = some saved) :
    Narrow saved := by
  refine narrow_of_located fun card lost => ?_
  obtain ⟨file, written, read⟩ := Option.bind_eq_some_iff.mp (back card)
  obtain ⟨-, bytes, size⟩ := initNewCard_spec written
  have undefined : ∀ memory,
      valueInit file memory ⟨ascii "Encoder2_radian", .encoderRadian 0⟩ = none := by
    intro memory
    rw [valueInit, sdBuffer_eq bytes size]
    dsimp only
    rw [lost]
    rfl
  have whole : initAllFromSD file changed =
      (sdSave.take 9 ++ ⟨ascii "Encoder2_radian", .encoderRadian 0⟩ :: sdSave.drop 10).foldlM
        (valueInit file) changed := rfl
  rw [whole, List.foldlM_append, Option.bind_eq_bind] at read
  obtain ⟨memory, -, rest⟩ := Option.bind_eq_some_iff.mp read
  rw [List.foldlM_cons, undefined] at rest
  cases rest

end Wide

/-- The round trip. On a card whose old bytes are arbitrary, and on one that has no mark in
them. -/
theorem round_trip_iff (saved changed : Memory) :
    ((∀ card, restored card saved changed = some saved) ↔
      (∀ field : Field, field.OfEncoder2 → changed field = saved field) ∧ Fits saved ∧
        Narrow saved) ∧
    ∀ card, (∀ p, card p ≠ mark) →
      (restored card saved changed = some saved ↔
        (∀ field : Field, field.OfEncoder2 → changed field = saved field) ∧ Fits saved) := by
  constructor
  · constructor
    · intro back
      have fits := fits_of_restored (back (oneMark 0))
      have narrow := narrow_of_restored back
      exact ⟨(restored_iff fits (narrow.harmless (oneMark 0))).mp (back _), fits, narrow⟩
    · rintro ⟨same, fits, narrow⟩ card
      exact (restored_iff fits (narrow.harmless card)).mpr same
  · intro card clean
    constructor
    · intro back
      have fits := fits_of_restored back
      exact ⟨(restored_iff fits (harmless_of_clean clean)).mp back, fits⟩
    · rintro ⟨same, fits⟩
      exact (restored_iff fits (harmless_of_clean clean)).mpr same

/-- The text of a number that is finite and not negative. -/
theorem length_text {value : Fp64} {amount : Nat} (sign : value.negative = false)
    (finite : value.exponent ≠ 2047) (millionths : value.millionths = amount) :
    value.text.length = (Nat.toDigits 10 (amount / 10 ^ 6)).length +
      (Nat.toDigits 10 (10 ^ 6 + amount % 10 ^ 6)).length := by
  have point : (ascii ".").length = 1 := by decide
  -- the point takes the place of the digit that is dropped
  have digits : 0 < (Nat.toDigits 10 (10 ^ 6 + amount % 10 ^ 6)).length := Nat.length_toDigits_pos
  rw [Fp64.text, sign, if_neg finite, millionths]
  simp only [Bool.false_eq_true, if_false, List.nil_append, List.length_append, List.length_map,
    List.length_drop, point]
  omega

/-- The number `10000000000000.0`, whose text fills the records. -/
def large : Fp64 := fun i => [0x00, 0x00, 0x40, 0xe5, 0x9c, 0x30, 0xa2, 0x42].getD i 0

theorem length_text_large : large.text.length = 21 := by
  have amount : large.millionths = 10 ^ 19 := by decide +kernel
  rw [length_text (by decide +kernel) (by decide +kernel) amount]
  decide +kernel

theorem narrow_large : Narrow fun _ => large := by
  intro i next first member
  obtain ⟨row, here⟩ := exists_row (i := i) (by omega)
  have close : next.name.length ≤ row.name.length + 7 := by
    rw [← getD_name_lengths here, ← getD_name_lengths member]
    clear here member
    revert i
    decide
  refine ⟨i, row, le_rfl, here, ?_⟩
  rw [length_record, length_text_large]
  omega

theorem fits_large : Fits fun _ => large := by
  intro row _
  rw [length_text_large]
  decide

theorem round_trip_iff_large :
    ∀ card, restored card (fun _ => large)
      (Function.update (fun _ => large) .gyroConvert1 fun _ => 0) = some fun _ => large := by
  refine (round_trip_iff _ _).1.mpr ⟨fun field second => ?_, fits_large, narrow_large⟩
  refine Function.update_of_ne ?_ _ _
  rintro rfl
  exact second

/-- The number zero. -/
def zero : Fp64 := fun _ => 0

theorem length_text_zero : zero.text.length = 8 := by
  have amount : zero.millionths = 0 := by decide +kernel
  rw [length_text (by decide +kernel) (by decide +kernel) amount]
  decide +kernel

theorem fits_zero : Fits fun _ => zero := by
  intro row _
  rw [length_text_zero]
  decide

/-- All calibration values are zero when they are saved on an empty card, `Encoder[1].r` changes, and
is not restored. -/
theorem not_round_trip_encoderR :
    ∃ changed after, restored (fun _ => 0) (fun _ => zero) changed = some after ∧
      after (.encoderR 1) ≠ zero := by
  let changed : Memory := Function.update (fun _ => zero) (.encoderR 1) fun _ => 1
  have harmless : Harmless (fun _ => zero) fun _ => 0 := harmless_of_clean fun _ => by decide
  refine ⟨changed, _, restored_eq fits_zero harmless changed, fun same => ?_⟩
  rw [if_neg (by decide)] at same
  have byte : changed (.encoderR 1) 0 = zero 0 := congrFun same 0
  exact absurd byte (by decide)

end BadmintonRobot.Calibration
