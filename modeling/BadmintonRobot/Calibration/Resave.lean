import Mathlib
import BadmintonRobot.Calibration.RoundTrip

/-!
# Saving one record again

`ValueSave` looks for a row as `ValueInit` does and writes its record over what it finds there. The
name stays where it was, but the text of the new value can be longer than the old one and run into
the next record, and the bytes of a value can look like the record of the row `d`.
-/

namespace BadmintonRobot.Calibration

open Semantics Records

variable {saved next : Memory} {card : Nat → UInt8} {row other : SDData} {file : File}
  {bytes later : Nat → UInt8} {name : List UInt8} {i j p q r : Nat}

theorem window_mark (here : (window bytes)[p]? = some mark) : p < 512 ∧ bytes p = mark := by
  have inside := (List.getElem?_eq_some_iff.mp here).1
  rw [length_window] at inside
  rw [getElem?_window inside] at here
  exact ⟨inside, Option.some.inj here⟩

theorem drop_window_congr (agree : ∀ s ≥ p, later s = bytes s) :
    (window later).drop p = (window bytes).drop p := by
  apply List.ext_getElem?
  intro k
  rw [List.getElem?_drop, List.getElem?_drop]
  by_cases inside : p + k < 512
  · rw [getElem?_window inside, getElem?_window inside, agree _ (by omega)]
  · rw [List.getElem?_eq_none (by simp; omega), List.getElem?_eq_none (by simp; omega)]

section Words

/-- The bytes of a word in the file. -/
theorem window_word (read : sscanf ((window bytes).drop (q + 1)) = some name) :
    q + 1 + name.length < 512 ∧ (∀ k (inside : k < name.length), bytes (q + 1 + k) = name[k]) ∧
      (bytes (q + 1 + name.length) = colon ∨ bytes (q + 1 + name.length) = 0) := by
  obtain ⟨letters, c, ends, stop⟩ := sscanf_spec read
  rw [List.getElem?_drop] at ends
  have inside := (List.getElem?_eq_some_iff.mp ends).1
  rw [length_window] at inside
  rw [getElem?_window inside, Option.some.injEq] at ends
  refine ⟨inside, fun k bound => ?_, ends ▸ stop⟩
  have letter := letters k bound
  rw [List.getElem?_drop, getElem?_window (by omega), List.getElem?_eq_getElem bound] at letter
  exact Option.some.inj letter

/-- Words are the same if the bytes up to a common end are. -/
theorem word_agree {t : Nat} (inside : t < 512) (before : p < t)
    (agree : ∀ s, p < s → s < t → later s = bytes s) (stop : bytes t = colon ∨ bytes t = 0)
    (stop' : later t = colon ∨ later t = 0) :
    sscanf ((window later).drop (p + 1)) = sscanf ((window bytes).drop (p + 1)) := by
  have place : p + 1 + (t - (p + 1)) = t := by omega
  refine sscanf_agree (m := t - (p + 1)) (fun k bound => ?_) ?_ stop' ?_ stop
  · rw [List.getElem?_drop, List.getElem?_drop, getElem?_window (by omega),
      getElem?_window (by omega), agree _ (by omega) (by omega)]
  · rw [List.getElem?_drop, place, getElem?_window inside]
  · rw [List.getElem?_drop, place, getElem?_window inside]

/-- The first record of a name stays the first one if nothing up to its colon changes. -/
theorem FirstAt.agree (found : FirstAt name (window bytes) q)
    (agree : ∀ p < q + 1 + name.length, later p = bytes p)
    (stop : later (q + 1 + name.length) = colon ∨ later (q + 1 + name.length) = 0) :
    FirstAt name (window later) q := by
  obtain ⟨inside, -, ends⟩ := window_word found.word
  have words : ∀ p ≤ q, sscanf ((window later).drop (p + 1)) =
      sscanf ((window bytes).drop (p + 1)) :=
    fun p before => word_agree inside (by omega) (fun s _ bound => agree s bound) ends stop
  have marks : ∀ p ≤ q, (window later)[p]? = (window bytes)[p]? := by
    intro p before
    rw [getElem?_window (by omega), getElem?_window (by omega), agree p (by omega)]
  refine ⟨(marks q le_rfl).trans found.here, (words q le_rfl).trans found.word, ?_⟩
  intro p before here
  obtain ⟨word, scanned, short, differs⟩ := found.passes p before (marks p before.le ▸ here)
  exact ⟨word, (words p before.le).trans scanned, short, differs⟩

end Words

section Rewriting

variable (next) in
/-- The file after the record of a row has been written at a place. -/
def rewritten (bytes : Nat → UInt8) (q : Nat) (row : SDData) : Nat → UInt8 :=
  overlay bytes q (record next row)

theorem rewritten_outside (outside : p < q ∨ q + (record next row).length ≤ p) :
    rewritten next bytes q row p = bytes p :=
  overlay_outside outside

theorem rewritten_inside {k : Nat} {byte : UInt8} (present : (record next row)[k]? = some byte) :
    rewritten next bytes q row (q + k) = byte :=
  overlay_inside q present

/-- The name that was found is written again. -/
theorem rewritten_head (found : FirstAt row.name (window bytes) q)
    (before : p < q + 1 + row.name.length) : rewritten next bytes q row p = bytes p := by
  obtain ⟨-, letters, -⟩ := window_word found.word
  rcases Nat.lt_trichotomy p q with front | rfl | behind
  · exact rewritten_outside (.inl front)
  · have first : (record next row)[0]? = some mark := rfl
    rw [← Nat.add_zero p, rewritten_inside first, Nat.add_zero, (window_mark found.here).2]
  · obtain ⟨k, rfl⟩ := Nat.exists_eq_add_of_lt behind
    have inside : k < row.name.length := by omega
    have letter : (record next row)[1 + k]? = some row.name[k] :=
      (record_name k inside).trans (List.getElem?_eq_getElem inside)
    rw [show q + k + 1 = q + (1 + k) by omega, rewritten_inside letter, ← letters k inside]
    congr 1
    omega

theorem rewritten_colon : rewritten next bytes q row (q + 1 + row.name.length) = colon := by
  rw [Nat.add_assoc]
  exact rewritten_inside record_colon

/-- The row is found where it was. -/
theorem FirstAt.again (found : FirstAt row.name (window bytes) q) (next : Memory) :
    FirstAt row.name (window (rewritten next bytes q row)) q :=
  found.agree (fun _ before => rewritten_head found before) (.inl rewritten_colon)

/-- Words before the record are the same, as they end at its colon at the latest. -/
theorem word_before (found : FirstAt row.name (window bytes) q) (front : p < q) :
    sscanf ((window (rewritten next bytes q row)).drop (p + 1)) =
      sscanf ((window bytes).drop (p + 1)) := by
  obtain ⟨inside, -, ends⟩ := window_word found.word
  exact word_agree inside (by omega) (fun s _ bound => rewritten_head found bound) ends
    (.inl rewritten_colon)

/-- The marks after a record has been written: its own one, marks in its value, with short words
behind them, and marks outside with the words that they had. -/
theorem rewritten_mark (found : FirstAt row.name (window bytes) q) (member : row ∈ sdSave)
    (room : q + row.name.length + 10 < 512)
    (here : (window (rewritten next bytes q row))[p]? = some mark) :
    (p = q ∧ sscanf ((window (rewritten next bytes q row)).drop (p + 1)) = some row.name) ∨
    (q < p ∧ p < q + (record next row).length ∧ ∃ word, word.length ≤ 7 ∧
      sscanf ((window (rewritten next bytes q row)).drop (p + 1)) = some word) ∨
    ((p < q ∨ q + (record next row).length ≤ p) ∧ (window bytes)[p]? = some mark ∧
      sscanf ((window (rewritten next bytes q row)).drop (p + 1)) =
        sscanf ((window bytes).drop (p + 1))) := by
  obtain ⟨inside, marked⟩ := window_mark here
  by_cases outside : p < q ∨ q + (record next row).length ≤ p
  · refine .inr (.inr ⟨outside, ?_, ?_⟩)
    · rw [getElem?_window inside, ← marked, rewritten_outside outside]
    · rcases outside with front | behind
      · exact word_before found front
      · rw [drop_window_congr fun s low => rewritten_outside (.inr (by omega))]
  · obtain ⟨k, rfl⟩ : ∃ k, p = q + k := Nat.exists_eq_add_of_le (by omega)
    have present := List.getElem?_eq_getElem (show k < (record next row).length by omega)
    rw [rewritten_inside present] at marked
    rcases record_mark (mark_not_mem_name member) (present.trans (congrArg some marked)) with
      rfl | ⟨low, high⟩
    · exact .inl ⟨rfl, (found.again next).word⟩
    · refine .inr (.inl ⟨by omega, by omega, ?_⟩)
      have stop : ((window (rewritten next bytes q row)).drop (q + k + 1))[
          row.name.length + 10 - (k + 1)]? = some colon := by
        rw [List.getElem?_drop, show q + k + 1 + (row.name.length + 10 - (k + 1)) =
          q + (row.name.length + 10) by omega, getElem?_window (by omega),
          rewritten_inside record_separator]
      obtain ⟨word, scanned, bound, -⟩ := sscanf_short stop (.inl rfl)
      exact ⟨word, by omega, scanned⟩

/-- A row with another name is found where it was if its head is still there. -/
theorem FirstAt.elsewhere (found : FirstAt row.name (window bytes) q) (member : row ∈ sdSave)
    (room : q + row.name.length + 10 < 512) (there : FirstAt name (window bytes) r)
    (long : 8 ≤ name.length) (differs : name ≠ row.name)
    (same : ∀ k < name.length + 2, rewritten next bytes q row (r + k) = bytes (r + k)) :
    FirstAt name (window (rewritten next bytes q row)) r := by
  obtain ⟨inside, -, ends⟩ := window_word there.word
  have begins : rewritten next bytes q row r = bytes r := same 0 (by omega)
  have ends' : rewritten next bytes q row (r + 1 + name.length) = bytes (r + 1 + name.length) := by
    rw [Nat.add_assoc]
    exact same _ (by omega)
  refine ⟨?_, ?_, fun p before here => ?_⟩
  · rw [getElem?_window (by omega), begins, (window_mark there.here).2]
  · rw [← there.word]
    refine word_agree inside (by omega) (fun s low high => ?_) ends (ends' ▸ ends)
    obtain ⟨k, rfl⟩ := Nat.exists_eq_add_of_le low.le
    exact same k (by omega)
  · rcases rewritten_mark found member room here with
      ⟨-, scanned⟩ | ⟨-, -, word, short, scanned⟩ | ⟨-, marked, scanned⟩
    · have short := length_name member
      exact ⟨_, scanned, by omega, differs.symm⟩
    · refine ⟨word, scanned, by omega, ?_⟩
      rintro rfl
      omega
    · obtain ⟨word, read, fits, unlike⟩ := there.passes p before marked
      exact ⟨word, scanned.trans read, fits, unlike⟩

/-- A name that is found now stood there before. -/
theorem FirstAt.outside (found : FirstAt row.name (window bytes) q) (member : row ∈ sdSave)
    (room : q + row.name.length + 10 < 512)
    (there : FirstAt name (window (rewritten next bytes q row)) r) (long : 8 ≤ name.length)
    (differs : name ≠ row.name) :
    (r < q ∨ q + (record next row).length ≤ r) ∧ (window bytes)[r]? = some mark ∧
      sscanf ((window bytes).drop (r + 1)) = some name := by
  rcases rewritten_mark found member room there.here with
    ⟨-, scanned⟩ | ⟨-, -, word, short, scanned⟩ | ⟨outside, marked, scanned⟩
  · exact absurd (Option.some.inj (there.word.symm.trans scanned)) differs
  · obtain rfl : name = word := Option.some.inj (there.word.symm.trans scanned)
    omega
  · exact ⟨outside, marked, scanned.symm.trans there.word⟩

end Rewriting

section Reading

/-- The file begins with a record. -/
def Starts (bytes : Nat → UInt8) : Prop :=
  bytes 0 = mark ∧ ∃ word, sscanf ((window bytes).drop 1) = some word ∧ word ≠ [] ∧ word.length < 20

theorem starts_contents (saved : Memory) (card : Nat → UInt8) : Starts (contents saved card) := by
  have first : sdSave[0]? = some ⟨ascii "Gyro_convert1", .gyroConvert1⟩ := rfl
  have begins : contents saved card (0 * 50) = mark := contents_begin first
  have word := word_head saved card first (by decide)
  rw [Nat.zero_mul] at begins word
  exact ⟨begins, _, word, by decide, by decide⟩

theorem Starts.rewritten (starts : Starts bytes) (found : FirstAt row.name (window bytes) q)
    (member : row ∈ sdSave) (room : q + row.name.length + 10 < 512) :
    Starts (rewritten next bytes q row) := by
  obtain ⟨begins, word, scanned, known, fits⟩ := starts
  have begins' : Calibration.rewritten next bytes q row 0 = mark := by
    rw [rewritten_head found (by omega), begins]
  have here := (getElem?_window (by decide)).trans (congrArg some begins')
  refine ⟨begins', ?_⟩
  rcases rewritten_mark found member room here with ⟨-, read⟩ | ⟨before, -⟩ | ⟨-, -, read⟩
  · have short := length_name member
    exact ⟨_, read, name_ne_nil member, by omega⟩
  · exact absurd before (by omega)
  · exact ⟨word, read.trans scanned, known, fits⟩

theorem located_window (starts : Starts bytes) (member : row ∈ sdSave) :
    located row.name (window bytes) 0 none = some (some q) ↔
      FirstAt row.name (window bytes) q := by
  obtain ⟨begins, word, scanned, known, fits⟩ := starts
  have short := length_name member
  exact located_iff (name_ne_nil member) (by omega)
    ((getElem?_window (by decide)).trans (congrArg some begins)) scanned known fits

/-- `ValueInit` of a row stores a value. -/
def Yields (file : File) (row : SDData) (value : Fp64) : Prop :=
  ∀ memory, valueInit file memory row = some (Function.update memory row.value value)

/-- The value stands behind the first record of the name. -/
def Reads (bytes : Nat → UInt8) (row : SDData) (value : Fp64) : Prop :=
  ∃ q, FirstAt row.name (window bytes) q ∧
    loadFp64 (window bytes) (q + 2 + row.name.length) = some value

theorem yields_iff {value : Fp64} (size : 512 ≤ file.size) (starts : Starts file.bytes)
    (member : row ∈ sdSave) : Yields file row value ↔ Reads file.bytes row value := by
  constructor
  · intro yields
    -- a memory that does not hold the value yet
    let before : Memory := fun _ => fun i => value i + 1
    have read := yields before
    rw [valueInit, sdBuffer_window size] at read
    obtain ⟨place, found, read⟩ := Option.bind_eq_some_iff.mp read
    cases place with
    | none =>
      have same : before = Function.update before row.value value := Option.some.inj read
      have byte := congrFun (congrFun same row.value) 0
      rw [Function.update_self] at byte
      exact absurd byte (by simp [before])
    | some q =>
      obtain ⟨loaded, load, same⟩ := Option.map_eq_some_iff.mp read
      have equal := congrFun same row.value
      rw [Function.update_self, Function.update_self] at equal
      exact ⟨q, (located_window starts member).mp found, equal ▸ load⟩
  · rintro ⟨q, found, load⟩ memory
    rw [valueInit, sdBuffer_window size, (located_window starts member).mpr found,
      Option.bind_some]
    dsimp only
    rw [load]
    rfl

/-- `ValueSave` of a row that is found. -/
theorem valueSave_eq (size : 512 ≤ file.size) (starts : Starts file.bytes)
    (member : row ∈ sdSave) (found : FirstAt row.name (window file.bytes) q) (next : Memory) :
    ∃ after : File, after.bytes = rewritten next file.bytes q row ∧ 512 ≤ after.size ∧
      valueSave file next row =
        if (next row.value).text.length ≤ 120 then some after else none := by
  refine ⟨(file.fLseek q).fWrite (record next row), rfl, ?_, ?_⟩
  · change 512 ≤ max (max file.size q) _
    omega
  · rw [valueSave, sdBuffer_window size, (located_window starts member).mpr found,
      Option.bind_some]
    exact switchSave_eq (length_name member)

theorem loadFp64_window {value : Fp64} (inside : p + 8 ≤ 512) :
    loadFp64 (window bytes) p = some value ↔ ∀ k : Fin 8, bytes (p + k) = value k := by
  rw [loadFp64, if_pos (by simpa using inside), Option.some.injEq, funext_iff]
  refine forall_congr' fun k => ?_
  rw [List.getD_eq_getElem?_getD, getElem?_window (by omega)]
  rfl

end Reading

section Table

/-- The row `d`. -/
def rowD : SDData := ⟨ascii "d", .encoderRadian 0⟩

theorem row_cases (member : row ∈ sdSave) : (∃ i < 10, sdSave[i]? = some row) ∨ row = rowD := by
  have first : ∀ row ∈ sdSave.take 10, ∃ i < 10, sdSave[i]? = some row := by
    intro row member
    obtain ⟨i, inside, rfl⟩ := List.mem_take_iff_getElem.mp member
    exact ⟨i, by omega, List.getElem?_eq_getElem _⟩
  have whole : sdSave = sdSave.take 10 ++ rowD :: sdSave.drop 11 := rfl
  rw [whole, List.mem_append, List.mem_cons] at member
  rcases member with early | rfl | late
  · exact .inl (first row early)
  · exact .inr rfl
  · exact .inl (first row (mem_take_of_mem_drop late))

theorem name_ne_d (member : sdSave[i]? = some row) (first : i < 10) : row.name ≠ rowD.name := by
  have long := long_name member first
  have one : rowD.name.length = 1 := by decide
  intro same
  rw [same] at long
  omega

theorem firstAt_row (harmless : Harmless saved card) (member : sdSave[i]? = some row)
    (first : i < 10) : FirstAt row.name (window (contents saved card)) (i * 50) :=
  (located_window (starts_contents saved card) (List.mem_of_getElem? member)).mp
    (located_row harmless member first)

/-- Every row is found, with its whole value in the part that is searched. -/
theorem exists_firstAt (harmless : Harmless saved card) (member : row ∈ sdSave) :
    ∃ q, FirstAt row.name (window (contents saved card)) q ∧ q + row.name.length + 10 < 512 := by
  rcases row_cases member with ⟨i, first, here⟩ | rfl
  · have short := length_name member
    exact ⟨i * 50, firstAt_row harmless here first, by omega⟩
  · obtain ⟨r, bound, found⟩ := located_d harmless
    have one : rowD.name.length = 1 := by decide
    exact ⟨r, (located_window (starts_contents saved card) member).mp found, by omega⟩

/-- A record that begins in the part that is searched has its value there. -/
theorem value_inside (member : sdSave[i]? = some row) (begins : i * 50 < 512) :
    i * 50 + row.name.length + 10 < 512 := by
  have short := length_name (List.mem_of_getElem? member)
  by_cases last : i = 10
  · subst last
    obtain rfl : rowD = row := Option.some.inj member
    decide
  · omega

/-- A long name stands at its own record only, unless the card had it where nothing was written. -/
theorem place_of_name (member : sdSave[j]? = some other) (first : j < 10)
    (here : (window (contents saved card))[p]? = some mark)
    (word : sscanf ((window (contents saved card)).drop (p + 1)) = some other.name)
    (clean : ¬(card p = mark ∧ Unwritten saved p)) : p = j * 50 := by
  have long := long_name member first
  obtain ⟨inside, marked⟩ := window_mark here
  rcases contents_mark marked with ⟨i, row, written, rfl | ⟨low, high⟩⟩ | gap
  · have room := value_inside written inside
    have read : sscanf ((window (contents saved card)).drop (i * 50 + 1)) = some row.name :=
      word_head saved card written (by omega)
    have same : row.name = other.name := Option.some.inj (read.symm.trans word)
    have early : i < 10 := by
      by_contra late
      obtain rfl : i = 10 := by omega
      obtain rfl : rowD = row := Option.some.inj written
      exact name_ne_d member first same.symm
    rw [name_inj written member early first same]
  · have room := value_inside written (by omega)
    obtain ⟨short, read, bound⟩ : ∃ word,
        sscanf ((image saved card).drop (p + 1)) = some word ∧ word.length ≤ 7 :=
      word_value written room low high
    have same : short = other.name := Option.some.inj (read.symm.trans word)
    rw [same] at bound
    omega
  · exact absurd gap clean

end Table

/-- `ValueSave` of a row does something definite. Afterwards `ValueInit` of the row stores the new
value, and `ValueInit` of any row with another name stores the same value as before. -/
def SavesAlone (file : File) (next : Memory) (row : SDData) : Prop :=
  ∃ after, valueSave file next row = some after ∧ Yields after row (next row.value) ∧
    ∀ other ∈ sdSave, other.name ≠ row.name →
      ∃ value, Yields file other value ∧ Yields after other value

/-- The marks, names, colons and values of the first ten records, but for the record of the row, are
the same after it has been written at a place. -/
def Kept (next : Memory) (bytes : Nat → UInt8) (q : Nat) (row : SDData) : Prop :=
  ∀ j other, j < 10 → sdSave[j]? = some other → other.name ≠ row.name →
    ∀ k < other.name.length + 10, rewritten next bytes q row (j * 50 + k) = bytes (j * 50 + k)

/-- What it takes on every card that a row can be saved alone. -/
structure Gentle (saved next : Memory) (row : SDData) : Prop where
  /-- No old byte of the card disturbs the search. -/
  narrow : Narrow saved
  /-- The new text fits into the array in which it is printed. -/
  prints : (next row.value).text.length ≤ 120
  /-- The new record of one of the first nine rows ends before the next record begins. -/
  slot : ∀ i < 9, sdSave[i]? = some row → (record next row).length ≤ 50
  /-- The row `d` is found where its record does not touch the others. -/
  aside : row = rowD → ∀ card q, FirstAt row.name (window (contents saved card)) q →
    Kept next (contents saved card) q row
  /-- The eight bytes behind the first `@d` stay the same. -/
  last : row ≠ rowD → ∀ card q, FirstAt row.name (window (contents saved card)) q →
    ∃ value, Reads (contents saved card) rowD value ∧
      Reads (rewritten next (contents saved card) q row) rowD value

section Saving

/-- Saving alone is a matter of the bytes of the file. -/
theorem savesAlone_iff_reads (holds : Holds file saved card) (member : row ∈ sdSave)
    (found : FirstAt row.name (window (contents saved card)) q)
    (room : q + row.name.length + 10 < 512) :
    SavesAlone file next row ↔ (next row.value).text.length ≤ 120 ∧
      ∀ other ∈ sdSave, other.name ≠ row.name → ∃ value, Reads (contents saved card) other value ∧
        Reads (rewritten next (contents saved card) q row) other value := by
  have starts := starts_contents saved card
  have starts' : Starts (rewritten next (contents saved card) q row) :=
    starts.rewritten found member room
  obtain ⟨bytes, size⟩ := holds
  rw [← bytes] at starts starts' found ⊢
  obtain ⟨after, written, size', saves⟩ := valueSave_eq size starts member found next
  rw [← written] at starts' ⊢
  have before : ∀ other ∈ sdSave, ∀ value, Yields file other value ↔ Reads file.bytes other value :=
    fun _ known _ => yields_iff size starts known
  have behind : ∀ other ∈ sdSave, ∀ value,
      Yields after other value ↔ Reads after.bytes other value :=
    fun _ known _ => yields_iff size' starts' known
  have own : Yields after row (next row.value) := by
    rw [behind row member, written]
    refine ⟨q, found.again next, (loadFp64_window (by omega)).mpr fun k => ?_⟩
    rw [show q + 2 + row.name.length + k = q + (row.name.length + 2 + k) by omega]
    exact rewritten_inside (record_value k)
  rw [SavesAlone, saves]
  constructor
  · rintro ⟨result, taken, -, rest⟩
    split_ifs at taken with prints
    obtain rfl : after = result := Option.some.inj taken
    refine ⟨prints, fun other known differs => ?_⟩
    obtain ⟨value, one, two⟩ := rest other known differs
    exact ⟨value, (before other known value).mp one, (behind other known value).mp two⟩
  · rintro ⟨prints, rest⟩
    refine ⟨after, if_pos prints, own, fun other known differs => ?_⟩
    obtain ⟨value, one, two⟩ := rest other known differs
    exact ⟨value, (before other known value).mpr one, (behind other known value).mpr two⟩

/-- A record that is kept is read as before. -/
theorem reads_of_kept (harmless : Harmless saved card) (member : row ∈ sdSave)
    (found : FirstAt row.name (window (contents saved card)) q)
    (room : q + row.name.length + 10 < 512) (kept : Kept next (contents saved card) q row)
    (here : sdSave[j]? = some other) (first : j < 10) (differs : other.name ≠ row.name) :
    Reads (contents saved card) other (saved other.value) ∧
      Reads (rewritten next (contents saved card) q row) other (saved other.value) := by
  have long := long_name here first
  have short := length_name (List.mem_of_getElem? here)
  have same := kept j other first here differs
  have there := firstAt_row harmless here first
  have value : ∀ k : Fin 8, contents saved card (j * 50 + 2 + other.name.length + k) =
      saved other.value k := by
    intro k
    rw [show j * 50 + 2 + other.name.length + k = j * 50 + (other.name.length + 2 + k) by omega]
    exact contents_value here k
  refine ⟨⟨j * 50, there, (loadFp64_window (by omega)).mpr value⟩, j * 50, ?_, ?_⟩
  · exact found.elsewhere member room there (by omega) differs fun k inside => same k (by omega)
  · refine (loadFp64_window (by omega)).mpr fun k => ?_
    rw [← value k, show j * 50 + 2 + other.name.length + k =
      j * 50 + (2 + other.name.length + k) by omega]
    exact same _ (by omega)

/-- A record of one of the first ten rows that ends before the next one keeps the others. -/
theorem kept_of_slot (here : sdSave[i]? = some row) (first : i < 10)
    (slot : i < 9 → (record next row).length ≤ 50) : Kept next bytes (i * 50) row := by
  intro j other bound there differs k inside
  have short := length_name (List.mem_of_getElem? there)
  rcases Nat.lt_trichotomy j i with before | rfl | behind
  · exact rewritten_outside (.inl (by omega))
  · obtain rfl : row = other := Option.some.inj (here.symm.trans there)
    exact absurd rfl differs
  · have ends := slot (by omega)
    exact rewritten_outside (.inr (by omega))

theorem Gentle.saves (gentle : Gentle saved next row) (member : row ∈ sdSave)
    (holds : Holds file saved card) : SavesAlone file next row := by
  have harmless := gentle.narrow.harmless card
  obtain ⟨q, found, room⟩ := exists_firstAt harmless member
  have kept : Kept next (contents saved card) q row := by
    rcases row_cases member with ⟨i, first, here⟩ | rfl
    · rw [found.unique (firstAt_row harmless here first)]
      exact kept_of_slot here first fun early => gentle.slot i early here
    · exact gentle.aside rfl card q found
  refine (savesAlone_iff_reads holds member found room).mpr ⟨gentle.prints, ?_⟩
  intro other known differs
  rcases row_cases known with ⟨j, first, here⟩ | rfl
  · exact ⟨_, reads_of_kept harmless member found room kept here first differs⟩
  · refine gentle.last ?_ card q found
    rintro rfl
    exact differs rfl

/-- A row whose mark is overwritten is not found again on a clean card. -/
theorem slot_of_savesAlone (holds : Holds file saved card) (clean : ∀ p, card p ≠ mark)
    (here : sdSave[i]? = some row) (first : i < 9) (saves : SavesAlone file next row) :
    (record next row).length ≤ 50 := by
  have member := List.mem_of_getElem? here
  have found : FirstAt row.name (window (contents saved card)) (i * 50) :=
    firstAt_row (harmless_of_clean clean) here (by omega)
  have room := value_inside here (by omega)
  obtain ⟨other, there⟩ := exists_row (i := i + 1) (by omega)
  have differs : other.name ≠ row.name := fun same =>
    absurd (name_inj there here (by omega) (by omega) same) (by omega)
  obtain ⟨-, others⟩ := (savesAlone_iff_reads holds member found room).mp saves
  obtain ⟨value, -, r, again, -⟩ := others other (List.mem_of_getElem? there) differs
  have long := long_name there (by omega)
  obtain ⟨outside, marked, word⟩ := found.outside member room again (by omega) differs
  have place := place_of_name there (by omega) marked word fun gap => clean r gap.1
  omega

end Saving

section Necessity

/-- `InitNewCard` leaves a file from which each row can be saved alone, whatever the card held. -/
def AllSaveAlone (saved next : Memory) (row : SDData) : Prop :=
  ∀ card file, initNewCard card saved = some file → SavesAlone file next row

theorem AllSaveAlone.narrow (all : AllSaveAlone saved next row) (fits : Fits saved) :
    Narrow saved := by
  refine narrow_of_located fun card lost => ?_
  obtain ⟨file, written⟩ := exists_initNewCard fits card
  obtain ⟨-, bytes, size⟩ := initNewCard_spec written
  obtain ⟨after, taken, -, others⟩ := all card file written
  by_cases same : row.name = ascii "Encoder2_radian"
  · rw [valueSave, sdBuffer_eq bytes size, same, lost] at taken
    cases taken
  · let ninth : SDData := ⟨ascii "Encoder2_radian", .encoderRadian 0⟩
    have known : ninth ∈ sdSave := List.mem_of_getElem? (i := 9) rfl
    obtain ⟨value, yields, -⟩ := others ninth known fun equal => same equal.symm
    have read := yields saved
    rw [valueInit, sdBuffer_eq bytes size, lost] at read
    cases read

/-- What is read on a given card. -/
theorem AllSaveAlone.reads (all : AllSaveAlone saved next row) (fits : Fits saved)
    (member : row ∈ sdSave) (found : FirstAt row.name (window (contents saved card)) q) :
    (next row.value).text.length ≤ 120 ∧ q + row.name.length + 10 < 512 ∧
      ∀ other ∈ sdSave, other.name ≠ row.name → ∃ value, Reads (contents saved card) other value ∧
        Reads (rewritten next (contents saved card) q row) other value := by
  obtain ⟨place, there, room⟩ := exists_firstAt ((all.narrow fits).harmless card) member
  rw [there.unique found] at room
  obtain ⟨file, written⟩ := exists_initNewCard fits card
  obtain ⟨-, bytes, size⟩ := initNewCard_spec written
  obtain ⟨prints, others⟩ :=
    (savesAlone_iff_reads ⟨bytes, size⟩ member found room).mp (all card file written)
  exact ⟨prints, room, others⟩

theorem AllSaveAlone.slot (all : AllSaveAlone saved next row) (fits : Fits saved)
    (here : sdSave[i]? = some row) (first : i < 9) : (record next row).length ≤ 50 := by
  obtain ⟨file, written⟩ := exists_initNewCard fits fun _ => 0
  obtain ⟨-, bytes, size⟩ := initNewCard_spec written
  exact slot_of_savesAlone ⟨bytes, size⟩ (fun _ => by decide) here first (all _ file written)

theorem contents_congr {other : Nat → UInt8} (same : card p = other p) :
    contents saved card p = contents saved other p :=
  layout_congr same

/-- The head of a record has no mark but the first byte. -/
theorem head_unmarked (here : sdSave[j]? = some other) (marked : contents saved card q = mark)
    (behind : j * 50 < q) : j * 50 + other.name.length + 2 ≤ q := by
  by_contra near
  obtain ⟨k, rfl⟩ := Nat.exists_eq_add_of_lt behind
  by_cases letter : k < other.name.length
  · rw [show j * 50 + k + 1 = j * 50 + (1 + k) by omega, contents_name here letter] at marked
    exact (name_letters (List.mem_of_getElem? here) _ (List.getElem_mem letter)).2.2 marked
  · rw [show j * 50 + k + 1 = j * 50 + (1 + other.name.length) by omega,
      contents_colon here] at marked
    exact absurd marked (by decide)

/-- A row that is still found after another record has been written is found at its own one, if the
card is clean behind what was written. -/
theorem place_again (member : row ∈ sdSave) (room : q + row.name.length + 10 < 512)
    (found : FirstAt row.name (window (contents saved card)) q)
    (clean : ∀ p, q + (record next row).length ≤ p → card p ≠ mark)
    (here : sdSave[j]? = some other) (first : j < 10) (differs : other.name ≠ row.name)
    (there : FirstAt other.name (window (contents saved card)) (j * 50))
    (again : FirstAt other.name (window (rewritten next (contents saved card) q row)) r) :
    r = j * 50 ∧ (j * 50 < q ∨ q + (record next row).length ≤ j * 50) := by
  have long := long_name here first
  obtain ⟨outside, marked, word⟩ := found.outside member room again (by omega) differs
  have place : r = j * 50 := by
    rcases outside with front | behind
    · rcases Nat.lt_trichotomy r (j * 50) with early | same | late
      · obtain ⟨_, scanned, -, unlike⟩ := there.passes r early marked
        exact absurd (Option.some.inj (scanned.symm.trans word)) unlike
      · exact same
      · -- the record stands before both places, so it would be found first
        have still : (window (rewritten next (contents saved card) q row))[j * 50]? =
            some mark := by
          rw [getElem?_window (by omega), rewritten_head found (by omega), contents_begin here]
        obtain ⟨_, scanned, -, unlike⟩ := again.passes (j * 50) late still
        rw [word_before found (by omega), there.word] at scanned
        exact absurd (Option.some.inj scanned).symm unlike
    · exact place_of_name here first marked word fun gap => clean r behind gap.1
  exact ⟨place, place ▸ outside⟩

/-- The place where the row `d` is found is the same on a card that is clean behind it, and there
the other rows are found at their records only. -/
theorem AllSaveAlone.aside (all : AllSaveAlone saved next rowD) (fits : Fits saved)
    (found : FirstAt rowD.name (window (contents saved card)) q) :
    Kept next (contents saved card) q rowD := by
  have one : rowD.name.length = 1 := by decide
  have member : rowD ∈ sdSave := List.mem_of_getElem? (i := 10) rfl
  let clean : Nat → UInt8 := fun p => if p < q + 3 then card p else 0
  have agree : ∀ p < q + 3, contents saved clean p = contents saved card p :=
    fun p before => contents_congr (if_pos before)
  obtain ⟨-, -, ends⟩ := window_word found.word
  have found' : FirstAt rowD.name (window (contents saved clean)) q := by
    refine found.agree (fun p before => agree p (by omega)) ?_
    rw [agree _ (by omega)]
    exact ends
  have unmarked : ∀ p, q + (record next rowD).length ≤ p → clean p ≠ mark := by
    intro p behind
    rw [length_record] at behind
    rw [show clean p = 0 from if_neg (by omega)]
    decide
  obtain ⟨-, room, others⟩ := all.reads fits member found'
  intro j other first here differs k inside
  have short := length_name (List.mem_of_getElem? here)
  have there := firstAt_row ((all.narrow fits).harmless clean) here first
  obtain ⟨value, ⟨s, before, load⟩, r, again, load'⟩ :=
    others other (List.mem_of_getElem? here) differs
  obtain rfl : s = j * 50 := before.unique there
  obtain ⟨rfl, apart⟩ := place_again member room found' unmarked here first differs there again
  rcases apart with front | behind
  · have head := head_unmarked here (window_mark found.here).2 front
    by_cases early : k < other.name.length + 2
    · exact rewritten_outside (.inl (by omega))
    · -- a byte of the value, which was read before and after
      obtain ⟨m, rfl⟩ := Nat.exists_eq_add_of_le (Nat.le_of_not_lt early)
      let byte : Fin 8 := ⟨m, by omega⟩
      have old := (loadFp64_window (by omega)).mp load byte
      have new := (loadFp64_window (by omega)).mp load' byte
      rw [show j * 50 + 2 + other.name.length + (byte : Nat) =
        j * 50 + (other.name.length + 2 + m) by simp [byte]; omega] at old new
      have same : contents saved card (j * 50 + (other.name.length + 2 + m)) =
          contents saved clean (j * 50 + (other.name.length + 2 + m)) :=
        (contents_value here byte).trans (contents_value here byte).symm
      calc rewritten next (contents saved card) q rowD (j * 50 + (other.name.length + 2 + m))
          = rewritten next (contents saved clean) q rowD (j * 50 + (other.name.length + 2 + m)) :=
            overlay_congr q _ same
        _ = contents saved clean (j * 50 + (other.name.length + 2 + m)) := new.trans old.symm
        _ = contents saved card (j * 50 + (other.name.length + 2 + m)) := same.symm
  · exact rewritten_outside (.inr (by omega))

theorem AllSaveAlone.gentle (all : AllSaveAlone saved next row) (fits : Fits saved)
    (member : row ∈ sdSave) : Gentle saved next row where
  narrow := all.narrow fits
  prints := by
    obtain ⟨q, found, -⟩ := exists_firstAt ((all.narrow fits).harmless fun _ => 0) member
    exact (all.reads fits member found).1
  slot _ first here := all.slot fits here first
  aside same card q found := by
    subst same
    exact all.aside fits found
  last differs card q found := by
    refine (all.reads fits member found).2.2 rowD (List.mem_of_getElem? (i := 10) rfl) ?_
    rcases row_cases member with ⟨i, first, here⟩ | same
    · exact (name_ne_d here first).symm
    · exact absurd same differs

end Necessity

end BadmintonRobot.Calibration
