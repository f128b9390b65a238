import BadmintonRobot.Can.Database

/-!
# Transmit dispatch

`Write_Database` is meant to send the row of a `WRITE_ONLY` identifier and to
refuse every other one. Its guard refuses only an identifier that is both unknown
and, in the memory after the table, not writable, so a `READ_ONLY` row is sent and
an unknown identifier reads past the table.
-/

namespace BadmintonRobot.Can

variable {Obj Func : Type}

/-- The frame carries the identifier, the length and the bytes of a row. -/
structure CanTxMsg.Carries (frame : CanTxMsg) (mem : Mem Obj) (entry : CanData Obj Func) :
    Prop where
  stdId : frame.stdId = entry.dataID
  dlc : frame.dlc = entry.dataLength
  data : frame.data.take frame.dlc = (List.range entry.dataLength).map (mem entry.dataPtr)

/-- What `Write_Database` is for, after `Hash_Table_init`. -/
structure DispatchesCorrectly (table : List (CanData Obj Func))
    (beyond : Nat → CanData Obj Func) (stack : List UInt8) (mem : Mem Obj) (idNum : Nat) :
    Prop where
  /-- A writable row is sent once, on its channel. -/
  writable : ∀ entry ∈ table, entry.dataType = .writeOnly → entry.dataID = idNum →
    ∃ frame : CanTxMsg,
      (writeDatabase table beyond (hashTableInit table) stack mem idNum).sent =
        [(frame, entry.channel)] ∧ frame.Carries mem entry
  /-- For every other identifier nothing is sent and only the table is read. -/
  other : (¬∃ entry ∈ table, entry.dataType = .writeOnly ∧ entry.dataID = idNum) →
    (writeDatabase table beyond (hashTableInit table) stack mem idNum).sent = [] ∧
      ∀ index ∈ (writeDatabase table beyond (hashTableInit table) stack mem idNum).reads,
        index < table.length

section CopyData

variable (bytes : Nat → UInt8)

theorem length_copyData (count j : Nat) (data : List UInt8) :
    (copyData bytes count j data).length = data.length := by
  induction count generalizing j data with
  | zero => rfl
  | succ count ih => rw [copyData, ih, List.length_set]

private theorem getElem?_copyData (count j : Nat) (data : List UInt8) (i : Nat) :
    (copyData bytes count j data)[i]? =
      if j ≤ i ∧ i < j + count ∧ i < data.length then some (bytes i) else data[i]? := by
  induction count generalizing j data with
  | zero =>
    rw [if_neg (by omega)]
    rfl
  | succ count ih =>
    rw [copyData, ih, List.length_set, List.getElem?_set]
    by_cases here : j = i
    · subst here
      by_cases inside : j < data.length
      · rw [if_neg (by omega), if_pos rfl, if_pos inside, if_pos (by omega)]
      · rw [if_neg (by omega), if_pos rfl, if_neg inside, if_neg (by omega),
          List.getElem?_eq_none (by omega)]
    · rw [if_neg here]
      split_ifs <;> first | rfl | omega

/-- The copied bytes, as far as the array reaches. -/
theorem take_copyData {count : Nat} {data : List UInt8} (fits : count ≤ data.length) :
    (copyData bytes count 0 data).take count = (List.range count).map bytes := by
  apply List.ext_getElem?
  intro i
  rw [List.getElem?_take, getElem?_copyData, List.getElem?_map]
  by_cases below : i < count
  · rw [if_pos below, if_pos (by omega), List.getElem?_range below]
    rfl
  · rw [if_neg below, List.getElem?_eq_none (by simpa using below)]
    rfl

end CopyData

section Cases

variable {table : List (CanData Obj Func)} (beyond : Nat → CanData Obj Func)
  (stack : List UInt8) (mem : Mem Obj)

/-- The frame that a row gives rise to. -/
def CanData.frame (entry : CanData Obj Func) (stack : List UInt8) (mem : Mem Obj) : CanTxMsg where
  stdId := entry.dataID
  dlc := entry.dataLength
  data := copyData (mem entry.dataPtr) entry.dataLength 0 stack

/-- The frame carries the row exactly when the row fits the eight bytes of a frame. -/
theorem CanData.frame_carries_iff {stack : List UInt8} (entry : CanData Obj Func)
    (eight : stack.length = 8) :
    (entry.frame stack mem).Carries mem entry ↔ entry.dataLength ≤ 8 := by
  constructor
  · intro carries
    have lengths := congrArg List.length carries.data
    simp only [CanData.frame, List.length_take, length_copyData, List.length_map,
      List.length_range] at lengths
    omega
  · intro fits
    have room : entry.dataLength ≤ stack.length := by omega
    exact ⟨rfl, rfl, take_copyData (mem entry.dataPtr) room⟩

/-- Every row is sent, whatever its type. -/
theorem writeDatabase_present (wellFormed : WellFormed table) {entry : CanData Obj Func}
    (member : entry ∈ table) :
    ∃ index < table.length,
      writeDatabase table beyond (hashTableInit table) stack mem entry.dataID =
        { reads := [index], sent := [(entry.frame stack mem, entry.channel)] } := by
  obtain ⟨index, at_index⟩ := List.mem_iff_getElem?.mp member
  have bound : index < table.length := (List.getElem?_eq_some_iff.mp at_index).1
  have found := wellFormed.hash_present at_index
  refine ⟨index, bound, ?_⟩
  unfold writeDatabase
  rw [found, wellFormed.canDataNum_toNat, if_neg (by omega)]
  simp only [entryAt, at_index, Option.getD_some, CanData.frame]

/-- An identifier without a row reads the table at 255. -/
theorem writeDatabase_absent (wellFormed : WellFormed table) {idNum : Nat}
    (absent : ∀ entry ∈ table, entry.dataID ≠ idNum) :
    (writeDatabase table beyond (hashTableInit table) stack mem idNum).reads = [255] := by
  unfold writeDatabase
  rw [wellFormed.hash_absent absent]
  dsimp only
  split_ifs <;> rfl

end Cases

/-- A relay row, as the database declares it, and nothing else. -/
private def relayOnly : List (CanData Unit Unit) :=
  [⟨.readOnly, 0xD1, (), 1, none, 2, 0⟩]

/-- A `READ_ONLY` row is sent, and an unknown identifier reads past the table. -/
theorem not_dispatchesCorrectly_readOnly :
    WellFormed relayOnly ∧
      (¬DispatchesCorrectly relayOnly (fun _ => ⟨.readOnly, 0, (), 0, none, 0, 0⟩)
        (List.replicate 8 0) (fun _ _ => 0) 0xD1) ∧
      ¬DispatchesCorrectly relayOnly (fun _ => ⟨.readOnly, 0, (), 0, none, 0, 0⟩)
        (List.replicate 8 0) (fun _ _ => 0) 0x30 := by
  refine ⟨⟨by decide, by decide, by decide⟩, fun correct => ?_, fun correct => ?_⟩
  · exact absurd (correct.other (by decide)).1 (by decide)
  · exact absurd ((correct.other (by decide)).2 255 (by decide)) (by decide)

/-- `Write_Database` does what it is for exactly on the identifiers of writable rows
that fit a frame. -/
theorem dispatchesCorrectly_iff (table : List (CanData Obj Func)) (wellFormed : WellFormed table)
    (beyond : Nat → CanData Obj Func) (stack : List UInt8) (eight : stack.length = 8)
    (mem : Mem Obj) (idNum : Nat) (inRange : idNum < 256) :
    DispatchesCorrectly table beyond stack mem idNum ↔
      ∃ entry ∈ table, entry.dataType = .writeOnly ∧ entry.dataID = idNum ∧
        entry.dataLength ≤ 8 := by
  constructor
  · intro correct
    by_cases known : ∃ entry ∈ table, entry.dataID = idNum
    · obtain ⟨entry, member, rfl⟩ := known
      obtain ⟨index, _, outcome⟩ := writeDatabase_present beyond stack mem wellFormed member
      by_cases writable : ∃ entry' ∈ table,
          entry'.dataType = .writeOnly ∧ entry'.dataID = entry.dataID
      · obtain ⟨entry', member', writes, same⟩ := writable
        obtain ⟨frame, sent, carries⟩ := correct.writable entry' member' writes same
        obtain rfl := wellFormed.unique member' member same
        rw [outcome] at sent
        obtain rfl : entry'.frame stack mem = frame := by
          simp only [List.cons.injEq, Prod.mk.injEq, and_true] at sent
          exact sent
        exact ⟨entry', member, writes, rfl, (entry'.frame_carries_iff mem eight).mp carries⟩
      · have nothing := (correct.other writable).1
        rw [outcome] at nothing
        exact absurd nothing (List.cons_ne_nil _ _)
    · have absent : ∀ entry ∈ table, entry.dataID ≠ idNum :=
        fun entry member same => known ⟨entry, member, same⟩
      have reads := writeDatabase_absent beyond stack mem wellFormed absent
      have inside := (correct.other fun ⟨entry, member, _, same⟩ => absent entry member same).2 255
        (by rw [reads]; exact List.mem_singleton_self _)
      have rows := wellFormed.rows
      omega
  · rintro ⟨entry, member, writes, rfl, fits⟩
    refine ⟨fun entry' member' _ same => ?_, fun none => ?_⟩
    · obtain rfl := wellFormed.unique member' member same
      obtain ⟨_, _, outcome⟩ := writeDatabase_present beyond stack mem wellFormed member
      exact ⟨_, by rw [outcome], (entry'.frame_carries_iff mem eight).mpr fits⟩
    · exact absurd ⟨entry, member, writes, rfl⟩ none

/-- The first motor row of the database on its own: its identifier is dispatched
correctly. -/
theorem dispatchesCorrectly_motorRow :
    DispatchesCorrectly [(⟨.writeOnly, 0xa0, (), 8, none, 2, 1⟩ : CanData Unit Unit)]
      (fun _ => ⟨.readOnly, 0, (), 0, none, 0, 0⟩) (List.replicate 8 0) (fun _ _ => 0x17) 0xa0 :=
  (dispatchesCorrectly_iff _ ⟨by decide, by decide, by decide⟩ _ _ (by decide) _ _
    (by decide)).mpr ⟨_, List.mem_singleton_self _, rfl, rfl, by decide⟩

end BadmintonRobot.Can
