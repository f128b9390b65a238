import Mathlib.Data.List.Nodup
import Mathlib.Logic.Function.Basic
import Mathlib.Tactic.SplitIfs

/-!
# The CAN database

`Can_Database` describes every message on the two buses, and `HASH_TABLE` maps an
identifier to its row. `Write_Database` looks a row up and hands one frame to
`Can_SendData`. The table stays a parameter here, as do the objects its rows point
to and the handlers they name.
-/

namespace BadmintonRobot.Can

/-- The two values of `Data_type`. -/
inductive DataType where
  | readOnly
  | writeOnly
deriving DecidableEq, Repr

/-- One row of `Can_Database`. A handler of `none` is a NULL pointer. -/
structure CanData (Obj Func : Type) where
  dataType : DataType
  dataID : Nat
  dataPtr : Obj
  dataLength : Nat
  menuFunc : Option Func
  channel : Nat
  fifoNum : Nat
deriving DecidableEq, Repr

/-- Memory by object and byte offset. -/
abbrev Mem (Obj : Type) := Obj → Nat → UInt8

/-- The fields of `CanTxMsg` that differ between frames. `data` is the whole array,
of which the first `dlc` bytes are sent. -/
structure CanTxMsg where
  stdId : Nat
  dlc : Nat
  data : List UInt8
deriving DecidableEq, Repr

section Table

variable {Obj Func : Type}

/-- The byte `Can_Data_Num`. -/
def canDataNum (table : List (CanData Obj Func)) : UInt8 :=
  UInt8.ofNat table.length

/-- The loops of `Hash_Table_init`: 255 everywhere, then the row number of each
identifier. -/
def hashTableInit (table : List (CanData Obj Func)) : Nat → UInt8 :=
  (table.take (canDataNum table).toNat).zipIdx.foldl
    (fun hash row => Function.update hash row.1.dataID (UInt8.ofNat row.2)) fun _ => 255

/-- `Can_Database[index]`. Past the end it is whatever the memory there reads as. -/
def entryAt (table : List (CanData Obj Func)) (beyond : Nat → CanData Obj Func) (index : Nat) :
    CanData Obj Func :=
  table[index]?.getD (beyond index)

/-- The copying loop of `Write_Database`. A store past the eight bytes of the array
does not reach the frame. -/
def copyData (bytes : Nat → UInt8) : (count j : Nat) → List UInt8 → List UInt8
  | 0, _, data => data
  | count + 1, j, data => copyData bytes count (j + 1) (data.set j (bytes j))

/-- What a call of `Write_Database` does: the table rows it reads and the frames it
hands to `Can_SendData`, with their channel. -/
structure Dispatch where
  reads : List Nat
  sent : List (CanTxMsg × Nat)
deriving DecidableEq, Repr

/-- The function `Write_Database`. `stack` is what the local `TxMessage.Data` holds
on entry. -/
def writeDatabase (table : List (CanData Obj Func)) (beyond : Nat → CanData Obj Func)
    (hash : Nat → UInt8) (stack : List UInt8) (mem : Mem Obj) (idNum : Nat) : Dispatch :=
  let index := (hash idNum).toNat
  let entry := entryAt table beyond index
  if index ≥ (canDataNum table).toNat ∧ entry.dataType ≠ .writeOnly then
    { reads := [index], sent := [] }
  else
    let frame : CanTxMsg :=
      { stdId := entry.dataID
        dlc := entry.dataLength
        data := copyData (mem entry.dataPtr) entry.dataLength 0 stack }
    { reads := [index], sent := [(frame, entry.channel)] }

/-- The tables that the initialisation is meant for: row numbers fit a byte below
255, identifiers index `HASH_TABLE`, and no two rows share one. -/
structure WellFormed (table : List (CanData Obj Func)) : Prop where
  rows : table.length ≤ 255
  ids : ∀ entry ∈ table, entry.dataID < 256
  distinct : (table.map CanData.dataID).Nodup

end Table

section HashTable

variable {Obj Func : Type}

private abbrev enter (hash : Nat → UInt8) (row : CanData Obj Func × Nat) : Nat → UInt8 :=
  Function.update hash row.1.dataID (UInt8.ofNat row.2)

private theorem foldl_enter_absent (rows : List (CanData Obj Func)) (start : Nat)
    (hash : Nat → UInt8) {id : Nat} (absent : ∀ entry ∈ rows, entry.dataID ≠ id) :
    (rows.zipIdx start).foldl enter hash id = hash id := by
  induction rows generalizing start hash with
  | nil => rfl
  | cons row rows ih =>
    rw [List.zipIdx_cons, List.foldl_cons, ih]
    · exact Function.update_of_ne (absent row (by simp)).symm _ _
    · exact fun entry member => absent entry (by simp [member])

private theorem foldl_enter_present (rows : List (CanData Obj Func)) (start : Nat)
    (hash : Nat → UInt8) (distinct : (rows.map CanData.dataID).Nodup) {i : Nat}
    {entry : CanData Obj Func} (at_i : rows[i]? = some entry) :
    (rows.zipIdx start).foldl enter hash entry.dataID = UInt8.ofNat (start + i) := by
  induction rows generalizing start hash i with
  | nil => simp at at_i
  | cons row rows ih =>
    rw [List.zipIdx_cons, List.foldl_cons]
    rw [List.map_cons, List.nodup_cons] at distinct
    cases i with
    | zero =>
      obtain rfl : row = entry := by simpa using at_i
      rw [foldl_enter_absent]
      · simp [enter]
      · exact fun other member same => distinct.1 (same ▸ List.mem_map_of_mem member)
    | succ i =>
      rw [ih (start + 1) _ distinct.2 (by simpa using at_i)]
      congr 1
      omega

variable {table : List (CanData Obj Func)}

theorem WellFormed.canDataNum_toNat (wellFormed : WellFormed table) :
    (canDataNum table).toNat = table.length := by
  have rows := wellFormed.rows
  rw [canDataNum, UInt8.toNat_ofNat']
  omega

theorem WellFormed.unique (wellFormed : WellFormed table) {left right : CanData Obj Func}
    (left_mem : left ∈ table) (right_mem : right ∈ table) (same : left.dataID = right.dataID) :
    left = right :=
  List.inj_on_of_nodup_map wellFormed.distinct left_mem right_mem same

/-- After initialisation every row is found under its identifier. -/
theorem WellFormed.hash_present (wellFormed : WellFormed table) {i : Nat}
    {entry : CanData Obj Func} (at_i : table[i]? = some entry) :
    (hashTableInit table entry.dataID).toNat = i := by
  have rows := wellFormed.rows
  have bound : i < table.length := (List.getElem?_eq_some_iff.mp at_i).1
  rw [hashTableInit, wellFormed.canDataNum_toNat, List.take_length,
    foldl_enter_present table 0 _ wellFormed.distinct at_i, UInt8.toNat_ofNat']
  omega

/-- After initialisation an identifier without a row is mapped to 255. -/
theorem WellFormed.hash_absent (wellFormed : WellFormed table) {id : Nat}
    (absent : ∀ entry ∈ table, entry.dataID ≠ id) :
    (hashTableInit table id).toNat = 255 := by
  rw [hashTableInit, wellFormed.canDataNum_toNat, List.take_length,
    foldl_enter_absent table 0 _ absent]
  rfl

end HashTable

end BadmintonRobot.Can
