import Mathlib
import BadmintonRobot.Can.Database

/-!
# The receive filters

`Can_FILTER_Config` sorts the identifiers of the rows to be read into four groups by
channel and FIFO, fills each group up to a multiple of four, and programs one
filter bank for every four of them. The counters are signed bytes, and nothing
checks the indices of the temporary arrays, so the model records the indices used.
-/

namespace BadmintonRobot.Can

/-- Conversion to `int8_t`. -/
def toInt8 (value : Int) : Int := value.bmod 256

theorem toInt8_of_lt {value : Int} (lower : 0 ≤ value) (upper : value < 128) :
    toInt8 value = value :=
  Int.bmod_eq_of_le (by omega) (by omega)

/-- An identifier as the filter compares it, in `uint16_t`. -/
def shifted (dataID : Nat) : Nat := dataID * 2 ^ 5 % 2 ^ 16

/-- One of the arrays `temp1` to `temp4` with its counter. The array has `14*4`
elements; `cell` is the memory around it, and `touched` the indices used so far. -/
structure Temp where
  cell : Int → Nat
  num : Int
  touched : List Int

namespace Temp

/-- The array before the first row. -/
def empty : Temp where
  cell _ := 0
  num := 0
  touched := []

/-- Append the identifier of a row. -/
def push (temp : Temp) (dataID : Nat) : Temp where
  cell := Function.update temp.cell temp.num (shifted dataID)
  num := toInt8 (temp.num + 1)
  touched := temp.touched ++ [temp.num]

/-- The number of turns of the loop that fills up the last bank. -/
def missing (temp : Temp) : Nat := (3 - (temp.num - 1).tmod 4).toNat

/-- Turn `i` of the loop that fills up the last bank. -/
def padAt (temp : Temp) (i : Nat) : Temp :=
  { temp with
    cell := Function.update temp.cell (temp.num + i) (temp.cell (temp.num - 1))
    touched := temp.touched ++ [temp.num - 1, temp.num + i] }

/-- Repeat the last identifier until the bank is full. -/
def pad (temp : Temp) : Temp := (List.range temp.missing).foldl padAt temp

/-- The number of banks that the group needs. -/
def bankCount (temp : Temp) : Nat :=
  if temp.num > 0 then ((temp.num - 1).tdiv 4 + 1).toNat else 0

/-- The four identifiers of bank `i`. -/
def bankIds (temp : Temp) (i : Nat) : List Nat :=
  [temp.cell (4 * i + 0), temp.cell (4 * i + 1), temp.cell (4 * i + 2), temp.cell (4 * i + 3)]

/-- The indices read for the banks. -/
def bankReads (temp : Temp) : List Int :=
  (List.range temp.bankCount).flatMap fun i : Nat => [4 * i + 0, 4 * i + 1, 4 * i + 2, 4 * i + 3]

end Temp

/-- One call of `CAN_FilterInit`, with the identifier list in 16-bit scale. -/
structure FilterInit where
  filterNumber : Int
  ids : List Nat
  fifoAssignment : Nat
deriving DecidableEq, Repr

/-- The loop that programs the banks of one group, starting at a bank number. -/
def Temp.inits (temp : Temp) (filterBank : Int) (fifo : Nat) : List FilterInit :=
  (List.range temp.bankCount).map fun i : Nat =>
    { filterNumber := toInt8 (filterBank + i), ids := temp.bankIds i, fifoAssignment := fifo }

/-- The four groups, for channel 1 and then for channel 2. -/
structure Temps where
  temp1 : Temp
  temp2 : Temp
  temp3 : Temp
  temp4 : Temp

section Config

variable {Obj Func : Type}

/-- One turn of the loop over the table. -/
def Temps.sort (temps : Temps) (entry : CanData Obj Func) : Temps :=
  if entry.dataType = .readOnly then
    if entry.channel = 1 then
      if entry.fifoNum = 0 then { temps with temp1 := temps.temp1.push entry.dataID }
      else { temps with temp2 := temps.temp2.push entry.dataID }
    else if entry.channel = 2 then
      if entry.fifoNum = 0 then { temps with temp3 := temps.temp3.push entry.dataID }
      else { temps with temp4 := temps.temp4.push entry.dataID }
    else temps
  else temps

/-- The loop over the table. -/
def Temps.collect (table : List (CanData Obj Func)) : Temps :=
  table.foldl Temps.sort ⟨.empty, .empty, .empty, .empty⟩

/-- Fill up the last bank of each group. -/
def Temps.pad (temps : Temps) : Temps :=
  ⟨temps.temp1.pad, temps.temp2.pad, temps.temp3.pad, temps.temp4.pad⟩

/-- The calls of `CAN_FilterInit`. The second group of a channel goes on with the bank
numbers of the first. -/
def Temps.program (temps : Temps) : List FilterInit :=
  let can1FilterBank : Int := 0
  let can2FilterBank : Int := 15
  temps.temp1.inits can1FilterBank 0 ++
    temps.temp2.inits (toInt8 (can1FilterBank + temps.temp1.bankCount)) 1 ++
    temps.temp3.inits can2FilterBank 0 ++
    temps.temp4.inits (toInt8 (can2FilterBank + temps.temp3.bankCount)) 1

/-- What `Can_FILTER_Config` does: the banks it programs, and the groups with the
indices it used. -/
structure FilterSetup where
  inits : List FilterInit
  temps : Temps

/-- The configuration `Can_FILTER_Config`. Its loop counter is a signed byte, so the
loop over a table that is too long does not end. -/
def canFilterConfig (table : List (CanData Obj Func)) : Option FilterSetup :=
  if (canDataNum table).toNat ≤ 127 then
    let temps := (Temps.collect (table.take (canDataNum table).toNat)).pad
    some { inits := temps.program, temps := temps }
  else none

end Config

/-- The channel that a bank belongs to after `CAN_SlaveStartBank(15)`. -/
def FilterInit.channel (init : FilterInit) : Nat := if init.filterNumber < 15 then 1 else 2

/-- A data frame with a standard identifier passes a filter bank of a channel into a
FIFO. -/
def FilterSetup.Accepts (setup : FilterSetup) (channel fifo stdId : Nat) : Prop :=
  ∃ init ∈ setup.inits, init.channel = channel ∧ init.fifoAssignment = fifo ∧
    stdId * 2 ^ 5 ∈ init.ids

/-- The array after the identifiers of a group. -/
def Temp.pushes (ids : List Nat) : Temp := ids.foldl Temp.push .empty

/-- The identifiers of a list lie at the front of an array, and its counter counts
them. -/
structure Temp.Holds (temp : Temp) (ids : List Nat) : Prop where
  num : temp.num = ids.length
  cell : ∀ i < ids.length, temp.cell i = shifted (ids.getD i 0)

namespace Temp

variable {temp : Temp} {ids : List Nat}

theorem push_cell (temp : Temp) (dataID : Nat) :
    (temp.push dataID).cell = Function.update temp.cell temp.num (shifted dataID) := rfl

theorem Holds.push (holds : temp.Holds ids) (short : ids.length < 127) (dataID : Nat) :
    (temp.push dataID).Holds (ids ++ [dataID]) := by
  obtain ⟨num, cell⟩ := holds
  constructor
  · have small : toInt8 (ids.length + 1) = ids.length + 1 := toInt8_of_lt (by omega) (by omega)
    simp [Temp.push, num, small]
  · intro i inside
    rw [List.length_append, List.length_singleton] at inside
    rcases Nat.lt_succ_iff_lt_or_eq.mp inside with older | rfl
    · have apart : (i : Int) ≠ temp.num := by omega
      rw [push_cell, Function.update_of_ne apart, cell i older, List.getD_append _ _ _ _ older]
    · rw [push_cell, ← num, Function.update_self, List.getD_append_right _ _ _ _ (Nat.le_refl _)]
      simp

theorem holds_pushes (short : ids.length ≤ 127) : (pushes ids).Holds ids := by
  induction ids using List.reverseRecOn with
  | nil => exact ⟨rfl, by simp⟩
  | append_singleton ids dataID ih =>
    rw [List.length_append, List.length_singleton] at short
    rw [pushes, List.foldl_append]
    exact (ih (by omega)).push (by omega) dataID

/-- The loop that fills up the last bank repeats the last identifier. -/
theorem foldl_padAt (temp : Temp) (count : Nat) :
    ((List.range count).foldl padAt temp).num = temp.num ∧
      ∀ i : Int, ((List.range count).foldl padAt temp).cell i =
        if temp.num ≤ i ∧ i < temp.num + count then temp.cell (temp.num - 1) else temp.cell i := by
  induction count with
  | zero =>
    refine ⟨rfl, fun i => ?_⟩
    rw [if_neg (by omega)]
    rfl
  | succ count ih =>
    obtain ⟨num, cell⟩ := ih
    rw [List.range_succ, List.foldl_append]
    refine ⟨num, fun i => ?_⟩
    simp only [List.foldl_cons, List.foldl_nil, padAt, num]
    by_cases last : i = temp.num + count
    · subst last
      rw [Function.update_self, cell, if_neg (by omega), if_pos (by omega)]
    · rw [Function.update_of_ne last, cell]
      congr 1
      simp only [eq_iff_iff]
      omega

/-- The loops of a group with some identifiers, counted in natural numbers. -/
theorem Holds.counts (holds : temp.Holds ids) (some_ : 0 < ids.length) :
    temp.missing = 3 - (ids.length - 1) % 4 ∧ temp.bankCount = (ids.length - 1) / 4 + 1 := by
  have last : temp.num - 1 = ((ids.length - 1 : Nat) : Int) := by
    rw [holds.num]
    omega
  constructor
  · rw [missing, last, Int.tmod_eq_emod_of_nonneg (by omega)]
    omega
  · rw [bankCount, last, Int.tdiv_eq_ediv_of_nonneg (by omega), if_pos (by rw [holds.num]; omega)]
    omega

theorem pad_num (temp : Temp) : temp.pad.num = temp.num := (foldl_padAt temp temp.missing).1

theorem pad_bankCount (temp : Temp) : temp.pad.bankCount = temp.bankCount := by
  rw [bankCount, pad_num, bankCount]

/-- The elements of the banks: the identifiers, and then the last one again. -/
theorem Holds.pad_cell (holds : temp.Holds ids) (some_ : 0 < ids.length) {i : Nat}
    (inside : i < 4 * temp.bankCount) :
    temp.pad.cell i = shifted (ids.getD (min i (ids.length - 1)) 0) := by
  obtain ⟨missing, banks⟩ := holds.counts some_
  rw [pad, (foldl_padAt temp _).2, holds.num]
  by_cases older : i < ids.length
  · rw [if_neg (by omega), holds.cell i older, Nat.min_eq_left (by omega)]
  · have last : (ids.length : Int) - 1 = ((ids.length - 1 : Nat) : Int) := by omega
    rw [if_pos (by omega), last, holds.cell _ (by omega), Nat.min_eq_right (by omega)]

/-- The elements of the banks of a group, in the order of the array. -/
theorem mem_bankIds_iff (temp : Temp) (banks value : Nat) :
    (∃ i < banks, value ∈ temp.bankIds i) ↔ ∃ k < 4 * banks, value = temp.cell (k : Nat) := by
  constructor
  · rintro ⟨i, inside, member⟩
    simp only [bankIds, List.mem_cons, List.not_mem_nil, or_false] at member
    rcases member with rfl | rfl | rfl | rfl
    · exact ⟨4 * i + 0, by omega, by simp⟩
    · exact ⟨4 * i + 1, by omega, by simp⟩
    · exact ⟨4 * i + 2, by omega, by simp⟩
    · exact ⟨4 * i + 3, by omega, by simp⟩
  · rintro ⟨k, inside, rfl⟩
    refine ⟨k / 4, by omega, ?_⟩
    have place : (k : Int) = 4 * (k / 4 : Nat) + (k % 4 : Nat) := by omega
    have position : k % 4 = 0 ∨ k % 4 = 1 ∨ k % 4 = 2 ∨ k % 4 = 3 := by omega
    rw [place]
    rcases position with rest | rest | rest | rest <;> rw [rest] <;> simp [bankIds]

/-- The banks of a group hold exactly its identifiers. -/
theorem Holds.mem_bankIds (holds : temp.Holds ids) (some_ : 0 < ids.length) (value : Nat) :
    (∃ i < temp.bankCount, value ∈ temp.pad.bankIds i) ↔ value ∈ ids.map shifted := by
  obtain ⟨-, banks⟩ := holds.counts some_
  rw [mem_bankIds_iff, List.mem_map]
  constructor
  · rintro ⟨k, inside, rfl⟩
    have least : min k (ids.length - 1) < ids.length := by omega
    refine ⟨ids.getD (min k (ids.length - 1)) 0, ?_, (holds.pad_cell some_ inside).symm⟩
    rw [List.getD_eq_getElem _ _ least]
    exact List.getElem_mem least
  · rintro ⟨dataID, member, rfl⟩
    obtain ⟨k, inside, rfl⟩ := List.getElem_of_mem member
    refine ⟨k, by omega, ?_⟩
    rw [holds.pad_cell some_ (by omega), Nat.min_eq_left (by omega),
      List.getD_eq_getElem _ _ inside]

end Temp

section Groups

variable {Obj Func : Type}

/-- The rows of a group. A FIFO number other than 0 counts as 1. -/
def CanData.InGroup (entry : CanData Obj Func) (channel fifo : Nat) : Prop :=
  entry.dataType = .readOnly ∧ entry.channel = channel ∧ (entry.fifoNum = 0 ↔ fifo = 0)

instance (entry : CanData Obj Func) (channel fifo : Nat) : Decidable (entry.InGroup channel fifo) := by
  unfold CanData.InGroup
  infer_instance

/-- The identifiers of a group in the order of the table. -/
def groupIds (table : List (CanData Obj Func)) (channel fifo : Nat) : List Nat :=
  (table.filter fun entry => entry.InGroup channel fifo).map CanData.dataID

theorem pushes_snoc (ids : List Nat) (dataID : Nat) :
    Temp.pushes (ids ++ [dataID]) = (Temp.pushes ids).push dataID := by
  rw [Temp.pushes, List.foldl_append]
  rfl

theorem pushes_groupIds_snoc (table : List (CanData Obj Func)) (entry : CanData Obj Func)
    (channel fifo : Nat) :
    Temp.pushes (groupIds (table ++ [entry]) channel fifo) =
      if entry.InGroup channel fifo then
        (Temp.pushes (groupIds table channel fifo)).push entry.dataID
      else Temp.pushes (groupIds table channel fifo) := by
  rw [groupIds, List.filter_append, List.map_append, ← groupIds]
  split_ifs with member
  · rw [← pushes_snoc]
    simp [member]
  · simp [member]

/-- The loop over the table sorts the identifiers into their groups. -/
theorem collect_eq (table : List (CanData Obj Func)) :
    Temps.collect table =
      ⟨.pushes (groupIds table 1 0), .pushes (groupIds table 1 1), .pushes (groupIds table 2 0),
        .pushes (groupIds table 2 1)⟩ := by
  induction table using List.reverseRecOn with
  | nil => rfl
  | append_singleton table entry ih =>
    rw [Temps.collect, List.foldl_append, ← Temps.collect, ih]
    simp only [pushes_groupIds_snoc, List.foldl_cons, List.foldl_nil, Temps.sort,
      CanData.InGroup]
    by_cases reads : entry.dataType = .readOnly
    · by_cases first : entry.channel = 1
      · by_cases front : entry.fifoNum = 0 <;> simp [reads, first, front]
      · by_cases second : entry.channel = 2
        · by_cases front : entry.fifoNum = 0 <;> simp [reads, second, front]
        · simp [first, second]
    · simp [reads]

/-- The banks that a group needs. -/
def banksFor (ids : List Nat) : Nat := (ids.length + 3) / 4

/-- The banks of one group, all on one channel, accept its identifiers. -/
theorem accepts_inits {ids : List Nat} (some_ : 0 < ids.length) (short : ids.length ≤ 127)
    (filterBank : Int) (first home : Nat) (starts : filterBank = first)
    (side : first + banksFor ids ≤ 15 ∧ home = 1 ∨
      15 ≤ first ∧ first + banksFor ids ≤ 28 ∧ home = 2)
    (assigned channel fifo value : Nat) :
    (∃ init ∈ (Temp.pushes ids).pad.inits filterBank assigned, init.channel = channel ∧
      init.fifoAssignment = fifo ∧ value ∈ init.ids) ↔
      channel = home ∧ fifo = assigned ∧ value ∈ ids.map shifted := by
  have holds := Temp.holds_pushes short
  have count : (Temp.pushes ids).bankCount = banksFor ids := by
    rw [(holds.counts some_).2, banksFor]
    omega
  have channels : ∀ i : Nat, i < banksFor ids →
      (if toInt8 (filterBank + i) < 15 then 1 else 2) = home := by
    intro i inside
    rw [starts, toInt8_of_lt (by omega) (by omega)]
    split_ifs <;> omega
  rw [← holds.mem_bankIds some_]
  simp only [Temp.inits, Temp.pad_bankCount, List.mem_map, List.mem_range, count]
  constructor
  · rintro ⟨_, ⟨i, inside, rfl⟩, rfl, rfl, member⟩
    exact ⟨channels i inside, rfl, i, inside, member⟩
  · rintro ⟨rfl, rfl, i, inside, member⟩
    exact ⟨_, ⟨i, inside, rfl⟩, channels i inside, rfl, member⟩

/-- A table that the temporary arrays, the counters and the filter banks suffice for. -/
structure Fits (table : List (CanData Obj Func)) : Prop where
  short : table.length ≤ 127
  standard : ∀ entry ∈ table, entry.dataID < 2048
  used : ∀ channel fifo, channel = 1 ∨ channel = 2 → fifo = 0 ∨ fifo = 1 →
    0 < (groupIds table channel fifo).length
  can1 : banksFor (groupIds table 1 0) + banksFor (groupIds table 1 1) ≤ 15
  can2 : banksFor (groupIds table 2 0) + banksFor (groupIds table 2 1) ≤ 13

theorem length_groupIds_le (table : List (CanData Obj Func)) (channel fifo : Nat) :
    (groupIds table channel fifo).length ≤ table.length := by
  rw [groupIds, List.length_map]
  exact List.length_filter_le ..

theorem shifted_eq_iff {table : List (CanData Obj Func)} (fits : Fits table)
    {channel fifo stdId : Nat} :
    stdId * 2 ^ 5 ∈ (groupIds table channel fifo).map shifted ↔
      ∃ entry ∈ table, entry.InGroup channel fifo ∧ entry.dataID = stdId := by
  simp only [groupIds, List.map_map, List.mem_map, List.mem_filter, decide_eq_true_eq,
    Function.comp_apply, shifted]
  constructor
  · rintro ⟨entry, ⟨member, grouped⟩, same⟩
    have small := fits.standard entry member
    exact ⟨entry, member, grouped, by omega⟩
  · rintro ⟨entry, member, grouped, rfl⟩
    have small := fits.standard entry member
    exact ⟨entry, ⟨member, grouped⟩, by omega⟩

theorem canDataNum_of_fits {table : List (CanData Obj Func)} (fits : Fits table) :
    (canDataNum table).toNat = table.length := by
  have short := fits.short
  rw [canDataNum, UInt8.toNat_ofNat_of_lt' (by simp only [UInt8.size]; omega)]

/-- A group of a fitting table has its place in the counters and in the banks. -/
theorem Fits.group {table : List (CanData Obj Func)} (fits : Fits table) {channel fifo : Nat}
    (known : channel = 1 ∨ channel = 2) (queue : fifo = 0 ∨ fifo = 1) :
    0 < (groupIds table channel fifo).length ∧ (groupIds table channel fifo).length ≤ 127 ∧
      (Temp.pushes (groupIds table channel fifo)).pad.bankCount =
        banksFor (groupIds table channel fifo) := by
  have some_ := fits.used channel fifo known queue
  have few := Nat.le_trans (length_groupIds_le table channel fifo) fits.short
  refine ⟨some_, few, ?_⟩
  rw [Temp.pad_bankCount, ((Temp.holds_pushes few).counts some_).2, banksFor]
  omega

/-- What the configuration does with a fitting table, group by group. -/
theorem canFilterConfig_eq {table : List (CanData Obj Func)} (fits : Fits table) :
    canFilterConfig table =
      some
        { inits :=
            (Temp.pushes (groupIds table 1 0)).pad.inits 0 0 ++
              (Temp.pushes (groupIds table 1 1)).pad.inits (banksFor (groupIds table 1 0)) 1 ++
              (Temp.pushes (groupIds table 2 0)).pad.inits 15 0 ++
              (Temp.pushes (groupIds table 2 1)).pad.inits
                (15 + banksFor (groupIds table 2 0) : Nat) 1
          temps :=
            ⟨(Temp.pushes (groupIds table 1 0)).pad, (Temp.pushes (groupIds table 1 1)).pad,
              (Temp.pushes (groupIds table 2 0)).pad, (Temp.pushes (groupIds table 2 1)).pad⟩ } := by
  obtain ⟨-, -, count10⟩ := fits.group (.inl rfl) (.inl rfl)
  obtain ⟨-, -, count20⟩ := fits.group (.inr rfl) (.inl rfl)
  have short := fits.short
  have can1 := fits.can1
  have can2 := fits.can2
  have second1 : toInt8 (0 + (banksFor (groupIds table 1 0) : Nat)) =
      (banksFor (groupIds table 1 0) : Nat) := by
    rw [toInt8_of_lt (by omega) (by omega), Int.zero_add]
  have second2 : toInt8 (15 + (banksFor (groupIds table 2 0) : Nat)) =
      (15 + banksFor (groupIds table 2 0) : Nat) := by
    rw [toInt8_of_lt (by omega) (by omega)]
    rfl
  rw [canFilterConfig, if_pos (by rw [canDataNum_of_fits fits]; exact short),
    canDataNum_of_fits fits, List.take_length, collect_eq]
  simp only [Temps.pad, Temps.program, count10, count20, second1, second2]

/-- The banks of a fitting table hold exactly the identifiers of the rows to be read, on
their channel and for their FIFO. -/
theorem mem_inits_iff {table : List (CanData Obj Func)} (fits : Fits table) {setup : FilterSetup}
    (configured : canFilterConfig table = some setup) (channel fifo value : Nat) :
    (∃ init ∈ setup.inits, init.channel = channel ∧ init.fifoAssignment = fifo ∧
      value ∈ init.ids) ↔
      (channel = 1 ∨ channel = 2) ∧ (fifo = 0 ∨ fifo = 1) ∧
        value ∈ (groupIds table channel fifo).map shifted := by
  rw [canFilterConfig_eq fits, Option.some.injEq] at configured
  subst configured
  have can1 := fits.can1
  have can2 := fits.can2
  obtain ⟨some10, few10, -⟩ := fits.group (.inl rfl) (.inl rfl)
  obtain ⟨some11, few11, -⟩ := fits.group (.inl rfl) (.inr rfl)
  obtain ⟨some20, few20, -⟩ := fits.group (.inr rfl) (.inl rfl)
  obtain ⟨some21, few21, -⟩ := fits.group (.inr rfl) (.inr rfl)
  simp only [List.mem_append, or_and_right, exists_or]
  rw [accepts_inits some10 few10 0 0 1 rfl (by omega),
    accepts_inits some11 few11 _ _ 1 rfl (by omega),
    accepts_inits some20 few20 15 15 2 rfl (by omega),
    accepts_inits some21 few21 _ _ 2 rfl (by omega)]
  constructor
  · rintro (((⟨rfl, rfl, row⟩ | ⟨rfl, rfl, row⟩) | ⟨rfl, rfl, row⟩) | ⟨rfl, rfl, row⟩)
    · exact .inl ⟨rfl, .inl ⟨rfl, row⟩⟩
    · exact .inl ⟨rfl, .inr ⟨rfl, row⟩⟩
    · exact .inr ⟨rfl, .inl ⟨rfl, row⟩⟩
    · exact .inr ⟨rfl, .inr ⟨rfl, row⟩⟩
  · rintro (⟨rfl, ⟨rfl, row⟩ | ⟨rfl, row⟩⟩ | ⟨rfl, ⟨rfl, row⟩ | ⟨rfl, row⟩⟩)
    · exact .inl (.inl (.inl ⟨rfl, rfl, row⟩))
    · exact .inl (.inl (.inr ⟨rfl, rfl, row⟩))
    · exact .inl (.inr ⟨rfl, rfl, row⟩)
    · exact .inr ⟨rfl, rfl, row⟩

/-- The filters of a fitting table let through exactly the rows to be read, on their
channel and into their FIFO. -/
theorem canFilterConfig_accepts {table : List (CanData Obj Func)} (fits : Fits table) :
    ∃ setup, canFilterConfig table = some setup ∧ ∀ channel fifo stdId,
      setup.Accepts channel fifo stdId ↔ (channel = 1 ∨ channel = 2) ∧ (fifo = 0 ∨ fifo = 1) ∧
        ∃ entry ∈ table, entry.InGroup channel fifo ∧ entry.dataID = stdId := by
  refine ⟨_, canFilterConfig_eq fits, fun channel fifo stdId => ?_⟩
  rw [FilterSetup.Accepts, mem_inits_iff fits (canFilterConfig_eq fits), shifted_eq_iff fits]

end Groups

end BadmintonRobot.Can
