import Mathlib
import BadmintonRobot.Can.Filter
import BadmintonRobot.Can.Table

/-!
# The installed filters

For a table that the arrays and the banks suffice for, `Can_FILTER_Config` stays
inside its temporary arrays, gives every group its own banks on the side of its
channel, and installs the identifiers of the rows to be read and no others.
-/

namespace BadmintonRobot.Can

/-- The number of elements of `temp1` to `temp4`. -/
def tempSize : Int := 14 * 4

/-- Every index used so far is one of the array. -/
def Temp.InBounds (temp : Temp) : Prop := ∀ i ∈ temp.touched, 0 ≤ i ∧ i < tempSize

namespace Temp

variable {temp : Temp} {ids : List Nat}

theorem InBounds.append {indices : List Int} {next : Temp} (inBounds : temp.InBounds)
    (touched : next.touched = temp.touched ++ indices)
    (inside : ∀ i ∈ indices, 0 ≤ i ∧ i < tempSize) : next.InBounds := by
  intro i member
  rw [touched, List.mem_append] at member
  rcases member with older | newer
  · exact inBounds i older
  · exact inside i newer

theorem inBounds_pushes (short : ids.length ≤ 56) : (pushes ids).InBounds := by
  induction ids using List.reverseRecOn with
  | nil =>
    intro i member
    cases member
  | append_singleton ids dataID ih =>
    rw [List.length_append, List.length_singleton] at short
    have holds : (pushes ids).Holds ids := holds_pushes (by omega)
    rw [pushes_snoc]
    apply (ih (by omega)).append rfl
    intro i member
    rw [List.mem_singleton, holds.num] at member
    rw [tempSize]
    omega

/-- The padding loop stays inside the array as long as the filled banks do. -/
theorem InBounds.foldl_padAt (inBounds : temp.InBounds) (some_ : 0 < temp.num) (count : Nat)
    (room : temp.num + count ≤ tempSize) :
    ((List.range count).foldl padAt temp).InBounds := by
  induction count with
  | zero => exact inBounds
  | succ count ih =>
    have num := (Temp.foldl_padAt temp count).1
    rw [List.range_succ, List.foldl_append]
    apply (ih (by omega)).append rfl
    intro i member
    simp only [List.mem_cons, List.not_mem_nil, or_false, num] at member
    omega

theorem inBounds_pad (some_ : 0 < ids.length) (short : ids.length ≤ 56) :
    (pushes ids).pad.InBounds := by
  have holds : (pushes ids).Holds ids := holds_pushes (by omega)
  apply (inBounds_pushes short).foldl_padAt
  · rw [holds.num]
    omega
  · rw [holds.num, (holds.counts some_).1, tempSize]
    omega

theorem inBounds_bankReads (some_ : 0 < ids.length) (short : ids.length ≤ 56) :
    ∀ i ∈ (pushes ids).pad.bankReads, 0 ≤ i ∧ i < tempSize := by
  have holds : (pushes ids).Holds ids := holds_pushes (by omega)
  intro i member
  rw [bankReads, pad_bankCount, (holds.counts some_).2, List.mem_flatMap] at member
  obtain ⟨bank, inside, place⟩ := member
  rw [List.mem_range] at inside
  simp only [List.mem_cons, List.not_mem_nil, or_false] at place
  rw [tempSize]
  omega

/-- The bank numbers of a group follow one another. -/
theorem inits_filterNumber (temp : Temp) (first fifo : Nat)
    (room : first + temp.bankCount ≤ 127) :
    (temp.inits first fifo).map FilterInit.filterNumber =
      (List.range' first temp.bankCount).map Nat.cast := by
  rw [inits, List.map_map, List.range'_eq_map_range, List.map_map]
  apply List.map_congr_left
  intro i inside
  rw [List.mem_range] at inside
  have small : toInt8 (first + i) = first + i := toInt8_of_lt (by omega) (by omega)
  simpa using small

end Temp

/-- Every access to the temporary arrays is inside them. -/
def FilterSetup.InBounds (setup : FilterSetup) : Prop :=
  ∀ temp ∈ [setup.temps.temp1, setup.temps.temp2, setup.temps.temp3, setup.temps.temp4],
    temp.InBounds ∧ ∀ i ∈ temp.bankReads, 0 ≤ i ∧ i < tempSize

/-- The identifiers installed in the banks of a channel with a FIFO. -/
def FilterSetup.installed (setup : FilterSetup) (channel fifo : Nat) : Set Nat :=
  {value | ∃ init ∈ setup.inits, init.channel = channel ∧ init.fifoAssignment = fifo ∧
    value ∈ init.ids}

/-- No bank is programmed twice, those of CAN1 are 0 to 14 and those of CAN2 are 15
to 27. -/
structure FilterSetup.OwnBanks (setup : FilterSetup) : Prop where
  distinct : (setup.inits.map FilterInit.filterNumber).Nodup
  can1 : ∀ init ∈ setup.inits, init.channel = 1 → 0 ≤ init.filterNumber ∧ init.filterNumber ≤ 14
  can2 : ∀ init ∈ setup.inits, init.channel = 2 → 15 ≤ init.filterNumber ∧ init.filterNumber ≤ 27

section Installed

variable {Obj Func : Type} {table : List (CanData Obj Func)} {setup : FilterSetup}

theorem Fits.filterNumbers (fits : Fits table) {channel fifo : Nat}
    (known : channel = 1 ∨ channel = 2) (queue : fifo = 0 ∨ fifo = 1) (filterBank : Int)
    (first assigned : Nat) (starts : filterBank = first)
    (room : first + banksFor (groupIds table channel fifo) ≤ 127) :
    ((Temp.pushes (groupIds table channel fifo)).pad.inits filterBank assigned).map
        FilterInit.filterNumber =
      (List.range' first (banksFor (groupIds table channel fifo))).map Nat.cast := by
  obtain ⟨-, -, count⟩ := fits.group known queue
  rw [← count] at room ⊢
  rw [starts]
  exact Temp.inits_filterNumber _ first assigned room

/-- The bank numbers of a fitting table, first those of CAN1 and then those of CAN2. -/
theorem filterNumbers_eq (fits : Fits table) (configured : canFilterConfig table = some setup) :
    setup.inits.map FilterInit.filterNumber =
      (List.range' 0 (banksFor (groupIds table 1 0) + banksFor (groupIds table 1 1)) ++
        List.range' 15 (banksFor (groupIds table 2 0) + banksFor (groupIds table 2 1))).map
          Nat.cast := by
  rw [canFilterConfig_eq fits, Option.some.injEq] at configured
  subst configured
  have can1 := fits.can1
  have can2 := fits.can2
  have numbers10 := fits.filterNumbers (.inl rfl) (.inl rfl) 0 0 0 rfl (by omega)
  have numbers11 := fits.filterNumbers (.inl rfl) (.inr rfl) _ (banksFor (groupIds table 1 0)) 1
    rfl (by omega)
  have numbers20 := fits.filterNumbers (.inr rfl) (.inl rfl) 15 15 0 rfl (by omega)
  have numbers21 := fits.filterNumbers (.inr rfl) (.inr rfl) _
    (15 + banksFor (groupIds table 2 0)) 1 rfl (by omega)
  rw [← List.range'_append_1, ← List.range'_append_1, Nat.zero_add]
  simp only [List.map_append, numbers10, numbers11, numbers20, numbers21, List.append_assoc]

theorem ownBanks (fits : Fits table) (configured : canFilterConfig table = some setup) :
    setup.OwnBanks := by
  have numbers := filterNumbers_eq fits configured
  have can1 := fits.can1
  have can2 := fits.can2
  have known : ∀ init ∈ setup.inits, 0 ≤ init.filterNumber ∧ init.filterNumber ≤ 27 := by
    intro init member
    have listed : init.filterNumber ∈ setup.inits.map FilterInit.filterNumber :=
      List.mem_map_of_mem member
    rw [numbers, List.mem_map] at listed
    obtain ⟨number, inside, same⟩ := listed
    rw [List.mem_append, List.mem_range'_1, List.mem_range'_1] at inside
    omega
  constructor
  · rw [numbers]
    apply List.Nodup.map fun _ _ same => Int.ofNat.inj same
    rw [List.nodup_append]
    refine ⟨List.nodup_range', List.nodup_range', ?_⟩
    intro first left second right
    rw [List.mem_range'_1] at left right
    omega
  · intro init member side
    have bounds := known init member
    rw [FilterInit.channel] at side
    split at side <;> omega
  · intro init member side
    have bounds := known init member
    rw [FilterInit.channel] at side
    split at side <;> omega

theorem inBounds (fits : Fits table) (configured : canFilterConfig table = some setup)
    (room : ∀ channel fifo, channel = 1 ∨ channel = 2 → fifo = 0 ∨ fifo = 1 →
      (groupIds table channel fifo).length ≤ 56) :
    setup.InBounds := by
  rw [canFilterConfig_eq fits, Option.some.injEq] at configured
  subst configured
  have group : ∀ channel fifo, channel = 1 ∨ channel = 2 → fifo = 0 ∨ fifo = 1 →
      (Temp.pushes (groupIds table channel fifo)).pad.InBounds ∧
        ∀ i ∈ (Temp.pushes (groupIds table channel fifo)).pad.bankReads,
          0 ≤ i ∧ i < tempSize := by
    intro channel fifo known queue
    have some_ := fits.used channel fifo known queue
    have few := room channel fifo known queue
    exact ⟨Temp.inBounds_pad some_ few, Temp.inBounds_bankReads some_ few⟩
  intro temp member
  simp only [List.mem_cons, List.not_mem_nil, or_false] at member
  rcases member with rfl | rfl | rfl | rfl
  · exact group 1 0 (.inl rfl) (.inl rfl)
  · exact group 1 1 (.inl rfl) (.inr rfl)
  · exact group 2 0 (.inr rfl) (.inl rfl)
  · exact group 2 1 (.inr rfl) (.inr rfl)

theorem installed_eq (fits : Fits table) (configured : canFilterConfig table = some setup)
    {channel fifo : Nat} (known : channel = 1 ∨ channel = 2) (queue : fifo = 0 ∨ fifo = 1) :
    setup.installed channel fifo =
      {value | ∃ entry ∈ table, entry.InGroup channel fifo ∧ value = entry.dataID * 2 ^ 5} := by
  ext value
  rw [FilterSetup.installed, Set.mem_ofPred_eq, Set.mem_ofPred_eq, mem_inits_iff fits configured]
  simp only [known, queue, true_and, groupIds, List.map_map, List.mem_map, List.mem_filter,
    decide_eq_true_eq, Function.comp_apply, shifted]
  constructor
  · rintro ⟨entry, ⟨member, grouped⟩, rfl⟩
    have small := fits.standard entry member
    exact ⟨entry, member, grouped, by omega⟩
  · rintro ⟨entry, member, grouped, rfl⟩
    have small := fits.standard entry member
    exact ⟨entry, ⟨member, grouped⟩, by omega⟩

/-- The filter construction: for a fitting table with at most 56 rows in each group, the
configuration ends, stays inside its arrays, uses banks of its own for each channel, and
installs on each channel and for each FIFO the identifiers of the rows to be read. -/
theorem canFilterConfig_installs (fits : Fits table)
    (room : ∀ channel fifo, channel = 1 ∨ channel = 2 → fifo = 0 ∨ fifo = 1 →
      (groupIds table channel fifo).length ≤ 56) :
    ∃ setup, canFilterConfig table = some setup ∧ setup.InBounds ∧ setup.OwnBanks ∧
      ∀ channel fifo, channel = 1 ∨ channel = 2 → fifo = 0 ∨ fifo = 1 →
        setup.installed channel fifo =
          {value | ∃ entry ∈ table, entry.InGroup channel fifo ∧
            value = entry.dataID * 2 ^ 5} := by
  have configured := canFilterConfig_eq fits
  exact ⟨_, configured, inBounds fits configured room, ownBanks fits configured,
    fun _ _ known queue => installed_eq fits configured known queue⟩

end Installed

/-- The filters fit the table. -/
theorem canDatabase_fits : Fits canDatabase where
  short := by decide
  standard := by decide +kernel
  used := by
    rintro channel fifo (rfl | rfl) (rfl | rfl) <;> decide +kernel
  can1 := by decide +kernel
  can2 := by decide +kernel

/-- The table of the robot needs at most three banks for each group. -/
theorem canDatabase_installs :
    ∃ setup, canFilterConfig canDatabase = some setup ∧ setup.InBounds ∧ setup.OwnBanks ∧
      ∀ channel fifo, channel = 1 ∨ channel = 2 → fifo = 0 ∨ fifo = 1 →
        setup.installed channel fifo =
          {value | ∃ entry ∈ canDatabase, entry.InGroup channel fifo ∧
            value = entry.dataID * 2 ^ 5} := by
  refine canFilterConfig_installs canDatabase_fits ?_
  rintro channel fifo (rfl | rfl) (rfl | rfl) <;> decide +kernel

end BadmintonRobot.Can
