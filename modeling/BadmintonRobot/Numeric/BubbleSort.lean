import Mathlib.Data.Finset.Card
import Mathlib.Data.List.Nodup
import Mathlib.Order.Interval.Finset.Nat

/-!
# Bubble sort

An array is a function of its index, so that a sort can be seen to leave the rest of the memory
alone. A pass rearranges a front part of the array and brings its largest element to the end of
that part. An element of a sorted array lies in every interval that holds enough of the array.
-/

namespace BadmintonRobot.Numeric

variable {α : Type}

section Sorting

variable [LinearOrder α]

/-- Exchange an element and the one behind it if they are not in order. -/
def exchange (a : Nat → α) (i : Nat) : Nat → α :=
  if a i > a (i + 1) then Function.update (Function.update a i (a (i + 1))) (i + 1) (a i) else a

/-- A pass over the places before `count`. -/
def pass (a : Nat → α) : (count : Nat) → Nat → α
  | 0 => a
  | count + 1 => exchange (pass a count) count

/-- The first `rounds` passes over an array of the given length, each one place shorter than the
one before. -/
def passes (a : Nat → α) (length : Nat) : (rounds : Nat) → Nat → α
  | 0 => a
  | rounds + 1 => pass (passes a length rounds) (length - rounds - 1)

def bubbleSort (a : Nat → α) (length : Nat) : Nat → α := passes a length length

end Sorting

section Rearranged

/-- `b` has the elements of `a`, and those from the place `length` on where `a` has them. -/
def Rearranged (a b : Nat → α) (length : Nat) : Prop :=
  ∃ places : Equiv.Perm Nat, b = a ∘ places ∧ ∀ k, length ≤ k → places k = k

/-- A permutation that moves nothing from some place on keeps the places before it together. -/
theorem apply_lt_iff {places : Equiv.Perm Nat} {length : Nat}
    (fixed : ∀ k, length ≤ k → places k = k) (k : Nat) : places k < length ↔ k < length := by
  constructor
  · intro inside
    by_contra beyond
    rw [fixed k (not_lt.mp beyond)] at inside
    exact beyond inside
  · intro inside
    by_contra beyond
    have same : places k = k := places.injective (fixed (places k) (not_lt.mp beyond))
    rw [same] at beyond
    exact beyond inside

namespace Rearranged

variable {a b c : Nat → α} {length : Nat}

theorem refl (a : Nat → α) (length : Nat) : Rearranged a a length :=
  ⟨Equiv.refl Nat, rfl, fun _ _ => rfl⟩

theorem trans (first : Rearranged a b length) (second : Rearranged b c length) :
    Rearranged a c length := by
  obtain ⟨σ, rfl, fixed⟩ := first
  obtain ⟨τ, rfl, still⟩ := second
  refine ⟨τ.trans σ, rfl, fun k outside => ?_⟩
  rw [Equiv.trans_apply, still k outside, fixed k outside]

theorem mono {shorter : Nat} (rearranged : Rearranged a b shorter) (le : shorter ≤ length) :
    Rearranged a b length := by
  obtain ⟨σ, rfl, fixed⟩ := rearranged
  exact ⟨σ, rfl, fun k outside => fixed k (le.trans outside)⟩

theorem outside (rearranged : Rearranged a b length) {k : Nat} (outside : length ≤ k) :
    b k = a k := by
  obtain ⟨σ, rfl, fixed⟩ := rearranged
  rw [Function.comp_apply, fixed k outside]

/-- An element of the front part comes from the front part. -/
theorem inside (rearranged : Rearranged a b length) {k : Nat} (inside : k < length) :
    ∃ j < length, b k = a j := by
  obtain ⟨σ, rfl, fixed⟩ := rearranged
  exact ⟨σ k, (apply_lt_iff fixed k).mpr inside, rfl⟩

/-- The front parts are permutations of each other. -/
theorem perm (rearranged : Rearranged a b length) :
    ((List.range length).map b).Perm ((List.range length).map a) := by
  obtain ⟨σ, rfl, fixed⟩ := rearranged
  rw [← List.map_map]
  refine List.Perm.map a ?_
  rw [List.perm_ext_iff_of_nodup (List.Nodup.map σ.injective List.nodup_range) List.nodup_range]
  intro j
  rw [List.mem_map, List.mem_range]
  constructor
  · rintro ⟨k, inside, rfl⟩
    exact (apply_lt_iff fixed k).mpr (List.mem_range.mp inside)
  · intro inside
    refine ⟨σ.symm j, List.mem_range.mpr ?_, σ.apply_symm_apply j⟩
    rwa [← apply_lt_iff fixed, σ.apply_symm_apply]

/-- As many elements of the front parts have a property. -/
theorem card_filter (rearranged : Rearranged a b length) (P : α → Prop) [DecidablePred P] :
    ((Finset.range length).filter fun k => P (b k)).card =
      ((Finset.range length).filter fun k => P (a k)).card := by
  obtain ⟨σ, rfl, fixed⟩ := rearranged
  refine Finset.card_equiv σ fun k => ?_
  rw [Finset.mem_filter, Finset.mem_filter, Finset.mem_range, Finset.mem_range, apply_lt_iff fixed]
  rfl

end Rearranged

end Rearranged

section Correctness

variable [LinearOrder α] (a : Nat → α)

theorem rearranged_exchange (i : Nat) : Rearranged a (exchange a i) (i + 2) := by
  rw [exchange]
  split
  · refine ⟨Equiv.swap i (i + 1), ?_, fun k outside => ?_⟩
    · funext k
      rw [Function.comp_apply, Equiv.swap_apply_def]
      by_cases last : k = i + 1
      · simp [last]
      · by_cases first : k = i
        · simp [first]
        · simp [first, last]
    · exact Equiv.swap_apply_of_ne_of_ne (by omega) (by omega)
  · exact .refl a _

theorem rearranged_pass (count : Nat) : Rearranged a (pass a count) (count + 1) := by
  induction count with
  | zero => exact .refl a _
  | succ count ih => exact (ih.mono (by omega)).trans (rearranged_exchange _ count)

/-- A pass brings the largest element to the end. -/
theorem le_pass {count k : Nat} (inside : k ≤ count) : pass a count k ≤ pass a count count := by
  induction count generalizing k with
  | zero =>
    obtain rfl : k = 0 := by omega
    exact le_rfl
  | succ count ih =>
    rw [pass, exchange]
    split
    · next unordered =>
      rw [Function.update_self]
      by_cases last : k = count + 1
      · rw [last, Function.update_self]
      · rw [Function.update_of_ne last]
        by_cases before : k = count
        · rw [before, Function.update_self]
          exact le_of_lt unordered
        · rw [Function.update_of_ne before]
          exact ih (by omega)
    · next ordered =>
      by_cases last : k = count + 1
      · rw [last]
      · exact (ih (by omega)).trans (not_lt.mp ordered)

theorem rearranged_passes (length rounds : Nat) (le : rounds ≤ length) :
    Rearranged a (passes a length rounds) length := by
  induction rounds with
  | zero => exact .refl a _
  | succ rounds ih =>
    exact (ih (by omega)).trans ((rearranged_pass _ _).mono (by omega))

/-- After some passes the elements at the end are in their places. -/
theorem passes_le {length rounds : Nat} (le : rounds ≤ length) {j k : Nat} (before : j ≤ k)
    (settled : length - rounds ≤ k) (inside : k < length) :
    passes a length rounds j ≤ passes a length rounds k := by
  induction rounds generalizing j k with
  | zero => omega
  | succ rounds ih =>
    rw [passes]
    have rearranged := rearranged_pass (passes a length rounds) (length - rounds - 1)
    by_cases last : k = length - rounds - 1
    · rw [last]
      exact le_pass _ (by omega)
    · rw [rearranged.outside (k := k) (by omega)]
      by_cases front : j < length - rounds - 1 + 1
      · obtain ⟨i, bound, same⟩ := rearranged.inside front
        rw [same]
        exact ih (by omega) (by omega) (by omega) inside
      · rw [rearranged.outside (k := j) (by omega)]
        exact ih (by omega) before (by omega) inside

theorem rearranged_bubbleSort (length : Nat) : Rearranged a (bubbleSort a length) length :=
  rearranged_passes a length length le_rfl

theorem bubbleSort_le {length j k : Nat} (before : j ≤ k) (inside : k < length) :
    bubbleSort a length j ≤ bubbleSort a length k :=
  passes_le a le_rfl before (by omega) inside

end Correctness

section Ranks

variable [LinearOrder α] {a : Nat → α} {length m : Nat} {lo hi : α}

/-- An element of a sorted array is in an interval, if the elements in it are more than those
before the place of the element, and more than those behind it. -/
theorem mem_interval_of_sorted (sorted : ∀ j k, j ≤ k → k < length → a j ≤ a k)
    (inside : m < length)
    (before : m < ((Finset.range length).filter fun k => lo ≤ a k ∧ a k ≤ hi).card)
    (behind : length - (m + 1) < ((Finset.range length).filter fun k => lo ≤ a k ∧ a k ≤ hi).card) :
    lo ≤ a m ∧ a m ≤ hi := by
  constructor
  · by_contra low
    have late : ((Finset.range length).filter fun k => lo ≤ a k ∧ a k ≤ hi) ⊆
        Finset.Ico (m + 1) length := by
      intro k member
      rw [Finset.mem_filter, Finset.mem_range] at member
      rw [Finset.mem_Ico]
      refine ⟨?_, member.1⟩
      by_contra early
      exact low (member.2.1.trans (sorted k m (by omega) inside))
    have few := Finset.card_le_card late
    rw [Nat.card_Ico] at few
    omega
  · by_contra high
    have early : ((Finset.range length).filter fun k => lo ≤ a k ∧ a k ≤ hi) ⊆ Finset.range m := by
      intro k member
      rw [Finset.mem_filter, Finset.mem_range] at member
      rw [Finset.mem_range]
      by_contra late
      exact high ((sorted m k (by omega) member.1).trans member.2.2)
    have few := Finset.card_le_card early
    rw [Finset.card_range] at few
    omega

end Ranks

end BadmintonRobot.Numeric
