import Mathlib
import BadmintonRobot.General.Mymath

/-!
# The measured speed

`rt_thread_entry_realspe` samples the position into a ring of five slots and keeps the
speeds between neighbouring samples in another ring. Which four speeds are averaged is
written out for each slot. The thread does not initialise its counter, so the slot of the
first sample is whatever the remainder of its first value by 5 says.
-/

namespace BadmintonRobot.Chassis

/-- The variables of `t_realspe.c` and the counter of its thread. The second index of the
arrays is the coordinate. -/
structure Realspe where
  n : Int
  yiqi : Fin 5 → Fin 2 → ℝ
  speed : Fin 5 → Fin 2 → ℝ
  realspeX : ℝ
  realspeY : ℝ
  realspe : ℝ

/-- The slot with a given index. There is none outside of the arrays. -/
def slot (index : Int) : Option (Fin 5) :=
  if inside : 0 ≤ index ∧ index < 5 then some ⟨index.toNat, by omega⟩ else none

/-- The slot that the sample in a slot is compared with. -/
def slotBefore (n : Int) : Option (Fin 5) := if n ≠ 0 then slot (n - 1) else some 4

namespace Realspe

/-- The arrays are zero at power-on, the counter is not initialised. -/
def initial (n : Int) : Realspe where
  n := n
  yiqi _ _ := 0
  speed _ _ := 0
  realspeX := 0
  realspeY := 0
  realspe := 0

/-- Average four of the speeds. -/
noncomputable def average (s : Realspe) (a b c d : Fin 5) : Realspe :=
  let x := (s.speed a 0 + s.speed b 0 + s.speed c 0 + s.speed d 0) / 4
  let y := (s.speed a 1 + s.speed b 1 + s.speed c 1 + s.speed d 1) / 4
  { s with realspeX := x, realspeY := y, realspe := √(x ^ 2 + y ^ 2) }

/-- The branches on `n` behind the comment on the real speed. -/
noncomputable def measure (s : Realspe) (n : Int) : Realspe :=
  if n = 0 then s.average 4 3 2 0
  else if n = 1 then s.average 4 3 1 0
  else if n = 2 then s.average 4 1 2 0
  else if n = 3 then s.average 1 3 2 0
  else if n = 4 then s.average 4 3 2 1
  else s

/-- One turn of `rt_thread_entry_realspe`. It has no result if it leaves an array. -/
noncomputable def turn (position : Fin 2 → ℝ) (s : Realspe) : Option Realspe := do
  let n := s.n.tmod 5
  let now ← slot n
  let sampled := { s with yiqi := Function.update s.yiqi now position }
  let last ← slotBefore n
  let moved :=
    { sampled with
      speed := Function.update sampled.speed now fun c =>
        √((sampled.yiqi last c - sampled.yiqi now c) ^ 2) / 0.005 }
  return { moved.measure n with n := n + 1 }

/-- The variables after some turns that read the given positions. -/
noncomputable def after (start : Int) (position : Nat → Fin 2 → ℝ) : Nat → Option Realspe
  | 0 => some (initial start)
  | k + 1 => (after start position k).bind (turn (position k))

end Realspe

/-- The size of the speed between a sample and the next one, 5 ms later. -/
noncomputable def rate (position : Nat → Fin 2 → ℝ) (k : Nat) (c : Fin 2) : ℝ :=
  |position (k + 1) c - position k c| / 0.005

/-- The mean of four speeds in a row. -/
noncomputable def meanRate (position : Nat → Fin 2 → ℝ) (k : Nat) (c : Fin 2) : ℝ :=
  (∑ i ∈ Finset.range 4, rate position (k + i) c) / 4

/-- The three results are the mean speeds and their norm. -/
structure Realspe.Reports (s : Realspe) (mean : Fin 2 → ℝ) : Prop where
  realspeX : s.realspeX = mean 0
  realspeY : s.realspeY = mean 1
  realspe : s.realspe = √(mean 0 ^ 2 + mean 1 ^ 2)

/-- Every turn stays inside the arrays, and from the sixth one on the results are those of
the latest four speeds. -/
def MeasuresFrom (start : Int) : Prop :=
  ∀ (position : Nat → Fin 2 → ℝ) (k : Nat), ∃ s,
    Realspe.after start position k = some s ∧
      (6 ≤ k → s.Reports (meanRate position (k - 5)))

namespace Realspe

/-- The slot of a sample, if the first one goes to slot `first`. -/
def slotAt (first k : Nat) : Fin 5 := Fin.ofNat 5 (first + k)

theorem slot_natCast (m : Nat) : slot ((m % 5 : Nat) : Int) = some (Fin.ofNat 5 m) := by
  have bound := Nat.mod_lt m (show 0 < 5 by omega)
  rw [slot, dif_pos (by omega)]
  rfl

theorem slotAt_ne {first j k : Nat} (before : j < k) (near : k < j + 5) :
    slotAt first j ≠ slotAt first k := by
  intro same
  have values : (first + j) % 5 = (first + k) % 5 := congrArg Fin.val same
  omega

theorem average_reports (s : Realspe) (a b c d : Fin 5) {mean : Fin 2 → ℝ}
    (same : ∀ e, (s.speed a e + s.speed b e + s.speed c e + s.speed d e) / 4 = mean e) :
    (s.average a b c d).Reports mean := by
  constructor <;> simp only [average, same]

/-- The four slots that are averaged are the last four that were written. -/
theorem measure_reports (s : Realspe) (m : Nat) :
    (s.measure (((m + 3) % 5 : Nat) : Int)).Reports fun c =>
      (∑ i ∈ Finset.range 4, s.speed (Fin.ofNat 5 (m + i)) c) / 4 := by
  have shifted : ∀ i, Fin.ofNat 5 (m + i) = Fin.ofNat 5 (m % 5 + i) := by
    intro i
    apply Fin.ext
    simp only [Fin.val_ofNat]
    omega
  have rest : (m + 3) % 5 = (m % 5 + 3) % 5 := by omega
  simp only [shifted, rest, Finset.sum_range_succ, Finset.sum_range_zero, zero_add]
  have bound := Nat.mod_lt m (show 0 < 5 by omega)
  generalize m % 5 = phase at bound ⊢
  -- one case for each branch of the source
  obtain rfl | rfl | rfl | rfl | rfl :
      phase = 0 ∨ phase = 1 ∨ phase = 2 ∨ phase = 3 ∨ phase = 4 := by omega
  · refine average_reports s 1 3 2 0 fun e => ?_
    change _ = (s.speed 0 e + s.speed 1 e + s.speed 2 e + s.speed 3 e) / 4
    ring
  · refine average_reports s 4 3 2 1 fun e => ?_
    change _ = (s.speed 1 e + s.speed 2 e + s.speed 3 e + s.speed 4 e) / 4
    ring
  · refine average_reports s 4 3 2 0 fun e => ?_
    change _ = (s.speed 2 e + s.speed 3 e + s.speed 4 e + s.speed 0 e) / 4
    ring
  · refine average_reports s 4 3 1 0 fun e => ?_
    change _ = (s.speed 3 e + s.speed 4 e + s.speed 0 e + s.speed 1 e) / 4
    ring
  · refine average_reports s 4 1 2 0 fun e => ?_
    change _ = (s.speed 4 e + s.speed 0 e + s.speed 1 e + s.speed 2 e) / 4
    ring

@[simp] theorem measure_yiqi (s : Realspe) (n : Int) : (s.measure n).yiqi = s.yiqi := by
  simp only [measure, average]
  split_ifs <;> rfl

@[simp] theorem measure_speed (s : Realspe) (n : Int) : (s.measure n).speed = s.speed := by
  simp only [measure, average]
  split_ifs <;> rfl

/-- The rings hold the latest samples and the speeds between them. -/
structure Sampled (first : Nat) (position : Nat → Fin 2 → ℝ) (k : Nat) (s : Realspe) : Prop where
  n : s.n.tmod 5 = (((first + k) % 5 : Nat) : Int)
  yiqi : ∀ j, j < k → k ≤ j + 5 → s.yiqi (slotAt first j) = position j
  speed : ∀ j, j + 1 < k → k ≤ j + 6 → s.speed (slotAt first (j + 1)) = rate position j
  reports : 5 ≤ k → s.Reports (meanRate position (k - 5))

theorem sampled_initial {start : Int} {first : Nat} (phase : start.tmod 5 = first)
    (small : first < 5) (position : Nat → Fin 2 → ℝ) :
    (initial start).Sampled first position 0 where
  n := by
    rw [Nat.add_zero, Nat.mod_eq_of_lt small]
    exact phase
  yiqi j before := by omega
  speed j before := by omega
  reports enough := by omega

theorem slotBefore_natCast (m : Nat) :
    slotBefore ((m % 5 : Nat) : Int) = some (Fin.ofNat 5 (m + 4)) := by
  rw [slotBefore]
  split_ifs with inner
  · have wrapped : ((m % 5 : Nat) : Int) - 1 = (((m + 4) % 5 : Nat) : Int) := by omega
    rw [wrapped, slot_natCast]
  · congr 1
    apply Fin.ext
    simp only [Fin.val_ofNat]
    change 4 = (m + 4) % 5
    omega

/-- What a turn stores, before the speeds are averaged. -/
noncomputable def stored (s : Realspe) (position : Fin 2 → ℝ) (now last : Fin 5) : Realspe :=
  { s with
    yiqi := Function.update s.yiqi now position
    speed := Function.update s.speed now fun c =>
      |Function.update s.yiqi now position last c - position c| / 0.005 }

theorem turn_eq (s : Realspe) (position : Fin 2 → ℝ) {m : Nat}
    (phase : s.n.tmod 5 = ((m % 5 : Nat) : Int)) :
    turn position s = some
      { (s.stored position (Fin.ofNat 5 m) (Fin.ofNat 5 (m + 4))).measure ((m % 5 : Nat) : Int) with
        n := ((m % 5 : Nat) : Int) + 1 } := by
  simp only [turn, phase, slot_natCast, slotBefore_natCast, Real.sqrt_sq_eq_abs, Function.update_self,
    stored, Option.bind_eq_bind, Option.bind_some]
  rfl

namespace Sampled

variable {first k : Nat} {position : Nat → Fin 2 → ℝ} {s : Realspe}

/-- The variables after the turn that reads sample `k` and stores it, before it averages. -/
noncomputable def next (s : Realspe) (first : Nat) (position : Nat → Fin 2 → ℝ) (k : Nat) :
    Realspe :=
  s.stored (position k) (slotAt first k) (slotAt first (k + 4))

theorem next_yiqi (sampled : s.Sampled first position k) (j : Nat) (before : j < k + 1)
    (near : k + 1 ≤ j + 5) :
    (next s first position k).yiqi (slotAt first j) = position j := by
  by_cases newest : j = k
  · subst newest
    exact Function.update_self ..
  · have apart : slotAt first j ≠ slotAt first k := slotAt_ne (by omega) (by omega)
    exact (Function.update_of_ne apart _ _).trans (sampled.yiqi j (by omega) (by omega))

theorem next_speed (sampled : s.Sampled first position k) (j : Nat) (before : j + 1 < k + 1)
    (near : k + 1 ≤ j + 6) :
    (next s first position k).speed (slotAt first (j + 1)) = rate position j := by
  by_cases newest : j + 1 = k
  · subst newest
    have previous : slotAt first (j + 1 + 4) = slotAt first j := by
      apply Fin.ext
      simp only [slotAt, Fin.val_ofNat]
      omega
    have sample := sampled.next_yiqi j (by omega) (by omega)
    refine (Function.update_self ..).trans ?_
    ext c
    rw [previous, rate, abs_sub_comm]
    exact congrArg (fun point => |position (j + 1) c - point c| / 0.005) sample
  · have apart : slotAt first (j + 1) ≠ slotAt first k := slotAt_ne (by omega) (by omega)
    exact (Function.update_of_ne apart _ _).trans (sampled.speed j (by omega) (by omega))

/-- The branch of the source for the slot averages the speeds of the latest samples. -/
theorem next_reports (sampled : s.Sampled first position k) (enough : 4 ≤ k) :
    ((next s first position k).measure (((first + k) % 5 : Nat) : Int)).Reports
      (meanRate position (k - 4)) := by
  obtain ⟨t, rfl⟩ := Nat.exists_eq_add_of_le' enough
  have window := measure_reports (next s first position (t + 4)) (first + (t + 1))
  have branch : (first + (t + 1) + 3) % 5 = (first + (t + 4)) % 5 := by omega
  have means : (fun c => (∑ i ∈ Finset.range 4, (next s first position (t + 4)).speed
      (Fin.ofNat 5 (first + (t + 1) + i)) c) / 4) = meanRate position t := by
    ext c
    have speeds : ∀ i ∈ Finset.range 4, (next s first position (t + 4)).speed
        (Fin.ofNat 5 (first + (t + 1) + i)) c = rate position (t + i) c := by
      intro i member
      have inside := Finset.mem_range.mp member
      rw [show first + (t + 1) + i = first + (t + i + 1) by omega]
      exact congrFun (sampled.next_speed (t + i) (by omega) (by omega)) c
    rw [meanRate, Finset.sum_congr rfl speeds]
  rw [branch, means] at window
  simpa using window

/-- The next turn goes to the next slot. -/
theorem turn (sampled : s.Sampled first position k) :
    ∃ next, Realspe.turn (position k) s = some next ∧ next.Sampled first position (k + 1) := by
  refine ⟨_, turn_eq s (position k) sampled.n, ?_, ?_, ?_, ?_⟩
  · change ((((first + k) % 5 : Nat) : Int) + 1).tmod 5 = (((first + (k + 1)) % 5 : Nat) : Int)
    rw [Int.tmod_eq_emod_of_nonneg (by omega)]
    omega
  · intro j before near
    rw [measure_yiqi]
    exact sampled.next_yiqi j before near
  · intro j before near
    rw [measure_speed]
    exact sampled.next_speed j before near
  · intro enough
    have reports := sampled.next_reports (by omega)
    rw [show k + 1 - 5 = k - 4 by omega]
    exact ⟨reports.realspeX, reports.realspeY, reports.realspe⟩

/-- All turns of a thread that starts in a slot. -/
theorem after {start : Int} (phase : start.tmod 5 = first) (small : first < 5)
    (position : Nat → Fin 2 → ℝ) (k : Nat) :
    ∃ s, Realspe.after start position k = some s ∧ s.Sampled first position k := by
  induction k with
  | zero => exact ⟨_, rfl, sampled_initial phase small position⟩
  | succ k ih =>
    obtain ⟨s, reached, sampled⟩ := ih
    obtain ⟨next, turned, kept⟩ := sampled.turn
    exact ⟨next, by rw [Realspe.after, reached, Option.bind_some, turned], kept⟩

end Sampled

/-- A negative remainder is no index. -/
theorem turn_eq_none (s : Realspe) (position : Fin 2 → ℝ) (negative : s.n.tmod 5 < 0) :
    turn position s = none := by
  have outside : slot (s.n.tmod 5) = none := dif_neg fun inside => by omega
  simp [turn, outside]

end Realspe

theorem not_measuresFrom_of_neg {start : Int} (negative : start.tmod 5 < 0) :
    ¬MeasuresFrom start := by
  intro measures
  obtain ⟨s, reached, -⟩ := measures (fun _ _ => 0) 1
  rw [Realspe.after, Realspe.after, Option.bind_some,
    Realspe.turn_eq_none (.initial start) _ negative] at reached
  cases reached

/-- The speed is measured as described exactly if the first value of the counter does not
have a negative remainder by 5. -/
theorem measuresFrom_iff (start : Int) : MeasuresFrom start ↔ 0 ≤ start.tmod 5 := by
  constructor
  · intro measures
    by_contra negative
    exact not_measuresFrom_of_neg (not_le.mp negative) measures
  · intro nonneg position k
    obtain ⟨first, phase⟩ := Int.eq_ofNat_of_zero_le nonneg
    have small : first < 5 := by
      have bound := Int.tmod_lt_of_pos start (show (0 : Int) < 5 by omega)
      omega
    obtain ⟨s, reached, sampled⟩ := Realspe.Sampled.after phase small position k
    exact ⟨s, reached, fun enough => sampled.reports (by omega)⟩

/-- A counter that starts at -1 leaves the arrays at once. -/
theorem not_measuresFrom_neg_one : ¬MeasuresFrom (-1) :=
  not_measuresFrom_of_neg (by decide)

end BadmintonRobot.Chassis
