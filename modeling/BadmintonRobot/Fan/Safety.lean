import Mathlib
import BadmintonRobot.Fan.Duty

/-!
# The fans stay in their range

No sequence of calls takes a duty cycle out of the range from 20 to 43. The two scalings of
`FanAccelerate` have a common factor for both axes, so the direction of the push is the one
asked for.
-/

namespace BadmintonRobot.Fan

open Control General Numeric

/-- The range of a duty cycle. -/
def InRange (duty : ℝ) : Prop := 20 ≤ duty ∧ duty ≤ 43

/-- A transmitted word is the tenfold of a duty cycle in its range. -/
def WordInRange (word : Option Nat) : Prop := ∃ value, word = some value ∧ 200 ≤ value ∧ value ≤ 430

/-- The fans push along `x` and `y`: against each other stands at most one fan of a pair, on
the side that the sign says, and the duty cycles above rest are as `|x|` to `|y|`. -/
structure Directed (duty : Side → ℝ) (x y : ℝ) : Prop where
  alongX : ¬(20 < duty .left ∧ 20 < duty .right)
  alongY : ¬(20 < duty .back ∧ 20 < duty .front)
  left : 20 < duty .left ↔ 0 < x
  right : 20 < duty .right ↔ x < 0
  back : 20 < duty .back ↔ 0 < y
  front : 20 < duty .front ↔ y < 0
  ratio : ((duty .left - 20) + (duty .right - 20)) * |y| =
    ((duty .back - 20) + (duty .front - 20)) * |x|

/-- What all calls keep. -/
structure Safe (s : Fans) : Prop where
  duty : ∀ i, InRange (s.pwmDuty i)
  words : ∀ words ∈ s.sent, ∀ i, WordInRange (words i)

variable {s : Fans} (channels : Channels)

theorem wordInRange_of_inRange {duty : ℝ} (range : InRange duty) :
    WordInRange (toU16 (duty * 10)) := by
  obtain ⟨lower, upper⟩ := range
  refine ⟨⌊duty * 10⌋₊, if_pos ⟨by linarith, by linarith⟩, ?_, ?_⟩
  · exact Nat.le_floor (by push_cast; linarith)
  · apply Nat.floor_le_of_le
    push_cast
    linarith

theorem Safe.send (duty : ∀ i, InRange (s.pwmDuty i))
    (words : ∀ words ∈ s.sent, ∀ i, WordInRange (words i)) : Safe s.send where
  duty := duty
  words sent member i := by
    rw [Fans.send, List.mem_append, List.mem_singleton] at member
    rcases member with earlier | rfl
    · exact words sent earlier i
    · exact wordInRange_of_inRange (duty i)

/-- Each channel is assigned once. -/
theorem assign_channel (effect : Side → ℝ → ℝ) (order : List Side) (once : order.Nodup)
    (side : Side) : (s.assign channels effect order).pwmDuty (channels side) =
      if side ∈ order then effect side (s.pwmDuty (channels side))
      else s.pwmDuty (channels side) := by
  rw [Fans.assign]
  generalize s.pwmDuty = duty
  induction order generalizing duty with
  | nil => simp
  | cons first rest ih =>
    rw [List.nodup_cons] at once
    rw [List.foldl_cons, ih once.2]
    by_cases same : side = first
    · subst same
      simp [once.1]
    · have apart : channels side ≠ channels first := fun equal => same (channels.injective equal)
      simp [same, apart]

/-- The duty cycle of a side after all channels have been assigned. -/
theorem assign_all (effect : Side → ℝ → ℝ) (order : List Side) (once : order.Nodup)
    (all : ∀ side, side ∈ order) (side : Side) :
    (s.assign channels effect order).pwmDuty (channels side) =
      effect side (s.pwmDuty (channels side)) := by
  rw [assign_channel channels effect order once, if_pos (all side)]

/-- An effect that keeps the range, on all channels. -/
theorem Safe.assign_send (safe : Safe s) {effect : Side → ℝ → ℝ}
    (keeps : ∀ side duty, InRange duty → InRange (effect side duty)) :
    Safe (s.assign channels effect Fans.order).send := by
  refine Safe.send (fun i => ?_) safe.words
  obtain ⟨side, rfl⟩ := channels.surjective i
  rw [assign_all channels effect _ (by decide) (by intro side; cases side <;> decide)]
  exact keeps side _ (safe.duty _)

theorem Safe.update_send (safe : Safe s) (i : Fin 4) {duty : ℝ} (range : InRange duty) :
    Safe { s with pwmDuty := Function.update s.pwmDuty i duty }.send := by
  refine Safe.send (fun j => ?_) safe.words
  by_cases same : j = i
  · subst same
    simpa using range
  · simpa [same] using safe.duty j

/-- A scaling multiplies both speeds by one positive factor and brings the first one into
range. -/
theorem rescale_eq (main other : ℝ) :
    rescale main other = (saturation 100 |main| * main, saturation 100 |main| * other) := by
  rw [rescale, abs'_eq, saturation]
  by_cases outside : main > 100 ∨ main < -100
  · have large : 100 < |main| := lt_abs.mpr (outside.imp id (by intro below; linarith))
    rw [if_pos outside, if_pos large.le, mul_comm main, mul_comm other]
  · have small : |main| ≤ 100 := by
      rw [not_or, not_lt, not_lt] at outside
      exact abs_le.mpr ⟨outside.2, outside.1⟩
    rw [if_neg outside]
    split
    · next reached =>
      have same : |main| = 100 := le_antisymm small reached
      simp [same]
    · simp

theorem abs_saturation_mul_le (main : ℝ) : |saturation 100 |main| * main| ≤ 100 := by
  have peak : Peak (fun _ : Unit => main) |main| := ⟨fun _ => le_rfl, ⟨(), rfl⟩⟩
  exact peak.saturated (by norm_num) ()

theorem saturation_le_one (main : ℝ) : saturation 100 |main| ≤ 1 := by
  rw [saturation]
  split
  · next reached => exact div_le_one_of_le₀ reached (abs_nonneg main)
  · exact le_rfl

/-- The two scalings have one positive factor for both axes, and both speeds end in range. -/
theorem fanSpeeds_spec (x y : ℝ) :
    ∃ factor > 0, fanSpeeds x y = (factor * x, factor * y) ∧
      |factor * x| ≤ 100 ∧ |factor * y| ≤ 100 := by
  set first := saturation 100 |y| with firstEq
  set second := saturation 100 |first * x| with secondEq
  have firstPos : 0 < first := saturation_pos (by norm_num)
  have secondPos : 0 < second := saturation_pos (by norm_num)
  refine ⟨second * first, mul_pos secondPos firstPos, ?_, ?_, ?_⟩
  · rw [fanSpeeds, rescale_eq, rescale_eq, ← firstEq, ← secondEq, mul_assoc, mul_assoc]
  · rw [mul_assoc]
    exact abs_saturation_mul_le (first * x)
  · have bound : |first * y| ≤ 100 := abs_saturation_mul_le y
    calc |second * first * y| = second * |first * y| := by
          rw [mul_assoc, abs_mul, abs_of_pos secondPos]
      _ ≤ 1 * |first * y| := by gcongr; exact saturation_le_one _
      _ ≤ 100 := by linarith

theorem percentages_mem {fanX fanY : ℝ} (boundX : |fanX| ≤ 100) (boundY : |fanY| ≤ 100)
    (side : Side) : 0 ≤ percentages fanX fanY side ∧ percentages fanX fanY side ≤ 100 := by
  rw [abs_le] at boundX boundY
  cases side <;> simp only [percentages] <;> split_ifs <;> constructor <;> linarith

/-- The fans of a pair share the size of the speed along their axis. -/
theorem percentages_pair (fanX fanY : ℝ) :
    percentages fanX fanY .left + percentages fanX fanY .right = |fanX| ∧
      percentages fanX fanY .back + percentages fanX fanY .front = |fanY| := by
  simp only [percentages]
  constructor
  · rcases lt_or_ge 0 fanX with positive | nonpos
    · rw [if_pos positive, if_pos positive, abs_of_pos positive, add_zero]
    · rw [if_neg (not_lt.mpr nonpos), if_neg (not_lt.mpr nonpos), abs_of_nonpos nonpos, zero_add]
  · rcases lt_or_ge 0 fanY with positive | nonpos
    · rw [if_pos positive, if_pos positive, abs_of_pos positive, add_zero]
    · rw [if_neg (not_lt.mpr nonpos), if_neg (not_lt.mpr nonpos), abs_of_nonpos nonpos, zero_add]

/-- A fan blows exactly if the speed along its axis has the sign of its side. -/
theorem percentages_pos (fanX fanY : ℝ) :
    (0 < percentages fanX fanY .left ↔ 0 < fanX) ∧ (0 < percentages fanX fanY .right ↔ fanX < 0) ∧
      (0 < percentages fanX fanY .back ↔ 0 < fanY) ∧
      (0 < percentages fanX fanY .front ↔ fanY < 0) := by
  simp only [percentages]
  refine ⟨?_, ?_, ?_, ?_⟩ <;> split_ifs <;> constructor <;> intro <;> linarith

/-- The duty cycle of a side after `FanAccelerate`. -/
theorem fanAccelerate_duty (atan2 : ℝ → ℝ → ℝ) (radian x y : ℝ) (side : Side) :
    (s.fanAccelerate channels atan2 radian x y).pwmDuty (channels side) =
      20 + percentages (fanSpeeds x y).1 (fanSpeeds x y).2 side * (43 - 20) / 100 := by
  have all : ∀ side, side ∈ [Side.back, .front, .left, .right] := by
    intro side
    cases side <;> decide
  simp only [Fans.fanAccelerate, Fans.send]
  rw [assign_all channels _ _ (by decide) all]

theorem Safe.fanAccelerate (safe : Safe s) (atan2 : ℝ → ℝ → ℝ) (radian x y : ℝ) :
    Safe (s.fanAccelerate channels atan2 radian x y) := by
  refine Safe.send (fun i => ?_) safe.words
  obtain ⟨side, rfl⟩ := channels.surjective i
  obtain ⟨factor, -, speeds, boundX, boundY⟩ := fanSpeeds_spec x y
  have duty := fanAccelerate_duty (s := s) channels atan2 radian x y side
  have bounds := percentages_mem boundX boundY side
  rw [speeds] at duty
  refine (congrArg InRange duty).mpr ⟨?_, ?_⟩ <;> linarith [bounds.1, bounds.2]

theorem directed_fanAccelerate (atan2 : ℝ → ℝ → ℝ) (radian x y : ℝ) :
    Directed (fun side => (s.fanAccelerate channels atan2 radian x y).pwmDuty (channels side))
      x y := by
  obtain ⟨factor, positive, speeds, -, -⟩ := fanSpeeds_spec x y
  obtain ⟨pairX, pairY⟩ := percentages_pair (factor * x) (factor * y)
  obtain ⟨left, right, back, front⟩ := percentages_pos (factor * x) (factor * y)
  have blows : ∀ side, 20 < (s.fanAccelerate channels atan2 radian x y).pwmDuty (channels side) ↔
      0 < percentages (factor * x) (factor * y) side := by
    intro side
    rw [fanAccelerate_duty, speeds]
    constructor <;> intro <;> linarith
  have signs : ∀ v, (0 < factor * v ↔ 0 < v) ∧ (factor * v < 0 ↔ v < 0) := by
    intro v
    refine ⟨mul_pos_iff_of_pos_left positive, ?_⟩
    rw [← neg_pos, ← mul_neg, mul_pos_iff_of_pos_left positive, neg_pos]
  constructor
  · rintro ⟨one, two⟩
    exact lt_asymm (left.mp ((blows _).mp one)) (right.mp ((blows _).mp two))
  · rintro ⟨one, two⟩
    exact lt_asymm (back.mp ((blows _).mp one)) (front.mp ((blows _).mp two))
  · exact (blows _).trans (left.trans (signs x).1)
  · exact (blows _).trans (right.trans (signs x).2)
  · exact (blows _).trans (back.trans (signs y).1)
  · exact (blows _).trans (front.trans (signs y).2)
  · simp only [fanAccelerate_duty, speeds]
    rw [abs_mul, abs_of_pos positive] at pairX pairY
    linear_combination (23 / 100) * |y| * pairX - (23 / 100) * |x| * pairY

/-- Every call keeps the ranges. -/
theorem Safe.call (safe : Safe s) (atan2 : ℝ → ℝ → ℝ) (call : Call) :
    Safe (s.call channels atan2 call) := by
  unfold Fans.call
  split
  · exact safe
  · cases call with
    | setMax => exact safe.assign_send channels fun _ _ _ => ⟨by norm_num, le_rfl⟩
    | setMin => exact safe.assign_send channels fun _ _ _ => ⟨le_rfl, by norm_num⟩
    | dutyUp delt =>
      refine safe.assign_send channels fun _ duty range => ?_
      have nonneg := delt.coe_nonneg
      obtain ⟨lower, upper⟩ := range
      split_ifs <;> constructor <;> linarith
    | dutyDn delt =>
      refine safe.assign_send channels fun _ duty range => ?_
      have nonneg := delt.coe_nonneg
      obtain ⟨lower, upper⟩ := range
      split_ifs <;> constructor <;> linarith
    | duty pwmChx duty =>
      simp only [Fans.fanDuty]
      split_ifs with above beyond below
      · exact safe.update_send pwmChx ⟨by norm_num, le_rfl⟩
      · exact safe.update_send pwmChx ⟨le_rfl, by norm_num⟩
      · exact safe.update_send pwmChx ⟨by linarith, by linarith⟩
      · exact ⟨safe.duty, safe.words⟩
    | accelerate radian x y => exact safe.fanAccelerate channels atan2 radian x y

/-- A call that would fail the assertion. -/
def Call.Asserts : Call → Prop
  | .duty _ percent => 100 < percent
  | _ => False

/-- A call fails the assertion or sends its duty cycles. -/
theorem call_progress (atan2 : ℝ → ℝ → ℝ) (call : Call) (running : s.halted = false) :
    ((s.call channels atan2 call).halted = true ↔ call.Asserts) ∧
      (¬call.Asserts → (s.call channels atan2 call).sent.length = s.sent.length + 1) := by
  unfold Fans.call
  rw [running]
  cases call with
  | duty pwmChx percent =>
    by_cases above : percent ≤ 100
    · have calm : ¬100 < percent := not_lt.mpr above
      simp only [Call.Asserts, Fans.fanDuty, above, calm, Bool.false_eq_true, if_false, not_true]
      split_ifs <;> simp [Fans.send, running]
    · simp [Call.Asserts, Fans.fanDuty, above, not_le.mp above]
  | _ =>
    simp [Call.Asserts, Fans.fanSetMax, Fans.fanSetMin, Fans.fanDutyUp, Fans.fanDutyDn,
      Fans.fanAccelerate, Fans.send, Fans.assign, running]

/-- A run sends its duty cycles with every call, until a call fails the assertion. -/
theorem after_progress (atan2 : ℝ → ℝ → ℝ) (controllers : Controllers ℝ) (calls : List Call) :
    ((Fans.after channels atan2 controllers calls).halted = true ↔ ∃ call ∈ calls, call.Asserts) ∧
      ((∀ call ∈ calls, ¬call.Asserts) →
        (Fans.after channels atan2 controllers calls).sent.length = calls.length) := by
  induction calls using List.reverseRecOn with
  | nil => simp [Fans.after, Fans.initial]
  | append_singleton calls call ih =>
    have last : Fans.after channels atan2 controllers (calls ++ [call]) =
        (Fans.after channels atan2 controllers calls).call channels atan2 call := by
      simp [Fans.after]
    rw [last]
    cases running : (Fans.after channels atan2 controllers calls).halted with
    | false =>
      obtain ⟨halts, sends⟩ := call_progress channels atan2 call running
      have calm : ¬∃ call ∈ calls, call.Asserts := fun failed => by
        simpa [running] using ih.1.mpr failed
      refine ⟨?_, fun none => ?_⟩
      · rw [halts]
        constructor
        · exact fun failed => ⟨call, by simp, failed⟩
        · rintro ⟨other, member, failed⟩
          rcases List.mem_append.mp member with earlier | now
          · exact absurd ⟨other, earlier, failed⟩ calm
          · rwa [← List.mem_singleton.mp now]
      · rw [sends (none call (by simp)), ih.2 fun other member => none other (by simp [member])]
        simp
    | true =>
      obtain ⟨other, member, failed⟩ := ih.1.mp running
      have kept : (Fans.after channels atan2 controllers calls).call channels atan2 call =
          Fans.after channels atan2 controllers calls := by simp [Fans.call, running]
      refine ⟨?_, fun none => absurd failed (none other (by simp [member]))⟩
      rw [kept, running]
      exact ⟨fun _ => ⟨other, by simp [member], failed⟩, fun _ => rfl⟩

theorem safe_after (atan2 : ℝ → ℝ → ℝ) (controllers : Controllers ℝ) (calls : List Call) :
    Safe (Fans.after channels atan2 controllers calls) := by
  induction calls using List.reverseRecOn with
  | nil =>
    exact ⟨fun _ => ⟨le_rfl, by norm_num [Fans.after, Fans.initial]⟩,
      by simp [Fans.after, Fans.initial]⟩
  | append_singleton calls call ih =>
    rw [Fans.after, List.foldl_append]
    exact ih.call channels atan2 call

/-- After any calls the duty cycles are in their range and all words that were sent too,
every call sends its words unless an assertion fails, and `FanAccelerate` pushes in the
direction asked for. -/
theorem fan_duty_safe (channels : Channels) (atan2 : ℝ → ℝ → ℝ) (controllers : Controllers ℝ)
    (calls : List Call) :
    Safe (Fans.after channels atan2 controllers calls) ∧
      ((∀ call ∈ calls, ¬call.Asserts) →
        (Fans.after channels atan2 controllers calls).sent.length = calls.length) ∧
      ∀ before radian x y, calls = before ++ [.accelerate radian x y] →
        (∀ call ∈ before, ¬call.Asserts) →
        Directed (fun side => (Fans.after channels atan2 controllers calls).pwmDuty
          (channels side)) x y := by
  refine ⟨safe_after channels atan2 controllers calls,
    (after_progress channels atan2 controllers calls).2, ?_⟩
  rintro before radian x y rfl calm
  have running : (Fans.after channels atan2 controllers before).halted = false := by
    rw [Bool.eq_false_iff, Ne, (after_progress channels atan2 controllers before).1]
    rintro ⟨call, member, failed⟩
    exact calm call member failed
  have last : Fans.after channels atan2 controllers (before ++ [Call.accelerate radian x y]) =
      (Fans.after channels atan2 controllers before).fanAccelerate channels atan2 radian x y := by
    rw [Fans.after, List.foldl_append, List.foldl_cons, List.foldl_nil, ← Fans.after, Fans.call,
      if_neg (by simp [running])]
  rw [last]
  exact directed_fanAccelerate channels atan2 radian x y

end BadmintonRobot.Fan
