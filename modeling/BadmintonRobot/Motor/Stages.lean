import Mathlib
import BadmintonRobot.Motor.Line
import BadmintonRobot.Numeric.OrderedField

/-!
# The outputs of the three stages

As long as the motor is read between the ends of a stage, its duty cycle stays between the
speeds of that stage, provided the ends of the line are the caller's and the ramps have a
length. The check against a division by zero replaces an end of the line where it means
the ratio, so a ramp without length is not caught.
-/

namespace BadmintonRobot.Motor

open Can Numeric Semantics

attribute [local instance] isOrderedRing zeroLEOneClass

variable {K : Type} [Field K] [LinearOrder K]

/-- The ratios that leave the ends of the line as they are and give the ramps a length. -/
structure RatiosKept (params : LineParams K) : Prop where
  start : 5 / 100 ≤ params.startRatio ∨ params.startp = 5 / 100 ∧ 0 < params.startRatio
  stop : 5 / 100 ≤ params.endRatio ∨ params.endp = 5 / 100 ∧ 0 < params.endRatio

/-- What the checks of `mt_line` establish. -/
structure Checked (params : LineParams K) (profile : Profile K) : Prop where
  startRatio : 0 ≤ params.startRatio
  startRatio_le : params.startRatio ≤ 1
  endRatio : 0 ≤ params.endRatio
  bounds : ∀ v, v = params.v1 ∨ v = params.v2 ∨ v = params.v3 → -100 ≤ v ∧ v ≤ 100
  sign : 0 ≤ params.v1 * params.v2 ∧ 0 ≤ params.v2 * params.v3 ∧ 0 ≤ params.v1 * params.v3
  p1 : profile.p1 = if params.startRatio < 5 / 100 then 5 / 100 else params.startp
  p4 : profile.p4 = if params.endRatio < 5 / 100 then 5 / 100 else params.endp
  p2 : profile.p2 = profile.p1 + (profile.p4 - profile.p1) * params.startRatio
  p3 : profile.p3 = profile.p4 - (profile.p4 - profile.p1) * params.endRatio
  dir : profile.dir = 1 ∧ profile.p1 < profile.p4 ∨ profile.dir = -1 ∧ profile.p4 < profile.p1

variable [IsStrictOrderedRing K]

theorem checked_of_profile {params : LineParams K} {profile : Profile K}
    (passed : params.profile = some profile) : Checked params profile := by
  simp only [LineParams.profile] at passed
  generalize startEq : (if params.startRatio < 5 / 100 then 5 / 100 else params.startp) = startp
    at passed
  generalize endEq : (if params.endRatio < 5 / 100 then 5 / 100 else params.endp) = endp at passed
  simp only [Option.ite_none_left_eq_some, not_or, not_lt] at passed
  obtain ⟨ratios, speeds, -, signs, -, passed⟩ := passed
  have bounds : ∀ v, v = params.v1 ∨ v = params.v2 ∨ v = params.v3 → -100 ≤ v ∧ v ≤ 100 := by
    rintro v (rfl | rfl | rfl) <;> omega
  by_cases forward : endp - startp > 0
  · rw [if_pos forward] at passed
    cases passed
    exact ⟨ratios.1, ratios.2.1, ratios.2.2.1, bounds, signs, startEq.symm, endEq.symm, rfl, rfl,
      .inl ⟨rfl, sub_pos.mp forward⟩⟩
  · rw [if_neg forward, Option.ite_none_right_eq_some] at passed
    obtain ⟨backward, passed⟩ := passed
    cases passed
    exact ⟨ratios.1, ratios.2.1, ratios.2.2.1, bounds, signs, startEq.symm, endEq.symm, rfl, rfl,
      .inr ⟨rfl, sub_neg.mp backward⟩⟩

/-- An output that is between the speeds of its stage. -/
def OutputOk (params : LineParams K) : Output → Prop
  | .pwm .speedUp value => Between params.v1 params.v2 value
  | .pwm .constant value => value = params.v2
  | .pwm .slowDown value => Between params.v2 params.v3 value
  | .undefined _ => False

/-- A value that `mt_pwm` accepts and that has the sign of the three speeds. -/
def InRange (params : LineParams K) (value : Int) : Prop :=
  -100 ≤ value ∧ value ≤ 100 ∧
    (0 ≤ params.v1 ∧ 0 ≤ params.v2 ∧ 0 ≤ params.v3 ∧ 0 ≤ value ∨
      params.v1 ≤ 0 ∧ params.v2 ≤ 0 ∧ params.v3 ≤ 0 ∧ value ≤ 0)

/-- Every output so far is right. -/
def SafeOutputs (params : LineParams K) (outputs : List Output) : Prop :=
  ∀ output ∈ outputs, OutputOk params output ∧
    ∀ stage value, output = .pwm stage value → InRange params value

/-- A reading that is not before the stage that it is made in. -/
def Within (profile : Profile K) (s : Line) (pos : K) : Prop :=
  match s.stage with
  | .speedUp => 0 ≤ profile.dir * (pos - profile.p1)
  | .constant => True
  | .slowDown => 0 ≤ profile.dir * (pos - profile.p3)

section Speeds

variable {params : LineParams K} {profile : Profile K}

omit [IsStrictOrderedRing K] in
theorem Checked.sameSign (checked : Checked params profile) :
    0 ≤ params.v1 ∧ 0 ≤ params.v2 ∧ 0 ≤ params.v3 ∨
      params.v1 ≤ 0 ∧ params.v2 ≤ 0 ∧ params.v3 ≤ 0 := by
  obtain ⟨first, second, third⟩ := checked.sign
  rw [mul_nonneg_iff] at first second third
  omega

omit [IsStrictOrderedRing K] in
/-- What lies between two of the speeds is in range. -/
theorem Checked.inRange (checked : Checked params profile) {a b value : Int}
    (left : a = params.v1 ∨ a = params.v2 ∨ a = params.v3)
    (right : b = params.v1 ∨ b = params.v2 ∨ b = params.v3) (between : Between a b value) :
    InRange params value := by
  obtain ⟨lower, upper⟩ := between
  have boundA := checked.bounds a left
  have boundB := checked.bounds b right
  have sameSign := checked.sameSign
  refine ⟨by omega, by omega, ?_⟩
  rcases sameSign with ⟨first, second, third⟩ | ⟨first, second, third⟩
  · exact .inl ⟨first, second, third, by omega⟩
  · exact .inr ⟨first, second, third, by omega⟩

end Speeds

/-- The covered part of a way, seen in the direction `dir`. -/
theorem ratio_mem {dir : Int} {covered whole : K} (unit : dir = 1 ∨ dir = -1)
    (nonneg : 0 ≤ dir * covered) (le : dir * covered ≤ dir * whole) (positive : 0 < dir * whole) :
    0 ≤ covered / whole ∧ covered / whole ≤ 1 := by
  have same : covered / whole = (dir * covered) / (dir * whole) := by
    rw [mul_div_mul_left]
    rcases unit with rfl | rfl <;> simp
  rw [same]
  exact ⟨div_nonneg nonneg (le_of_lt positive), (div_le_one positive).mpr le⟩

section Turn

variable [FloorRing K] {params : LineParams K} {profile : Profile K}

/-- The value at a ratio between 0 and 1 of a ramp from one of the speeds to another. -/
theorem Checked.interpolated_between (checked : Checked params profile) {base goal : Int}
    {covered whole : K} (left : base = params.v1 ∨ base = params.v2 ∨ base = params.v3)
    (right : goal = params.v1 ∨ goal = params.v2 ∨ goal = params.v3) (whole_ne : whole ≠ 0)
    (ratio : 0 ≤ covered / whole ∧ covered / whole ≤ 1) :
    ∃ value, interpolated base goal covered whole = some value ∧ Between base goal value := by
  have boundBase := checked.bounds base left
  have boundGoal := checked.bounds goal right
  have sameSign := checked.sameSign
  have difference : toInt8 (goal - base) = goal - base :=
    Int.bmod_eq_of_le (by omega) (by omega)
  have between := between_interpolate base goal ratio.1 ratio.2
  refine ⟨_, ?_, between⟩
  obtain ⟨lower, upper⟩ := between
  rw [interpolated, if_neg whole_ne, difference, mul_div_assoc, toS8, if_pos (by omega)]

omit [FloorRing K] in
/-- The line leads from its first end to its last. -/
theorem Checked.length_pos (checked : Checked params profile) :
    0 < profile.dir * (profile.p4 - profile.p1) := by
  rcases checked.dir with ⟨forward, order⟩ | ⟨backward, order⟩
  · rw [forward]
    push_cast
    linarith
  · rw [backward]
    push_cast
    linarith

omit [FloorRing K] in
theorem RatiosKept.ramps (kept : RatiosKept params) (checked : Checked params profile) :
    0 < profile.dir * (profile.p2 - profile.p1) ∧ 0 < profile.dir * (profile.p4 - profile.p3) := by
  have startRatio : 0 < params.startRatio := by
    rcases kept.start with long | ⟨-, positive⟩
    · linarith
    · exact positive
  have endRatio : 0 < params.endRatio := by
    rcases kept.stop with long | ⟨-, positive⟩
    · linarith
    · exact positive
  have direction := checked.length_pos
  constructor
  · rw [checked.p2, add_sub_cancel_left, ← mul_assoc]
    exact mul_pos direction startRatio
  · rw [checked.p3, sub_sub_cancel, ← mul_assoc]
    exact mul_pos direction endRatio

omit [FloorRing K] in
theorem Checked.not_beyond (checked : Checked params profile) {pos bound : K}
    (notBeyond : ¬profile.Beyond pos bound) :
    (profile.dir : K) * pos ≤ profile.dir * bound := by
  rw [Profile.Beyond, not_or] at notBeyond
  rcases checked.dir with ⟨forward, -⟩ | ⟨backward, -⟩
  · have le := notBeyond.1
    simp only [forward, gt_iff_lt, zero_lt_one, true_and, not_lt] at le
    rw [forward]
    simpa using le
  · have le := notBeyond.2
    rw [backward] at le ⊢
    simpa using le

omit [IsStrictOrderedRing K] in
/-- A turn changes the stage, or returns, or passes the value of its stage. -/
theorem turn_cases {s next : Line} {pos : K} (taken : turn params profile s pos = some next) :
    next.outputs = s.outputs ∨
    (s.stage = .speedUp ∧ ¬profile.Beyond pos profile.p2 ∧
      next = s.pass (interpolated params.v1 params.v2 (pos - profile.p1)
        (profile.p2 - profile.p1))) ∨
    (s.stage = .constant ∧ ¬profile.Beyond pos profile.p3 ∧ next = s.pass (some params.v2)) ∨
    (s.stage = .slowDown ∧ ¬profile.Beyond pos profile.p4 ∧
      next = s.pass (interpolated params.v3 params.v2 (profile.p4 - pos)
        (profile.p4 - profile.p3))) := by
  rw [turn] at taken
  cases running : s.returned with
  | true => simp [running] at taken
  | false =>
    cases stage : s.stage with
    | speedUp =>
      by_cases beyond : profile.Beyond pos profile.p2
      · simp only [running, stage, beyond, Bool.false_eq_true, if_true, if_false,
          Option.some.injEq] at taken
        exact .inl (by rw [← taken])
      · simp only [running, stage, beyond, Bool.false_eq_true, if_false, Option.some.injEq] at taken
        exact .inr (.inl ⟨rfl, beyond, taken.symm⟩)
    | constant =>
      by_cases beyond : profile.Beyond pos profile.p3
      · simp only [running, stage, beyond, Bool.false_eq_true, if_true, if_false,
          Option.some.injEq] at taken
        exact .inl (by rw [← taken])
      · simp only [running, stage, beyond, Bool.false_eq_true, if_false, Option.some.injEq] at taken
        exact .inr (.inr (.inl ⟨rfl, beyond, taken.symm⟩))
    | slowDown =>
      by_cases beyond : profile.Beyond pos profile.p4
      · simp only [running, stage, beyond, Bool.false_eq_true, if_true, if_false,
          Option.some.injEq] at taken
        exact .inl (by rw [← taken])
      · simp only [running, stage, beyond, Bool.false_eq_true, if_false, Option.some.injEq] at taken
        exact .inr (.inr (.inr ⟨rfl, beyond, taken.symm⟩))

omit [IsStrictOrderedRing K] [FloorRing K] in
/-- A stage that passes a value between its two speeds keeps the outputs right. -/
theorem SafeOutputs.pass (checked : Checked params profile) {s : Line} {a b value : Int}
    (safe : SafeOutputs params s.outputs) (ok : OutputOk params (.pwm s.stage value))
    (left : a = params.v1 ∨ a = params.v2 ∨ a = params.v3)
    (right : b = params.v1 ∨ b = params.v2 ∨ b = params.v3) (between : Between a b value) :
    SafeOutputs params (s.pass (some value)).outputs := by
  intro output member
  rw [Line.pass, List.mem_append, List.mem_singleton] at member
  rcases member with earlier | rfl
  · exact safe output earlier
  · refine ⟨ok, ?_⟩
    rintro _ _ ⟨⟩
    exact checked.inRange left right between

/-- A turn with a reading within its stage keeps the outputs right. -/
theorem SafeOutputs.turn (checked : Checked params profile) (kept : RatiosKept params)
    {s next : Line} {pos : K} (safe : SafeOutputs params s.outputs)
    (within : Within profile s pos) (taken : turn params profile s pos = some next) :
    SafeOutputs params next.outputs := by
  obtain ⟨firstRamp, lastRamp⟩ := kept.ramps checked
  have unit : profile.dir = 1 ∨ profile.dir = -1 := checked.dir.imp And.left And.left
  rcases turn_cases taken with same | ⟨stage, beyond, rfl⟩ | ⟨stage, -, rfl⟩ | ⟨stage, beyond, rfl⟩
  · rw [same]
    exact safe
  · rw [Within, stage] at within
    have le := checked.not_beyond beyond
    have ratio := ratio_mem unit within (by linarith) firstRamp
    obtain ⟨value, passed, between⟩ := checked.interpolated_between (.inl rfl) (.inr (.inl rfl))
      (right_ne_zero_of_mul firstRamp.ne') ratio
    rw [passed]
    apply safe.pass checked _ (.inl rfl) (.inr (.inl rfl)) between
    rw [stage]
    exact between
  · apply safe.pass checked _ (.inr (.inl rfl)) (.inr (.inl rfl)) (Between.self params.v2)
    rw [stage]
    rfl
  · rw [Within, stage] at within
    have le := checked.not_beyond beyond
    have ratio : 0 ≤ (profile.p4 - pos) / (profile.p4 - profile.p3) ∧
        (profile.p4 - pos) / (profile.p4 - profile.p3) ≤ 1 :=
      ratio_mem unit (by linarith) (by linarith) lastRamp
    obtain ⟨value, passed, between⟩ := checked.interpolated_between (.inr (.inr rfl))
      (.inr (.inl rfl)) (right_ne_zero_of_mul lastRamp.ne') ratio
    rw [passed]
    apply safe.pass checked _ (.inr (.inr rfl)) (.inr (.inl rfl)) between
    rw [stage]
    exact between.symm

/-- The transitions of `mt_line` with readings within their stages. -/
def WithinTurn (params : LineParams K) (profile : Profile K) : Line → K → Line → Prop :=
  TakesWhen (Within profile) (turn params profile)

theorem SafeOutputs.steps (checked : Checked params profile) (kept : RatiosKept params)
    {positions : List K} {final : Line}
    (steps : Steps (WithinTurn params profile) Line.start positions final) :
    SafeOutputs params final.outputs := by
  induction steps with
  | refl =>
    intro output member
    simp [Line.start] at member
  | step _ transition safe => exact safe.turn checked kept transition.1 transition.2

omit [FloorRing K] in
theorem Checked.beyond (checked : Checked params profile) {pos bound : K}
    (ahead : 0 < profile.dir * (pos - bound)) : profile.Beyond pos bound := by
  rcases checked.dir with ⟨forward, -⟩ | ⟨backward, -⟩
  · rw [forward] at ahead
    exact .inl ⟨by omega, by simpa using ahead⟩
  · rw [backward] at ahead
    exact .inr ⟨by omega, by simpa using ahead⟩

omit [Field K] [FloorRing K] [IsStrictOrderedRing K] in
theorem not_beyond_self (pos : K) : ¬profile.Beyond pos pos := by
  simp [Profile.Beyond]

omit [IsStrictOrderedRing K] in
/-- A ramp without length divides by zero. -/
theorem interpolated_zero (base goal : Int) (covered : K) :
    interpolated base goal covered 0 = none :=
  if_pos rfl

omit [Field K] [LinearOrder K] [IsStrictOrderedRing K] [FloorRing K] in
theorem not_safeOutputs_pass_none {s : Line} :
    ¬SafeOutputs params (s.pass none).outputs := by
  intro safe
  exact (safe (.undefined s.stage) (by simp [Line.pass])).1

omit [IsStrictOrderedRing K] in
/-- A first ramp without length makes the first reading divide by zero. -/
theorem startRatio_ne_zero (checked : Checked params profile)
    (safe : ∀ positions final, Steps (WithinTurn params profile) Line.start positions final →
      SafeOutputs params final.outputs) : params.startRatio ≠ 0 := by
  intro zero
  have ends : profile.p2 = profile.p1 := by rw [checked.p2, zero, mul_zero, add_zero]
  have transition : WithinTurn params profile Line.start profile.p1 (Line.start.pass none) := by
    refine ⟨by simp [Within, Line.start], ?_⟩
    simp [turn, Line.start, ends, not_beyond_self, interpolated_zero]
  exact not_safeOutputs_pass_none (safe _ _ (.single transition))

/-- A last ramp without length makes a reading at its end divide by zero. -/
theorem endRatio_ne_zero (checked : Checked params profile)
    (safe : ∀ positions final, Steps (WithinTurn params profile) Line.start positions final →
      SafeOutputs params final.outputs) : params.endRatio ≠ 0 := by
  intro zero
  have ends : profile.p3 = profile.p4 := by rw [checked.p3, zero, mul_zero, sub_zero]
  -- a jump over the end of the line leaves the first two stages
  have unit : (profile.dir : K) * profile.dir = 1 := by
    rcases checked.dir with ⟨forward, -⟩ | ⟨backward, -⟩
    · simp [forward]
    · simp [backward]
  have length : 0 < profile.dir * (profile.p4 - profile.p1) := checked.length_pos
  have pastLast : 0 < profile.dir * (profile.p4 + profile.dir - profile.p4) := by
    rw [add_sub_cancel_left, unit]
    exact zero_lt_one
  have pastFirst : 0 < profile.dir * (profile.p4 + profile.dir - profile.p2) := by
    have part := mul_le_of_le_one_right length.le checked.startRatio_le
    rw [checked.p2]
    linarith
  let second : Line := { Line.start with stage := .constant }
  let third : Line := { Line.start with stage := .slowDown }
  have leaveFirst : WithinTurn params profile Line.start (profile.p4 + profile.dir) second := by
    refine ⟨?_, ?_⟩
    · rw [Within, Line.start]
      linarith
    · simp [turn, Line.start, second, checked.beyond pastFirst]
  have leaveSecond : WithinTurn params profile second (profile.p4 + profile.dir) third := by
    refine ⟨trivial, ?_⟩
    simp [turn, second, third, Line.start, ends, checked.beyond pastLast]
  have divide : WithinTurn params profile third profile.p4 (third.pass none) := by
    refine ⟨by simp [Within, third, ends], ?_⟩
    simp [turn, third, Line.start, ends, not_beyond_self, interpolated_zero]
  exact not_safeOutputs_pass_none
    (safe _ _ (((Steps.single leaveFirst).step leaveSecond).step divide))

/-- With readings within their stages, the outputs of `mt_line` are between the speeds of
their stages and its ends are the caller's exactly if the ratios are kept. -/
theorem line_safe_iff (passed : params.profile = some profile) :
    (profile.p1 = params.startp ∧ profile.p4 = params.endp ∧
      ∀ positions final, Steps (WithinTurn params profile) Line.start positions final →
        SafeOutputs params final.outputs) ↔ RatiosKept params := by
  have checked := checked_of_profile passed
  constructor
  · rintro ⟨startKept, endKept, safe⟩
    constructor
    · rcases le_or_gt (5 / 100) params.startRatio with long | short
      · exact .inl long
      · rw [checked.p1, if_pos short] at startKept
        have positive := lt_of_le_of_ne checked.startRatio (startRatio_ne_zero checked safe).symm
        exact .inr ⟨startKept.symm, positive⟩
    · rcases le_or_gt (5 / 100) params.endRatio with long | short
      · exact .inl long
      · rw [checked.p4, if_pos short] at endKept
        have positive := lt_of_le_of_ne checked.endRatio (endRatio_ne_zero checked safe).symm
        exact .inr ⟨endKept.symm, positive⟩
  · intro kept
    refine ⟨?_, ?_, fun positions final steps => SafeOutputs.steps checked kept steps⟩
    · rw [checked.p1]
      rcases kept.start with long | ⟨same, -⟩
      · exact if_neg (not_lt.mpr long)
      · rw [same, ite_self]
    · rw [checked.p4]
      rcases kept.stop with long | ⟨same, -⟩
      · exact if_neg (not_lt.mpr long)
      · rw [same, ite_self]

end Turn

/-- The call of `sys_mtpwm` for the third motor. -/
def sysMtpwmLine : LineParams ℚ where
  idNum := IdNumdef.wMotor3OldId.value
  startp := 0
  endp := 30
  startRatio := 3 / 10
  endRatio := 3 / 10
  v1 := 5
  v2 := 40
  v3 := 3

theorem line_safe_sysMtpwm :
    ∃ profile, sysMtpwmLine.profile = some profile ∧
      ((profile.p1 = 0 ∧ profile.p4 = 30 ∧
        ∀ positions final, Steps (WithinTurn sysMtpwmLine profile) Line.start positions final →
          SafeOutputs sysMtpwmLine final.outputs) ↔ RatiosKept sysMtpwmLine) := by
  have passed : sysMtpwmLine.profile = some ⟨0, 9, 21, 30, 1⟩ := by decide +kernel
  exact ⟨_, passed, line_safe_iff passed⟩

/-- The first call of `armaction2`, from position 0 to position 30. -/
def armaction2Line : LineParams ℚ where
  idNum := IdNumdef.wMotor3OldId.value
  startp := 0
  endp := 30
  startRatio := 0
  endRatio := 3 / 10
  v1 := 100
  v2 := 100
  v3 := 50

/-- The call of `armaction2` starts at 0.05 and divides by zero at its first reading. -/
theorem not_line_safe_armaction2 :
    ∃ profile next, armaction2Line.profile = some profile ∧
      profile.p1 ≠ armaction2Line.startp ∧ turn armaction2Line profile Line.start 0 = some next ∧
      ¬SafeOutputs armaction2Line next.outputs := by
  refine ⟨⟨5 / 100, 5 / 100, 30 - (30 - 5 / 100) * (3 / 10), 30, 1⟩, Line.start.pass none, ?_⟩
  refine ⟨by decide +kernel, by norm_num [armaction2Line], ?_, not_safeOutputs_pass_none⟩
  rw [turn, Line.start]
  norm_num [Profile.Beyond, interpolated_zero]

end BadmintonRobot.Motor
