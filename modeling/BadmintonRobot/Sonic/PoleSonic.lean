import Mathlib
import BadmintonRobot.Handover.Interlock
import BadmintonRobot.Path.SetKeep

/-!
# Positioning by sonar

`pole_sonic` moves the robot to the poles by the distances that two sonars measure: motor 1 by the
one in front, the chassis by the one on the side. It ends with a key or at the position. The test for
the position has a comparison with `fdis` in the place of `ferr`, and so has no lower bound for the
distance in front; and one of the branches for the speed of motor 1 exceeds its limit. The messages
on the screen and the buzzer are left out.
-/

namespace BadmintonRobot.Sonic

open Handover Numeric BadmintonRobot.Path

/-- The commands of `W_MOTOR_OLD_FUNC` that are used: a position with a speed, and a speed. -/
inductive Cmd where
  | setPSG
  | setSG
deriving DecidableEq, Repr

/-- A call of `W_MOTOR_OLD_FUNC` for motor 1. -/
structure MotorCall where
  rot : ℝ
  speed : Int
  cmd : Cmd

/-- The function `Moto_Set_GSpeed` for motor 1. -/
noncomputable def motoSetGSpeed (speed : Int) : MotorCall := ⟨0, speed, .setSG⟩

/-- The variables `std_fdis` and `std_sdis`, which the menu can change. -/
structure SetPoints where
  stdFdis : ℝ
  stdSdis : ℝ

/-- The set-points at the start of the program, on the blue ground. -/
def SetPoints.initial : SetPoints where
  stdFdis := 400
  stdSdis := 414

def derr : ℝ := 3

def rbyCoef : ℝ := -1

def vMax : ℝ := 2400

def basev : ℝ := 250

noncomputable def coef : ℝ := (vMax - basev) / 2

/-- What a turn reads. The two elements of `sonic_data` are read twice. -/
structure Input where
  front : UInt16
  side : UInt16
  frontAgain : UInt16
  sideAgain : UInt16
  /-- `Motor_Pos[0]` -/
  motorPos : ℝ
  key : Bool

/-- How the loop was left: with a key, or with the message that the position is reached. -/
inductive Exit where
  | key
  | reached
deriving DecidableEq, Repr

/-- The variables that `pole_sonic` writes, its calls for motor 1, and how it has ended. -/
structure State where
  pids : PosPids
  vout0 : ℝ
  vout1 : ℝ
  speedX : ℝ
  speedY : ℝ
  speedRotation : ℝ
  mosiSonic1Cmd : UInt8
  mosiSonic2Cmd : UInt8
  sent : List MotorCall
  ended : Option Exit

/-- The variables at the start of the program. -/
noncomputable def State.initial : State where
  pids := ⟨sPosPid, 0, 0, 0, 0, 0, 0⟩
  vout0 := 6
  vout1 := 7
  speedX := 0
  speedY := 0
  speedRotation := 0
  mosiSonic1Cmd := 0
  mosiSonic2Cmd := 0
  sent := []
  ended := none

/-- The argument for the speed of motor 1, before its conversion. -/
noncomputable def frontSpeed (vout : ℝ) : ℝ :=
  if vout * coef + basev > vMax then vMax
  else if vout * coef + basev > 0 then basev + vout * coef
  else if vout * coef + basev > -vMax then -basev + vout * coef
  else -vMax

/-- The branch for the speed of motor 1 that exceeds the limit, as it has the wrong sign of
`basev`. -/
def Exceeds (vout : ℝ) : Prop := vout * coef + basev > -vMax ∧ vout * coef - basev ≤ -(vMax + 1)

section Speed

/-- In the wrong branch the integer part of the speed is that of a number above -2401. -/
theorem abs_toS16_of_neg {value : ℝ} (low : -2401 < value) (high : value ≤ 0) :
    |toS16 (truncate value)| ≤ 2400 := by
  have lower : -2401 < truncate value := by
    rcases high.lt_or_eq with negative | rfl
    · rw [truncate, if_neg (not_le.mpr negative), Int.lt_ceil]
      exact_mod_cast low
    · simp [truncate]
  have upper : truncate value ≤ 0 := truncate_le (by exact_mod_cast high)
  rw [toS16_of_mem (by omega) (by omega), abs_le]
  omega

theorem lt_abs_toS16 {value : ℝ} (low : -2900 ≤ value) (high : value ≤ -2401) :
    2400 < |toS16 (truncate value)| := by
  have lower : -2900 ≤ truncate value := le_truncate (by exact_mod_cast low)
  have upper : truncate value ≤ -2401 := truncate_le (by exact_mod_cast high)
  rw [toS16_of_mem (by omega) (by omega), lt_abs]
  omega

/-- The speed of motor 1 is limited except in the wrong branch. -/
theorem abs_frontSpeed_le_iff (vout : ℝ) :
    |toS16 (truncate (frontSpeed vout))| ≤ 2400 ↔ ¬Exceeds vout := by
  have within : ∀ value : ℝ, |value| ≤ 2400 → |toS16 (truncate value)| ≤ 2400 :=
    fun value small => Rig.abs_toS16_truncate_le (by decide) (by exact_mod_cast small)
  have top : vMax = 2400 := rfl
  have base : basev = 250 := rfl
  rw [frontSpeed, Exceeds]
  generalize vout * coef = x
  by_cases first : x + basev > vMax
  · rw [if_pos first]
    refine iff_of_true (within _ (by norm_num [top])) fun exceeds => ?_
    linarith [exceeds.2]
  rw [if_neg first]
  by_cases second : x + basev > 0
  · rw [if_pos second]
    refine iff_of_true (within _ (abs_le.mpr ⟨by linarith, by linarith⟩)) fun exceeds => ?_
    linarith [exceeds.2]
  rw [if_neg second]
  by_cases third : x + basev > -vMax
  · rw [if_pos third]
    by_cases far : x - basev ≤ -(vMax + 1)
    · refine iff_of_false (not_le.mpr (lt_abs_toS16 ?_ ?_)) (not_not.mpr ⟨third, far⟩)
      · linarith
      · linarith
    · refine iff_of_true (abs_toS16_of_neg ?_ ?_) fun exceeds => far exceeds.2
      · linarith
      · linarith
  · rw [if_neg third]
    exact iff_of_true (within _ (by norm_num [top])) fun exceeds => third exceeds.1

end Speed

/-- The function `SONICx_ENABLE`, less the frame with the command. -/
def sonicxEnable (sonicx : UInt8) (s : State) : State :=
  if sonicx &&& 0x0f ≠ 0 then { s with mosiSonic1Cmd := s.mosiSonic1Cmd ||| sonicx }
  else { s with mosiSonic2Cmd := s.mosiSonic2Cmd ||| (sonicx >>> 4) }

/-- The function `SONICx_DISABLE`, less the frame with the command. -/
def sonicxDisable (sonicx : UInt8) (s : State) : State :=
  if sonicx &&& 0x0f ≠ 0 then { s with mosiSonic1Cmd := s.mosiSonic1Cmd &&& ~~~sonicx }
  else { s with mosiSonic2Cmd := s.mosiSonic2Cmd &&& ~~~(sonicx >>> 4) }

theorem sent_sonicxDisable (sonicx : UInt8) (s : State) : (sonicxDisable sonicx s).sent = s.sent := by
  rw [sonicxDisable]
  split_ifs <;> rfl

/-- `pole_sonic` up to its loop. -/
def enter (data : UInt32) (s : State) : State :=
  sonicxEnable data.toUInt8 { s with sent := [], ended := none }

namespace SetPoints

variable (points : SetPoints)

/-- The result of the controller for motor 1. -/
noncomputable def frontPid (input : Input) (pids : PosPids) : ℝ × PosPids :=
  posPid (input.front.toNat - points.stdFdis) 1 .fSonic 1800 pids

/-- The adjustment by the sonar in front. -/
noncomputable def frontAdjust (data : UInt32) (input : Input) (s : State) : State :=
  if data &&& 0x01 ≠ 0 ∧ input.frontAgain < 1000 then
    let result := points.frontPid input s.pids
    { s with
      pids := result.2
      vout0 := result.1
      sent := s.sent ++
        [⟨input.motorPos + result.1, toS16 (truncate (frontSpeed result.1)), .setPSG⟩] }
  else { s with sent := s.sent ++ [motoSetGSpeed 0] }

/-- The adjustment by the sonar on the side. Without a reading it is `SPEED_STOP`. -/
noncomputable def sideAdjust (data : UInt32) (input : Input) (s : State) : State :=
  if data &&& 0x02 ≠ 0 ∧ input.sideAgain < 1000 then
    let result := posPid (input.side.toNat - points.stdSdis) 0.999 .sSonic 500 s.pids
    { s with pids := result.2, vout1 := result.1, speedY := rbyCoef * result.1 }
  else { s with speedX := 0, speedY := 0, speedRotation := 0 }

/-- The test at the end of a turn. -/
def Reaches (input : Input) : Prop :=
  (input.front.toNat : ℝ) - points.stdFdis ≤ derr ∧ (input.front.toNat : ℝ) ≥ -derr ∧
    (input.side.toNat : ℝ) - points.stdSdis ≤ derr ∧ (input.side.toNat : ℝ) - points.stdSdis ≥ -derr

open Classical in
/-- The end of a turn. -/
noncomputable def finish (input : Input) (s : State) : State :=
  if input.key then
    let s := sonicxDisable 0x03 s
    { s with
      vout0 := 0
      vout1 := 0
      speedY := 0
      sent := s.sent ++ [motoSetGSpeed 0]
      ended := some .key }
  else if points.Reaches input then
    { s with
      speedY := 0
      sent := s.sent ++ [motoSetGSpeed 0]
      ended := some .reached }
  else s

/-- A turn of the loop. -/
noncomputable def turn (data : UInt32) (input : Input) (s : State) : State :=
  points.finish input (points.sideAdjust data input (points.frontAdjust data input s))

/-- The function `pole_sonic` after some turns. -/
noncomputable def after (data : UInt32) (inputs : Nat → Input) (s : State) : Nat → State
  | 0 => enter data s
  | k + 1 =>
    if (after data inputs s k).ended = none then
      points.turn data (inputs k) (after data inputs s k)
    else after data inputs s k

/-- The position is reached up to the accepted error. -/
def Arrived (input : Input) : Prop :=
  |(input.front.toNat : ℝ) - points.stdFdis| ≤ derr ∧
    |(input.side.toNat : ℝ) - points.stdSdis| ≤ derr

/-- `pole_sonic` reports the position only where it is reached, leaves everything at rest, and sends
limited speeds. -/
structure Positions (inputs : Nat → Input) (s : State) : Prop where
  arrived : ∀ k, (points.after 3 inputs s k).ended = none →
    (points.after 3 inputs s (k + 1)).ended = some .reached → points.Arrived (inputs k)
  stopped : ∀ k, (points.after 3 inputs s k).ended ≠ none →
    (points.after 3 inputs s k).speedY = 0 ∧
      (points.after 3 inputs s k).sent.getLast? = some (motoSetGSpeed 0)
  limited : ∀ k, ∀ call ∈ (points.after 3 inputs s k).sent, (|call.speed| : ℝ) ≤ vMax

/-- A turn in which neither the missing bound of the test nor the wrong branch for the speed
shows. -/
structure Harmless (input : Input) (s : State) : Prop where
  near : input.key = false → points.Reaches input →
    points.stdFdis - derr ≤ (input.front.toNat : ℝ)
  slow : input.frontAgain < 1000 → ¬Exceeds (points.frontPid input s.pids).1

section Turn

variable (data : UInt32) (input : Input) (s : State)

/-- The call for motor 1 in a turn. -/
noncomputable def frontCall (points : SetPoints) (data : UInt32) (input : Input) (s : State) :
    MotorCall :=
  if data &&& 0x01 ≠ 0 ∧ input.frontAgain < 1000 then
    ⟨input.motorPos + (points.frontPid input s.pids).1,
      toS16 (truncate (frontSpeed (points.frontPid input s.pids).1)), .setPSG⟩
  else motoSetGSpeed 0

theorem sent_frontAdjust :
    (points.frontAdjust data input s).sent = s.sent ++ [points.frontCall data input s] := by
  rw [frontAdjust, frontCall]
  split_ifs <;> rfl

theorem ended_frontAdjust : (points.frontAdjust data input s).ended = s.ended := by
  rw [frontAdjust]
  split_ifs <;> rfl

theorem sent_sideAdjust : (points.sideAdjust data input s).sent = s.sent := by
  rw [sideAdjust]
  split_ifs <;> rfl

theorem ended_sideAdjust : (points.sideAdjust data input s).ended = s.ended := by
  rw [sideAdjust]
  split_ifs <;> rfl

/-- A turn ends the loop with everything at rest, or goes on. -/
theorem turn_cases :
    ((input.key = true ∧ (points.turn data input s).ended = some .key ∨
        input.key = false ∧ points.Reaches input ∧
          (points.turn data input s).ended = some .reached) ∧
      (points.turn data input s).speedY = 0 ∧
      (points.turn data input s).sent =
        s.sent ++ [points.frontCall data input s, motoSetGSpeed 0]) ∨
    ((points.turn data input s).ended = s.ended ∧
      (points.turn data input s).sent = s.sent ++ [points.frontCall data input s]) := by
  have sent := points.sent_sideAdjust data input (points.frontAdjust data input s)
  rw [sent_frontAdjust] at sent
  rw [turn, finish]
  split_ifs with key reaches
  · refine .inl ⟨.inl ⟨key, rfl⟩, rfl, ?_⟩
    simp [sent_sonicxDisable, sent]
  · refine .inl ⟨.inr ⟨by simpa using key, reaches, rfl⟩, rfl, ?_⟩
    simp [sent]
  · refine .inr ⟨?_, sent⟩
    rw [ended_sideAdjust, ended_frontAdjust]

theorem frontCall_mem_turn : points.frontCall data input s ∈ (points.turn data input s).sent := by
  rcases points.turn_cases data input s with ⟨-, -, sent⟩ | ⟨-, sent⟩ <;> simp [sent]

theorem mem_sent_turn {call : MotorCall} (sent : call ∈ (points.turn data input s).sent) :
    call ∈ s.sent ∨ call = points.frontCall data input s ∨ call = motoSetGSpeed 0 := by
  rcases points.turn_cases data input s with ⟨-, -, calls⟩ | ⟨-, calls⟩
  · simpa [calls] using sent
  · rw [calls, List.mem_append, List.mem_singleton] at sent
    exact sent.imp_right .inl

/-- The call of a turn is limited exactly if the speed is not that of the wrong branch. -/
theorem abs_frontCall_le_iff :
    (|(points.frontCall 3 input s).speed| : ℝ) ≤ vMax ↔
      (input.frontAgain < 1000 → ¬Exceeds (points.frontPid input s.pids).1) := by
  have cast : ∀ n : Int, (|(n : ℝ)| ≤ vMax) ↔ |n| ≤ 2400 := by
    intro n
    rw [vMax]
    norm_cast
  have front : (3 : UInt32) &&& 0x01 ≠ 0 := by decide
  rw [cast, ← abs_frontSpeed_le_iff, frontCall]
  by_cases seen : input.frontAgain < 1000
  · rw [if_pos ⟨front, seen⟩, forall_prop_of_true seen]
  · simp [seen, motoSetGSpeed]

/-- A turn that reports the position has reached it exactly if it is not too near. -/
theorem Reaches.arrived_iff {points : SetPoints} {input : Input} (reaches : points.Reaches input) :
    points.Arrived input ↔ points.stdFdis - derr ≤ (input.front.toNat : ℝ) := by
  obtain ⟨front, -, side, otherSide⟩ := reaches
  constructor
  · rintro ⟨near, -⟩
    linarith [(abs_le.mp near).1]
  · intro near
    exact ⟨abs_le.mpr ⟨by linarith, front⟩, abs_le.mpr ⟨otherSide, side⟩⟩

end Turn

section Run

variable (inputs : Nat → Input) (s : State)

theorem ended_enter (data : UInt32) : (enter data s).ended = none := by
  rw [enter, sonicxEnable]
  split_ifs <;> rfl

theorem sent_enter (data : UInt32) : (enter data s).sent = [] := by
  rw [enter, sonicxEnable]
  split_ifs <;> rfl

variable {points inputs s} {data : UInt32} {k : Nat}

theorem after_running (running : (points.after data inputs s k).ended = none) :
    points.after data inputs s (k + 1) =
      points.turn data (inputs k) (points.after data inputs s k) := by
  rw [after, if_pos running]

theorem after_ended (ended : (points.after data inputs s k).ended ≠ none) :
    points.after data inputs s (k + 1) = points.after data inputs s k := by
  rw [after, if_neg ended]

/-- Every exit leaves motor 1 and the chassis at rest. -/
theorem stopped_after (ended : (points.after data inputs s k).ended ≠ none) :
    (points.after data inputs s k).speedY = 0 ∧
      (points.after data inputs s k).sent.getLast? = some (motoSetGSpeed 0) := by
  induction k with
  | zero => exact absurd (ended_enter s data) ended
  | succ k ih =>
    by_cases running : (points.after data inputs s k).ended = none
    · rw [after_running running] at ended ⊢
      rcases points.turn_cases data (inputs k) (points.after data inputs s k) with
        ⟨-, still, sent⟩ | ⟨same, -⟩
      · exact ⟨still, by simp [sent]⟩
      · exact absurd (same.trans running) ended
    · rw [after_ended running] at ended ⊢
      exact ih ended

/-- The calls for motor 1 are those of the turns, and stops. -/
theorem mem_sent_after {call : MotorCall} (sent : call ∈ (points.after data inputs s k).sent) :
    call = motoSetGSpeed 0 ∨
      ∃ j, (points.after data inputs s j).ended = none ∧
        call = points.frontCall data (inputs j) (points.after data inputs s j) := by
  induction k with
  | zero => simp [after, sent_enter] at sent
  | succ k ih =>
    by_cases running : (points.after data inputs s k).ended = none
    · rw [after_running running] at sent
      rcases points.mem_sent_turn data _ _ sent with earlier | now | stop
      · exact ih earlier
      · exact .inr ⟨k, running, now⟩
      · exact .inl stop
    · rw [after_ended running] at sent
      exact ih sent

/-- The loop is left with the report exactly if the test passes and there is no key. -/
theorem ended_reached_iff (running : (points.after data inputs s k).ended = none) :
    (points.after data inputs s (k + 1)).ended = some .reached ↔
      (inputs k).key = false ∧ points.Reaches (inputs k) := by
  rw [after_running running, turn, finish]
  cases key : (inputs k).key
  · by_cases reaches : points.Reaches (inputs k)
    · simp [reaches]
    · simp [reaches, ended_sideAdjust, ended_frontAdjust, running]
  · simp

end Run

/-- Positioning is correct exactly if in every turn the position is not reported too near the pole,
and the speed of motor 1 does not come from the wrong branch. -/
theorem positions_iff (points : SetPoints) (inputs : Nat → Input) (s : State) :
    points.Positions inputs s ↔ ∀ k, (points.after 3 inputs s k).ended = none →
      points.Harmless (inputs k) (points.after 3 inputs s k) := by
  constructor
  · intro positions k running
    constructor
    · intro key reaches
      rw [← reaches.arrived_iff]
      exact positions.arrived k running ((ended_reached_iff running).mpr ⟨key, reaches⟩)
    · have sent := points.frontCall_mem_turn 3 (inputs k) (points.after 3 inputs s k)
      rw [← after_running running] at sent
      exact (points.abs_frontCall_le_iff _ _).mp (positions.limited (k + 1) _ sent)
  · intro harmless
    constructor
    · intro k running reported
      obtain ⟨key, reaches⟩ := (ended_reached_iff running).mp reported
      exact reaches.arrived_iff.mpr ((harmless k running).near key reaches)
    · intro k
      exact stopped_after
    · intro k call sent
      rcases mem_sent_after sent with rfl | ⟨j, running, rfl⟩
      · norm_num [motoSetGSpeed, vMax]
      · exact (points.abs_frontCall_le_iff _ _).mpr (harmless j running).slow

/-- A reading of 250 in front, with the side at its set-point. -/
noncomputable def near : Input where
  front := 250
  side := 414
  frontAgain := 250
  sideAgain := 414
  motorPos := 0
  key := false

theorem reaches_near : initial.Reaches near := by
  have front : (250 : UInt16).toNat = 250 := rfl
  have side : (414 : UInt16).toNat = 414 := rfl
  norm_num [Reaches, near, initial, derr, front, side]

theorem exceeds_near : Exceeds (initial.frontPid near State.initial.pids).1 := by
  have front : (250 : UInt16).toNat = 250 := rfl
  norm_num [Exceeds, frontPid, posPid, limited, near, front, initial, State.initial, sPosPid,
    Control.Pid.gains, coef, vMax, basev]

/-- 150 in front of its set-point `pole_sonic` reports the position, after a speed of more than
2400. -/
theorem not_positions_near :
    ¬initial.Positions (fun _ => near) .initial ∧
      (initial.after 3 (fun _ => near) .initial 1).ended = some .reached ∧
      ∃ call ∈ (initial.after 3 (fun _ => near) .initial 1).sent, vMax < |(call.speed : ℝ)| := by
  have running : (initial.after 3 (fun _ => near) .initial 0).ended = none := ended_enter _ _
  have reported : (initial.after 3 (fun _ => near) .initial 1).ended = some .reached :=
    (ended_reached_iff running).mpr ⟨rfl, reaches_near⟩
  have sent : initial.frontCall 3 near (initial.after 3 (fun _ => near) .initial 0) ∈
      (initial.after 3 (fun _ => near) .initial 1).sent := by
    rw [after_running running]
    exact initial.frontCall_mem_turn _ _ _
  have fast : vMax < |((initial.frontCall 3 near
      (initial.after 3 (fun _ => near) .initial 0)).speed : ℝ)| := by
    rw [← not_le, abs_frontCall_le_iff]
    exact fun slow => slow (by decide) exceeds_near
  refine ⟨fun positions => ?_, reported, _, sent, fast⟩
  exact absurd (positions.limited 1 _ sent) (not_le.mpr fast)

end SetPoints

end BadmintonRobot.Sonic
