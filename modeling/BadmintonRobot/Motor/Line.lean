import Mathlib
import BadmintonRobot.Can.Filter
import BadmintonRobot.Can.Table
import BadmintonRobot.Numeric.Interpolation
import BadmintonRobot.Numeric.Literal
import BadmintonRobot.Semantics.Run

/-!
# Driving a motor along a line

`mt_line` drives a motor from one position to another in three stages: it speeds up,
keeps the speed and slows down, with the duty cycle interpolated by the position that it
reads. Numbers are exact, in any ordered field. A division by zero or a conversion of a
value that `s8` does not have gives an undefined output and ends the run of the model.
-/

namespace BadmintonRobot.Motor

open Can Numeric

/-- The parameters of `mt_line`. -/
structure LineParams (K : Type) where
  idNum : Nat
  startp : K
  endp : K
  startRatio : K
  endRatio : K
  v1 : Int
  v2 : Int
  v3 : Int

/-- The positions between which the stages change, and the direction. -/
structure Profile (K : Type) where
  p1 : K
  p2 : K
  p3 : K
  p4 : K
  dir : Int
deriving DecidableEq

inductive Stage where
  | speedUp
  | constant
  | slowDown
deriving DecidableEq, Repr

/-- What a turn of a loop passes to `mt_pwm`. -/
inductive Output where
  | pwm (stage : Stage) (value : Int)
  | undefined (stage : Stage)
deriving DecidableEq, Repr

/-- The state between two turns. -/
structure Line where
  stage : Stage
  timCnt : Nat
  returned : Bool
  outputs : List Output
deriving DecidableEq, Repr

/-- The variable `mt_line_timeout`. -/
def mtLineTimeout : Nat := 20

section Field

variable {K : Type} [Field K] [LinearOrder K]

/-- The beginning of `mt_line`, up to the first stage. It returns if a check fails. -/
def LineParams.profile (params : LineParams K) : Option (Profile K) :=
  let startp := if params.startRatio < 5 / 100 then 5 / 100 else params.startp
  let endp := if params.endRatio < 5 / 100 then 5 / 100 else params.endp
  let p1 := startp
  let p4 := endp
  let p2 := p1 + (endp - startp) * params.startRatio
  let p3 := p4 - (endp - startp) * params.endRatio
  if params.startRatio < 0 ∨ params.startRatio > 1 ∨ params.endRatio < 0 ∨
      params.endRatio > 1 then none
  else if params.v1 < -100 ∨ params.v1 > 100 ∨ params.v2 < -100 ∨ params.v2 > 100 ∨
      params.v3 < -100 ∨ params.v3 > 100 then none
  else if params.startRatio + params.endRatio > 1 then none
  else if params.v1 * params.v2 < 0 ∨ params.v2 * params.v3 < 0 ∨ params.v1 * params.v3 < 0 then
    none
  else if params.idNum < IdNumdef.wMotor1OldId.value ∨
      params.idNum > IdNumdef.wMotor6OldId.value then none
  else if endp - startp > 0 then some ⟨p1, p2, p3, p4, 1⟩
  else if endp - startp < 0 then some ⟨p1, p2, p3, p4, -1⟩
  else none

/-- The motor is beyond a position in the direction of the line. -/
def Profile.Beyond (profile : Profile K) (pos bound : K) : Prop :=
  (profile.dir > 0 ∧ pos > bound) ∨ (profile.dir < 0 ∧ pos < bound)

instance (profile : Profile K) (pos bound : K) : Decidable (profile.Beyond pos bound) :=
  inferInstanceAs (Decidable (_ ∨ _))

variable [FloorRing K]

/-- The conversion of a number to `s8`. -/
def toS8 (x : K) : Option Int :=
  if -128 ≤ truncate x ∧ truncate x ≤ 127 then some (truncate x) else none

/-- The duty cycle on the way from `base` to `goal`. -/
def interpolated (base goal : Int) (covered whole : K) : Option Int :=
  if whole = 0 then none else toS8 ((toInt8 (goal - base) : K) * covered / whole + base)

/-- Pass a value to `mt_pwm` and count the turn. -/
def Line.pass (s : Line) (value : Option Int) : Line :=
  match value with
  | none => { s with outputs := s.outputs ++ [.undefined s.stage], returned := true }
  | some value =>
    { s with
      outputs := s.outputs ++ [.pwm s.stage value]
      timCnt := s.timCnt + 1
      returned := s.timCnt + 1 > 200 * mtLineTimeout }

/-- One turn of the loop of the current stage, with the position that it reads. -/
def turn (params : LineParams K) (profile : Profile K) (s : Line) (pos : K) : Option Line :=
  if s.returned then none
  else match s.stage with
    | .speedUp =>
      if profile.Beyond pos profile.p2 then some { s with stage := .constant, timCnt := 0 }
      else
        some (s.pass (interpolated params.v1 params.v2 (pos - profile.p1)
          (profile.p2 - profile.p1)))
    | .constant =>
      if profile.Beyond pos profile.p3 then some { s with stage := .slowDown, timCnt := 0 }
      else some (s.pass (some params.v2))
    | .slowDown =>
      if profile.Beyond pos profile.p4 then some { s with returned := true }
      else
        some (s.pass (interpolated params.v3 params.v2 (profile.p4 - pos)
          (profile.p4 - profile.p3)))

/-- The state before the first stage. -/
def Line.start : Line where
  stage := .speedUp
  timCnt := 0
  returned := false
  outputs := []

end Field

end BadmintonRobot.Motor
