import Mathlib
import BadmintonRobot.General.Keyboard
import BadmintonRobot.Numeric.BubbleSort
import BadmintonRobot.Numeric.Literal

/-!
# Recording an aim

`HandoverRecode`, `PoleRecode`, `CircleRecode` and `WhiteTapeRecode` record what the cameras and the
gyroscope report twenty times, sort the records and offer the elements with index 10. A key stores
them as the aim, another one records again. The screen, the pictures and the move of the motor
before the hand-over is recorded are left out. An `fp64` is an element of any linear order.
-/

namespace BadmintonRobot.Camera

open General Numeric

variable {K : Type}

/-- The variables that the functions record. -/
structure Reading (K : Type) where
  camX : Int
  camY : Int
  camZ : Int
  camA : Int
  camPoleX : Int
  camPoleY : Int
  camDist : Fin 3 → K
  camAngle : Fin 3 → K
  gyroAngle : K

/-- The aims of `keep.c`, with the motor positions that are stored beside them. -/
structure Aims (K : Type) where
  handoverFinish : Bool
  aimXHandover : Nat → Int
  aimYHandover : Nat → Int
  aimZHandover : Nat → Int
  aimAHandover : Nat → Int
  poleFinish : Bool
  aimXPole : Int
  aimYPole : Int
  aimAPole : K
  aimDSwing : Fin 3 → K
  aimASwing : Fin 2 → K
  aimDCircle : Nat → K
  aimACircle : Nat → K
  aimAGCircle : Nat → K
  motor2AimPos : Nat → K

/-- The two halves of the field. -/
inductive Ground where
  | blue
  | red
deriving DecidableEq, Repr

/-- The value of a macro `BLUE` or `RED`. -/
def Ground.index : Ground → Fin 2
  | .blue => 0
  | .red => 1

def camCircleLine : Fin 3 := 0

/-- `Cam_Line_BLUE` or `Cam_Line_RED`. -/
def Ground.camLine : Ground → Fin 3
  | .blue => 1
  | .red => 2

def aimSs : Nat := 0

def aimPw : Nat := 1

section Setters

/-- The function `SetHandover`. -/
def setHandover (aimX aimY aimZ aimA : Int) (place : Nat) (s : Aims K) : Aims K :=
  { s with
    handoverFinish := true
    aimXHandover := Function.update s.aimXHandover place aimX
    aimYHandover := Function.update s.aimYHandover place aimY
    aimZHandover := Function.update s.aimZHandover place aimZ
    aimAHandover := Function.update s.aimAHandover place aimA }

/-- The function `SetPole`. -/
def setPole (aimX aimY : Int) (aimA : K) (s : Aims K) : Aims K :=
  { s with poleFinish := true, aimXPole := aimX, aimYPole := aimY, aimAPole := aimA }

/-- The function `SetCamCircle`. -/
def setCamCircle (aimA aimD aimAG : K) (place : Nat) (s : Aims K) : Aims K :=
  { s with
    aimACircle := Function.update s.aimACircle place aimA
    aimDCircle := Function.update s.aimDCircle place aimD
    aimAGCircle := Function.update s.aimAGCircle place aimAG }

/-- The function `SetSwing`. -/
def setSwing (aimD1 aimD2 aimA : K) (ground : Ground) (s : Aims K) : Aims K :=
  { s with
    aimDSwing := Function.update (Function.update s.aimDSwing camCircleLine aimD1)
      ground.camLine aimD2
    aimASwing := Function.update s.aimASwing ground.index aimA }

/-- Store the position of motor 2. -/
def setMotor2AimPos (i : Nat) (motorPos : K) (s : Aims K) : Aims K :=
  { s with motor2AimPos := Function.update s.motor2AimPos i motorPos }

end Setters

section Recorders

/-- The function `order_s16`. -/
def orderS16 (a : Nat → Int) (length : Nat) : Nat → Int := bubbleSort a length

variable [LinearOrder K]

/-- The function `order_fp64`. -/
def orderFp64 (a : Nat → K) (length : Nat) : Nat → K := bubbleSort a length

/-- What differs between the four functions: the arrays they fill from the readings, the sorting of
these, what the key 1 stores, with the position of motor 2 at that moment, and the key that
records again. -/
structure Recorder (K B : Type) where
  record : (Nat → Reading K) → B
  order : B → B
  save : K → B → Aims K → Aims K
  retry : Key

/-- The arrays of `HandoverRecode`. -/
structure HandoverTmp where
  camX : Nat → Int
  camY : Nat → Int
  camZ : Nat → Int
  camA : Nat → Int

/-- The function `HandoverRecode`. -/
def handoverRecode (place : Nat) : Recorder K HandoverTmp where
  record readings :=
    { camX := fun i => (readings i).camX
      camY := fun i => (readings i).camY
      camZ := fun i => (readings i).camZ
      camA := fun i => (readings i).camA }
  order tmp :=
    { camX := orderS16 tmp.camX 20
      camY := orderS16 tmp.camY 20
      camZ := orderS16 tmp.camZ 20
      camA := orderS16 tmp.camA 20 }
  save motorPos tmp s :=
    let s := setHandover (tmp.camX 10) (tmp.camY 10) (tmp.camZ 10) (tmp.camA 10) place s
    let s := if place = aimSs then setMotor2AimPos 1 motorPos s else s
    if place = aimPw then setMotor2AimPos 3 motorPos s else s
  retry := .key2

/-- The arrays of `PoleRecode`. -/
structure PoleTmp (K : Type) where
  camX : Nat → Int
  camY : Nat → Int
  gyroA : Nat → K

/-- The function `PoleRecode`. It does the same for both grounds, the name of the picture apart. -/
def poleRecode : Recorder K (PoleTmp K) where
  record readings :=
    { camX := fun i => (readings i).camPoleX
      camY := fun i => (readings i).camPoleY
      gyroA := fun i => (readings i).gyroAngle }
  order tmp :=
    { camX := orderS16 tmp.camX 20
      camY := orderS16 tmp.camY 20
      gyroA := orderFp64 tmp.gyroA 20 }
  save motorPos tmp s :=
    setMotor2AimPos 2 motorPos (setPole (tmp.camX 10) (tmp.camY 10) (tmp.gyroA 10) s)
  retry := .key2

/-- The arrays of `CircleRecode`. -/
structure CircleTmp (K : Type) where
  camD : Nat → K
  camA : Nat → K
  gyroA : Nat → K

/-- The function `CircleRecode`. -/
def circleRecode (place : Nat) : Recorder K (CircleTmp K) where
  record readings :=
    { camD := fun i => (readings i).camDist camCircleLine
      camA := fun i => (readings i).camAngle camCircleLine
      gyroA := fun i => (readings i).gyroAngle }
  order tmp :=
    { camD := orderFp64 tmp.camD 20
      camA := orderFp64 tmp.camA 20
      gyroA := orderFp64 tmp.gyroA 20 }
  save _ tmp s := setCamCircle (tmp.camA 10) (tmp.camD 10) (tmp.gyroA 10) place s
  retry := .key2

/-- The arrays of `WhiteTapeRecode`. -/
structure WhiteTapeTmp (K : Type) where
  camDF : Nat → K
  camDS : Nat → K
  gyroA : Nat → K

/-- The function `WhiteTapeRecode`. Its keys 2 and 3 are exchanged. -/
def whiteTapeRecode (ground : Ground) : Recorder K (WhiteTapeTmp K) where
  record readings :=
    { camDF := fun i => (readings i).camDist camCircleLine
      camDS := fun i => (readings i).camDist ground.camLine
      gyroA := fun i => (readings i).gyroAngle }
  order tmp :=
    { camDF := orderFp64 tmp.camDF 20
      camDS := orderFp64 tmp.camDS 20
      gyroA := orderFp64 tmp.gyroA 20 }
  save _ tmp s := setSwing (tmp.camDF 10) (tmp.camDS 10) (tmp.gyroA 10) ground s
  retry := .key3

end Recorders

section Dialog

variable {B : Type}

/-- A recording function while it waits for a key. `round` counts the repetitions. -/
structure Recording (K B : Type) where
  round : Nat
  tmp : B
  aims : Aims K
  returned : Bool

/-- A key, with the position of motor 2 when it is handled. -/
structure Press (K : Type) where
  key : Key
  motorPos : K

namespace Recorder

/-- A round: twenty readings, and the sorting. -/
def recode (r : Recorder K B) (readings : Nat → Reading K) : B := r.order (r.record readings)

/-- The function up to its first wait for a key. -/
def enter (r : Recorder K B) (readings : Nat → Nat → Reading K) (aims : Aims K) : Recording K B where
  round := 0
  tmp := r.recode (readings 0)
  aims := aims
  returned := false

/-- The `switch` over a key. -/
def press (r : Recorder K B) (readings : Nat → Nat → Reading K) (s : Recording K B)
    (press : Press K) : Recording K B :=
  if s.returned then s
  else if press.key = .key1 then { s with aims := r.save press.motorPos s.tmp s.aims }
  else if press.key = .key4 then { s with returned := true }
  else if press.key = r.retry then
    { s with round := s.round + 1, tmp := r.recode (readings (s.round + 1)) }
  else s

/-- The function after some keys. -/
def run (r : Recorder K B) (readings : Nat → Nat → Reading K) (aims : Aims K)
    (presses : List (Press K)) : Recording K B :=
  presses.foldl (r.press readings) (r.enter readings aims)

variable {r : Recorder K B} {readings : Nat → Nat → Reading K} {s : Recording K B}

/-- A key leaves the sorted records of the round in the arrays. -/
theorem press_recoded (recoded : s.tmp = r.recode (readings s.round)) (press : Press K) :
    (r.press readings s press).tmp = r.recode (readings (r.press readings s press).round) := by
  rw [Recorder.press]
  split_ifs with returned saves ends again
  · exact recoded
  · exact recoded
  · exact recoded
  · rfl
  · exact recoded

theorem run_recoded (r : Recorder K B) (readings : Nat → Nat → Reading K) (aims : Aims K)
    (presses : List (Press K)) :
    (r.run readings aims presses).tmp =
      r.recode (readings (r.run readings aims presses).round) := by
  induction presses using List.reverseRecOn with
  | nil => rfl
  | append_singleton presses press ih =>
    rw [run, List.foldl_append]
    exact press_recoded ih press

/-- What the key 1 stores after some other keys. -/
theorem run_save (r : Recorder K B) (readings : Nat → Nat → Reading K) (aims : Aims K)
    (presses : List (Press K)) (motorPos : K)
    (waits : (r.run readings aims presses).returned = false) :
    (r.run readings aims (presses ++ [⟨.key1, motorPos⟩])).aims =
      r.save motorPos (r.recode (readings (r.run readings aims presses).round))
        (r.run readings aims presses).aims := by
  rw [← run_recoded, run, List.foldl_append, ← run]
  simp [press, waits]

end Recorder

end Dialog

section Median

variable {α : Type} [LinearOrder α]

/-- A sorted permutation, in the same part of the memory. -/
structure Ordered (b a : Nat → α) (length : Nat) : Prop where
  perm : ((List.range length).map b).Perm ((List.range length).map a)
  sorted : ((List.range length).map b).Pairwise (· ≤ ·)
  outside : ∀ k, length ≤ k → b k = a k

theorem ordered_bubbleSort (a : Nat → α) (length : Nat) :
    Ordered (bubbleSort a length) a length where
  perm := (rearranged_bubbleSort a length).perm
  sorted := by
    rw [List.pairwise_map]
    refine List.pairwise_lt_range.imp_of_mem ?_
    intro j k _ inside before
    exact bubbleSort_le a before.le (List.mem_range.mp inside)
  outside _ := (rearranged_bubbleSort a length).outside

/-- An aim lies in every interval in which at least eleven of the twenty records lie. -/
def Robust (records : Nat → α) (aim : α) : Prop :=
  ∀ lo hi, 11 ≤ ((Finset.range 20).filter fun i => lo ≤ records i ∧ records i ≤ hi).card →
    lo ≤ aim ∧ aim ≤ hi

theorem robust_bubbleSort (records : Nat → α) : Robust records (bubbleSort records 20 10) := by
  intro lo hi many
  rw [← (rearranged_bubbleSort records 20).card_filter fun x => lo ≤ x ∧ x ≤ hi] at many
  have sorted : ∀ j k, j ≤ k → k < 20 → bubbleSort records 20 j ≤ bubbleSort records 20 k :=
    fun j k before inside => bubbleSort_le records before inside
  exact mem_interval_of_sorted sorted (by decide) many (lt_of_lt_of_le (by decide) many)

end Median

section Aims

variable [LinearOrder K]

/-- The aim of a hand-over is robust with respect to the readings of a round. -/
structure RobustHandover (place : Nat) (readings : Nat → Reading K) (s : Aims K) : Prop where
  x : Robust (fun i => (readings i).camX) (s.aimXHandover place)
  y : Robust (fun i => (readings i).camY) (s.aimYHandover place)
  z : Robust (fun i => (readings i).camZ) (s.aimZHandover place)
  a : Robust (fun i => (readings i).camA) (s.aimAHandover place)

structure RobustPole (readings : Nat → Reading K) (s : Aims K) : Prop where
  x : Robust (fun i => (readings i).camPoleX) s.aimXPole
  y : Robust (fun i => (readings i).camPoleY) s.aimYPole
  a : Robust (fun i => (readings i).gyroAngle) s.aimAPole

structure RobustCircle (place : Nat) (readings : Nat → Reading K) (s : Aims K) : Prop where
  a : Robust (fun i => (readings i).camAngle camCircleLine) (s.aimACircle place)
  d : Robust (fun i => (readings i).camDist camCircleLine) (s.aimDCircle place)
  aG : Robust (fun i => (readings i).gyroAngle) (s.aimAGCircle place)

structure RobustSwing (ground : Ground) (readings : Nat → Reading K) (s : Aims K) : Prop where
  d1 : Robust (fun i => (readings i).camDist camCircleLine) (s.aimDSwing camCircleLine)
  d2 : Robust (fun i => (readings i).camDist ground.camLine) (s.aimDSwing ground.camLine)
  a : Robust (fun i => (readings i).gyroAngle) (s.aimASwing ground.index)

/-- Whenever the key 1 is handled, the aims after it are robust with respect to the readings of the
last round. -/
def Recorder.SavesRobust {B : Type} (r : Recorder K B)
    (robust : (Nat → Reading K) → Aims K → Prop) : Prop :=
  ∀ readings aims presses motorPos, (r.run readings aims presses).returned = false →
    robust (readings (r.run readings aims presses).round)
      (r.run readings aims (presses ++ [⟨.key1, motorPos⟩])).aims

omit [LinearOrder K] in
theorem Recorder.savesRobust_of_save {B : Type} {r : Recorder K B}
    {robust : (Nat → Reading K) → Aims K → Prop}
    (saves : ∀ readings motorPos aims, robust readings (r.save motorPos (r.recode readings) aims)) :
    r.SavesRobust robust := by
  intro readings aims presses motorPos waits
  rw [r.run_save readings aims presses motorPos waits]
  exact saves _ _ _

omit [LinearOrder K] in
theorem robust_handover (place : Nat) (readings : Nat → Reading K) (motorPos : K) (aims : Aims K) :
    RobustHandover place readings
      ((handoverRecode place).save motorPos ((handoverRecode place).recode readings) aims) := by
  have stored : ∀ s : Aims K, RobustHandover place readings s →
      ∀ i, RobustHandover place readings (setMotor2AimPos i motorPos s) :=
    fun _ robust _ => ⟨robust.x, robust.y, robust.z, robust.a⟩
  have whole : RobustHandover place readings
      (setHandover (orderS16 (fun i => (readings i).camX) 20 10)
        (orderS16 (fun i => (readings i).camY) 20 10) (orderS16 (fun i => (readings i).camZ) 20 10)
        (orderS16 (fun i => (readings i).camA) 20 10) place aims) := by
    constructor <;> simp only [setHandover, Function.update_self] <;> exact robust_bubbleSort _
  simp only [handoverRecode, Recorder.recode]
  split_ifs
  · exact stored _ (stored _ whole _) _
  · exact stored _ whole _
  · exact stored _ whole _
  · exact whole

theorem robust_pole (readings : Nat → Reading K) (motorPos : K) (aims : Aims K) :
    RobustPole readings (poleRecode.save motorPos (poleRecode.recode readings) aims) := by
  constructor <;> simp only [poleRecode, Recorder.recode, setMotor2AimPos, setPole] <;>
    exact robust_bubbleSort _

theorem robust_circle (place : Nat) (readings : Nat → Reading K) (motorPos : K) (aims : Aims K) :
    RobustCircle place readings
      ((circleRecode place).save motorPos ((circleRecode place).recode readings) aims) := by
  constructor <;> simp only [circleRecode, Recorder.recode, setCamCircle, Function.update_self] <;>
    exact robust_bubbleSort _

theorem robust_swing (ground : Ground) (readings : Nat → Reading K) (motorPos : K)
    (aims : Aims K) :
    RobustSwing ground readings
      ((whiteTapeRecode ground).save motorPos ((whiteTapeRecode ground).recode readings) aims) := by
  have apart : camCircleLine ≠ ground.camLine := by cases ground <;> decide
  constructor <;> simp only [whiteTapeRecode, Recorder.recode, setSwing, Function.update_self]
  · rw [Function.update_of_ne apart, Function.update_self]
    exact robust_bubbleSort _
  · exact robust_bubbleSort _
  · exact robust_bubbleSort _

/-- The recorded aims are medians that outliers do not move. -/
theorem recorded_aims_robust :
    (∀ a length, Ordered (orderS16 a length) a length) ∧
      (∀ (a : Nat → K) length, Ordered (orderFp64 a length) a length) ∧
      (∀ place, (handoverRecode (K := K) place).SavesRobust (RobustHandover place)) ∧
      (poleRecode (K := K)).SavesRobust RobustPole ∧
      (∀ place, (circleRecode (K := K) place).SavesRobust (RobustCircle place)) ∧
      ∀ ground, (whiteTapeRecode (K := K) ground).SavesRobust (RobustSwing ground) := by
  refine ⟨fun a length => ordered_bubbleSort a length, fun a length => ordered_bubbleSort a length,
    fun place => ?_, ?_, fun place => ?_, fun ground => ?_⟩
  · exact Recorder.savesRobust_of_save (robust_handover place)
  · exact Recorder.savesRobust_of_save robust_pole
  · exact Recorder.savesRobust_of_save (robust_circle place)
  · exact Recorder.savesRobust_of_save (robust_swing ground)

end Aims

end BadmintonRobot.Camera
