import Mathlib
import BadmintonRobot.Can.Table
import BadmintonRobot.Image.Transfer
import BadmintonRobot.Numeric.Literal

/-!
# The receive handlers

The functions of `Command.c` that the receive interrupts call. Each reads the object
that the interrupt has filled and updates the globals of one device. A handler that
does not return is `none`.
-/

namespace BadmintonRobot.Can

/-- The representation of a double in memory. -/
abbrev F64 := Fin 8 → UInt8

/-- The representation of a float in memory. -/
abbrev F32 := Fin 4 → UInt8

/-- The doubles that the camera handlers compute from a 16-bit value: an integer
quotient that is converted, or a division by `10.0`. -/
inductive Reading where
  | whole (quotient : Int)
  | tenths (value : Int)
deriving DecidableEq, Repr

/-- The fields of `Encoder[n]` that handlers write. -/
inductive EncoderField where
  | convert1 | convert2 | r | radian | dis
deriving DecidableEq, Repr

/-- The fields of `GPS`, `Gyro` and `Encoder` that handlers write. -/
inductive Sensor where
  | gpsX | gpsY | gpsRadian
  | gyroConvert1 | gyroConvert2 | gyroAngle
  | encoder (number : Fin 2) (field : EncoderField)
deriving DecidableEq, Repr

/-- The memory of the messages and the globals of the devices. -/
structure Board where
  mem : Mem Object
  sensor : Sensor → F64
  ioState : Nat → UInt8
  motorRealAim : Nat → Int
  motorPos : Nat → F32
  motor2TimeFlag : UInt8
  filterFlag : Nat → UInt8
  stopFlag : Nat → UInt8
  camAngle : Nat → Reading
  camDist : Nat → Reading
  camPoleX : Int
  camPoleY : Int
  camX : Int
  camY : Int
  camZ : Int
  camA : Int
  camera1Tmp : Nat → Int
  camera4Tmp : Nat → Int
  camera5Tmp : Nat → Int
  sonicData : Nat → Nat
  sonicCount : Nat → UInt8
  image : Image.Globals

namespace Board

/-- The member `v` of `u8tos16_t` at an offset of an object. -/
def int16At (board : Board) (object : Object) (offset : Nat) : Int :=
  Int.bmod ((board.mem object offset).toNat + 256 * (board.mem object (offset + 1)).toNat) 65536

/-- The member `f64_data` of `fi64_to_u8`. -/
def f64Of (board : Board) (object : Object) : F64 := fun i => board.mem object i

/-- Set the member `time_flag` of `camera_t`, the four bytes after the message, to 0. -/
def clearTimeFlag (board : Board) (object : Object) : Board :=
  { board with
    mem := Function.update board.mem object fun offset =>
      if 8 ≤ offset ∧ offset < 12 then 0 else board.mem object offset }

end Board

/-- The commands from the GPS board that `G_M_CMD_FUNC` tells apart. -/
def cfNormal : UInt8 := 0x06
@[inherit_doc cfNormal] def cfError : UInt8 := 0x08

/-- The handler `G_M_CMD_FUNC`. It uses the identifier as an index of the table, and
both its branches are empty. -/
def gMCmdFunc (board : Board) : Option Board :=
  match canDatabase[IdNumdef.gMCmdId.value]? with
  | none => none
  | some entry =>
    if board.mem entry.dataPtr 0 = cfNormal then some board
    else if board.mem entry.dataPtr 0 = cfError then some board
    else some board

/-- Copy a double from a message to a sensor. -/
def copySensor (object : Object) (sensor : Sensor) (board : Board) : Option Board :=
  some { board with sensor := Function.update board.sensor sensor (board.f64Of object) }

/-- The handlers of the GPS board. -/
def sGpsXFunc := copySensor .misoGpsX .gpsX
@[inherit_doc sGpsXFunc] def sGpsYFunc := copySensor .misoGpsY .gpsY
@[inherit_doc sGpsXFunc] def sGpsAngFunc := copySensor .misoGpsAng .gpsRadian
@[inherit_doc sGpsXFunc] def sGyroC1Func := copySensor .misoGyroC1 .gyroConvert1
@[inherit_doc sGpsXFunc] def sGyroC2Func := copySensor .misoGyroC2 .gyroConvert2
@[inherit_doc sGpsXFunc] def sGyroRadFunc := copySensor .misoGyroRad .gyroAngle
@[inherit_doc sGpsXFunc] def sEnc1C1Func := copySensor .misoEnc1C1 (.encoder 0 .convert1)
@[inherit_doc sGpsXFunc] def sEnc1C2Func := copySensor .misoEnc1C2 (.encoder 0 .convert2)
@[inherit_doc sGpsXFunc] def sEnc1RadFunc := copySensor .misoEnc1Rad (.encoder 0 .r)
@[inherit_doc sGpsXFunc] def sEnc1AngFunc := copySensor .misoEnc1Ang (.encoder 0 .radian)
@[inherit_doc sGpsXFunc] def sEnc1DisFunc := copySensor .misoEnc1Dis (.encoder 0 .dis)
@[inherit_doc sGpsXFunc] def sEnc2C1Func := copySensor .misoEnc2C1 (.encoder 1 .convert1)
@[inherit_doc sGpsXFunc] def sEnc2C2Func := copySensor .misoEnc2C2 (.encoder 1 .convert2)
@[inherit_doc sGpsXFunc] def sEnc2RadFunc := copySensor .misoEnc2Rad (.encoder 1 .r)
@[inherit_doc sGpsXFunc] def sEnc2AngFunc := copySensor .misoEnc2Ang (.encoder 1 .radian)
@[inherit_doc sGpsXFunc] def sEnc2DisFunc := copySensor .misoEnc2Dis (.encoder 1 .dis)

/-- The common body of the motor handlers: the inputs, the goal position in
thousandths and the position. -/
def motorEnc (object : Object) (motor : Nat) (board : Board) : Board :=
  let byte := board.mem object
  let realAim : Int := (byte 6).toNat * 256 + (byte 5).toNat
  { board with
    ioState := Function.update board.ioState motor (byte 0)
    motorRealAim := Function.update board.motorRealAim motor (realAim.bmod 65536)
    motorPos := Function.update board.motorPos motor fun i => byte (i + 1) }

/-- The handlers of the motor boards. -/
def sMotor1EncFunc (board : Board) : Option Board := some (motorEnc .misoM1Enc 0 board)

/-- The second motor's handler also reports that the motor is alive. -/
def sMotor2EncFunc (board : Board) : Option Board :=
  some { motorEnc .misoM2Enc 1 board with motor2TimeFlag := 0 }

@[inherit_doc sMotor1EncFunc] def sMotor3EncFunc (board : Board) : Option Board :=
  some (motorEnc .misoM3Enc 2 board)
@[inherit_doc sMotor1EncFunc] def sMotor4EncFunc (board : Board) : Option Board :=
  some (motorEnc .misoM4Enc 3 board)
@[inherit_doc sMotor1EncFunc] def sMotor5EncFunc (board : Board) : Option Board :=
  some (motorEnc .misoM5Enc 4 board)
@[inherit_doc sMotor1EncFunc] def sMotor6EncFunc (board : Board) : Option Board :=
  some (motorEnc .misoM6Enc 5 board)
@[inherit_doc sMotor1EncFunc] def sMotor7EncFunc (board : Board) : Option Board :=
  some (motorEnc .misoM7Enc 6 board)
@[inherit_doc sMotor1EncFunc] def sMotor8EncFunc (board : Board) : Option Board :=
  some (motorEnc .misoM8Enc 7 board)

/-- The handler `S_SWITCH_FUNC`, which is empty. -/
def sSwitchFunc (board : Board) : Option Board := some board

/-- The handler `R_FLAG_SET_FUNC`. After it has set the goal speed of motor 1 it stays
in `while(1)`. -/
def rFlagSetFunc (board : Board) : Option Board :=
  if board.mem .flagSet1 0 = 1 then none else some board

/-- The part that the handlers of the first three cameras share: with its filter flag
set, the angle tells whether the distance is valid or the robot has to stop. -/
def lineCamera (object : Object) (flag camera : Nat) (board : Board) : Board :=
  let angle := board.int16At object 0
  let dis := board.int16At object 2
  let measured : Board :=
    if board.filterFlag flag ≠ 0 then
      { board with
        camDist := if angle.tdiv 10 = 0 then Function.update board.camDist camera (.tenths dis)
          else board.camDist
        stopFlag := Function.update board.stopFlag camera (if angle.tdiv 10 = 90 then 1 else 0) }
    else { board with camDist := Function.update board.camDist camera (.tenths dis) }
  let turned := { measured with camAngle := Function.update measured.camAngle camera (.tenths angle) }
  if angle.tdiv 10 ≠ 45 then turned.clearTimeFlag object else turned

/-- The handler `S_CAMERA1_FUNC`. Before the shared part it has a filter of its own
that compares with the last values. -/
def sCamera1Func (board : Board) : Option Board :=
  let angle := board.int16At .cameraData1 0
  let dis := board.int16At .cameraData1 2
  let filtered : Board :=
    if board.filterFlag 0 ≠ 0 then
      { board with
        camAngle := if (board.camera1Tmp 0 - angle).natAbs < 100
          then Function.update board.camAngle 0 (.whole (angle.tdiv 10)) else board.camAngle
        camDist := if (board.camera1Tmp 1 - dis).natAbs < 200
          then Function.update board.camDist 0 (.whole (dis.tdiv 10)) else board.camDist
        camera1Tmp := fun i => if i = 0 then angle else if i = 1 then dis else board.camera1Tmp i }
    else board
  some (lineCamera .cameraData1 1 0 filtered)

/-- The handlers of the two side cameras. -/
def sCamera2Func (board : Board) : Option Board := some (lineCamera .cameraData2 2 1 board)
@[inherit_doc sCamera2Func] def sCamera3Func (board : Board) : Option Board :=
  some (lineCamera .cameraData3 3 2 board)

/-- The handler `S_CAMERA4_FUNC`. -/
def sCamera4Func (board : Board) : Option Board :=
  let x := board.int16At .cameraData4 0
  let y := board.int16At .cameraData4 2
  let located : Board :=
    if board.filterFlag 4 ≠ 0 then
      { board with
        camPoleX := if (board.camera4Tmp 0 - x).natAbs < 200 then x.tdiv 10 else board.camPoleX
        camPoleY := if (board.camera4Tmp 1 - y).natAbs < 200 then y.tdiv 10 else board.camPoleY
        camera4Tmp := fun i => if i = 0 then x else if i = 1 then y else board.camera4Tmp i }
    else { board with camPoleX := x.tdiv 10, camPoleY := y.tdiv 10 }
  some (located.clearTimeFlag .cameraData4)

/-- The handler `S_CAMERA5_FUNC`. -/
def sCamera5Func (board : Board) : Option Board :=
  let x := board.int16At .cameraData5 0
  let y := board.int16At .cameraData5 2
  let z := board.int16At .cameraData5 4
  let turn := board.int16At .cameraData5 6
  let located : Board :=
    if board.filterFlag 5 ≠ 0 then
      { board with
        camX := if (board.camera5Tmp 0 - x).natAbs < 500 then x else board.camX
        camY := if (board.camera5Tmp 1 - y).natAbs < 500 then y else board.camY
        camZ := if (board.camera5Tmp 2 - z).natAbs < 1000 then z else board.camZ
        camA := if (board.camera5Tmp 3 - turn).natAbs < 10 then turn else board.camA
        camera5Tmp := fun i =>
          if i = 0 then x else if i = 1 then y else if i = 2 then z else if i = 3 then turn
          else board.camera5Tmp i }
    else { board with camX := x, camY := y, camZ := z, camA := turn }
  some (located.clearTimeFlag .cameraData5)

/-- The image interrupt, with the message that the receive interrupt has stored. -/
def camTrans (object : Object) (camx : Nat) (board : Board) : Option Board :=
  some { board with image := Image.imgSaveIsr camx (fun i => board.mem object i) board.image }

/-- The handlers of the image frames. -/
def sCam1TransFunc := camTrans .misoCam1Trans 1
@[inherit_doc sCam1TransFunc] def sCam2TransFunc := camTrans .misoCam2Trans 2
@[inherit_doc sCam1TransFunc] def sCam3TransFunc := camTrans .misoCam3Trans 3
@[inherit_doc sCam1TransFunc] def sCam4TransFunc := camTrans .misoCam4Trans 4
@[inherit_doc sCam1TransFunc] def sCam5TransFunc := camTrans .misoCam5Trans 5

/-- The common body of the sonic handlers: a sensor number out of range is ignored. -/
def sonic (object : Object) (sensors first : Nat) (board : Board) : Option Board :=
  let num := (board.mem object 2).toNat
  if num < sensors then
    let data := (board.mem object 0).toNat + 256 * (board.mem object 1).toNat
    some { board with
      sonicData := Function.update board.sonicData (num + first) data
      sonicCount := Function.update board.sonicCount (num + first)
        (board.sonicCount (num + first) + 1) }
  else some board

/-- The handlers of the two sonic boards. -/
def sSonic1Func := sonic .misoSonic1Dat 4 0
@[inherit_doc sSonic1Func] def sSonic2Func := sonic .misoSonic2Dat 2 4

/-- The handlers by their names in the table. -/
def Handler.run : Handler → Board → Option Board
  | .gMCmdFunc => Can.gMCmdFunc
  | .sGpsXFunc => Can.sGpsXFunc
  | .sGpsYFunc => Can.sGpsYFunc
  | .sGpsAngFunc => Can.sGpsAngFunc
  | .sGyroC1Func => Can.sGyroC1Func
  | .sGyroC2Func => Can.sGyroC2Func
  | .sGyroRadFunc => Can.sGyroRadFunc
  | .sEnc1C1Func => Can.sEnc1C1Func
  | .sEnc1C2Func => Can.sEnc1C2Func
  | .sEnc1RadFunc => Can.sEnc1RadFunc
  | .sEnc1AngFunc => Can.sEnc1AngFunc
  | .sEnc1DisFunc => Can.sEnc1DisFunc
  | .sEnc2C1Func => Can.sEnc2C1Func
  | .sEnc2C2Func => Can.sEnc2C2Func
  | .sEnc2RadFunc => Can.sEnc2RadFunc
  | .sEnc2AngFunc => Can.sEnc2AngFunc
  | .sEnc2DisFunc => Can.sEnc2DisFunc
  | .rFlagSetFunc => Can.rFlagSetFunc
  | .sSwitchFunc => Can.sSwitchFunc
  | .sSonic1Func => Can.sSonic1Func
  | .sSonic2Func => Can.sSonic2Func
  | .sMotor1EncFunc => Can.sMotor1EncFunc
  | .sMotor2EncFunc => Can.sMotor2EncFunc
  | .sMotor3EncFunc => Can.sMotor3EncFunc
  | .sMotor4EncFunc => Can.sMotor4EncFunc
  | .sMotor5EncFunc => Can.sMotor5EncFunc
  | .sMotor6EncFunc => Can.sMotor6EncFunc
  | .sMotor7EncFunc => Can.sMotor7EncFunc
  | .sMotor8EncFunc => Can.sMotor8EncFunc
  | .sCamera1Func => Can.sCamera1Func
  | .sCamera2Func => Can.sCamera2Func
  | .sCamera3Func => Can.sCamera3Func
  | .sCamera4Func => Can.sCamera4Func
  | .sCamera5Func => Can.sCamera5Func
  | .sCam1TransFunc => Can.sCam1TransFunc
  | .sCam2TransFunc => Can.sCam2TransFunc
  | .sCam3TransFunc => Can.sCam3TransFunc
  | .sCam4TransFunc => Can.sCam4TransFunc
  | .sCam5TransFunc => Can.sCam5TransFunc

private theorem gMCmdFunc_ne_none (board : Board) : gMCmdFunc board ≠ none := by
  obtain ⟨entry, found⟩ : ∃ entry, canDatabase[IdNumdef.gMCmdId.value]? = some entry := ⟨_, rfl⟩
  rw [gMCmdFunc, found]
  dsimp only
  split_ifs <;> simp

private theorem sonic_ne_none (object : Object) (sensors first : Nat) (board : Board) :
    sonic object sensors first board ≠ none := by
  unfold sonic
  dsimp only
  split_ifs <;> simp

/-- The only handler that can fail to return is the one of the flag board. -/
theorem Handler.run_eq_none_iff (handler : Handler) (board : Board) :
    handler.run board = none ↔ handler = .rFlagSetFunc ∧ board.mem .flagSet1 0 = 1 := by
  cases handler
  case gMCmdFunc => simpa [Handler.run] using gMCmdFunc_ne_none board
  case sSonic1Func => simpa [Handler.run, Can.sSonic1Func] using sonic_ne_none .misoSonic1Dat 4 0 board
  case sSonic2Func => simpa [Handler.run, Can.sSonic2Func] using sonic_ne_none .misoSonic2Dat 2 4 board
  case rFlagSetFunc => simp [Handler.run, Can.rFlagSetFunc]
  all_goals
    refine iff_of_false ?_ (fun same => nomatch same.1)
    exact Option.some_ne_none _

end BadmintonRobot.Can
