import Mathlib
import BadmintonRobot.Can.Dispatch
import BadmintonRobot.Can.Table
import BadmintonRobot.Semantics.Isolation

/-!
# Commands from several threads

`W_MOTOR_OLD_FUNC`, `mt_pwm`, `Relay_Set` and `Relay_Clear` fill the buffer of a
database row and let `Write_Database` copy it into a frame. The buffers are global
and nothing locks them. Each function is written here as the list of its accesses
to shared memory, so that threads can be interleaved between any two of them.
-/

namespace BadmintonRobot.Can

open BadmintonRobot.Semantics
open BadmintonRobot.Semantics.Isolation

/-- A byte of one of the database's objects. -/
abbrev Location := Object × Nat

/-- What a command does besides loads and stores: it hands a frame over, or updates
`RELAY_VALUE` at the bit of a port. -/
inductive Action where
  | canSendData (stdId dlc channel : Nat)
  | relayValueOr (port : UInt8)
  | relayValueAndNot (port : UInt8)
deriving DecidableEq, Repr

/-- A statement of a command. -/
abbrev Stmt := Op Location UInt8 Action

/-- The calls of the four functions. A `float` argument is given by its bits and a
signed one by its two's complement. -/
inductive Command where
  | wMotorOldFunc (idNum : Nat) (rot : UInt32) (speed : UInt16) (cmd : UInt8)
  | mtPwm (idNum : Nat) (pwm : UInt8)
  | relaySet (port : UInt8)
  | relayClear (port : UInt8)
deriving DecidableEq, Repr

/-- Byte `i` of a little-endian word. -/
def byteOf (word : Nat) (i : Nat) : UInt8 := UInt8.ofNat (word / 256 ^ i)

/-- The value of `CURRENT_ROBOT`, which is `G1M`. -/
def currentRobot : UInt8 := 0

/-- The assignments of `W_MOTOR_OLD_FUNC` to the buffer of its row. -/
def motorStores (dataPtr : Object) (rot : UInt32) (speed : UInt16) (cmd : UInt8) : List Stmt :=
  [ .write (dataPtr, 0) (byteOf rot.toNat 0),
    .write (dataPtr, 1) (byteOf rot.toNat 1),
    .write (dataPtr, 2) (byteOf rot.toNat 2),
    .write (dataPtr, 3) (byteOf rot.toNat 3),
    .write (dataPtr, 4) (byteOf speed.toNat 0),
    .write (dataPtr, 5) (byteOf speed.toNat 1),
    .write (dataPtr, 6) currentRobot,
    .write (dataPtr, 7) cmd ]

/-- The assignments of `mt_pwm` to the buffer of its row. -/
def pwmStores (dataPtr : Object) (pwm : UInt8) : List Stmt :=
  (List.range 8).map (fun i => (.write (dataPtr, i) 0 : Stmt)) ++
    ([.write (dataPtr, 6) pwm, .write (dataPtr, 7) 0x06] : List Stmt)

section Statements

variable (beyond : Nat → CanData Object Handler)

/-- The statements of `Write_Database` that touch shared memory. The other fields of
`TxMessage` come from the constant table. -/
def writeDatabaseStmts (idNum : Nat) : List Stmt :=
  let entry := hashedEntry beyond idNum
  if (hashTableInit canDatabase idNum).toNat ≥ (canDataNum canDatabase).toNat ∧
      entry.dataType ≠ .writeOnly then
    []
  else
    (List.range entry.dataLength).map (fun j => (.read (entry.dataPtr, j) : Stmt)) ++
      ([.act (.canSendData entry.dataID entry.dataLength entry.channel)] : List Stmt)

/-- The function `W_MOTOR_OLD_FUNC`. -/
def wMotorOldFunc (idNum : Nat) (rot : UInt32) (speed : UInt16) (cmd : UInt8) : List Stmt :=
  if idNum > IdNumdef.wMotor8OldId.value ∨ idNum < IdNumdef.wMotor1OldId.value then
    []
  else
    motorStores (hashedEntry beyond idNum).dataPtr rot speed cmd ++
      writeDatabaseStmts beyond idNum

/-- The function `mt_pwm`. The messages for a large `pwm` only reach the display. -/
def mtPwm (idNum : Nat) (pwm : UInt8) : List Stmt :=
  pwmStores (hashedEntry beyond idNum).dataPtr pwm ++ writeDatabaseStmts beyond idNum

/-- The common body of `Relay_Set` and `Relay_Clear`: `flag` is or-ed to the relay
number, and `RELAY_VALUE` is updated last, for every port. -/
def relaySwitch (flag : UInt8) (update : UInt8 → Action) (port : UInt8) : List Stmt :=
  if port > 0 ∧ port < 17 then
    ([.write (.mosiRelay1Data, 0) ((port - 1) ||| flag)] : List Stmt) ++
      (writeDatabaseStmts beyond IdNumdef.wRelay1Id.value ++ [Op.act (update port)])
  else if port > 16 ∧ port < 33 then
    ([.write (.mosiRelay2Data, 0) ((port - 17) ||| flag)] : List Stmt) ++
      (writeDatabaseStmts beyond IdNumdef.wRelay2Id.value ++ [Op.act (update port)])
  else
    [.act (update port)]

/-- The function `Relay_Set`. -/
def relaySet : UInt8 → List Stmt := relaySwitch beyond 0x80 .relayValueOr

/-- The function `Relay_Clear`, less its unused local counter. -/
def relayClear : UInt8 → List Stmt := relaySwitch beyond 0 .relayValueAndNot

/-- The statements of a call. -/
def Command.stmts : Command → List Stmt
  | .wMotorOldFunc idNum rot speed cmd => Can.wMotorOldFunc beyond idNum rot speed cmd
  | .mtPwm idNum pwm => Can.mtPwm beyond idNum pwm
  | .relaySet port => Can.relaySet beyond port
  | .relayClear port => Can.relayClear beyond port

end Statements

/-- A frame on the bus, with its channel. -/
structure Frame where
  stdId : Nat
  dlc : Nat
  channel : Nat
  data : List UInt8
deriving DecidableEq, Repr

/-- The frame that a relay command stands for: the board and the relay on it, with
`flag` set to switch on. -/
def encodeRelay (flag port : UInt8) : Option Frame :=
  if 1 ≤ port ∧ port ≤ 16 then some ⟨0xd1, 1, 2, [(port - 1) ||| flag]⟩
  else if 17 ≤ port ∧ port ≤ 32 then some ⟨0xd2, 1, 2, [(port - 17) ||| flag]⟩
  else none

/-- The frame that a call stands for: position, speed, robot and command of an old
motor box; a duty cycle with command 6; or a relay switch. Calls for a motor or a
port that does not exist stand for none. -/
def Command.encode : Command → Option Frame
  | .wMotorOldFunc idNum rot speed cmd =>
    if 0xa0 ≤ idNum ∧ idNum ≤ 0xa7 then
      some ⟨idNum, 8, 2,
        [byteOf rot.toNat 0, byteOf rot.toNat 1, byteOf rot.toNat 2, byteOf rot.toNat 3,
          byteOf speed.toNat 0, byteOf speed.toNat 1, 0, cmd]⟩
    else none
  | .mtPwm idNum pwm =>
    (canDatabase.find? fun entry => entry.dataID = idNum).map fun entry =>
      ⟨idNum, 8, entry.channel, [0, 0, 0, 0, 0, 0, pwm, 6]⟩
  | .relaySet port => encodeRelay 0x80 port
  | .relayClear port => encodeRelay 0 port

/-- The frame handed to `Can_SendData` by an action, after the given loads. -/
def Action.frame (seen : List UInt8) : Action → Option Frame
  | .canSendData stdId dlc channel => some ⟨stdId, dlc, channel, seen⟩
  | _ => none

@[simp] theorem Action.frame_canSendData (seen : List UInt8) (stdId dlc channel : Nat) :
    (Action.canSendData stdId dlc channel).frame seen = some ⟨stdId, dlc, channel, seen⟩ := rfl

/-- `mt_pwm` writes eight bytes, so its row must have them. The other functions
check their arguments. -/
def Command.Valid : Command → Prop
  | .mtPwm idNum _ => ∃ entry ∈ canDatabase, entry.dataID = idNum ∧ entry.dataLength = 8
  | _ => True

section Rows

variable (beyond : Nat → CanData Object Handler) {entry : CanData Object Handler}

/-- Every row of the table, writable or not, is loaded byte by byte and sent. -/
theorem writeDatabaseStmts_of_mem (member : entry ∈ canDatabase) :
    writeDatabaseStmts beyond entry.dataID =
      ((List.range entry.dataLength).map fun j => (entry.dataPtr, j)).map .read ++
        [Op.act (Action.canSendData entry.dataID entry.dataLength entry.channel)] := by
  obtain ⟨index, at_index⟩ := List.mem_iff_getElem?.mp member
  have bound : index < canDatabase.length := (List.getElem?_eq_some_iff.mp at_index).1
  rw [writeDatabaseStmts, hashedEntry_of_mem beyond member,
    canDatabase_wellFormed.hash_present at_index, canDatabase_wellFormed.canDataNum_toNat,
    if_neg (by omega), List.map_map]
  rfl

/-- Running the statements alone hands over the frame of `Write_Database`. -/
theorem solo_writeDatabaseStmts (member : entry ∈ canDatabase) (fits : entry.dataLength ≤ 8)
    (stack : List UInt8) (eight : stack.length = 8) (mem : Mem Object) :
    (solo (fun loc : Location => mem loc.1 loc.2) [] (writeDatabaseStmts beyond entry.dataID)).map
        (fun effect => effect.1.frame effect.2) =
      (writeDatabase canDatabase beyond (hashTableInit canDatabase) stack mem entry.dataID).sent.map
        fun sent => some ⟨sent.1.stdId, sent.1.dlc, sent.2, sent.1.data.take sent.1.dlc⟩ := by
  obtain ⟨_, _, outcome⟩ := writeDatabase_present beyond stack mem canDatabase_wellFormed member
  have room : entry.dataLength ≤ stack.length := by omega
  have copied := take_copyData (mem entry.dataPtr) room
  rw [outcome, writeDatabaseStmts_of_mem beyond member, solo_reads]
  simp [solo, Action.frame, CanData.frame, copied, Function.comp_def]

end Rows

end BadmintonRobot.Can
