import Mathlib
import BadmintonRobot.Can.Interleaving

/-!
# The relay boards

`Relay_Set` and `Relay_Clear` send a byte to one of two boards with sixteen relays each, and then
update the bit of the relay in `RELAY_VALUE`. One thread that switches relays one after the other
keeps `RELAY_VALUE` equal to the relays of the boards. The valves of the gun have two relays each,
and `FireOn`, `FireOff` and `FireClear` never leave both of them on.
-/

namespace BadmintonRobot.Can

open BadmintonRobot.Semantics
open BadmintonRobot.Semantics.Isolation

/-- The relays of the two boards. -/
structure Boards where
  first : Nat → Bool
  second : Nat → Bool

/-- A board switches a relay: bit 7 says whether on or off, the other bits which one. -/
def switchRelay (byte : UInt8) (relays : Nat → Bool) : Nat → Bool :=
  Function.update relays (byte &&& 0x7f).toNat (byte &&& 0x80 != 0)

namespace Boards

/-- The boards receive a frame. -/
def receive (boards : Boards) (frame : Frame) : Boards :=
  match frame.data with
  | [] => boards
  | byte :: _ =>
    if frame.stdId = 0xd1 then { boards with first := switchRelay byte boards.first }
    else if frame.stdId = 0xd2 then { boards with second := switchRelay byte boards.second }
    else boards

/-- The relay of port `port + 1`. -/
def relay (boards : Boards) (port : Fin 32) : Bool :=
  if port < 16 then boards.first port else boards.second (port - 16)

end Boards

/-- The macro `RELAY_NUM`. -/
def relayNum (port : UInt8) : UInt32 := 1 <<< (port.toUInt32 - 1)

/-- The function `relay_attain`. -/
def relayAttain (relayValue : UInt32) (port : UInt8) : UInt8 :=
  ((relayValue >>> (port.toUInt32 - 1)) &&& 1).toUInt8

/-- The variable `RELAY_VALUE` and the boards. -/
structure Relays where
  relayValue : UInt32
  boards : Boards

namespace Relays

/-- All relays are off. -/
def off : Relays where
  relayValue := 0
  boards := ⟨fun _ => false, fun _ => false⟩

/-- An action of a command, with the values that the command has read. -/
def perform (s : Relays) (effect : Action × List UInt8) : Relays :=
  match effect.1 with
  | .canSendData stdId dlc channel =>
    { s with boards := s.boards.receive ⟨stdId, dlc, channel, effect.2⟩ }
  | .relayValueOr port => { s with relayValue := s.relayValue ||| relayNum port }
  | .relayValueAndNot port => { s with relayValue := s.relayValue &&& ~~~relayNum port }

end Relays

/-- A call of `Relay_Set` or `Relay_Clear` with the port `port + 1`. -/
structure Switch where
  on : Bool
  port : Fin 32
deriving DecidableEq, Repr

namespace Switch

/-- The number of the port. -/
def number (port : Fin 32) : UInt8 := UInt8.ofNat (port + 1)

/-- The call. -/
def command (switch : Switch) : Command :=
  if switch.on then .relaySet (number switch.port) else .relayClear (number switch.port)

/-- The relays after some calls. -/
def result (switches : List Switch) (relays : Fin 32 → Bool) : Fin 32 → Bool :=
  switches.foldl (fun relays switch => Function.update relays switch.port switch.on) relays

/-- The frame of a call. -/
def frame (switch : Switch) : Frame where
  stdId := if switch.port < 16 then 0xd1 else 0xd2
  dlc := 1
  channel := 2
  data := [(number switch.port - if switch.port < 16 then 1 else 17) |||
    if switch.on then 0x80 else 0]

/-- The update of `RELAY_VALUE` in a call. -/
def update (switch : Switch) : Action :=
  if switch.on then .relayValueOr (number switch.port) else .relayValueAndNot (number switch.port)

section Board

theorem number_first : ∀ port : Fin 32, port < 16 → number port > 0 ∧ number port < 17 := by decide

theorem number_second :
    ∀ port : Fin 32, ¬port < 16 → ¬(number port > 0 ∧ number port < 17) ∧
      number port > 16 ∧ number port < 33 := by decide

/-- The byte of a frame names the relay on its board. -/
theorem byte_frame : ∀ (on : Bool) (port : Fin 32),
    let byte := (number port - if port < 16 then 1 else 17) ||| if on then 0x80 else 0
    (byte &&& 0x7f).toNat = (if port < 16 then port else port - 16 : Nat) ∧
      (byte &&& 0x80 != 0) = on := by decide

/-- The boards switch the relay of a call, and no other one. -/
theorem relay_receive (switch : Switch) (boards : Boards) :
    (boards.receive switch.frame).relay =
      Function.update boards.relay switch.port switch.on := by
  obtain ⟨on, port⟩ := switch
  obtain ⟨place, bit⟩ := byte_frame on port
  funext other
  simp only [frame, Boards.receive, Boards.relay, switchRelay, place, bit]
  by_cases low : port < 16 <;> by_cases same : other = port
  · subst same
    simp [low]
  · have apart : (other : Nat) ≠ port := fun equal => same (Fin.ext equal)
    simp [low, same, apart, Function.update_of_ne, Boards.relay]
  · subst same
    simp [low]
  · have apart : ¬other < 16 → (other : Nat) - 16 ≠ port - 16 := by omega
    by_cases otherLow : other < 16 <;>
      simp [low, same, otherLow, apart, Function.update_of_ne, Boards.relay]

end Board

section Value

theorem relayNum_bit : ∀ port other : Fin 32,
    (relayNum (number port)).toBitVec.getLsbD other = decide (other = port) := by decide +kernel

/-- The bit of a port in `RELAY_VALUE`. -/
def bit (relayValue : UInt32) (port : Fin 32) : Bool := relayValue.toBitVec.getLsbD port

/-- A call updates the bit of its port. -/
theorem bit_update (switch : Switch) (seen : List UInt8) (s : Relays) :
    bit (s.perform (switch.update, seen)).relayValue =
      Function.update (bit s.relayValue) switch.port switch.on := by
  obtain ⟨on, port⟩ := switch
  funext other
  have mask := relayNum_bit port other
  by_cases same : other = port
  · subst same
    cases on <;> simp [update, Relays.perform, bit, mask]
  · rw [Function.update_of_ne same]
    simp only [same, decide_false] at mask
    cases on
    · simp only [update, Relays.perform, bit, Bool.false_eq_true, if_false, UInt32.toBitVec_and,
        UInt32.toBitVec_not, BitVec.getLsbD_and, BitVec.getLsbD_not, mask, other.isLt, decide_true,
        Bool.not_false, Bool.and_true]
    · simp only [update, Relays.perform, bit, if_true, UInt32.toBitVec_or, BitVec.getLsbD_or, mask,
        Bool.or_false]

theorem shift_number : ∀ port : Fin 32, ((number port).toUInt32 - 1).toNat = port := by decide

theorem relayAttain_eq (relayValue : UInt32) (port : Fin 32) :
    relayAttain relayValue (number port) = if bit relayValue port then 1 else 0 := by
  have shift := shift_number port
  rw [← UInt8.toNat_inj, relayAttain]
  simp only [UInt32.toNat_toUInt8, UInt32.toNat_and, UInt32.toNat_shiftRight, shift, bit,
    UInt32.reduceToNat, Nat.and_one_is_mod, Nat.mod_eq_of_lt port.isLt, Nat.shiftRight_eq_div_pow,
    BitVec.getLsbD, UInt32.toNat_toBitVec, Nat.testBit_eq_decide_div_mod_eq, decide_eq_true_eq]
  split_ifs with odd
  · rw [odd]
    rfl
  · rw [show relayValue.toNat / 2 ^ (port : Nat) % 2 = 0 by omega]
    rfl

end Value

variable (beyond : Nat → CanData Object Handler)

theorem solo_relaySwitch (flag : UInt8) (update : UInt8 → Action) (port : Fin 32)
    (mem : Location → UInt8) :
    solo mem [] (relaySwitch beyond flag update (number port)) =
      let byte := (number port - if port < 16 then 1 else 17) ||| flag
      [(.canSendData (if port < 16 then 0xd1 else 0xd2) 1 2, [byte]),
        (update (number port), [byte])] := by
  by_cases low : port < 16
  · rw [relaySwitch, if_pos (number_first port low), frames_fill_send beyond relay1_row mem rfl rfl]
    simp [solo, settle, low, row, IdNumdef.value]
  · obtain ⟨high, range⟩ := number_second port low
    rw [relaySwitch, if_neg high, if_pos range, frames_fill_send beyond relay2_row mem rfl rfl]
    simp [solo, settle, low, row, IdNumdef.value]

/-- Only frames change the boards. -/
theorem boards_update (switch : Switch) (seen : List UInt8) (s : Relays) :
    (s.perform (switch.update, seen)).boards = s.boards := by
  obtain ⟨on, port⟩ := switch
  cases on <;> rfl

/-- Alone, a call sends its frame and then updates `RELAY_VALUE`. -/
theorem solo_command (switch : Switch) (mem : Location → UInt8) :
    solo mem [] (switch.command.stmts beyond) =
      [(.canSendData switch.frame.stdId switch.frame.dlc switch.frame.channel, switch.frame.data),
        (switch.update, switch.frame.data)] := by
  obtain ⟨on, port⟩ := switch
  cases on
  · exact solo_relaySwitch beyond 0 .relayValueAndNot port mem
  · exact solo_relaySwitch beyond 0x80 .relayValueOr port mem

end Switch

/-- The actions of calls that one thread makes one after the other. -/
def actionsOf (beyond : Nat → CanData Object Handler) (mem : Location → UInt8)
    (switches : List Switch) : List (Action × List UInt8) :=
  soloRun (Command.stmts beyond) mem (switches.map Switch.command)

section Run

variable (beyond : Nat → CanData Object Handler) (mem : Location → UInt8)

theorem actionsOf_cons (switch : Switch) (switches : List Switch) :
    ∃ later, actionsOf beyond mem (switch :: switches) =
      (.canSendData switch.frame.stdId switch.frame.dlc switch.frame.channel, switch.frame.data) ::
        (switch.update, switch.frame.data) :: actionsOf beyond later switches := by
  refine ⟨settle mem (switch.command.stmts beyond), ?_⟩
  rw [actionsOf, List.map_cons, soloRun, Switch.solo_command]
  rfl

/-- The boards and `RELAY_VALUE` follow the calls. -/
theorem result_actionsOf (switches : List Switch) (s : Relays) :
    ((actionsOf beyond mem switches).foldl Relays.perform s).boards.relay =
        Switch.result switches s.boards.relay ∧
      Switch.bit ((actionsOf beyond mem switches).foldl Relays.perform s).relayValue =
        Switch.result switches (Switch.bit s.relayValue) := by
  induction switches generalizing mem s with
  | nil => exact ⟨rfl, rfl⟩
  | cons switch switches ih =>
    obtain ⟨later, actions⟩ := actionsOf_cons beyond mem switch switches
    rw [actions, List.foldl_cons, List.foldl_cons]
    obtain ⟨relays, bits⟩ := ih later ((s.perform (.canSendData switch.frame.stdId
      switch.frame.dlc switch.frame.channel, switch.frame.data)).perform
        (switch.update, switch.frame.data))
    rw [relays, bits, Switch.boards_update, Switch.bit_update]
    exact ⟨congrArg _ (Switch.relay_receive switch s.boards), rfl⟩

/-- At every moment the boards have followed the first of the calls. -/
theorem result_prefix (switches : List Switch) (s : Relays) {done : List (Action × List UInt8)}
    (performed : done <+: actionsOf beyond mem switches) :
    ∃ k, (done.foldl Relays.perform s).boards.relay =
      Switch.result (switches.take k) s.boards.relay := by
  induction switches generalizing mem s done with
  | nil =>
    rw [List.prefix_nil.mp performed]
    exact ⟨0, rfl⟩
  | cons switch switches ih =>
    obtain ⟨later, actions⟩ := actionsOf_cons beyond mem switch switches
    rw [actions] at performed
    have sent := Switch.relay_receive switch s.boards
    rcases done with - | ⟨first, done⟩
    · exact ⟨0, rfl⟩
    obtain ⟨rfl, updated⟩ := List.cons_prefix_cons.mp performed
    rcases done with - | ⟨second, done⟩
    · exact ⟨1, sent⟩
    obtain ⟨rfl, remaining⟩ := List.cons_prefix_cons.mp updated
    obtain ⟨k, relays⟩ := ih later ((s.perform (.canSendData switch.frame.stdId
      switch.frame.dlc switch.frame.channel, switch.frame.data)).perform
        (switch.update, switch.frame.data)) remaining
    refine ⟨k + 1, ?_⟩
    rw [List.foldl_cons, List.foldl_cons, relays, Switch.boards_update]
    exact congrArg _ sent

end Run

section Fire

/-- The functions that switch the valves of the gun. -/
inductive FireCall where
  | fireOn
  | fireOff
  | fireClear
deriving DecidableEq, Repr

/-- The calls in the functions `FireOn`, `FireOff` and `FireClear`. -/
def FireCall.commands : FireCall → List Command
  | .fireOn => [.relayClear 3, .relaySet 4, .relayClear 5, .relaySet 6]
  | .fireOff => [.relayClear 4, .relaySet 3, .relayClear 6, .relaySet 5]
  | .fireClear => [.relayClear 3, .relayClear 4, .relayClear 5, .relayClear 6]

/-- Neither the relays of the ports 3 and 4 nor those of 5 and 6 are on together. -/
def Interlocked (relays : Fin 32 → Bool) : Prop :=
  ¬(relays 2 = true ∧ relays 3 = true) ∧ ¬(relays 4 = true ∧ relays 5 = true)

/-- The calls of a function, with the ports counted from 0. -/
def FireCall.switches : FireCall → List Switch
  | .fireOn => [⟨false, 2⟩, ⟨true, 3⟩, ⟨false, 4⟩, ⟨true, 5⟩]
  | .fireOff => [⟨false, 3⟩, ⟨true, 2⟩, ⟨false, 5⟩, ⟨true, 4⟩]
  | .fireClear => [⟨false, 2⟩, ⟨false, 3⟩, ⟨false, 4⟩, ⟨false, 5⟩]

theorem FireCall.commands_eq (fire : FireCall) :
    fire.commands = fire.switches.map Switch.command := by
  cases fire <;> decide

theorem Interlocked.fire {relays : Fin 32 → Bool} (interlocked : Interlocked relays)
    (fire : FireCall) (k : Nat) : Interlocked (Switch.result (fire.switches.take k) relays) := by
  unfold Interlocked at interlocked ⊢
  cases fire <;> rcases k with - | - | - | - | k <;>
    simp_all [FireCall.switches, Switch.result]

/-- No function ever switches both relays of a valve on. -/
theorem Interlocked.fires {relays : Fin 32 → Bool} (interlocked : Interlocked relays)
    (fires : List FireCall) (k : Nat) :
    Interlocked (Switch.result ((fires.flatMap FireCall.switches).take k) relays) := by
  induction fires generalizing relays k with
  | nil => simpa [Switch.result] using interlocked
  | cons fire fires ih =>
    rw [List.flatMap_cons, List.take_append, Switch.result, List.foldl_append]
    exact ih (interlocked.fire fire k) _

end Fire

/-- `RELAY_VALUE` mirrors the relays of the boards after all calls of one thread, and the relays of
a valve are not on together at any moment of any sequence of the functions for the gun. -/
theorem relays_mirrored_interlocked (beyond : Nat → CanData Object Handler)
    (mem : Location → UInt8) :
    (∀ switches : List Switch,
      let s := (actionsOf beyond mem switches).foldl Relays.perform .off
      ∀ port : Fin 32, s.relayValue.toBitVec.getLsbD port = s.boards.relay port ∧
        relayAttain s.relayValue (Switch.number port) = if s.boards.relay port then 1 else 0) ∧
    ∀ (fires : List FireCall) (s : Relays), Interlocked s.boards.relay →
      ∀ done, done <+: soloRun (Command.stmts beyond) mem (fires.flatMap FireCall.commands) →
        Interlocked (done.foldl Relays.perform s).boards.relay := by
  constructor
  · intro switches s port
    obtain ⟨relays, bits⟩ := result_actionsOf beyond mem switches .off
    have initial : Switch.bit Relays.off.relayValue = Relays.off.boards.relay :=
      funext (by decide)
    have mirrored : Switch.bit s.relayValue = s.boards.relay := by
      rw [relays, bits, initial]
    rw [Switch.relayAttain_eq, mirrored]
    exact ⟨congrFun mirrored port, rfl⟩
  · intro fires s interlocked done performed
    have commands : fires.flatMap FireCall.commands =
        (fires.flatMap FireCall.switches).map Switch.command := by
      rw [List.map_flatMap]
      exact List.flatMap_congr fun fire _ => fire.commands_eq
    rw [commands] at performed
    obtain ⟨k, relays⟩ := result_prefix beyond mem (fires.flatMap FireCall.switches) s performed
    rw [relays]
    exact interlocked.fires fires k

/-- The gun fires and is closed again while nothing is on. -/
theorem relays_interlocked_off :
    Interlocked ((soloRun (Command.stmts zeroRow) (fun _ => 0)
      ([FireCall.fireOn, .fireOff].flatMap FireCall.commands)).foldl
        Relays.perform .off).boards.relay :=
  (relays_mirrored_interlocked zeroRow fun _ => 0).2 [.fireOn, .fireOff] .off
    ⟨by decide, by decide⟩ _ (List.prefix_refl _)

end BadmintonRobot.Can
