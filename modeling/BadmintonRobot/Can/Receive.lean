import Mathlib
import BadmintonRobot.Can.Installation
import BadmintonRobot.Can.Handlers

/-!
# The receive interrupts

Each of the four interrupts takes a frame from its FIFO, copies as many bytes as the
frame says it has into the object of the row, and calls the row's handler. Neither
the length nor the handler is checked. The conditions under which this is harmless
are stated on the frame and on the flag byte.
-/

namespace BadmintonRobot.Can

/-- The fields of `CanRxMsg` that the interrupts read. -/
structure CanRxMsg where
  stdId : Nat
  dlc : Nat
  data : Fin 8 → UInt8
  dlc_le : dlc ≤ 8

/-- Byte `i` of the payload. -/
def CanRxMsg.byte (frame : CanRxMsg) (i : Nat) : UInt8 :=
  if inside : i < 8 then frame.data ⟨i, inside⟩ else 0

/-- The frames at the head of the FIFOs, by channel and FIFO number. -/
abbrev Fifos := Nat → Nat → CanRxMsg

/-- What an interrupt does: the bytes it stores, the handler it calls, with `none` for
a NULL pointer, and the state afterwards if it returns. -/
structure Reception where
  writes : List (Object × Nat)
  called : Option Handler
  after : Option Board

/-- One turn of the copying loop, with the bytes stored so far. -/
def storeByte (object : Object) (frame : CanRxMsg) (progress : Mem Object × List (Object × Nat))
    (i : Nat) : Mem Object × List (Object × Nat) :=
  (Function.update progress.1 object (Function.update (progress.1 object) i (frame.byte i)),
    progress.2 ++ [(object, i)])

/-- The copying loop of the interrupts. -/
def storeFrame (object : Object) (frame : CanRxMsg) (mem : Mem Object) :
    Mem Object × List (Object × Nat) :=
  (List.range frame.dlc).foldl (storeByte object frame) (mem, [])

section Interrupts

variable (beyond : Nat → CanData Object Handler)

/-- The common body of the interrupts. -/
def rxIrqHandler (frame : CanRxMsg) (board : Board) : Reception :=
  let entry := hashedEntry beyond frame.stdId
  let stored := storeFrame entry.dataPtr frame board.mem
  { writes := stored.2
    called := entry.menuFunc
    after := entry.menuFunc.bind fun handler => handler.run { board with mem := stored.1 } }

/-- The receive interrupts. -/
def can1Rx0IRQHandler (fifos : Fifos) : Board → Reception := rxIrqHandler beyond (fifos 1 0)
@[inherit_doc can1Rx0IRQHandler]
def can1Rx1IRQHandler (fifos : Fifos) : Board → Reception := rxIrqHandler beyond (fifos 1 1)
@[inherit_doc can1Rx0IRQHandler]
def can2Rx0IRQHandler (fifos : Fifos) : Board → Reception := rxIrqHandler beyond (fifos 2 0)
@[inherit_doc can1Rx0IRQHandler]
def can2Rx1IRQHandler (fifos : Fifos) : Board → Reception := rxIrqHandler beyond (fifos 2 1)

/-- The interrupt of a channel and a FIFO. -/
def interruptOf (channel fifo : Nat) (fifos : Fifos) : Board → Reception :=
  match channel, fifo with
  | 1, 0 => can1Rx0IRQHandler beyond fifos
  | 1, _ => can1Rx1IRQHandler beyond fifos
  | _, 0 => can2Rx0IRQHandler beyond fifos
  | _, _ => can2Rx1IRQHandler beyond fifos

end Interrupts

/-- The interrupt stores only into the first `Data_length` bytes of the one row with
the frame's identifier, calls the handler of that row, and returns. -/
def Reception.Safe (reception : Reception) (frame : CanRxMsg) : Prop :=
  ∃ entry ∈ canDatabase, entry.dataID = frame.stdId ∧
    (∀ other ∈ canDatabase, other.dataID = frame.stdId → other = entry) ∧
    (∀ write ∈ reception.writes, write.1 = entry.dataPtr ∧ write.2 < entry.dataLength) ∧
    entry.menuFunc.isSome ∧ reception.called = entry.menuFunc ∧ reception.after.isSome

/-- The byte `FLAG_SET1[0]` after the frame has been stored there. -/
def flagAfter (frame : CanRxMsg) (board : Board) : UInt8 :=
  if 0 < frame.dlc then frame.byte 0 else board.mem .flagSet1 0

/-- The frames that the interrupts cope with: not for a relay, whose rows have no
handler, no longer than the row says, and not the flag frame that halts the board. -/
def Harmless (frame : CanRxMsg) (board : Board) : Prop :=
  frame.stdId ≠ IdNumdef.wRelay1Id.value ∧ frame.stdId ≠ IdNumdef.wRelay2Id.value ∧
    (∀ entry ∈ canDatabase, entry.dataID = frame.stdId → frame.dlc ≤ entry.dataLength) ∧
    (frame.stdId = IdNumdef.rFlagSetId.value → flagAfter frame board ≠ 1)

section Storing

/-- The copying loop stores the first bytes of the frame, and nothing else. -/
theorem storeFrame_eq (object : Object) (frame : CanRxMsg) (mem : Mem Object) :
    storeFrame object frame mem =
      (Function.update mem object fun i => if i < frame.dlc then frame.byte i else mem object i,
        (List.range frame.dlc).map fun i => (object, i)) := by
  unfold storeFrame
  induction frame.dlc with
  | zero => simp
  | succ count ih =>
    rw [List.range_succ, List.foldl_append, ih]
    simp only [List.foldl_cons, List.foldl_nil, storeByte, Function.update_idem,
      Function.update_self, List.map_append, List.map_cons, List.map_nil, Prod.mk.injEq, and_true]
    congr 1
    funext i
    by_cases last : i = count
    · simp [last]
    · rw [Function.update_of_ne last]
      congr 1
      simp only [eq_iff_iff]
      omega

end Storing

section Table

/-- Of the rows to be read, those of the relays have no handler, and that of the flags
has the handler that can halt the board. -/
theorem canDatabase_handlers : ∀ entry ∈ canDatabase, entry.dataType = .readOnly →
    (entry.menuFunc = none ↔ entry.dataID = IdNumdef.wRelay1Id.value ∨
      entry.dataID = IdNumdef.wRelay2Id.value) ∧
    (entry.menuFunc = some .rFlagSetFunc ↔ entry.dataID = IdNumdef.rFlagSetId.value) ∧
    (entry.dataID = IdNumdef.rFlagSetId.value → entry.dataPtr = .flagSet1) := by
  decide +kernel

end Table

section Interrupt

variable {beyond : Nat → CanData Object Handler} {entry : CanData Object Handler}
  {frame : CanRxMsg} {board : Board}

/-- The interrupt for a frame whose identifier is in the table. -/
theorem rxIrqHandler_of_mem (member : entry ∈ canDatabase) (same : entry.dataID = frame.stdId) :
    rxIrqHandler beyond frame board =
      { writes := (List.range frame.dlc).map fun i => (entry.dataPtr, i)
        called := entry.menuFunc
        after := entry.menuFunc.bind fun handler => handler.run
          { board with mem := (storeFrame entry.dataPtr frame board.mem).1 } } := by
  rw [rxIrqHandler, ← same, hashedEntry_of_mem beyond member, storeFrame_eq]

/-- The stores stay within the row exactly if the frame is not too long. -/
theorem writes_within_iff (count length : Nat) (object : Object) :
    (∀ write ∈ (List.range count).map fun i => (object, i),
      write.1 = object ∧ write.2 < length) ↔ count ≤ length := by
  simp only [List.mem_map, List.mem_range, forall_exists_index, and_imp]
  constructor
  · intro within
    by_contra long
    exact Nat.lt_irrefl length (within (object, length) length (by omega) rfl).2
  · rintro short write i inside rfl
    exact ⟨rfl, by omega⟩

/-- The flag byte that the handler of the flag frame finds. -/
theorem flagSet1_stored (frame : CanRxMsg) (board : Board) :
    (storeFrame .flagSet1 frame board.mem).1 .flagSet1 0 = flagAfter frame board := by
  simp [storeFrame_eq, flagAfter]

/-- The handler of a row returns unless it is the one of the flags and the flag is 1. -/
theorem handler_returns_iff {handler : Handler} (member : entry ∈ canDatabase)
    (reads : entry.dataType = .readOnly) (same : entry.dataID = frame.stdId)
    (named : entry.menuFunc = some handler) :
    (handler.run { board with mem := (storeFrame entry.dataPtr frame board.mem).1 }).isSome ↔
      (frame.stdId = IdNumdef.rFlagSetId.value → flagAfter frame board ≠ 1) := by
  obtain ⟨-, halting, flags⟩ := canDatabase_handlers entry member reads
  rw [named, Option.some.injEq, same] at halting
  rw [same] at flags
  rw [Option.isSome_iff_ne_none, Ne, Handler.run_eq_none_iff, halting]
  constructor
  · intro returns flag set
    refine returns ⟨flag, ?_⟩
    rw [flags flag]
    exact (flagSet1_stored frame board).trans set
  · rintro clear ⟨flag, set⟩
    rw [flags flag] at set
    exact clear flag ((flagSet1_stored frame board).symm.trans set)

/-- The interrupt for a row to be read is safe for exactly the harmless frames. -/
theorem safe_iff_of_mem (member : entry ∈ canDatabase) (reads : entry.dataType = .readOnly)
    (same : entry.dataID = frame.stdId) :
    (rxIrqHandler beyond frame board).Safe frame ↔ Harmless frame board := by
  have unique : ∀ other ∈ canDatabase, other.dataID = frame.stdId → other = entry :=
    fun other otherMember otherSame =>
      canDatabase_wellFormed.unique otherMember member (otherSame.trans same.symm)
  obtain ⟨relays, -, -⟩ := canDatabase_handlers entry member reads
  rw [same] at relays
  rw [rxIrqHandler_of_mem member same]
  constructor
  · rintro ⟨chosen, chosenMember, chosenSame, -, within, called, -, returns⟩
    obtain rfl := unique chosen chosenMember chosenSame
    obtain ⟨handler, named⟩ := Option.isSome_iff_exists.mp called
    have handled : ¬(frame.stdId = IdNumdef.wRelay1Id.value ∨
        frame.stdId = IdNumdef.wRelay2Id.value) := by
      rw [← relays, named]
      exact Option.some_ne_none handler
    rw [not_or] at handled
    refine ⟨handled.1, handled.2, ?_, ?_⟩
    · intro other otherMember otherSame
      rw [unique other otherMember otherSame]
      exact (writes_within_iff _ _ _).mp within
    · rw [named, Option.bind_some] at returns
      exact (handler_returns_iff member reads same named).mp returns
  · rintro ⟨relay1, relay2, short, clear⟩
    obtain ⟨handler, named⟩ : ∃ handler, entry.menuFunc = some handler := by
      rw [← Option.ne_none_iff_exists']
      intro missing
      exact (relays.mp missing).elim relay1 relay2
    refine ⟨entry, member, same, unique, ?_, ?_, rfl, ?_⟩
    · exact (writes_within_iff _ _ _).mpr (short entry member same)
    · rw [named]
      rfl
    · rw [named, Option.bind_some]
      exact (handler_returns_iff member reads same named).mpr clear

end Interrupt

/-- The claim of safety for every frame that the filters let through. -/
def ReceivesSafely (beyond : Nat → CanData Object Handler) (channel fifo : Nat) (fifos : Fifos)
    (board : Board) : Prop :=
  (interruptOf beyond channel fifo fifos board).Safe (fifos channel fifo)

section Samples

/-- Memory and globals in which everything is zero. -/
private def zeroBoard : Board where
  mem _ _ := 0
  sensor _ _ := 0
  ioState _ := 0
  motorRealAim _ := 0
  motorPos _ _ := 0
  motor2TimeFlag := 0
  filterFlag _ := 0
  stopFlag _ := 0
  camAngle _ := .whole 0
  camDist _ := .whole 0
  camPoleX := 0
  camPoleY := 0
  camX := 0
  camY := 0
  camZ := 0
  camA := 0
  camera1Tmp _ := 0
  camera4Tmp _ := 0
  camera5Tmp _ := 0
  sonicData _ := 0
  sonicCount _ := 0
  image := Image.powerOn

/-- A frame of zeros. -/
private def zeroFrame (stdId dlc : Nat) (short : dlc ≤ 8) : CanRxMsg where
  stdId := stdId
  dlc := dlc
  data _ := 0
  dlc_le := short

/-- The row of the switches. -/
private def switchRow : CanData Object Handler :=
  row .readOnly .sSwitchId .misoSwitch 2 (some .sSwitchFunc) 2 1

private theorem switchRow_mem : switchRow ∈ canDatabase := by
  decide +kernel

/-- The filters let the frames of the switches through. -/
private theorem switch_accepted {setup : FilterSetup}
    (configured : canFilterConfig canDatabase = some setup) :
    setup.Accepts 2 1 IdNumdef.sSwitchId.value := by
  obtain ⟨same, found, accepts⟩ := canFilterConfig_accepts canDatabase_fits
  obtain rfl : setup = same := Option.some.inj (configured.symm.trans found)
  rw [accepts]
  exact ⟨.inr rfl, .inr rfl, switchRow, switchRow_mem, by decide, rfl⟩

end Samples

/-- A switch frame with eight bytes passes the filters, and the interrupt stores six
bytes behind the two of `MISO_SWITCH`. -/
theorem not_receivesSafely_long :
    ∃ beyond setup fifos board, canFilterConfig canDatabase = some setup ∧
      setup.Accepts 2 1 (fifos 2 1).stdId ∧ ¬ReceivesSafely beyond 2 1 fifos board := by
  obtain ⟨setup, configured, -⟩ := canFilterConfig_accepts canDatabase_fits
  refine ⟨fun _ => switchRow, setup, fun _ _ => zeroFrame IdNumdef.sSwitchId.value 8 le_rfl,
    zeroBoard, configured, switch_accepted configured, fun safe => ?_⟩
  obtain ⟨-, -, short, -⟩ := (safe_iff_of_mem switchRow_mem rfl rfl).mp safe
  exact absurd (short switchRow switchRow_mem rfl) (by decide)

/-- For every frame that the filters installed for the table let through, the
interrupt is safe exactly if the frame is harmless. -/
theorem receivesSafely_iff (beyond : Nat → CanData Object Handler) {setup : FilterSetup}
    (configured : canFilterConfig canDatabase = some setup) {channel fifo : Nat} {fifos : Fifos}
    (accepted : setup.Accepts channel fifo (fifos channel fifo).stdId) (board : Board) :
    ReceivesSafely beyond channel fifo fifos board ↔ Harmless (fifos channel fifo) board := by
  obtain ⟨same, found, accepts⟩ := canFilterConfig_accepts canDatabase_fits
  obtain rfl : setup = same := Option.some.inj (configured.symm.trans found)
  obtain ⟨known, queue, entry, member, ⟨reads, -, -⟩, identifier⟩ := (accepts _ _ _).mp accepted
  have dispatched : interruptOf beyond channel fifo fifos =
      rxIrqHandler beyond (fifos channel fifo) := by
    rcases known with rfl | rfl <;> rcases queue with rfl | rfl <;> rfl
  rw [ReceivesSafely, dispatched]
  exact safe_iff_of_mem member reads identifier

theorem receivesSafely_switch :
    ∃ beyond setup fifos board, canFilterConfig canDatabase = some setup ∧
      setup.Accepts 2 1 (fifos 2 1).stdId ∧ ReceivesSafely beyond 2 1 fifos board := by
  obtain ⟨setup, configured, -⟩ := canFilterConfig_accepts canDatabase_fits
  have accepted := switch_accepted configured
  refine ⟨fun _ => switchRow, setup, fun _ _ => zeroFrame IdNumdef.sSwitchId.value 2 (by decide),
    zeroBoard, configured, accepted, ?_⟩
  rw [receivesSafely_iff _ configured accepted]
  refine ⟨by decide, by decide, ?_, fun flag => absurd flag (by decide)⟩
  intro entry member same
  rw [canDatabase_wellFormed.unique member switchRow_mem same]
  exact le_rfl

end BadmintonRobot.Can
