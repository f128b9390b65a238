import Mathlib
import BadmintonRobot.Can.Command

/-!
# Frames of interleaved commands

Alone, every call hands over exactly the frame it stands for. Several threads do
so as well, as long as none of them stores into a byte that another one has filled
and not yet copied into its frame; nothing in the code prevents that.
-/

namespace BadmintonRobot.Can

open BadmintonRobot.Semantics
open BadmintonRobot.Semantics.Isolation

variable (beyond : Nat → CanData Object Handler)

/-- The frames among some actions. -/
def framesOf (effects : List (Action × List UInt8)) : List Frame :=
  effects.filterMap fun effect => effect.1.frame effect.2

section Rows

private theorem oldMotor_row {idNum : Nat} (lower : 0xa0 ≤ idNum) (upper : idNum ≤ 0xa7) :
    ∃ entry ∈ canDatabase, entry.dataID = idNum ∧ entry.dataLength = 8 ∧ entry.channel = 2 := by
  have rows : ∀ k < 8, ∃ entry ∈ canDatabase,
      entry.dataID = 0xa0 + k ∧ entry.dataLength = 8 ∧ entry.channel = 2 := by decide
  obtain ⟨k, rfl⟩ := Nat.exists_eq_add_of_le lower
  exact rows k (by omega)

theorem relay1_row :
    row .readOnly .wRelay1Id .mosiRelay1Data 1 none 2 0 ∈ canDatabase := by decide

theorem relay2_row :
    row .readOnly .wRelay2Id .mosiRelay2Data 1 none 2 1 ∈ canDatabase := by decide

private theorem find_row {entry : CanData Object Handler} (member : entry ∈ canDatabase) :
    (canDatabase.find? fun other => other.dataID = entry.dataID) = some entry := by
  cases found : canDatabase.find? fun other => other.dataID = entry.dataID with
  | none => exact absurd (List.find?_eq_none.mp found entry member) (by simp)
  | some other =>
    have same : other.dataID = entry.dataID := by simpa using List.find?_some found
    rw [canDatabase_wellFormed.unique (List.mem_of_find?_eq_some found) member same]

end Rows

section Alone

variable {entry : CanData Object Handler} {stores : List Stmt}

/-- A call that fills the buffer of a row and sends it. -/
theorem frames_fill_send (member : entry ∈ canDatabase) (blank : Location → UInt8)
    (silent : solo blank [] stores = []) (noLoads : soloReads blank stores = [])
    (rest : List Stmt) :
    solo blank [] (stores ++ (writeDatabaseStmts beyond entry.dataID ++ rest)) =
      (.canSendData entry.dataID entry.dataLength entry.channel,
        (List.range entry.dataLength).map fun j => settle blank stores (entry.dataPtr, j)) ::
      solo (settle blank stores)
        ((List.range entry.dataLength).map fun j => settle blank stores (entry.dataPtr, j)) rest := by
  rw [solo_append, silent, noLoads, writeDatabaseStmts_of_mem beyond member, List.append_assoc,
    List.append_nil, solo_reads, List.map_map]
  rfl

/-- The loads of `Write_Database` are of the row's own bytes. -/
private theorem read_mem_stmts (member : entry ∈ canDatabase) {loc : Location}
    (reads : Op.read loc ∈ writeDatabaseStmts beyond entry.dataID) :
    ∃ j < entry.dataLength, loc = (entry.dataPtr, j) := by
  rw [writeDatabaseStmts_of_mem beyond member] at reads
  simp only [List.mem_append, List.mem_map, List.mem_range, List.mem_singleton, reduceCtorEq,
    or_false] at reads
  obtain ⟨_, ⟨j, bound, rfl⟩, same⟩ := reads
  cases same
  exact ⟨j, bound, rfl⟩

private theorem motorStores_bytes (blank : Location → UInt8) (dataPtr : Object) (rot : UInt32)
    (speed : UInt16) (cmd : UInt8) :
    ((List.range 8).map fun j =>
        settle blank (motorStores dataPtr rot speed cmd) (dataPtr, j)) =
      [byteOf rot.toNat 0, byteOf rot.toNat 1, byteOf rot.toNat 2, byteOf rot.toNat 3,
        byteOf speed.toNat 0, byteOf speed.toNat 1, 0, cmd] := by
  simp [motorStores, settle, List.range_succ, Function.update_apply, currentRobot]

private theorem pwmStores_bytes (blank : Location → UInt8) (dataPtr : Object) (pwm : UInt8) :
    ((List.range 8).map fun j => settle blank (pwmStores dataPtr pwm) (dataPtr, j)) =
      [0, 0, 0, 0, 0, 0, pwm, 6] := by
  simp [pwmStores, settle, List.range_succ, Function.update_apply]

/-- A relay command alone sends its frame and then updates `RELAY_VALUE`. -/
private theorem frames_relaySwitch (flag : UInt8) {update : UInt8 → Action} (port : UInt8)
    (noFrame : ∀ seen, (update port).frame seen = none) (blank : Location → UInt8) :
    framesOf (solo blank [] (relaySwitch beyond flag update port)) =
      (encodeRelay flag port).toList := by
  have frame1 := frames_fill_send beyond relay1_row blank
    (show solo blank [] [.write (.mosiRelay1Data, 0) ((port - 1) ||| flag)] = [] from rfl) rfl
    [.act (update port)]
  have frame2 := frames_fill_send beyond relay2_row blank
    (show solo blank [] [.write (.mosiRelay2Data, 0) ((port - 17) ||| flag)] = [] from rfl) rfl
    [.act (update port)]
  have range1 : port > 0 ∧ port < 17 ↔ 1 ≤ port ∧ port ≤ 16 := by
    simp only [gt_iff_lt, UInt8.lt_iff_toNat_lt, UInt8.le_iff_toNat_le, UInt8.reduceToNat]
    omega
  have range2 : port > 16 ∧ port < 33 ↔ 17 ≤ port ∧ port ≤ 32 := by
    simp only [gt_iff_lt, UInt8.lt_iff_toNat_lt, UInt8.le_iff_toNat_le, UInt8.reduceToNat]
    omega
  unfold relaySwitch encodeRelay
  by_cases first : 1 ≤ port ∧ port ≤ 16
  · rw [if_pos (range1.mpr first), if_pos first, frame1]
    simp [framesOf, solo, settle, noFrame, IdNumdef.value]
  · rw [if_neg (mt range1.mp first), if_neg first]
    by_cases second : 17 ≤ port ∧ port ≤ 32
    · rw [if_pos (range2.mpr second), if_pos second, frame2]
      simp [framesOf, solo, settle, noFrame, IdNumdef.value]
    · rw [if_neg (mt range2.mp second), if_neg second]
      simp [framesOf, solo, noFrame]

/-- Alone, a valid call hands over exactly the frame it stands for. -/
theorem frames_solo (command : Command) (valid : command.Valid) (blank : Location → UInt8) :
    framesOf (solo blank [] (command.stmts beyond)) = command.encode.toList := by
  cases command with
  | wMotorOldFunc idNum rot speed cmd =>
    by_cases inRange : 0xa0 ≤ idNum ∧ idNum ≤ 0xa7
    · obtain ⟨entry, member, rfl, eight, channel⟩ := oldMotor_row inRange.1 inRange.2
      have guard : ¬(entry.dataID > IdNumdef.wMotor8OldId.value ∨
          entry.dataID < IdNumdef.wMotor1OldId.value) := by
        simp only [IdNumdef.value]
        omega
      have frame := frames_fill_send beyond member blank
        (show solo blank [] (motorStores entry.dataPtr rot speed cmd) = [] from rfl) rfl []
      simp only [Command.stmts, wMotorOldFunc, if_neg guard,
        hashedEntry_of_mem beyond member, Command.encode, if_pos inRange]
      rw [List.append_nil] at frame
      rw [frame, eight, motorStores_bytes, channel]
      rfl
    · have guard : idNum > IdNumdef.wMotor8OldId.value ∨
          idNum < IdNumdef.wMotor1OldId.value := by
        simp only [IdNumdef.value]
        omega
      simp only [Command.stmts, wMotorOldFunc, if_pos guard, Command.encode, if_neg inRange]
      rfl
  | mtPwm idNum pwm =>
    obtain ⟨entry, member, rfl, eight⟩ := valid
    have frame := frames_fill_send beyond member blank
      (show solo blank [] (pwmStores entry.dataPtr pwm) = [] from rfl) rfl []
    simp only [Command.stmts, mtPwm, hashedEntry_of_mem beyond member, Command.encode,
      find_row member]
    rw [List.append_nil] at frame
    rw [frame, eight, pwmStores_bytes]
    rfl
  | relaySet port => exact frames_relaySwitch beyond 0x80 port (fun _ => rfl) blank
  | relayClear port => exact frames_relaySwitch beyond 0 port (fun _ => rfl) blank

/-- A fill of the row's own bytes, then `Write_Database` and no further loads. -/
private theorem writesFirst_fill_send (member : entry ∈ canDatabase) {rest : List Stmt}
    (noLoads : ∀ loc, .read loc ∉ stores) (noLater : ∀ loc, .read loc ∉ rest)
    (filled : ∀ j < entry.dataLength, Writes stores (entry.dataPtr, j)) :
    WritesFirst (stores ++ (writeDatabaseStmts beyond entry.dataID ++ rest)) := by
  apply writesFirst_append noLoads
  intro loc reads
  rcases List.mem_append.mp reads with loads | later
  · obtain ⟨j, bound, rfl⟩ := read_mem_stmts beyond member loads
    exact filled j bound
  · exact absurd later (noLater loc)

private theorem motorStores_writes {dataPtr : Object} {rot : UInt32} {speed : UInt16}
    {cmd : UInt8} : ∀ j < 8, Writes (motorStores dataPtr rot speed cmd) (dataPtr, j) := by
  intro j bound
  simp only [motorStores, Writes, Prod.mk.injEq, true_and, or_false]
  omega

private theorem pwmStores_writes {dataPtr : Object} {pwm : UInt8} :
    ∀ j < 8, Writes (pwmStores dataPtr pwm) (dataPtr, j) := by
  intro j bound
  simp only [pwmStores, List.range_succ, List.range_zero, List.nil_append, List.cons_append,
    List.map_cons, List.map_nil, Writes, Prod.mk.injEq, true_and, or_false]
  omega

private theorem writesFirst_relaySwitch (flag : UInt8) (update : UInt8 → Action) (port : UInt8) :
    WritesFirst (relaySwitch beyond flag update port) := by
  unfold relaySwitch
  split_ifs
  · exact writesFirst_fill_send beyond relay1_row (by simp) (by simp) (by simp [Writes])
  · exact writesFirst_fill_send beyond relay2_row (by simp) (by simp) (by simp [Writes])
  · intro done loc rest same
    cases done <;> simp at same

/-- Every valid call fills the bytes it sends. -/
theorem writesFirst_stmts (command : Command) (valid : command.Valid) :
    WritesFirst (command.stmts beyond) := by
  cases command with
  | wMotorOldFunc idNum rot speed cmd =>
    by_cases guard : idNum > IdNumdef.wMotor8OldId.value ∨ idNum < IdNumdef.wMotor1OldId.value
    · simp only [Command.stmts, wMotorOldFunc, if_pos guard]
      intro done loc rest same
      simp at same
    · have inRange : 0xa0 ≤ idNum ∧ idNum ≤ 0xa7 := by
        simp only [IdNumdef.value] at guard
        omega
      obtain ⟨entry, member, rfl, eight, _⟩ := oldMotor_row inRange.1 inRange.2
      have stores : ∀ loc, .read loc ∉ motorStores entry.dataPtr rot speed cmd := by
        simp [motorStores]
      have fill := writesFirst_fill_send beyond member stores
        (fun _ => List.not_mem_nil) (by rw [eight]; exact motorStores_writes)
      simpa only [Command.stmts, wMotorOldFunc, if_neg guard, hashedEntry_of_mem beyond member,
        List.append_nil] using fill
  | mtPwm idNum pwm =>
    obtain ⟨entry, member, rfl, eight⟩ := valid
    have stores : ∀ loc, .read loc ∉ pwmStores entry.dataPtr pwm := by
      simp [pwmStores]
    have fill := writesFirst_fill_send beyond member stores
      (fun _ => List.not_mem_nil) (by rw [eight]; exact pwmStores_writes)
    simpa only [Command.stmts, mtPwm, hashedEntry_of_mem beyond member, List.append_nil] using fill
  | relaySet port => exact writesFirst_relaySwitch beyond 0x80 _ port
  | relayClear port => exact writesFirst_relaySwitch beyond 0 _ port

end Alone

section Threads

variable {Thread : Type} [DecidableEq Thread]

/-- The threads of the robot, each calling the command functions. -/
abbrev Threads (Thread : Type) := System Thread Command Location UInt8 Action

/-- The frames that a thread has handed to `Can_SendData`. -/
def framesBy (s : Threads Thread) (thread : Thread) : List Frame :=
  framesOf ((s.effectsOf thread).map Prod.snd)

/-- No step stores into a byte that another thread has filled and not yet copied
into its frame, and `mt_pwm` is called for rows of eight bytes. -/
def Careful (s : Threads Thread) (label : Label Thread Command) : Prop :=
  NoOverwrite s label ∧ Starts Command.Valid label

/-- Memory after the table that reads as zero. -/
def zeroRow (_ : Nat) : CanData Object Handler :=
  row .readOnly .mGCmdId .mosiCmd 0 none 0 0

/-- Two threads set the speed of the first motor. The second one runs between the
stores and the loads of the first, which then sends the wrong speed. -/
theorem torn_frame :
    ∃ labels s, Steps (Takes (System.step (Command.stmts zeroRow)))
        (System.idle (fun _ => 0) : Threads Bool) labels s ∧
      ∃ effect ∈ s.log, ∃ frame, effect.action.frame effect.seen = some frame ∧
        effect.call.encode.isSome ∧ effect.call.encode ≠ some frame := by
  let first : Command := .wMotorOldFunc 0xa0 0 500 5
  let second : Command := .wMotorOldFunc 0xa0 0 100 5
  let labels : List (Label Bool Command) :=
    [Label.start false first] ++ List.replicate 8 (Label.advance false) ++
      [Label.start true second] ++ List.replicate 17 (Label.advance true) ++
      List.replicate 9 (Label.advance false)
  have logs : (run (System.step (Command.stmts zeroRow)) (System.idle fun _ => 0)
      labels).map System.log =
      some [⟨true, second, .canSendData 0xa0 8 2, [0, 0, 0, 0, 100, 0, 0, 5]⟩,
        ⟨false, first, .canSendData 0xa0 8 2, [0, 0, 0, 0, 100, 0, 0, 5]⟩] := by
    decide +kernel
  obtain ⟨s, reached, log⟩ := Option.map_eq_some_iff.mp logs
  refine ⟨labels, s, steps_of_run reached, ?_⟩
  rw [log]
  refine ⟨_, List.mem_cons_of_mem _ (List.mem_singleton_self _), _, rfl, ?_, ?_⟩
  · decide
  · decide

private theorem frames_returned (mem : Location → UInt8) (calls : List Command)
    (valid : ∀ call ∈ calls, call.Valid) :
    framesOf ((calls.flatMap (soloEffects (Command.stmts beyond) mem)).map Prod.snd) =
      calls.filterMap Command.encode := by
  induction calls with
  | nil => rfl
  | cons call calls ih =>
    have first := frames_solo beyond call (valid call (by simp)) mem
    have rest := ih fun other member => valid other (by simp [member])
    simp only [framesOf] at first rest ⊢
    rw [List.flatMap_cons, List.map_append, List.filterMap_append, rest, soloEffects,
      List.map_map, Function.comp_def, List.map_id', first]
    cases encoded : call.encode with
    | none => simp [encoded]
    | some frame => simp [encoded]

private theorem prefix_toList {value : Option Frame} {frames : List Frame}
    (beginning : frames <+: value.toList) : frames = [] ∨ frames = value.toList := by
  cases value with
  | none => exact .inl (by simpa using beginning)
  | some frame =>
    rcases List.prefix_cons_iff.mp beginning with rfl | ⟨rest, rfl, empty⟩
    · exact .inl rfl
    · exact .inr (by simp [List.prefix_nil.mp empty])

/-- In every careful run, every frame handed over is the encoding of the call that
hands it over. Each thread has sent one frame for each returned call that stands
for one and nothing else, save perhaps the frame of the call it is in. -/
theorem frames_of_careful_run (beyond : Nat → CanData Object Handler) (mem : Location → UInt8)
    (labels : List (Label Thread Command)) (s : Threads Thread)
    (steps : Steps (TakesWhen Careful (System.step (Command.stmts beyond))) (System.idle mem)
      labels s) :
    (∀ effect ∈ s.log, ∀ frame, effect.action.frame effect.seen = some frame →
      effect.call.encode = some frame) ∧
    ∀ thread, ∃ current,
      framesBy s thread = (s.finished thread).filterMap Command.encode ++ current ∧
      (s.active thread = none → current = []) ∧
      ∀ a, s.active thread = some a → current = [] ∨ current = a.call.encode.toList := by
  have isolated : Isolated (Command.stmts beyond) Command.Valid mem s :=
    isolated_of_steps (writesFirst_stmts beyond) steps
  constructor
  · intro effect logged frame handed
    obtain ⟨valid, performed⟩ := isolated.mem_solo logged
    have member : frame ∈ framesOf (solo mem [] (effect.call.stmts beyond)) :=
      List.mem_filterMap.mpr ⟨_, performed, handed⟩
    rw [frames_solo beyond effect.call valid] at member
    simpa using member
  · intro thread
    refine ⟨framesOf ((pendingEffects mem (s.active thread)).map Prod.snd), ?_, ?_, ?_⟩
    · rw [framesBy, isolated.effects, List.map_append,
        ← frames_returned beyond mem _ (isolated.returned thread)]
      exact List.filterMap_append
    · intro idle
      rw [idle]
      rfl
    · intro a found
      apply prefix_toList
      rw [found, ← frames_solo beyond a.call (isolated.called thread a found) mem, pendingEffects,
        List.map_map, Function.comp_def, List.map_id']
      exact (isolated.solo_done found).filterMap _

/-- One thread switches relay 3 on and returns. -/
theorem frames_of_careful_run_relay :
    ∃ labels, ∃ s : Threads Unit,
      Steps (TakesWhen Careful (System.step (Command.stmts zeroRow)))
        (System.idle fun _ => 0) labels s ∧
      framesBy s () = [⟨0xd1, 1, 2, [0x82]⟩] ∧ s.finished () = [.relaySet 3] ∧
      ∀ effect ∈ s.log, ∀ frame, effect.action.frame effect.seen = some frame →
        effect.call.encode = some frame := by
  let labels : List (Label Unit Command) := .start () (.relaySet 3) :: List.replicate 5 (.advance ())
  have outcome : (run (System.step (Command.stmts zeroRow)) (System.idle fun _ => 0)
      labels).map (fun s => (framesBy s (), s.finished ())) =
        some ([⟨0xd1, 1, 2, [0x82]⟩], [.relaySet 3]) := by
    decide +kernel
  obtain ⟨s, reached, result⟩ := Option.map_eq_some_iff.mp outcome
  have careful : ∀ label ∈ labels, ∀ current : Threads Unit, Careful current label := by
    intro label member current
    have alone : ∀ thread, NoOverwrite current (.advance thread) :=
      fun thread _ _ _ _ _ _ other _ different => absurd rfl different
    rcases List.mem_cons.mp member with rfl | later
    · exact ⟨trivial, trivial⟩
    · obtain rfl := List.eq_of_mem_replicate later
      exact ⟨alone (), trivial⟩
  have steps := stepsWhen_of_run careful reached
  obtain ⟨frames, finished⟩ := Prod.mk.inj result
  exact ⟨labels, s, steps, frames, finished, (frames_of_careful_run zeroRow _ labels s steps).1⟩

end Threads

end BadmintonRobot.Can
