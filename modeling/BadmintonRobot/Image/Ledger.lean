import BadmintonRobot.Image.Watch
import Mathlib.Data.Int.ModEq

/-!
# The ring during a transfer

`Ledger` keeps the data frames that the interrupt has put into `Img_Cbuf`, the number of those that
`Save_Img` has consumed, and the elements of the buffer that both have used. A frame is consumed when
`r_index` advances. Until there are as many frames as the ring has slots, the two indices and the bytes
between them account for exactly the frames that have not been consumed.
-/

namespace BadmintonRobot.Image

open BadmintonRobot.Semantics

/-- A transfer with what has gone through the ring since its start. -/
structure Ledger where
  system : System
  data : List Chunk
  consumed : Nat
  accessed : List Nat

namespace Ledger

/-- The frames that have been received and not yet been consumed. -/
def pending (w : Ledger) : List Chunk := w.data.drop w.consumed

/-- The elements of the buffer from an index on that a frame takes. -/
def span (index : Nat) : List Nat := (List.range 8).map (index + ·)

def step (w : Ledger) : Label → Option Ledger
  | .call camx named => (Image.step w.system (.call camx named)).map fun next => ⟨next, [], 0, []⟩
  | .run ok => some
    { w with
      system := w.system.exec ok
      consumed := if w.system.pc = .advance then w.consumed + 1 else w.consumed
      accessed := if w.system.pc = .write then w.accessed ++ span w.system.g.rIndex else w.accessed }
  | .frame camx chunk => (Image.step w.system (.frame camx chunk)).map fun next =>
    if w.system.g.Stores camx then
      { w with
        system := next
        data := w.data ++ [chunk]
        accessed := w.accessed ++ span w.system.g.wIndex }
    else { w with system := next }

/-- The ledger does not get in the way. -/
theorem step_system (w : Ledger) (label : Label) :
    (w.step label).map Ledger.system = Image.step w.system label := by
  cases label with
  | call camx named => simp [step, Function.comp_def]
  | run ok => rfl
  | frame camx chunk =>
    rw [step, Option.map_map]
    refine (Option.map_congr fun next _ => ?_).trans Option.map_id'
    rw [Function.comp_apply]
    split_ifs <;> rfl

/-- The indices have been reset and the camera is asked next. -/
structure Opened (s : System) : Prop where
  pc : s.pc = .open_
  rIndex : s.g.rIndex = 0
  wIndex : s.g.wIndex = 0

/-- Every call with proper arguments gets there, if no frame comes before. -/
theorem opened_of_call (s : System) (resting : s.Resting) {camx : Nat} (valid : 1 ≤ camx ∧ camx ≤ 6) :
    ∃ t, run Image.step s (.call camx true :: List.replicate 6 (.run true)) = some t ∧ Opened t ∧
      t.camx = camx := by
  have accepted : ∀ called : System, called.pc = .param → called.camx = camx → called.named = true →
      called.exec true = { called with pc := .initErrFlg } := by
    intro called pc same named
    have proper : ¬(camx = 0 ∨ camx > 6 ∨ true = false) := by
      rintro (zero | large | unnamed)
      · omega
      · omega
      · cases unnamed
    simp only [System.exec, pc, same, named, if_neg proper]
  -- behind the check of the arguments no statement branches
  simp only [run, Image.step, if_pos resting, Option.bind_some, List.replicate]
  rw [accepted ⟨s.g, camx, true, .param, [], [], 0, 0⟩ rfl rfl rfl]
  exact ⟨_, rfl, ⟨rfl, rfl, rfl⟩, rfl⟩

/-- Nothing has gone through the ring. -/
def start (s : System) : Ledger := ⟨s, [], 0, []⟩

/-- One transfer by one camera. Fewer frames are pending than the ring has slots. -/
def During (w : Ledger) (label : Label) : Prop :=
  w.pending.length < slots ∧
    match label with
    | .call _ _ => False
    | .run _ => True
    | .frame camx _ => camx = w.system.camx

instance (w : Ledger) (label : Label) : Decidable (During w label) := by
  unfold During
  cases label <;> infer_instance

/-- The bytes from the read index on, all around the buffer. -/
def unread (g : Globals) (count : Nat) : List UInt8 :=
  (List.range count).map fun n => g.buf ((g.rIndex + n) % bufSize)

/-- The two indices, and the bytes between them, account for the frames that are pending. If these fill
the ring, their number is known up to the size of the ring only. -/
structure Accounts (w : Ledger) : Prop where
  aligned : 8 ∣ w.system.g.rIndex ∧ 8 ∣ w.system.g.wIndex
  inside : ∀ element ∈ w.accessed, element < bufSize
  distance : (w.system.g.wIndex : Int) - w.system.g.rIndex ≡ 8 * w.pending.length [ZMOD bufSize]
  exact : w.pending.length < slots →
    ((w.system.g.wIndex : Int) - w.system.g.rIndex) % bufSize = 8 * w.pending.length
  bytes : unread w.system.g (8 * w.pending.length) = w.pending.flatMap Chunk.bytes

/-- What every step of a transfer keeps. -/
structure Kept (w : Ledger) : Prop where
  started : w.system.pc.initialising = false
  counted : Counted w.system w.data.length w.consumed
  near : w.data.length ≤ w.consumed + slots
  holds : Ring.Holds 8 slots w.system.g.buf (record w.data) w.consumed w.data.length
  inside : ∀ element ∈ w.accessed, element < bufSize

section Steps

variable {w next : Ledger}

theorem length_pending (w : Ledger) : w.pending.length = w.data.length - w.consumed :=
  List.length_drop

theorem span_lt {index : Nat} (fits : index + 8 ≤ bufSize) : ∀ element ∈ span index, element < bufSize := by
  intro element member
  obtain ⟨i, range, rfl⟩ := List.mem_map.mp member
  have small := List.mem_range.mp range
  omega

theorem exec_buf (s : System) (ok : Bool) : (s.exec ok).g.buf = s.g.buf := by
  cases pc : s.pc <;> simp only [System.exec, pc] <;> (try split_ifs) <;> rfl

theorem written_eq (pc : Pc) (taken : Nat) :
    pc.written taken = if pc = .advance then taken + 1 else taken := by
  cases pc <;> rfl

theorem kept_start {s : System} (opened : Opened s) : Kept (start s) := by
  have settled : s.pc.settled := by rw [opened.pc]; rfl
  refine ⟨by rw [start, opened.pc]; rfl, .of_settled settled le_rfl ?_ ?_, Nat.zero_le _, ?_, nofun⟩
  · simpa [start] using opened.wIndex
  · simpa [start] using opened.rIndex
  · intro number _ impossible
    exact absurd impossible (Nat.not_lt_zero number)

theorem Kept.exec (kept : Kept w) {ok : Bool} (taken : w.step (.run ok) = some next) : Kept next := by
  obtain rfl := Option.some.inj taken
  have counted := kept.counted.exec kept.started ok
  rw [written_eq] at counted
  have further : w.consumed ≤ if w.system.pc = .advance then w.consumed + 1 else w.consumed := by
    split_ifs <;> omega
  refine ⟨(exec_camera kept.started ok).2.2, counted, kept.near.trans (Nat.add_le_add_right further slots), ?_, ?_⟩
  · rw [exec_buf]
    exact kept.holds.mono further
  · show ∀ element ∈ (if w.system.pc = .write then _ else _), element < bufSize
    split_ifs with writes
    · have read : w.system.g.rIndex = Ring.offset 8 slots w.consumed := by
        simpa [writes, Pc.readOffset] using kept.counted.rIndex
      have fits : w.system.g.rIndex + 8 ≤ bufSize := read ▸ offset_le w.consumed
      exact List.forall_mem_append.mpr ⟨kept.inside, span_lt fits⟩
    · exact kept.inside

theorem Kept.frame (kept : Kept w) {camx : Nat} {chunk : Chunk} (room : w.pending.length < slots)
    (taken : w.step (.frame camx chunk) = some next) : Kept next := by
  obtain ⟨system, moved, rfl⟩ := Option.map_eq_some_iff.mp taken
  simp only [Image.step, Option.ite_none_right_eq_some, Option.some.injEq] at moved
  obtain ⟨-, rfl⟩ := moved
  obtain ⟨rIndex, stored, unstored⟩ := imgSaveIsr_ring w.system.g camx chunk
  split_ifs with stores
  · obtain ⟨buf, wIndex⟩ := stored stores
    have free : w.data.length < w.consumed + slots := by
      rw [length_pending] at room
      omega
    have fits : w.system.g.wIndex + 8 ≤ bufSize := kept.counted.wIndex ▸ offset_le w.data.length
    refine ⟨kept.started, ?_, ?_, ?_, List.forall_mem_append.mpr ⟨kept.inside, span_lt fits⟩⟩
    · rw [List.length_append]
      exact kept.counted.store rfl wIndex rIndex
    · rw [List.length_append]
      exact free
    · show Ring.Holds 8 slots (imgSaveIsr camx chunk w.system.g).buf _ _ _
      rw [buf, kept.counted.wIndex, List.length_append]
      exact holds_store kept.holds free chunk
  · obtain ⟨buf, wIndex⟩ := unstored stores
    refine ⟨kept.started, kept.counted.congr rfl wIndex rIndex, kept.near, ?_, kept.inside⟩
    show Ring.Holds 8 slots (imgSaveIsr camx chunk w.system.g).buf _ _ _
    rw [buf]
    exact kept.holds

theorem Kept.step {label : Label} (kept : Kept w) (during : During w label)
    (taken : w.step label = some next) : Kept next := by
  obtain ⟨room, transfer⟩ := during
  cases label with
  | call camx named => exact transfer.elim
  | run ok => exact kept.exec taken
  | frame camx chunk => exact kept.frame room taken

end Steps

section Accounts

variable {w : Ledger}

/-- The read index is where the next frame is, up to the wrap that is still to come. -/
theorem rIndex_mod {s : System} {received taken : Nat} (counted : Counted s received taken) :
    s.g.rIndex % bufSize = Ring.offset 8 slots taken := by
  rcases counted.reading with read | ⟨atEnd, front⟩
  · have bound := offset_le taken
    rw [read]
    exact Nat.mod_eq_of_lt (by omega)
  · rw [atEnd, front, Nat.mod_self]

theorem bytes_eq (chunk : Chunk) : chunk.bytes = (List.range 8).map chunk.byte := by
  simp [Chunk.bytes, Chunk.byte, List.ofFn_succ, List.range_succ]

/-- The bytes of some frames, numbered one by one. -/
theorem flatMap_bytes (data : List Chunk) :
    data.flatMap Chunk.bytes =
      (List.range (8 * data.length)).map fun n => record data (n / 8) (n % 8) := by
  induction data using List.reverseRecOn with
  | nil => rfl
  | append_singleton data chunk ih =>
    have older : ∀ n ∈ List.range (8 * data.length),
        record data (n / 8) (n % 8) = record (data ++ [chunk]) (n / 8) (n % 8) := by
      intro n member
      rw [record_append chunk (Nat.div_lt_of_lt_mul (List.mem_range.mp member))]
    have newer : ∀ i ∈ List.range 8, chunk.byte i =
        record (data ++ [chunk]) ((8 * data.length + i) / 8) ((8 * data.length + i) % 8) := by
      intro i member
      have small := List.mem_range.mp member
      rw [show (8 * data.length + i) / 8 = data.length by omega,
        show (8 * data.length + i) % 8 = i by omega, record_last]
    rw [List.flatMap_append, ih, List.flatMap_singleton, bytes_eq, List.length_append,
      List.length_singleton, Nat.mul_succ, List.range_add, List.map_append, List.map_map,
      List.map_congr_left older, List.map_congr_left newer]
    rfl

theorem record_drop (data : List Chunk) (taken n : Nat) :
    record (data.drop taken) n = record data (taken + n) := by
  funext i
  simp [record, List.getD_eq_getElem?_getD, List.getElem?_drop]

theorem Kept.unread (kept : Kept w) :
    Ledger.unread w.system.g (8 * w.pending.length) = w.pending.flatMap Chunk.bytes := by
  rw [flatMap_bytes, Ledger.unread]
  refine List.map_congr_left fun n member => ?_
  have inside : n < 8 * (w.data.length - w.consumed) := by
    rw [← length_pending]
    exact List.mem_range.mp member
  rw [← Nat.mod_add_mod, rIndex_mod kept.counted, pending, record_drop]
  exact kept.holds.cyclic inside

theorem Kept.accounts (kept : Kept w) : Accounts w := by
  have read := rIndex_mod kept.counted
  have written := kept.counted.wIndex
  have size : 8 * slots = 6144 := rfl
  rw [Ring.offset_eq_mod, size] at read written
  have count := length_pending w
  have order := kept.counted.taken_le
  have distance : (w.system.g.wIndex : Int) - w.system.g.rIndex ≡ 8 * w.pending.length [ZMOD bufSize] := by
    unfold Int.ModEq bufSize at *
    omega
  refine ⟨⟨?_, ?_⟩, kept.inside, distance, fun free => ?_, kept.unread⟩
  · unfold bufSize at read
    omega
  · omega
  · have small : 8 * w.pending.length < bufSize := Nat.mul_lt_mul_of_pos_left free (by decide)
    rw [distance.eq]
    exact Int.emod_eq_of_lt (by omega) (by exact_mod_cast small)

end Accounts

/-- Whatever the order of the interrupts and the statements, the ring accounts for the frames that are
pending, as long as these have been fewer than its slots. -/
theorem accounts_of_steps {s : System} {labels : List Label} {w : Ledger} (opened : Opened s)
    (steps : Steps (TakesWhen During step) (start s) labels w) : Accounts w := by
  have kept : Kept w := steps.invariant (kept_start opened)
    fun _ _ _ kept taken => kept.step taken.1 taken.2
  exact kept.accounts

/-- The first camera is about to be asked for an image. -/
def asked : System := { Image.initial powerOn with named := true, pc := .open_ }

/-- The camera answers and sends two frames, of which the first one is consumed. -/
def twoFrames : List Label :=
  List.replicate 3 (Label.run true) ++ [Label.frame 1 camTrsimgFh] ++
    List.replicate 2 (Label.run true) ++ [Label.frame 1 fun _ => 1, Label.frame 1 fun _ => 2] ++
    List.replicate 5 (Label.run true)

theorem accounts_twoFrames :
    ∃ w, Steps (TakesWhen During step) (start asked) twoFrames w ∧ w.pending = [fun _ => 2] ∧
      Accounts w := by
  have taken : (run (guarded During step) (start asked) twoFrames).map pending =
      some [fun _ => 2] := by decide +kernel
  obtain ⟨w, ran, left⟩ := Option.map_eq_some_iff.mp taken
  have steps := stepsWhen_of_guarded ran
  exact ⟨w, steps, left, accounts_of_steps ⟨rfl, rfl, rfl⟩ steps⟩

end Ledger

end BadmintonRobot.Image
