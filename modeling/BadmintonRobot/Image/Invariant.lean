import BadmintonRobot.Image.Transfer

/-!
# What an orderly transfer keeps

Between the ring of `Img_Cbuf` and the file every data frame is accounted for, as
long as frames arrive in an orderly way: after the initialisation, with the frame
counter at zero for the head frame, not while the read index stands at the end of
the ring with one slot left, and with the end frame only when the consumer will
still empty the ring.
-/

namespace BadmintonRobot.Image

open BadmintonRobot.Semantics

namespace Pc

/-- The statements before the initialisation is complete. -/
def initialising : Pc → Bool
  | .param | .initErrFlg | .initSta | .initMode | .initRIndex | .initWIndex => true
  | _ => false

/-- The statements of the loop that empties the ring. -/
def draining : Pc → Bool
  | .drainTest | .write | .advance | .wrapTest | .wrap => true
  | _ => false

/-- The statements at which the file and the read index have not been updated one
without the other. -/
def settled : Pc → Bool
  | .write | .advance | .wrapTest | .wrap => false
  | _ => true

/-- The read index when `taken` frames have been taken from the ring. -/
def readOffset (pc : Pc) (taken : Nat) : Nat :=
  match pc with
  | .wrapTest => Ring.offset 8 slots (taken - 1) + 8
  | .wrap => bufSize
  | _ => Ring.offset 8 slots taken

/-- The number of frames in the file when `taken` have been taken from the ring. -/
def written (pc : Pc) (taken : Nat) : Nat :=
  match pc with
  | .advance => taken + 1
  | _ => taken

/-- The states of the camera in which a statement of an initialised call can be
reached. -/
def Allows (pc : Pc) (sta : CamSta) (err : Nat) : Prop :=
  match pc with
  | .idle | .returned _ => False
  | .param | .initErrFlg | .initSta | .initMode | .initRIndex | .initWIndex => False
  | .readyTest | .readyDelay => sta ≠ .noReady
  | .pumpTest | .drainTest | .write | .advance | .wrapTest | .wrap | .pumpDelay | .stampCount
  | .stampTest => sta = .transmit ∨ sta = .finish
  | .finishTest => sta = .finish ∨ err ≠ camErrOK
  | .finishMode => sta = .finish
  | .errReturn => err ≠ camErrOK
  | _ => True

end Pc

/-- The frame numbered `n` of some data, as the ring stores it. -/
def record (data : List Chunk) (n i : Nat) : UInt8 := (data.getD n fun _ => 0).byte i

section Record

variable {data : List Chunk}

theorem record_append (chunk : Chunk) {n : Nat} (older : n < data.length) :
    record (data ++ [chunk]) n = record data n := by
  funext i
  simp [record, List.getD_eq_getElem?_getD, List.getElem?_append_left older]

theorem record_last (chunk : Chunk) : record (data ++ [chunk]) data.length = chunk.byte := by
  funext i
  simp [record, List.getD_eq_getElem?_getD]

/-- The next frame is stored behind those that have not been taken. -/
theorem holds_store {buf : Nat → UInt8} {taken : Nat}
    (holds : Ring.Holds 8 slots buf (record data) taken data.length)
    (near : data.length < taken + slots) (chunk : Chunk) :
    Ring.Holds 8 slots (Ring.store 8 buf (Ring.offset 8 slots data.length) chunk.byte)
      (record (data ++ [chunk])) taken (data.length + 1) := by
  have older : Ring.Holds 8 slots buf (record (data ++ [chunk])) taken data.length := by
    intro number lower upper i inside
    rw [record_append chunk upper]
    exact holds number lower upper i inside
  have newer := older.store (by decide) near
  rwa [record_last] at newer

end Record

/-- Of the data frames received, `taken` have left the ring for the file and the
others are in the ring. -/
structure Ringed (s : System) (data : List Chunk) (taken : Nat) : Prop where
  taken_le : taken ≤ data.length
  near : data.length < taken + slots
  wIndex : s.g.wIndex = Ring.offset 8 slots data.length
  rIndex : s.g.rIndex = s.pc.readOffset taken
  file : s.file = (data.take (s.pc.written taken)).flatMap Chunk.bytes
  holds : Ring.Holds 8 slots s.g.buf (record data) taken data.length
  available : s.pc = .write ∨ s.pc = .advance → taken < data.length
  moved : s.pc = .wrapTest → 0 < taken
  wraps : s.pc = .wrap → taken % slots = 0

/-- How far the transfer is, as long as no error has been reported. -/
def Progress (s : System) : Prop :=
  match s.sta with
  | .noReady => s.transfer = [] ∧ Ringed s [] 0
  | .ready => s.transfer = [camTrsimgFh] ∧ Ringed s [] 0
  | .transmit => ∃ data taken, s.transfer = camTrsimgFh :: data ∧ data.length = s.g.imgFcnt ∧
      0 < data.length ∧ data.length ≤ imgFrames ∧ Ringed s data taken
  | .finish => ∃ data taken, s.transfer = camTrsimgFh :: data ++ [camTrsimgFh] ∧
      data.length = imgFrames ∧ Ringed s data taken ∧
      (s.pc.draining = false → taken = data.length)

/-- The invariant of an initialised call. -/
structure Body (s : System) : Prop where
  fresh : s.sta = .ready → s.g.imgFcnt = 0
  faulty : s.err ≠ camErrOK → s.sta ≠ .finish
  place : s.pc.Allows s.sta s.err
  progress : s.err = camErrOK → Progress s

/-- The file holds the data bytes between the head and the end frame. -/
def Saved (s : System) : Prop :=
  ∃ data, s.transfer = camTrsimgFh :: data ++ [camTrsimgFh] ∧ data.length = imgFrames ∧
    s.file = data.flatMap Chunk.bytes

/-- The invariant between calls and during them. -/
structure Inv (s : System) : Prop where
  blank : s.pc.initialising → s.file = []
  cleared : s.pc = .initSta ∨ s.pc = .initMode ∨ s.pc = .initRIndex ∨ s.pc = .initWIndex →
    s.err = camErrOK
  reset : s.pc = .initMode ∨ s.pc = .initRIndex ∨ s.pc = .initWIndex →
    s.sta = .noReady ∧ s.transfer = []
  front : s.pc = .initWIndex → s.g.rIndex = 0
  body : ¬s.Resting → s.pc.initialising = false → Body s
  saved : s.pc = .returned camErrOK → Saved s

/-- The condition on the frames. They come from the camera that the call is for, and
not before the call is initialised. The head frame finds the counter at zero. No
frame comes after the end frame, or into the last slot while `r_index` stands at
the end of the buffer. The end frame comes without an earlier error, and while the
consumer is emptying the ring or has emptied it. -/
def Orderly (s : System) : Label → Prop
  | .frame camx chunk => s.Resting ∨
    (camx = s.camx ∧ s.pc.initialising = false ∧
      (s.sta = .noReady → s.g.imgFcnt = 0) ∧ s.sta ≠ .finish ∧
      ¬(s.g.rIndex = bufSize ∧ s.g.wIndex + 8 = bufSize) ∧
      (imgFrames ≤ s.g.imgFcnt → chunk = camTrsimgFh →
        s.err = camErrOK ∧ (s.pc.draining ∨ s.g.rIndex = s.g.wIndex)))
  | _ => True

/-- At a settled statement the read index and the file are where `taken` says. -/
theorem Pc.settled_spec {pc : Pc} (settled : pc.settled) (taken : Nat) :
    pc.readOffset taken = Ring.offset 8 slots taken ∧ pc.written taken = taken ∧
      pc ≠ .write ∧ pc ≠ .advance ∧ pc ≠ .wrapTest ∧ pc ≠ .wrap := by
  cases pc <;> simp_all [Pc.settled, Pc.readOffset, Pc.written]

theorem Pc.settled_of_not_draining {pc : Pc} (outside : pc.draining = false) : pc.settled := by
  cases pc <;> first | rfl | cases outside

theorem Pc.settled_or (pc : Pc) :
    pc.settled ∨ pc = .write ∨ pc = .advance ∨ pc = .wrapTest ∨ pc = .wrap := by
  cases pc <;> simp [Pc.settled]

/-- The offsets of `Img_Cbuf` follow one another and wrap at the end of the buffer. -/
theorem offset_next (n : Nat) :
    Ring.offset 8 slots (n + 1) =
      if Ring.offset 8 slots n + 8 = bufSize then 0 else Ring.offset 8 slots n + 8 :=
  Ring.offset_succ (by decide) (by decide) n

theorem offset_le (n : Nat) : Ring.offset 8 slots n + 8 ≤ bufSize :=
  Ring.offset_add_le (by decide) n

/-- Of `received` frames, `taken` have left the ring, as the two indices say. -/
structure Counted (s : System) (received taken : Nat) : Prop where
  taken_le : taken ≤ received
  wIndex : s.g.wIndex = Ring.offset 8 slots received
  rIndex : s.g.rIndex = s.pc.readOffset taken
  available : s.pc = .write ∨ s.pc = .advance → taken < received
  moved : s.pc = .wrapTest → 0 < taken
  wraps : s.pc = .wrap → taken % slots = 0

namespace Counted

variable {s : System} {received taken : Nat}

/-- The read index is the offset of the next frame to take, or the end of the buffer
just before it wraps. -/
theorem reading (counted : Counted s received taken) :
    s.g.rIndex = Ring.offset 8 slots taken ∨
      s.g.rIndex = bufSize ∧ Ring.offset 8 slots taken = 0 := by
  have index := counted.rIndex
  rcases s.pc.settled_or with settled | pc | pc | pc | pc
  · rw [(Pc.settled_spec settled taken).1] at index
    exact .inl index
  · exact .inl (by simpa [pc, Pc.readOffset] using index)
  · exact .inl (by simpa [pc, Pc.readOffset] using index)
  · obtain ⟨before, rfl⟩ := Nat.exists_eq_succ_of_ne_zero (counted.moved pc).ne'
    rw [pc, Pc.readOffset, Nat.succ_sub_one] at index
    rw [Nat.succ_eq_add_one, offset_next]
    split_ifs with ends
    · exact .inr ⟨index.trans ends, rfl⟩
    · exact .inl index
  · refine .inr ⟨by simpa [pc, Pc.readOffset] using index, ?_⟩
    rw [Ring.offset, counted.wraps pc]

/-- If the interrupt reports no overflow, the ring still has a free slot, unless the read index
is about to wrap. -/
theorem room (counted : Counted s received taken) (near : received < taken + slots)
    (noOverflow : (if s.g.wIndex + 8 = bufSize then 0 else s.g.wIndex + 8) ≠ s.g.rIndex)
    (notWrapping : ¬(s.g.rIndex = bufSize ∧ s.g.wIndex + 8 = bufSize)) :
    received + 1 < taken + slots := by
  rw [counted.wIndex, ← offset_next] at noOverflow
  by_contra full
  have lap : received + 1 = taken + slots := by omega
  have same : Ring.offset 8 slots (received + 1) = Ring.offset 8 slots taken := by
    rw [lap, Ring.offset, Ring.offset, Nat.add_mod_right]
  rw [same] at noOverflow
  rcases counted.reading with read | ⟨atEnd, front⟩
  · exact noOverflow read.symm
  · -- the frame fills the ring while the read index has still to wrap
    refine notWrapping ⟨atEnd, ?_⟩
    have wrapped := same.trans front
    rw [offset_next] at wrapped
    rw [counted.wIndex]
    by_contra further
    rw [if_neg further] at wrapped
    omega

/-- The indices at a settled statement. -/
theorem of_settled {t : System} (settled : t.pc.settled) (taken_le : taken ≤ received)
    (wIndex : t.g.wIndex = Ring.offset 8 slots received)
    (rIndex : t.g.rIndex = Ring.offset 8 slots taken) : Counted t received taken := by
  obtain ⟨read, -, noWrite, noAdvance, noWrapTest, noWrap⟩ := Pc.settled_spec settled taken
  refine ⟨taken_le, wIndex, by rw [rIndex, read], ?_, ?_, ?_⟩
  · rintro (same | same)
    · exact absurd same noWrite
    · exact absurd same noAdvance
  · exact fun same => absurd same noWrapTest
  · exact fun same => absurd same noWrap

theorem settled_rIndex (counted : Counted s received taken) (settled : s.pc.settled) :
    s.g.rIndex = Ring.offset 8 slots taken := by
  rw [counted.rIndex, (Pc.settled_spec settled taken).1]

/-- The drain loop goes on while frames are left. -/
theorem drainTest (counted : Counted s received taken) (pc : s.pc = .drainTest)
    (differ : s.g.rIndex ≠ s.g.wIndex) : Counted { s with pc := .write } received taken := by
  have read := counted.settled_rIndex (by rw [pc]; rfl)
  have left : taken < received := by
    refine lt_of_le_of_ne counted.taken_le fun all => differ ?_
    rw [read, counted.wIndex, all]
  exact ⟨counted.taken_le, counted.wIndex, read, fun _ => left, nofun, nofun⟩

theorem write (counted : Counted s received taken) (pc : s.pc = .write) (file : List UInt8) :
    Counted { s with file := file, pc := .advance } received taken := by
  refine ⟨counted.taken_le, counted.wIndex, ?_, fun _ => counted.available (.inl pc), nofun, nofun⟩
  simpa [pc, Pc.readOffset] using counted.rIndex

theorem advance (counted : Counted s received taken) (pc : s.pc = .advance) :
    Counted { s with g := { s.g with rIndex := s.g.rIndex + 8 }, pc := .wrapTest } received
      (taken + 1) := by
  refine ⟨counted.available (.inr pc), counted.wIndex, ?_, nofun, fun _ => by omega, nofun⟩
  simpa [pc, Pc.readOffset] using counted.rIndex

/-- The test for the end of the buffer, with the assignment it guards still to come. -/
theorem wrapTest (counted : Counted s received taken) :
    (s.g.rIndex = bufSize → Counted { s with pc := .wrap } received taken) ∧
      (s.g.rIndex ≠ bufSize → Counted { s with pc := .drainTest } received taken) := by
  constructor
  · intro atEnd
    refine ⟨counted.taken_le, counted.wIndex, atEnd, nofun, nofun, fun _ => ?_⟩
    rcases counted.reading with read | ⟨_, front⟩
    · have bound := offset_le taken
      rw [← read, atEnd] at bound
      exact absurd bound (by decide)
    · simpa [Ring.offset] using front
  · intro inside
    refine of_settled rfl counted.taken_le counted.wIndex ?_
    rcases counted.reading with read | ⟨atEnd, _⟩
    · exact read
    · exact absurd atEnd inside

theorem wrap (counted : Counted s received taken) (pc : s.pc = .wrap) :
    Counted { s with g := { s.g with rIndex := 0 }, pc := .drainTest } received taken := by
  refine of_settled rfl counted.taken_le counted.wIndex ?_
  simp [Ring.offset, counted.wraps pc]

end Counted

namespace Ringed

variable {s : System} {data : List Chunk} {taken : Nat}

theorem counted (ringed : Ringed s data taken) : Counted s data.length taken :=
  ⟨ringed.taken_le, ringed.wIndex, ringed.rIndex, ringed.available, ringed.moved, ringed.wraps⟩

theorem of_counted (counted : Counted s data.length taken) (near : data.length < taken + slots)
    (file : s.file = (data.take (s.pc.written taken)).flatMap Chunk.bytes)
    (holds : Ring.Holds 8 slots s.g.buf (record data) taken data.length) : Ringed s data taken :=
  ⟨counted.taken_le, near, counted.wIndex, counted.rIndex, file, holds, counted.available,
    counted.moved, counted.wraps⟩

/-- The ring at a settled statement. -/
theorem of_settled {t : System} (settled : t.pc.settled) (taken_le : taken ≤ data.length)
    (near : data.length < taken + slots) (wIndex : t.g.wIndex = Ring.offset 8 slots data.length)
    (rIndex : t.g.rIndex = Ring.offset 8 slots taken)
    (file : t.file = (data.take taken).flatMap Chunk.bytes)
    (holds : Ring.Holds 8 slots t.g.buf (record data) taken data.length) :
    Ringed t data taken := by
  refine of_counted (.of_settled settled taken_le wIndex rIndex) near ?_ holds
  rw [file, (Pc.settled_spec settled taken).2.1]

theorem settled_rIndex (ringed : Ringed s data taken) (settled : s.pc.settled) :
    s.g.rIndex = Ring.offset 8 slots taken := ringed.counted.settled_rIndex settled

theorem settled_file (ringed : Ringed s data taken) (settled : s.pc.settled) :
    s.file = (data.take taken).flatMap Chunk.bytes := by
  rw [ringed.file, (Pc.settled_spec settled taken).2.1]

/-- A step that leaves ring and file alone and moves between settled statements. -/
theorem goto (ringed : Ringed s data taken) {t : System} (leaves : s.pc.settled)
    (enters : t.pc.settled) (wIndex : t.g.wIndex = s.g.wIndex)
    (rIndex : t.g.rIndex = s.g.rIndex) (buf : t.g.buf = s.g.buf) (file : t.file = s.file) :
    Ringed t data taken := by
  refine of_settled enters ringed.taken_le ringed.near ?_ ?_ ?_ ?_
  · rw [wIndex, ringed.wIndex]
  · rw [rIndex, ringed.settled_rIndex leaves]
  · rw [file, ringed.settled_file leaves]
  · rw [buf]
    exact ringed.holds

/-- The empty ring, at a settled statement. -/
theorem empty {t : System} (settled : t.pc.settled) (rIndex : t.g.rIndex = 0)
    (wIndex : t.g.wIndex = 0) (file : t.file = []) : Ringed t [] 0 := by
  refine of_settled settled le_rfl (by decide) (by simpa using wIndex) (by simpa using rIndex)
    (by simpa using file) ?_
  intro number _ impossible
  simp at impossible

theorem written_le (ringed : Ringed s data taken) : s.pc.written taken ≤ data.length := by
  by_cases advancing : s.pc = .advance
  · have available := ringed.available (.inr advancing)
    rw [advancing]
    exact available
  · have same : s.pc.written taken = taken := by
      cases pc : s.pc <;> simp_all [Pc.written]
    rw [same]
    exact ringed.taken_le

/-- The interrupt stores a data frame behind the others. If it reports no overflow,
the ring still has a free slot, unless the read index is about to wrap. -/
theorem putChunk (ringed : Ringed s data taken) {t : System} {chunk : Chunk}
    (pc : t.pc = s.pc) (file : t.file = s.file) (rIndex : t.g.rIndex = s.g.rIndex)
    (buf : t.g.buf = Ring.store 8 s.g.buf s.g.wIndex chunk.byte)
    (wIndex : t.g.wIndex = if s.g.wIndex + 8 = bufSize then 0 else s.g.wIndex + 8)
    (noOverflow : t.g.wIndex ≠ t.g.rIndex)
    (notWrapping : ¬(s.g.rIndex = bufSize ∧ s.g.wIndex + 8 = bufSize)) :
    Ringed t (data ++ [chunk]) taken := by
  have next : t.g.wIndex = Ring.offset 8 slots (data.length + 1) := by
    rw [offset_next, wIndex, ringed.wIndex]
  have room : data.length + 1 < taken + slots := by
    rw [wIndex, rIndex] at noOverflow
    exact ringed.counted.room ringed.near noOverflow notWrapping
  refine ⟨?_, ?_, ?_, ?_, ?_, ?_, ?_, ?_, ?_⟩
  · have bound := ringed.taken_le
    simp only [List.length_append, List.length_singleton]
    omega
  · simpa using room
  · simpa using next
  · rw [rIndex, pc, ringed.rIndex]
  · rw [file, pc, ringed.file, List.take_append_of_le_length ringed.written_le]
  · rw [buf, ringed.wIndex, List.length_append, List.length_singleton]
    exact holds_store ringed.holds ringed.near chunk
  · rw [pc]
    intro pending
    have available := ringed.available pending
    simp only [List.length_append, List.length_singleton]
    omega
  · rw [pc]
    exact ringed.moved
  · rw [pc]
    exact ringed.wraps

/-- The ring is empty exactly when the indices meet. -/
theorem meets_iff (ringed : Ringed s data taken) (settled : s.pc.settled) :
    s.g.rIndex = s.g.wIndex ↔ taken = data.length := by
  rw [ringed.settled_rIndex settled, ringed.wIndex]
  constructor
  · exact Ring.offset_inj (by decide) ringed.taken_le ringed.near
  · rintro rfl
    rfl

/-- The bytes at the read index are those of the next frame. -/
theorem chunkAtRead_eq (ringed : Ringed s data taken) (pc : s.pc = .write) :
    (data.take taken).flatMap Chunk.bytes ++ s.chunkAtRead =
      (data.take (taken + 1)).flatMap Chunk.bytes := by
  have available := ringed.available (.inl pc)
  have read : s.g.rIndex = Ring.offset 8 slots taken := by
    simpa [pc, Pc.readOffset] using ringed.rIndex
  have bytes : s.chunkAtRead = (data.get ⟨taken, available⟩).bytes := by
    apply List.ext_getElem
    · simp [System.chunkAtRead, Chunk.bytes]
    · intro i left right
      have inside : i < 8 := by simpa [System.chunkAtRead] using left
      have stored := ringed.holds taken le_rfl available i inside
      have taken_byte : record data taken i = (data.get ⟨taken, available⟩) ⟨i, inside⟩ := by
        simp [record, Chunk.byte, inside, List.getD_eq_getElem?_getD,
          List.getElem?_eq_getElem available]
      simp only [System.chunkAtRead, Chunk.bytes, List.getElem_map, List.getElem_range,
        List.getElem_ofFn, read, stored, taken_byte]
  rw [bytes, List.take_succ_eq_append_getElem available, List.flatMap_append]
  simp

/-- `f_write` appends the next frame. -/
theorem write (ringed : Ringed s data taken) (pc : s.pc = .write) :
    Ringed { s with file := s.file ++ s.chunkAtRead, pc := .advance } data taken := by
  refine of_counted (ringed.counted.write pc _) ringed.near ?_ ringed.holds
  have file : s.file = (data.take taken).flatMap Chunk.bytes := by
    simpa [pc, Pc.written] using ringed.file
  simpa [file, Pc.written] using ringed.chunkAtRead_eq pc

theorem advance (ringed : Ringed s data taken) (pc : s.pc = .advance) :
    Ringed { s with g := { s.g with rIndex := s.g.rIndex + 8 }, pc := .wrapTest } data
      (taken + 1) := by
  have near := ringed.near
  refine of_counted (ringed.counted.advance pc) (by omega) ?_ (ringed.holds.mono (by omega))
  simpa [pc, Pc.written] using ringed.file

theorem wrapTest (ringed : Ringed s data taken) (pc : s.pc = .wrapTest) :
    (s.g.rIndex = bufSize → Ringed { s with pc := .wrap } data taken) ∧
      (s.g.rIndex ≠ bufSize → Ringed { s with pc := .drainTest } data taken) := by
  have file : s.file = (data.take taken).flatMap Chunk.bytes := by
    simpa [pc, Pc.written] using ringed.file
  constructor
  · exact fun atEnd => of_counted (ringed.counted.wrapTest.1 atEnd) ringed.near file ringed.holds
  · exact fun inside => of_counted (ringed.counted.wrapTest.2 inside) ringed.near file ringed.holds

theorem wrap (ringed : Ringed s data taken) (pc : s.pc = .wrap) :
    Ringed { s with g := { s.g with rIndex := 0 }, pc := .drainTest } data taken := by
  refine of_counted (ringed.counted.wrap pc) ringed.near ?_ ringed.holds
  simpa [pc, Pc.written] using ringed.file

theorem drainTest (ringed : Ringed s data taken) (pc : s.pc = .drainTest)
    (differ : s.g.rIndex ≠ s.g.wIndex) : Ringed { s with pc := .write } data taken := by
  refine of_counted (ringed.counted.drainTest pc differ) ringed.near ?_ ringed.holds
  exact ringed.settled_file (by rw [pc]; rfl)

end Ringed

end BadmintonRobot.Image
