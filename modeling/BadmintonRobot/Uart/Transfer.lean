import Mathlib.Data.Nat.ModEq
import Mathlib.Tactic.SplitIfs
import BadmintonRobot.Uart.Receiver

/-!
# One transfer at a time

Between two interrupts the DMA only fills the row, so a session is determined by
what happens at the transfer boundaries. `after_transfer` runs a session to the
next boundary, and the `boundary_` theorems say what the interrupt decides there
on a clean line, in terms of the programmed length and the phase in the frame.
-/

namespace BadmintonRobot.Uart

private theorem scanHead_spec (addr : Nat → UInt8) (head : UInt8) (count i : Nat) :
    i ≤ scanHead addr head count i ∧ scanHead addr head count i ≤ i + count ∧
      (∀ j, i ≤ j → j < scanHead addr head count i → addr j ≠ head) ∧
      (scanHead addr head count i < i + count → addr (scanHead addr head count i) = head) := by
  induction count generalizing i with
  | zero => simp [scanHead]; omega
  | succ count ih =>
    unfold scanHead
    by_cases found : addr i = head
    · rw [if_pos found]
      exact ⟨Nat.le_refl _, by omega, fun j _ _ => by omega, fun _ => found⟩
    · rw [if_neg found]
      obtain ⟨lower, upper, before, here⟩ := ih (i + 1)
      refine ⟨by omega, by omega, ?_, fun short => here (by omega)⟩
      intro j from_i below
      by_cases same : j = i
      · simpa [same] using found
      · exact before j (by omega) below

/-- The head search stops inside the frame or at its end. -/
theorem findHead_le (addr : Nat → UInt8) (head : UInt8) (fSize : Nat) : findHead addr head fSize ≤ fSize := by
  simpa [findHead] using (scanHead_spec addr head fSize 0).2.1

/-- The search finds the first head. -/
theorem findHead_eq {addr : Nat → UInt8} {head : UInt8} {fSize i : Nat} (inside : i < fSize) (here : addr i = head)
    (before : ∀ j, j < i → addr j ≠ head) : findHead addr head fSize = i := by
  obtain ⟨_, upper, earlier, found⟩ := scanHead_spec addr head fSize 0
  simp only [Nat.zero_add] at upper found
  rcases Nat.lt_trichotomy (findHead addr head fSize) i with less | same | more
  · exact absurd (found (by unfold findHead at less; omega)) (before _ less)
  · exact same
  · exact absurd here (earlier i (Nat.zero_le _) more)

namespace Session

variable {dma : UartDma} {s : Session} {line : Nat → UInt8} {phase : Nat}

/-- Running on is running from the state reached. -/
theorem after_add (s : Session) (phase m n : Nat) :
    after dma s line phase (m + n) =
      after dma (after dma s line phase m) line (phase + m) n := by
  induction n with
  | zero => rfl
  | succ n ih =>
    have position : phase + (m + n) = phase + m + n := by omega
    rw [← Nat.add_assoc, after, ih, position]
    rfl

/-- The row with `count` bytes of the line stored from index `start` on. -/
def overlay (row : Nat → UInt8) (start count : Nat) (line : Nat → UInt8) (phase : Nat) :
    Nat → UInt8 :=
  fun i => if start ≤ i ∧ i < start + count then line (phase + (i - start)) else row i

private theorem overlay_succ (row : Nat → UInt8) (start count phase : Nat) :
    Function.update (overlay row start count line phase) (start + count) (line (phase + count)) =
      overlay row start (count + 1) line phase := by
  funext i
  by_cases here : i = start + count
  · subst here
    simp [overlay]
  · have same : (start ≤ i ∧ i < start + count) ↔ (start ≤ i ∧ i < start + (count + 1)) := by
      omega
    simp [overlay, Function.update_of_ne here, same]

/-- Inside a transfer the bytes only fill the row. -/
theorem after_within (running : s.rx.halted = false) {n : Nat}
    (short : s.rx.filled + n < s.rx.ndtr) :
    after dma s line phase n =
      { s with rx := { s.rx with
          row := overlay s.rx.row s.rx.filled n line phase
          filled := s.rx.filled + n } } := by
  induction n with
  | zero =>
    have unchanged : overlay s.rx.row s.rx.filled 0 line phase = s.rx.row := by
      funext i
      have empty : ¬(s.rx.filled ≤ i ∧ i < s.rx.filled + 0) := by omega
      simp only [overlay, empty, if_false]
    rw [unchanged]
    rfl
  | succ n ih =>
    have incomplete : s.rx.filled + n + 1 ≠ s.rx.ndtr := by omega
    rw [after, ih (by omega)]
    simp only [receive, store, running, if_neg incomplete, overlay_succ, Bool.false_eq_true,
      if_false, ← Nat.add_assoc]

/-- The receiver just before the interrupt of the transfer in progress. -/
def full (s : Session) (line : Nat → UInt8) (phase : Nat) : Receiver :=
  { s.rx with
    row := overlay s.rx.row s.rx.filled (s.rx.ndtr - s.rx.filled) line phase
    filled := 0 }

@[simp] theorem full_ndtr : (s.full line phase).ndtr = s.rx.ndtr := rfl
@[simp] theorem full_filled : (s.full line phase).filled = 0 := rfl
@[simp] theorem full_recv : (s.full line phase).recv = s.rx.recv := rfl
@[simp] theorem full_rxCnt : (s.full line phase).rxCnt = s.rx.rxCnt := rfl
@[simp] theorem full_halted : (s.full line phase).halted = s.rx.halted := rfl

/-- The byte that completes a transfer runs the interrupt. -/
theorem after_transfer (dma : UartDma) (line : Nat → UInt8) (phase : Nat)
    (running : s.rx.halted = false) (open_ : s.rx.filled < s.rx.ndtr) :
    after dma s line phase (s.rx.ndtr - s.rx.filled) =
      { rx := rtHwSerialDmaRxIsr dma (s.full line phase)
        transfers := s.transfers ++ [copied dma (s.full line phase)] } := by
  obtain ⟨n, count⟩ : ∃ n, s.rx.ndtr - s.rx.filled = n + 1 := ⟨_, (Nat.sub_add_cancel (by omega)).symm⟩
  have complete : s.rx.filled + n + 1 = s.rx.ndtr := by omega
  rw [count, after, after_within running (by omega)]
  simp only [receive, store, running, complete, overlay_succ, full, count, Bool.false_eq_true,
    if_false, if_true]

/-- A session at a transfer boundary with programmed length `length`. -/
structure Boundary (s : Session) (length : Nat) : Prop where
  ndtr : s.rx.ndtr = length
  filled : s.rx.filled = 0
  running : s.rx.halted = false

/-- At a boundary the whole next transfer comes from the line. -/
theorem Boundary.full_row {length : Nat} (start : s.Boundary length) {i : Nat}
    (inside : i < length) : (s.full line phase).row i = line (phase + i) := by
  have bound : i < s.rx.ndtr := by rw [start.ndtr]; exact inside
  simp [full, overlay, start.filled, bound]

theorem Boundary.after {length : Nat} (start : s.Boundary length) (positive : 0 < length) :
    Session.after dma s line phase length =
      { rx := rtHwSerialDmaRxIsr dma (s.full line phase)
        transfers := s.transfers ++ [copied dma (s.full line phase)] } := by
  have run := after_transfer dma line phase start.running
    (by rw [start.ndtr, start.filled]; exact positive)
  rwa [start.ndtr, start.filled, Nat.sub_zero] at run

end Session

/-- The programmed length that the interrupt leaves when it copies nothing. -/
def nextLength (dma : UartDma) (rx : Receiver) : Nat :=
  let i := findHead rx.row dma.recvHead dma.recvSize
  if rx.ndtr = dma.recvSize then
    if i = dma.recvSize then rx.ndtr else rx.ndtr + i
  else
    if i ≠ dma.recvSize ∧ rx.ndtr - i = dma.recvSize then dma.recvSize else rx.ndtr

/-- Without a head at the start of a full frame only the length changes. -/
theorem isr_quiet {dma : UartDma} {rx : Receiver}
    (quiet : ¬(rx.row 0 = dma.recvHead ∧ rx.ndtr = dma.recvSize)) :
    rtHwSerialDmaRxIsr dma rx = { rx with ndtr := nextLength dma rx } := by
  simp only [rtHwSerialDmaRxIsr, if_neg quiet, nextLength, ne_eq, ite_and, ite_not]
  split_ifs <;> rfl

/-- A head at the start of a full frame copies the frame and counts it. -/
theorem isr_copy {dma : UartDma} {rx : Receiver} (target : dma.recvAddr.isSome)
    (aligned : rx.row 0 = dma.recvHead ∧ rx.ndtr = dma.recvSize) :
    rtHwSerialDmaRxIsr dma rx =
      { rx with
        recv := fun i => if i < dma.recvSize then rx.row i else rx.recv i
        rxCnt := rx.rxCnt + 1 } := by
  obtain ⟨address, known⟩ := Option.isSome_iff_exists.mp target
  simp only [rtHwSerialDmaRxIsr, if_pos aligned, known]

/-- With a `recv_addr` the assertion holds. -/
theorem isr_halted {dma : UartDma} (target : dma.recvAddr.isSome) (rx : Receiver) :
    (rtHwSerialDmaRxIsr dma rx).halted = rx.halted := by
  by_cases aligned : rx.row 0 = dma.recvHead ∧ rx.ndtr = dma.recvSize
  · rw [isr_copy target aligned]
  · rw [isr_quiet aligned]

open Session

section CleanLine

variable {dma : UartDma} {s : Session} {line : Nat → UInt8} {phase : Nat}

/-- Two offsets below the frame length that both lead to a frame start are equal. -/
theorem offset_unique {size a b : Nat} (below_a : a < size) (below_b : b < size)
    (start_a : (phase + a) % size = 0) (start_b : (phase + b) % size = 0) : a = b := by
  have same : phase + a ≡ phase + b [MOD size] := start_a.trans start_b.symm
  exact (Nat.ModEq.add_left_cancel' phase same).eq_of_lt_of_lt below_a below_b

/-- On a clean line the search finds the next frame start. -/
theorem findHead_clean (clean : CleanLine dma line) {addr : Nat → UInt8}
    (positive : 0 < dma.recvSize)
    (row : ∀ i, i < dma.recvSize → addr i = line (phase + i)) :
    findHead addr dma.recvHead dma.recvSize < dma.recvSize ∧
      (phase + findHead addr dma.recvHead dma.recvSize) % dma.recvSize = 0 := by
  obtain ⟨offset, inside, starts⟩ : ∃ offset < dma.recvSize, (phase + offset) % dma.recvSize = 0 := by
    have small := Nat.mod_lt phase positive
    refine ⟨(dma.recvSize - phase % dma.recvSize) % dma.recvSize, Nat.mod_lt _ positive, ?_⟩
    rw [Nat.add_mod, Nat.mod_mod, ← Nat.add_mod_mod, Nat.mod_mod, ← Nat.add_mod_mod,
      Nat.mod_mod, Nat.add_mod_mod, Nat.add_sub_cancel' small.le, Nat.mod_self]
  have found : findHead addr dma.recvHead dma.recvSize = offset := by
    refine findHead_eq inside ?_ ?_
    · rw [row _ inside]
      exact (clean _).mpr starts
    · intro j below head
      rw [row j (by omega)] at head
      exact below.ne (offset_unique (by omega) inside ((clean _).mp head) starts)
  rw [found]
  exact ⟨inside, starts⟩

/-- An aligned transfer of the frame length delivers the frame. -/
theorem boundary_aligned (clean : CleanLine dma line) (target : dma.recvAddr.isSome)
    (positive : 0 < dma.recvSize) (start : s.Boundary dma.recvSize)
    {number : Nat} (aligned : phase = number * dma.recvSize) :
    (after dma s line phase dma.recvSize).Boundary dma.recvSize ∧
      (after dma s line phase dma.recvSize).transfers =
        s.transfers ++ [some (frame dma line number)] ∧
      (List.range dma.recvSize).map (after dma s line phase dma.recvSize).rx.recv =
        frame dma line number ∧
      (after dma s line phase dma.recvSize).rx.rxCnt = s.rx.rxCnt + 1 := by
  have row : ∀ i, i < dma.recvSize → (s.full line phase).row i = line (phase + i) :=
    fun i => start.full_row
  have head : (s.full line phase).row 0 = dma.recvHead := by
    rw [row 0 positive]
    exact (clean _).mpr (by simp [aligned])
  have copies : (s.full line phase).row 0 = dma.recvHead ∧
      (s.full line phase).ndtr = dma.recvSize := ⟨head, start.ndtr⟩
  have bytes : (List.range dma.recvSize).map (s.full line phase).row = frame dma line number := by
    refine List.map_congr_left fun i member => ?_
    rw [row i (List.mem_range.mp member), aligned]
  rw [start.after positive, isr_copy target copies]
  refine ⟨⟨start.ndtr, rfl, start.running⟩, ?_, ?_, rfl⟩
  · simp [copied, head, start.ndtr, target, bytes]
  · rw [← bytes]
    refine List.map_congr_left fun i member => ?_
    simp only [if_pos (List.mem_range.mp member)]

/-- What a transfer that copies nothing leaves behind: a boundary of length `next`. -/
structure Silent (s t : Session) (next : Nat) : Prop where
  boundary : t.Boundary next
  transfers : t.transfers = s.transfers ++ [none]
  recv : t.rx.recv = s.rx.recv
  rxCnt : t.rx.rxCnt = s.rx.rxCnt

/-- A transfer without a head at the start of a full frame is silent. -/
theorem boundary_silent (phase : Nat) {length : Nat} (start : s.Boundary length) (positive : 0 < length)
    (quiet : ¬((s.full line phase).row 0 = dma.recvHead ∧ length = dma.recvSize)) :
    Silent s (after dma s line phase length) (nextLength dma (s.full line phase)) := by
  have noCopy : ¬((s.full line phase).row 0 = dma.recvHead ∧
      (s.full line phase).ndtr = dma.recvSize) := by
    rwa [full_ndtr, start.ndtr]
  rw [start.after positive, isr_quiet noCopy]
  refine ⟨⟨rfl, rfl, start.running⟩, ?_, rfl, rfl⟩
  have nothing : copied dma (s.full line phase) = none :=
    if_neg fun holds => noCopy ⟨holds.1, holds.2.1⟩
  rw [nothing]

/-- A misaligned transfer of the frame length lengthens the next one by the
distance to the next frame start. -/
theorem boundary_misaligned (clean : CleanLine dma line) (start : s.Boundary dma.recvSize)
    (positive : 0 < dma.recvSize) (misaligned : phase % dma.recvSize ≠ 0) :
    ∃ extra, 0 < extra ∧ extra < dma.recvSize ∧ (phase + extra) % dma.recvSize = 0 ∧
      Silent s (after dma s line phase dma.recvSize) (dma.recvSize + extra) := by
  have row : ∀ i, i < dma.recvSize → (s.full line phase).row i = line (phase + i) :=
    fun i => start.full_row
  obtain ⟨inside, starts⟩ := findHead_clean clean positive row
  have noHead : (s.full line phase).row 0 ≠ dma.recvHead := by
    rw [row 0 positive]
    exact fun found => misaligned (by simpa using (clean _).mp found)
  have silent := boundary_silent phase start positive (fun holds => noHead holds.1)
  have next : nextLength dma (s.full line phase) =
      dma.recvSize + findHead (s.full line phase).row dma.recvHead dma.recvSize := by
    simp only [nextLength, full_ndtr, start.ndtr, if_true, if_neg inside.ne]
  rw [next] at silent
  refine ⟨_, Nat.pos_of_ne_zero fun zero => misaligned ?_, inside, starts, silent⟩
  rwa [zero, Nat.add_zero] at starts

/-- A lengthened transfer returns to the frame length exactly when it ends on a
frame boundary. -/
theorem boundary_lengthened (clean : CleanLine dma line) (phase : Nat) {extra : Nat} (positive : 0 < extra)
    (inside : extra < dma.recvSize) (start : s.Boundary (dma.recvSize + extra)) :
    Silent s (after dma s line phase (dma.recvSize + extra))
      (if (phase + extra) % dma.recvSize = 0 then dma.recvSize else dma.recvSize + extra) := by
  have row : ∀ i, i < dma.recvSize → (s.full line phase).row i = line (phase + i) :=
    fun i below => start.full_row (by omega)
  obtain ⟨found, starts⟩ := findHead_clean clean (by omega) row
  have unequal : ¬((s.full line phase).row 0 = dma.recvHead ∧
      dma.recvSize + extra = dma.recvSize) := by omega
  have silent := boundary_silent phase start (by omega) unequal
  -- the head stands at `extra` exactly when the transfer ends on a frame boundary
  have ends : findHead (s.full line phase).row dma.recvHead dma.recvSize = extra ↔
      (phase + extra) % dma.recvSize = 0 :=
    ⟨fun same => same ▸ starts, fun aligned => offset_unique found inside starts aligned⟩
  have next : nextLength dma (s.full line phase) =
      if (phase + extra) % dma.recvSize = 0 then dma.recvSize else dma.recvSize + extra := by
    simp only [nextLength, full_ndtr, start.ndtr, ← ends]
    split_ifs <;> omega
  rwa [next] at silent

end CleanLine

end BadmintonRobot.Uart
