import BadmintonRobot.Uart.Transfer

/-!
# Frame alignment from power-on

A receiver that starts at the frame length, at any phase of a clean line, is
aligned after at most two transfers and then delivers every frame. The lengths it
programs on the way never leave its row of `uart_dma_buf`.
-/

namespace BadmintonRobot.Uart

open Session

variable {dma : UartDma} {s : Session} {line : Nat → UInt8} {phase : Nat}

/-- From `alignedAt` bytes on, every transfer copies exactly one whole frame to
`recv_addr` and counts it, in order, starting with the frame numbered `first`. -/
structure DeliversFrom (dma : UartDma) (s : Session) (line : Nat → UInt8)
    (phase alignedAt first : Nat) : Prop where
  position : phase + alignedAt = first * dma.recvSize
  transfers : ∀ k r, r < dma.recvSize →
    (after dma s line phase (alignedAt + (k * dma.recvSize + r))).transfers =
      (after dma s line phase alignedAt).transfers ++
        (List.range k).map fun j => some (frame dma line (first + j))
  rxCnt : ∀ k r, r < dma.recvSize →
    (after dma s line phase (alignedAt + (k * dma.recvSize + r))).rx.rxCnt =
      (after dma s line phase alignedAt).rx.rxCnt + UInt32.ofNat k
  recv : ∀ k r, r < dma.recvSize →
    (List.range dma.recvSize).map
        (after dma s line phase (alignedAt + ((k + 1) * dma.recvSize + r))).rx.recv =
      frame dma line (first + k)
  ndtr : ∀ k r, r < dma.recvSize →
    (after dma s line phase (alignedAt + (k * dma.recvSize + r))).rx.ndtr = dma.recvSize

/-- What holds of an aligned session after `k` whole frames. -/
private structure Delivered (dma : UartDma) (s t : Session) (line : Nat → UInt8)
    (first k : Nat) : Prop where
  boundary : t.Boundary dma.recvSize
  transfers : t.transfers =
    s.transfers ++ (List.range k).map fun j => some (frame dma line (first + j))
  rxCnt : t.rx.rxCnt = s.rx.rxCnt + UInt32.ofNat k
  recv : ∀ last, k = last + 1 →
    (List.range dma.recvSize).map t.rx.recv = frame dma line (first + last)

private theorem delivered_frames (clean : CleanLine dma line) (target : dma.recvAddr.isSome)
    (positive : 0 < dma.recvSize) (start : s.Boundary dma.recvSize) {first : Nat}
    (aligned : phase = first * dma.recvSize) (k : Nat) :
    Delivered dma s (after dma s line phase (k * dma.recvSize)) line first k := by
  induction k with
  | zero =>
    rw [Nat.zero_mul]
    exact ⟨start, by simp [after], by simp [after], fun _ impossible => by omega⟩
  | succ k ih =>
    have position : phase + k * dma.recvSize = (first + k) * dma.recvSize := by
      rw [aligned, Nat.add_mul]
    obtain ⟨boundary, transfers, recv, rxCnt⟩ :=
      boundary_aligned clean target positive ih.boundary position
    rw [Nat.succ_mul, after_add]
    refine ⟨boundary, ?_, ?_, ?_⟩
    · rw [transfers, ih.transfers, List.range_succ, List.map_append, List.append_assoc]
      rfl
    · rw [rxCnt, ih.rxCnt, UInt32.ofNat_add, ← UInt32.add_assoc]
      rfl
    · intro last same
      obtain rfl : k = last := by omega
      exact recv

/-- An aligned boundary delivers every later frame. -/
theorem delivers_of_boundary (clean : CleanLine dma line) (target : dma.recvAddr.isSome)
    (positive : 0 < dma.recvSize) {alignedAt first : Nat}
    (start : (after dma s line phase alignedAt).Boundary dma.recvSize)
    (position : phase + alignedAt = first * dma.recvSize) :
    DeliversFrom dma s line phase alignedAt first := by
  have whole := delivered_frames clean target positive start position
  have inside : ∀ k r, r < dma.recvSize →
      let t := after dma s line phase (alignedAt + (k * dma.recvSize + r))
      let u := after dma (after dma s line phase alignedAt) line (phase + alignedAt)
        (k * dma.recvSize)
      t.transfers = u.transfers ∧ t.rx.rxCnt = u.rx.rxCnt ∧ t.rx.recv = u.rx.recv ∧
        t.rx.ndtr = u.rx.ndtr := by
    intro k r short
    rw [after_add, after_add, after_within (whole k).boundary.running
      (by rw [(whole k).boundary.filled, (whole k).boundary.ndtr]; omega)]
    exact ⟨rfl, rfl, rfl, rfl⟩
  refine ⟨position, fun k r short => ?_, fun k r short => ?_, fun k r short => ?_,
    fun k r short => ?_⟩
  · exact (inside k r short).1.trans (whole k).transfers
  · exact (inside k r short).2.1.trans (whole k).rxCnt
  · rw [(inside (k + 1) r short).2.2.1]
    exact (whole (k + 1)).recv k rfl
  · exact (inside k r short).2.2.2.trans (whole k).boundary.ndtr

/-- The programmed length stays within one frame of the frame length, and the DMA
stays inside the transfer. -/
structure InRow (dma : UartDma) (rx : Receiver) : Prop where
  lower : dma.recvSize ≤ rx.ndtr
  upper : rx.ndtr ≤ 2 * dma.recvSize - 1
  filled : rx.filled < rx.ndtr

theorem isr_inRow {rx : Receiver} (positive : 0 < dma.recvSize) (inRow : InRow dma rx)
    (restarted : rx.filled = 0) : InRow dma (rtHwSerialDmaRxIsr dma rx) := by
  by_cases aligned : rx.row 0 = dma.recvHead ∧ rx.ndtr = dma.recvSize
  · simp only [rtHwSerialDmaRxIsr, if_pos aligned]
    split <;> exact ⟨inRow.lower, inRow.upper, inRow.filled⟩
  · have bound := findHead_le rx.row dma.recvHead dma.recvSize
    have lower := inRow.lower
    have upper := inRow.upper
    rw [isr_quiet aligned]
    constructor <;> simp only [nextLength, restarted] <;> split_ifs <;> omega

theorem receive_inRow {byte : UInt8} (positive : 0 < dma.recvSize) (inRow : InRow dma s.rx) :
    InRow dma (receive dma s byte).rx := by
  have filled := inRow.filled
  unfold receive
  split_ifs with halted complete
  · exact inRow
  · refine isr_inRow positive ⟨inRow.lower, inRow.upper, ?_⟩ rfl
    exact Nat.lt_of_le_of_lt (Nat.zero_le _) filled
  · exact ⟨inRow.lower, inRow.upper, by simp only [store]; omega⟩

/-- No byte sequence makes the DMA leave its row. -/
theorem after_inRow (line : Nat → UInt8) (phase : Nat) (positive : 0 < dma.recvSize)
    (inRow : InRow dma s.rx) (n : Nat) :
    InRow dma (after dma s line phase n).rx := by
  induction n with
  | zero => exact inRow
  | succ n ih => exact receive_inRow positive ih

theorem Session.Boundary.inRow (start : s.Boundary dma.recvSize) (positive : 0 < dma.recvSize) :
    InRow dma s.rx :=
  ⟨start.ndtr.ge, by rw [start.ndtr]; omega, by rw [start.ndtr, start.filled]; exact positive⟩

/-- Nothing has been copied: the transfers so far were all silent, at most `lead`
of them. -/
structure Untouched (s t : Session) (lead : Nat) : Prop where
  transfers : ∃ m ≤ lead, t.transfers = s.transfers ++ List.replicate m none
  recv : t.rx.recv = s.rx.recv
  rxCnt : t.rx.rxCnt = s.rx.rxCnt

theorem Untouched.mono {t : Session} {m n : Nat} (untouched : Untouched s t m) (more : m ≤ n) :
    Untouched s t n :=
  let ⟨k, bound, same⟩ := untouched.transfers
  ⟨⟨k, bound.trans more, same⟩, untouched.recv, untouched.rxCnt⟩

/-- A silent transfer, up to any byte before its end, touches nothing. -/
theorem Silent.untouched {length next lead n : Nat} {t : Session} (start : t.Boundary length)
    (before : Untouched s t lead)
    (silent : Silent t (after dma t line phase length) next) (bound : n ≤ length) :
    Untouched s (after dma t line phase n) (lead + 1) := by
  obtain ⟨m, few, transfers⟩ := before.transfers
  by_cases short : n < length
  · rw [after_within start.running (by rw [start.filled, start.ndtr]; omega)]
    exact ⟨⟨m, by omega, transfers⟩, before.recv, before.rxCnt⟩
  · obtain rfl : n = length := by omega
    refine ⟨⟨m + 1, by omega, ?_⟩, silent.recv.trans before.recv, silent.rxCnt.trans before.rxCnt⟩
    rw [silent.transfers, transfers, List.append_assoc, List.replicate_succ']

/-- From a boundary at the frame length, at most two silent transfers come before
the aligned ones. -/
theorem boundary_aligns (clean : CleanLine dma line) (target : dma.recvAddr.isSome)
    (positive : 0 < dma.recvSize) (start : s.Boundary dma.recvSize) :
    ∃ lead ≤ 2, ∃ alignedAt first,
      (∀ n ≤ alignedAt, Untouched s (after dma s line phase n) lead) ∧
      (after dma s line phase alignedAt).transfers =
        s.transfers ++ List.replicate lead none ∧
      DeliversFrom dma s line phase alignedAt first := by
  have clear : Untouched s s 0 := ⟨⟨0, le_rfl, by simp⟩, rfl, rfl⟩
  by_cases aligned : phase % dma.recvSize = 0
  · -- already aligned: no transfer is lost
    refine ⟨0, by omega, 0, phase / dma.recvSize, ?_, by simp [after], ?_⟩
    · intro n bound
      obtain rfl : n = 0 := by omega
      exact clear
    · refine delivers_of_boundary clean target positive start ?_
      rw [Nat.add_zero, Nat.div_mul_cancel (Nat.dvd_of_mod_eq_zero aligned)]
  · -- one transfer finds the head, the lengthened one ends on a frame boundary
    obtain ⟨extra, more, less, ends, first⟩ := boundary_misaligned clean start positive aligned
    have again : (phase + dma.recvSize + extra) % dma.recvSize = 0 := by
      rw [Nat.add_right_comm, Nat.add_mod_right, ends]
    have second := boundary_lengthened clean (phase + dma.recvSize) more less first.boundary
    rw [if_pos again] at second
    have reached : after dma s line phase (dma.recvSize + (dma.recvSize + extra)) =
        after dma (after dma s line phase dma.recvSize) line (phase + dma.recvSize)
          (dma.recvSize + extra) := after_add ..
    refine ⟨2, le_rfl, dma.recvSize + (dma.recvSize + extra),
      (phase + dma.recvSize + extra) / dma.recvSize + 1, ?_, ?_, ?_⟩
    · intro n bound
      by_cases early : n ≤ dma.recvSize
      · exact (Silent.untouched start clear first early).mono (by omega)
      · obtain ⟨rest, rfl⟩ := Nat.exists_eq_add_of_le (Nat.le_of_not_le early)
        rw [after_add]
        exact Silent.untouched first.boundary (Silent.untouched start clear first le_rfl)
          second (by omega)
    · rw [reached, second.transfers, first.transfers, List.append_assoc]
      rfl
    · refine delivers_of_boundary clean target positive (reached ▸ second.boundary) ?_
      rw [Nat.succ_mul, Nat.div_mul_cancel (Nat.dvd_of_mod_eq_zero again)]
      omega

/-- From the frame length, at every phase of a clean line, at most two transfers
copy nothing and every later one delivers one whole frame, none skipped. The
programmed length stays between one frame and two frames less a byte, so the next
byte is always stored inside the row. -/
theorem frame_alignment (dma : UartDma) (target : dma.recvAddr.isSome)
    (atLeastTwo : 2 ≤ dma.recvSize) (fits : 2 * dma.recvSize - 1 ≤ rowSize)
    (line : Nat → UInt8) (clean : CleanLine dma line) (phase : Nat)
    (s : Session) (start : s.Boundary dma.recvSize) :
    (∃ lead ≤ 2, ∃ alignedAt first,
      (∀ n ≤ alignedAt, Untouched s (after dma s line phase n) lead) ∧
      (after dma s line phase alignedAt).transfers =
        s.transfers ++ List.replicate lead none ∧
      DeliversFrom dma s line phase alignedAt first) ∧
    ∀ n, dma.recvSize ≤ (after dma s line phase n).rx.ndtr ∧
      (after dma s line phase n).rx.ndtr ≤ 2 * dma.recvSize - 1 ∧
      (after dma s line phase n).rx.filled < (after dma s line phase n).rx.ndtr ∧
      (after dma s line phase n).rx.filled < rowSize := by
  have positive : 0 < dma.recvSize := by omega
  refine ⟨boundary_aligns clean target positive start, fun n => ?_⟩
  obtain ⟨lower, upper, filled⟩ := after_inRow line phase positive (start.inRow positive) n
  exact ⟨lower, upper, filled, by omega⟩

/-- The motor port at power-on, on a line of frames with a zero payload, heard from
the middle of a frame. -/
theorem frame_alignment_motorPort :
    let dma : UartDma := ⟨1, 2, 5, 8, some .mt2, 0x55⟩
    let line : Nat → UInt8 := fun n => if n % 8 = 0 then 0x55 else 0
    dma ∈ uartDmas ∧ CleanLine dma line ∧
      ∃ lead ≤ 2, ∃ alignedAt first,
        DeliversFrom dma (powerOn dma (fun _ => 0) (fun _ => 0)) line 3 alignedAt first := by
  intro dma line
  have clean : CleanLine dma line := by
    intro n
    by_cases start : n % 8 = 0 <;> simp [dma, line, start]
  obtain ⟨⟨lead, few, alignedAt, first, _, _, delivers⟩, _⟩ :=
    frame_alignment dma rfl (by decide) (by decide) line clean 3
      (powerOn dma (fun _ => 0) (fun _ => 0)) ⟨rfl, rfl, rfl⟩
  exact ⟨by decide, clean, lead, few, alignedAt, first, delivers⟩

end BadmintonRobot.Uart
