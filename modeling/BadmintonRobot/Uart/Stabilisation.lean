import Mathlib.Algebra.Order.Ring.Int
import Mathlib.Data.Int.GCD
import Mathlib.Tactic.Ring
import BadmintonRobot.Uart.Alignment

/-!
# Recovery after line noise

Noise can leave a receiver with a lengthened transfer that does not fit the phase
of the line. Every further transfer then moves the phase by the surplus, and the
interrupt goes back to the frame length only when the transfer happens to end on a
frame boundary. Whether it ever does is a question of divisibility, which decides
exactly when a receiver recovers.
-/

namespace BadmintonRobot.Uart

open Session

variable {dma : UartDma} {s : Session} {line : Nat → UInt8} {phase : Nat}

/-- The receiver becomes aligned after finitely many bytes and delivers every
later frame. -/
def Stabilises (dma : UartDma) (s : Session) (line : Nat → UInt8) (phase : Nat) : Prop :=
  ∃ alignedAt first, DeliversFrom dma s line phase alignedAt first

/-- The bytes of the transfer that is open when the clean line begins: what the
noise left in the row, then the first clean bytes. -/
def straddling (s : Session) (line : Nat → UInt8) (phase : Nat) : List UInt8 :=
  (List.range s.rx.filled).map s.rx.row ++
    (List.range (s.rx.ndtr - s.rx.filled)).map fun n => line (phase + n)

/-- The receiver recovers: it has a `recv_addr`, and either the open transfer brings
the length back to one frame, or the surplus it leaves can reach a frame boundary
from the phase at which it ends. -/
def Recoverable (dma : UartDma) (s : Session) (line : Nat → UInt8) (phase : Nat) : Prop :=
  let head := ((straddling s line phase).take dma.recvSize).idxOf dma.recvHead
  let next := phase + (s.rx.ndtr - s.rx.filled)
  dma.recvAddr.isSome ∧
    if s.rx.ndtr = dma.recvSize then
      head = 0 ∨ head = dma.recvSize ∨ Nat.gcd head dma.recvSize ∣ next
    else
      s.rx.ndtr = dma.recvSize + head ∨ Nat.gcd (s.rx.ndtr - dma.recvSize) dma.recvSize ∣ next

instance (dma : UartDma) (s : Session) (line : Nat → UInt8) (phase : Nat) :
    Decidable (Recoverable dma s line phase) :=
  inferInstanceAs (Decidable (_ ∧ ite _ _ _))

/-- A multiple of the greatest common divisor reaches a multiple of the modulus in
steps of the other number. -/
theorem exists_steps_of_gcd_dvd {size extra position : Nat} (positive : 0 < size)
    (divides : Nat.gcd extra size ∣ position) :
    ∃ steps, (position + (steps + 1) * extra) % size = 0 := by
  obtain ⟨x, y, combination⟩ := Int.gcd_dvd_iff.mp
    (show Int.gcd (extra : Int) (size : Int) ∣ position by simpa using divides)
  have nonneg : 0 ≤ (-x - 1) % (size : Int) := Int.emod_nonneg _ (by omega)
  refine ⟨((-x - 1) % (size : Int)).toNat, Nat.mod_eq_zero_of_dvd ?_⟩
  rw [← Int.natCast_dvd_natCast]
  have quotient := Int.emod_add_mul_ediv (-x - 1) (size : Int)
  refine ⟨y - ((-x - 1) / (size : Int)) * extra, ?_⟩
  push_cast [Int.toNat_of_nonneg nonneg]
  rw [combination, eq_sub_of_add_eq quotient]
  ring

namespace DeliversFrom

/-- Delivery after some bytes is delivery. -/
theorem of_after {n alignedAt first : Nat}
    (delivers : DeliversFrom dma (after dma s line phase n) line (phase + n) alignedAt first) :
    DeliversFrom dma s line phase (n + alignedAt) first := by
  have shift : ∀ m, after dma s line phase (n + alignedAt + m) =
      after dma (after dma s line phase n) line (phase + n) (alignedAt + m) := by
    intro m
    rw [Nat.add_assoc, after_add]
  have base := shift 0
  rw [Nat.add_zero, Nat.add_zero] at base
  refine ⟨?_, ?_, ?_, ?_, ?_⟩
  · rw [← delivers.position, Nat.add_assoc]
  · intro k r short
    rw [shift, base]
    exact delivers.transfers k r short
  · intro k r short
    rw [shift, base]
    exact delivers.rxCnt k r short
  · intro k r short
    rw [shift]
    exact delivers.recv k r short
  · intro k r short
    rw [shift]
    exact delivers.ndtr k r short

end DeliversFrom

theorem Stabilises.of_after {n : Nat}
    (later : Stabilises dma (after dma s line phase n) line (phase + n)) :
    Stabilises dma s line phase :=
  let ⟨alignedAt, first, delivers⟩ := later
  ⟨n + alignedAt, first, delivers.of_after⟩

theorem boundary_stabilises (clean : CleanLine dma line) (target : dma.recvAddr.isSome)
    (positive : 0 < dma.recvSize) (start : s.Boundary dma.recvSize) :
    Stabilises dma s line phase :=
  let ⟨_, _, alignedAt, first, _, _, delivers⟩ := boundary_aligns clean target positive start
  ⟨alignedAt, first, delivers⟩

/-- A lengthened receiver recovers when some number of steps of the surplus ends on
a frame boundary. -/
theorem lengthened_stabilises (clean : CleanLine dma line) (target : dma.recvAddr.isSome)
    {extra : Nat} (positive : 0 < extra) (inside : extra < dma.recvSize)
    (start : s.Boundary (dma.recvSize + extra)) (steps : Nat)
    (reaches : (phase + (steps + 1) * extra) % dma.recvSize = 0) :
    Stabilises dma s line phase := by
  -- induction on the transfers still needed; each one moves the phase by the surplus
  induction steps generalizing s phase with
  | zero =>
    have silent := boundary_lengthened clean phase positive inside start
    rw [Nat.zero_add, Nat.one_mul] at reaches
    rw [if_pos reaches] at silent
    exact (boundary_stabilises clean target (by omega) silent.boundary).of_after
  | succ steps ih =>
    have silent := boundary_lengthened clean phase positive inside start
    by_cases ends : (phase + extra) % dma.recvSize = 0
    · rw [if_pos ends] at silent
      exact (boundary_stabilises clean target (by omega) silent.boundary).of_after
    · rw [if_neg ends] at silent
      refine (ih silent.boundary ?_).of_after
      have moved : phase + (dma.recvSize + extra) + (steps + 1) * extra =
          phase + (steps + 1 + 1) * extra + dma.recvSize := by ring
      rw [moved, Nat.add_mod_right, reaches]

/-- A lengthened receiver whose phase the surplus cannot bring to a frame boundary
keeps its length for ever and delivers nothing. -/
theorem lengthened_stuck (clean : CleanLine dma line) {extra : Nat} (positive : 0 < extra)
    (inside : extra < dma.recvSize) (start : s.Boundary (dma.recvSize + extra))
    (phase : Nat) (misses : ¬Nat.gcd extra dma.recvSize ∣ phase) (n : Nat) :
    (after dma s line phase n).rx.ndtr = dma.recvSize + extra ∧
      (after dma s line phase n).rx.recv = s.rx.recv ∧
      (after dma s line phase n).rx.rxCnt = s.rx.rxCnt := by
  induction n using Nat.strong_induction_on generalizing s phase with
  | h n ih =>
    by_cases short : n < dma.recvSize + extra
    · rw [after_within start.running (by rw [start.filled, start.ndtr]; omega)]
      exact ⟨start.ndtr, rfl, rfl⟩
    · obtain ⟨rest, rfl⟩ := Nat.exists_eq_add_of_le (Nat.le_of_not_lt short)
      have silent := boundary_lengthened clean phase positive inside start
      have divides : Nat.gcd extra dma.recvSize ∣ dma.recvSize + extra :=
        Nat.dvd_add (Nat.gcd_dvd_right ..) (Nat.gcd_dvd_left ..)
      have off : (phase + extra) % dma.recvSize ≠ 0 := by
        intro ends
        have whole := (Nat.gcd_dvd_right extra dma.recvSize).trans (Nat.dvd_of_mod_eq_zero ends)
        exact misses ((Nat.dvd_add_left (Nat.gcd_dvd_left ..)).mp whole)
      rw [if_neg off] at silent
      rw [after_add, ← silent.recv, ← silent.rxCnt]
      refine ih rest (by omega) silent.boundary _ ?_
      rwa [Nat.dvd_add_left divides]

/-- A receiver that stabilises is at the frame length again and again. -/
theorem Stabilises.ndtr_later (positive : 0 < dma.recvSize)
    (stable : Stabilises dma s line phase) (n : Nat) :
    ∃ m, (after dma s line phase (n + m)).rx.ndtr = dma.recvSize := by
  obtain ⟨alignedAt, first, delivers⟩ := stable
  have far : n ≤ n * dma.recvSize := Nat.le_mul_of_pos_right n positive
  refine ⟨alignedAt + n * dma.recvSize - n, ?_⟩
  have position : n + (alignedAt + n * dma.recvSize - n) =
      alignedAt + (n * dma.recvSize + 0) := by omega
  rw [position]
  exact delivers.ndtr n 0 positive

/-- From a lengthened boundary, recovery is a matter of divisibility. -/
theorem stabilises_iff_of_lengthened (clean : CleanLine dma line) (target : dma.recvAddr.isSome)
    {n extra : Nat} (positive : 0 < extra) (inside : extra < dma.recvSize)
    (reached : (after dma s line phase n).Boundary (dma.recvSize + extra)) :
    Stabilises dma s line phase ↔ Nat.gcd extra dma.recvSize ∣ phase + n := by
  constructor
  · intro stable
    by_contra misses
    obtain ⟨m, back⟩ := stable.ndtr_later (by omega) n
    have kept := (lengthened_stuck clean positive inside reached _ misses m).1
    rw [after_add, kept] at back
    omega
  · intro divides
    obtain ⟨steps, reaches⟩ := exists_steps_of_gcd_dvd (by omega) divides
    exact (lengthened_stabilises clean target positive inside reached steps reaches).of_after

section Reachable

/-- Noise keeps the receiver in its row. -/
theorem feed_inRow (positive : 0 < dma.recvSize) (inRow : InRow dma s.rx) (bytes : List UInt8) :
    InRow dma (feed dma s bytes).rx := by
  induction bytes generalizing s with
  | nil => exact inRow
  | cons byte bytes ih => exact ih (receive_inRow positive inRow)

theorem receive_running (target : dma.recvAddr.isSome) (running : s.rx.halted = false)
    (byte : UInt8) : (receive dma s byte).rx.halted = false := by
  unfold receive
  rw [if_neg (by simp [running])]
  split_ifs with complete
  · exact (isr_halted target _).trans running
  · exact running

/-- A receiver with a `recv_addr` never runs into `assert_failed`. -/
theorem feed_running (target : dma.recvAddr.isSome) (running : s.rx.halted = false)
    (bytes : List UInt8) : (feed dma s bytes).rx.halted = false := by
  induction bytes generalizing s with
  | nil => exact running
  | cons byte bytes ih => exact ih (receive_running target running byte)

/-- Without a `recv_addr` no transfer copies a frame. -/
theorem after_noTarget (noTarget : dma.recvAddr = none) (s : Session) (line : Nat → UInt8)
    (phase n : Nat) :
    ∃ m, (after dma s line phase n).transfers = s.transfers ++ List.replicate m none := by
  induction n with
  | zero => exact ⟨0, by simp [after]⟩
  | succ n ih =>
    obtain ⟨m, same⟩ := ih
    have nothing : ∀ rx, copied dma rx = none := fun rx => by simp [copied, noTarget]
    simp only [after, receive, nothing]
    split_ifs
    · exact ⟨m, same⟩
    · exact ⟨m + 1, by rw [same, List.append_assoc, List.replicate_succ']⟩
    · exact ⟨m, same⟩

theorem not_stabilises_noTarget (noTarget : dma.recvAddr = none) (positive : 0 < dma.recvSize) :
    ¬Stabilises dma s line phase := by
  rintro ⟨alignedAt, first, delivers⟩
  have one := delivers.transfers 1 0 positive
  rw [after_add] at one
  obtain ⟨m, same⟩ := after_noTarget noTarget (after dma s line phase alignedAt) line
    (phase + alignedAt) (1 * dma.recvSize + 0)
  rw [same, List.append_cancel_left_eq] at one
  have member : some (frame dma line (first + 0)) ∈ List.replicate m none := by
    rw [one]
    simp
  simpa using List.eq_of_mem_replicate member

end Reachable

section OpenTransfer

private theorem scanHead_eq_idxOf (addr : Nat → UInt8) (head : UInt8) (count i : Nat) :
    scanHead addr head count i = i + ((List.range' i count).map addr).idxOf head := by
  induction count generalizing i with
  | zero => rfl
  | succ count ih =>
    rw [scanHead, List.range'_succ, List.map_cons, List.idxOf_cons]
    by_cases found : addr i = head
    · simp [found]
    · rw [if_neg found, ih, beq_eq_false_iff_ne.mpr found, cond_false]
      omega

/-- The search loop is the index of the first head. -/
theorem findHead_eq_idxOf (addr : Nat → UInt8) (head : UInt8) (fSize : Nat) :
    findHead addr head fSize = ((List.range fSize).map addr).idxOf head := by
  rw [findHead, scanHead_eq_idxOf, Nat.zero_add, List.range_eq_range']

theorem straddling_eq (line : Nat → UInt8) (phase : Nat) (inRow : InRow dma s.rx) :
    straddling s line phase = (List.range s.rx.ndtr).map (s.full line phase).row := by
  have filled := inRow.filled
  have whole : s.rx.ndtr = s.rx.filled + (s.rx.ndtr - s.rx.filled) := by omega
  rw [straddling]
  conv_rhs => rw [whole, List.range_add, List.map_append, List.map_map]
  congr 1
  · refine List.map_congr_left fun i member => ?_
    have below := List.mem_range.mp member
    simp only [full, overlay]
    rw [if_neg (by omega)]
  · refine List.map_congr_left fun i member => ?_
    have below := List.mem_range.mp member
    simp only [full, overlay, Function.comp]
    rw [if_pos (by omega), Nat.add_sub_cancel_left]

/-- The search of the open transfer, in terms of the bytes on the line. -/
theorem findHead_straddling (line : Nat → UInt8) (phase : Nat) (inRow : InRow dma s.rx) :
    findHead (s.full line phase).row dma.recvHead dma.recvSize =
      ((straddling s line phase).take dma.recvSize).idxOf dma.recvHead := by
  rw [straddling_eq line phase inRow, ← List.map_take, List.take_range,
    Nat.min_eq_left inRow.lower, findHead_eq_idxOf]

/-- The open transfer ends at a boundary whose length depends on its first head. -/
theorem open_transfer (target : dma.recvAddr.isSome) (running : s.rx.halted = false)
    (line : Nat → UInt8) (phase : Nat) (positive : 0 < dma.recvSize) (inRow : InRow dma s.rx) :
    let head := ((straddling s line phase).take dma.recvSize).idxOf dma.recvHead
    head ≤ dma.recvSize ∧
      (after dma s line phase (s.rx.ndtr - s.rx.filled)).Boundary
        (if s.rx.ndtr = dma.recvSize then
          if head = dma.recvSize then dma.recvSize else dma.recvSize + head
        else if s.rx.ndtr = dma.recvSize + head then dma.recvSize else s.rx.ndtr) := by
  have lower := inRow.lower
  have upper := inRow.upper
  rw [← findHead_straddling line phase inRow]
  have bound := findHead_le (s.full line phase).row dma.recvHead dma.recvSize
  refine ⟨bound, ?_⟩
  rw [after_transfer dma line phase running inRow.filled]
  by_cases aligned : (s.full line phase).row 0 = dma.recvHead ∧
      (s.full line phase).ndtr = dma.recvSize
  · -- a head at the start: the frame is copied and the length stays
    have first : findHead (s.full line phase).row dma.recvHead dma.recvSize = 0 :=
      findHead_eq positive aligned.1 (by omega)
    have length : s.rx.ndtr = dma.recvSize := aligned.2
    rw [isr_copy target aligned, first, if_pos length, if_neg positive.ne]
    exact ⟨aligned.2, rfl, running⟩
  · rw [isr_quiet aligned]
    refine ⟨?_, rfl, running⟩
    change nextLength dma (s.full line phase) = _
    dsimp only [nextLength]
    generalize findHead (s.full line phase).row dma.recvHead dma.recvSize = head at bound ⊢
    obtain ⟨length, same⟩ : ∃ length, (s.full line phase).ndtr = length := ⟨_, rfl⟩
    have known : s.rx.ndtr = length := same
    rw [same, known]
    split_ifs <;> omega

end OpenTransfer

/-- Four stray bytes, a stray head and three more bytes leave the motor port with a
surplus of four. A clean line that starts one byte into a frame is then never
delivered. -/
theorem not_stabilises_after_noise :
    let dma : UartDma := ⟨1, 2, 5, 8, some .mt2, 0x55⟩
    let s := feed dma (powerOn dma (fun _ => 0) (fun _ => 0)) [0, 0, 0, 0, 0x55, 0, 0, 0]
    let line : Nat → UInt8 := fun n => if n % 8 = 0 then 0x55 else 0
    dma ∈ uartDmas ∧ CleanLine dma line ∧ ¬Stabilises dma s line 1 ∧
      ∀ n, (after dma s line 1 n).rx.rxCnt = 0 := by
  intro dma s line
  have clean : CleanLine dma line := by
    intro n
    by_cases start : n % 8 = 0 <;> simp [dma, line, start]
  have lengthened : s.Boundary (dma.recvSize + 4) := ⟨by decide, by decide, by decide⟩
  have stuck := lengthened_stuck clean (by decide) (by decide) lengthened 1 (by decide)
  refine ⟨by decide, clean, fun stable => ?_, fun n => (stuck n).2.2.trans (by decide)⟩
  obtain ⟨n, back⟩ := stable.ndtr_later (by decide) 0
  exact absurd ((stuck _).1.symm.trans back) (by decide)

/-- On every configured port, after every noise, the receiver delivers the clean
line from some frame on exactly when it is recoverable at the end of the noise. -/
theorem stabilises_iff_recoverable (dma : UartDma) (configured : dma ∈ uartDmas)
    (row recv : Nat → UInt8) (noise : List UInt8) (line : Nat → UInt8)
    (clean : CleanLine dma line) (phase : Nat) :
    Stabilises dma (feed dma (powerOn dma row recv) noise) line phase ↔
      Recoverable dma (feed dma (powerOn dma row recv) noise) line phase := by
  have positive : 0 < dma.recvSize := by
    have sizes : ∀ dma ∈ uartDmas, 0 < dma.recvSize := by decide
    exact sizes dma configured
  have fresh : (powerOn dma row recv).Boundary dma.recvSize := ⟨rfl, rfl, rfl⟩
  have inRow := feed_inRow positive (fresh.inRow positive) noise
  set s := feed dma (powerOn dma row recv) noise with reached
  by_cases target : dma.recvAddr.isSome
  · have running : s.rx.halted = false := feed_running target rfl noise
    obtain ⟨bound, boundary⟩ := open_transfer target running line phase positive inRow
    simp only [Recoverable, target, true_and]
    set head := ((straddling s line phase).take dma.recvSize).idxOf dma.recvHead
    have lower := inRow.lower
    have upper := inRow.upper
    by_cases length : s.rx.ndtr = dma.recvSize
    · rw [if_pos length] at boundary ⊢
      by_cases returns : head = 0 ∨ head = dma.recvSize
      · have back : (if head = dma.recvSize then dma.recvSize else dma.recvSize + head) =
            dma.recvSize := by split_ifs <;> omega
        rw [back] at boundary
        have stable := (boundary_stabilises clean target positive boundary).of_after
        exact iff_of_true stable (by tauto)
      · rw [if_neg (by tauto)] at boundary
        rw [stabilises_iff_of_lengthened clean target (by omega) (by omega) boundary]
        tauto
    · rw [if_neg length] at boundary ⊢
      by_cases returns : s.rx.ndtr = dma.recvSize + head
      · rw [if_pos returns] at boundary
        have stable := (boundary_stabilises clean target positive boundary).of_after
        exact iff_of_true stable (Or.inl returns)
      · rw [if_neg returns] at boundary
        obtain ⟨extra, surplus⟩ := Nat.exists_eq_add_of_le lower
        have lengthened : (after dma s line phase (s.rx.ndtr - s.rx.filled)).Boundary
            (dma.recvSize + extra) := surplus ▸ boundary
        rw [stabilises_iff_of_lengthened clean target (by omega) (by omega) lengthened]
        have same : s.rx.ndtr - dma.recvSize = extra := by omega
        rw [same]
        tauto
  · have noTarget : dma.recvAddr = none := by simpa using target
    refine iff_of_false (not_stabilises_noTarget noTarget positive) ?_
    simp only [Recoverable, target, false_and, not_false_eq_true, Bool.false_eq_true]

/-- The same noise, with the clean line starting on a frame boundary: the surplus of
four returns to the frame length after two more transfers. -/
theorem stabilises_after_noise :
    let dma : UartDma := ⟨1, 2, 5, 8, some .mt2, 0x55⟩
    let s := feed dma (powerOn dma (fun _ => 0) (fun _ => 0)) [0, 0, 0, 0, 0x55, 0, 0, 0]
    let line : Nat → UInt8 := fun n => if n % 8 = 0 then 0x55 else 0
    dma ∈ uartDmas ∧ CleanLine dma line ∧ Stabilises dma s line 0 := by
  intro dma s line
  have clean : CleanLine dma line := by
    intro n
    by_cases start : n % 8 = 0 <;> simp [dma, line, start]
  have configured : dma ∈ uartDmas := by decide
  refine ⟨configured, clean, ?_⟩
  exact (stabilises_iff_recoverable dma configured (fun _ => 0) (fun _ => 0)
    [0, 0, 0, 0, 0x55, 0, 0, 0] line clean 0).mpr (by decide)

end BadmintonRobot.Uart
