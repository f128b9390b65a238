import Mathlib.Data.List.Basic
import Mathlib.Logic.Function.Basic

/-!
# The UART receive path

`uart_dmas` configures five serial ports. Each one receives through a circular
DMA stream whose transfer-complete interrupt runs `rt_hw_serial_dma_rx_isr`.
`Receiver` is one stream with its row of `uart_dma_buf`; `Session.receive` is the
arrival of one byte. The interrupt finishes before the next byte arrives, so a
session is a fold over the bytes on the line.
-/

namespace BadmintonRobot.Uart

/-- The objects that `recv_addr` points to in `uart_dmas`. -/
inductive RecvTarget where
  | mt2
  | handleDataY
  | laserRecv1
  | handleDataX
deriving DecidableEq, Repr

/-- The fields of `uart_dma_t` that the receive path reads. The counter `rx_cnt`
changes, so it is part of `Receiver`. -/
structure UartDma where
  uartx : Nat
  rxDmax : Nat
  rxStreamx : Nat
  recvSize : Nat
  recvAddr : Option RecvTarget
  recvHead : UInt8
deriving DecidableEq, Repr

/-- The table `uart_dmas`, row by row. -/
def uartDmas : List UartDma :=
  [ ⟨1, 2, 5, 8, some .mt2, 0x55⟩,
    ⟨2, 1, 5, 6, none, 0x55⟩,
    ⟨3, 1, 1, 9, some .handleDataY, 0xc8⟩,
    ⟨4, 1, 2, 5, some .laserRecv1, 0xbb⟩,
    ⟨6, 2, 2, 9, some .handleDataX, 0xc8⟩ ]

/-- The lookup `_get_uart_dma`. -/
def getUartDma (uartx : Nat) : Option UartDma :=
  uartDmas.find? fun dma => dma.uartx = uartx

/-- The size of one row of `uart_dma_buf`. -/
def rowSize : Nat := 20

/-- One receive stream. `ndtr` is the programmed transfer length, which is what
the register reads when a transfer completes in circular mode. `halted` is the
endless loop of `assert_failed`, entered with the stream disabled. -/
structure Receiver where
  ndtr : Nat
  filled : Nat
  row : Nat → UInt8
  recv : Nat → UInt8
  rxCnt : UInt32
  halted : Bool

/-- The search loop of the interrupt: at most `count` further positions from `i`. -/
def scanHead (addr : Nat → UInt8) (head : UInt8) : (count i : Nat) → Nat
  | 0, i => i
  | count + 1, i => if addr i = head then i else scanHead addr head count (i + 1)

/-- The value of `i` after the loop that looks for the frame head. -/
def findHead (addr : Nat → UInt8) (head : UInt8) (fSize : Nat) : Nat :=
  scanHead addr head fSize 0

/-- The interrupt body `rt_hw_serial_dma_rx_isr`. -/
def rtHwSerialDmaRxIsr (dma : UartDma) (rx : Receiver) : Receiver :=
  let fSize := dma.recvSize
  if rx.row 0 = dma.recvHead ∧ rx.ndtr = fSize then
    match dma.recvAddr with
    | none => { rx with halted := true }
    | some _ =>
      -- aligned: copy the frame to `recv_addr` and count it
      { rx with
        recv := fun i => if i < fSize then rx.row i else rx.recv i
        rxCnt := rx.rxCnt + 1 }
  else if rx.ndtr = fSize then
    -- first misaligned transfer: lengthen the next one by the head's position
    let i := findHead rx.row dma.recvHead fSize
    if i = fSize then rx else { rx with ndtr := rx.ndtr + i }
  else
    -- second misaligned transfer: go back to the frame length if the head is where it was
    let i := findHead rx.row dma.recvHead fSize
    if i = fSize then rx
    else if rx.ndtr - i = fSize then { rx with ndtr := fSize } else rx

/-- The frame that the interrupt copies from this state, if it copies one. -/
def copied (dma : UartDma) (rx : Receiver) : Option (List UInt8) :=
  if rx.row 0 = dma.recvHead ∧ rx.ndtr = dma.recvSize ∧ dma.recvAddr.isSome then
    some ((List.range dma.recvSize).map rx.row)
  else none

/-- A receiver with the outcome of every transfer completed so far: the copied
frame, or nothing. -/
structure Session where
  rx : Receiver
  transfers : List (Option (List UInt8))

namespace Session

/-- The DMA stores one byte behind those already received. -/
def store (s : Session) (byte : UInt8) : Receiver :=
  { s.rx with
    row := Function.update s.rx.row s.rx.filled byte
    filled := s.rx.filled + 1 }

/-- One byte arrives. When it completes the transfer, the stream restarts at
`M0AR` and the interrupt runs. -/
def receive (dma : UartDma) (s : Session) (byte : UInt8) : Session :=
  if s.rx.halted then s
  else if s.rx.filled + 1 = s.rx.ndtr then
    let full := { s.store byte with filled := 0 }
    { rx := rtHwSerialDmaRxIsr dma full
      transfers := s.transfers ++ [copied dma full] }
  else
    { s with rx := s.store byte }

/-- The session after a finite burst of bytes. -/
def feed (dma : UartDma) (s : Session) (bytes : List UInt8) : Session :=
  bytes.foldl (receive dma) s

/-- The session after the `n` bytes of `line` that start at position `phase`. -/
def after (dma : UartDma) (s : Session) (line : Nat → UInt8) (phase : Nat) : Nat → Session
  | 0 => s
  | n + 1 => receive dma (after dma s line phase n) (line (phase + n))

/-- The state that `uart_dma_init` programs, with arbitrary memory contents. -/
def powerOn (dma : UartDma) (row recv : Nat → UInt8) : Session where
  rx := { ndtr := dma.recvSize, filled := 0, row := row, recv := recv, rxCnt := 0,
          halted := false }
  transfers := []

end Session

/-- A line of back-to-back frames in which the head byte occurs exactly at the
first position of each frame. -/
def CleanLine (dma : UartDma) (line : Nat → UInt8) : Prop :=
  ∀ n, line n = dma.recvHead ↔ n % dma.recvSize = 0

/-- The frame with a given number on a clean line. -/
def frame (dma : UartDma) (line : Nat → UInt8) (number : Nat) : List UInt8 :=
  (List.range dma.recvSize).map fun i => line (number * dma.recvSize + i)

end BadmintonRobot.Uart
