import Mathlib
import BadmintonRobot.Semantics.Buffer
import BadmintonRobot.Semantics.Fifo
import BadmintonRobot.Semantics.Run

/-!
# Log files written through a message queue

`SD_Printf_MQ` puts a file pointer, the length of a formatted text and the text into a
buffer on the stack of its caller and sends the buffer to `mq_sd`. The FATfs thread takes
the buffers from the queue and appends the texts to their files. The states of a thread
name its statements, between which every other thread can run.
-/

namespace BadmintonRobot.Log

open Semantics

/-- The buffers `SD_Printf_Buf` and `buf`, and what the queue holds of them. -/
abbrev Message := Buffer 128

/-- The value of a pointer to a `FIL`. -/
abbrev FilPtr := UInt32

/-- A text that was passed to `SD_Printf_MQ` with its file. -/
abbrev Entry := FilPtr × List UInt8

/-- The number of messages in `msg_pool`: each takes 128 bytes and a pointer. -/
def mqSdMsgs : Nat := 128 * 64 / (128 + 4)

/-- A file object of FATfs. A closed one is not valid any more. -/
structure File where
  content : List UInt8
  isOpen : Bool

def File.fWrite (file : File) (bytes : List UInt8) : File :=
  if file.isOpen then { file with content := file.content ++ bytes } else file

def File.fClose (file : File) : File := { file with isOpen := false }

/-- The text `THE END` that closes a file. -/
def theEnd : List UInt8 := [0x54, 0x48, 0x45, 0x20, 0x45, 0x4e, 0x44]

/-- A call of `SD_Printf_MQ`, by the statement that is next. -/
inductive Producer where
  | idle
  /-- before the file pointer is stored -/
  | called (fp : FilPtr) (text : List UInt8) (buf : Message)
  /-- before `vsprintf` -/
  | pointed (fp : FilPtr) (text : List UInt8) (buf : Message)
  /-- before the count in `trs.temp` is stored -/
  | formatted (fp : FilPtr) (text : List UInt8) (temp : UInt32) (buf : Message)
  /-- before `rt_mq_send` -/
  | counted (fp : FilPtr) (text : List UInt8) (buf : Message)
  /-- in the delay after `-RT_EFULL` -/
  | delayed
  /-- after a write outside the buffer -/
  | overrun

/-- The loop of `rt_thread_entry_FATfs`, by the statement that is next. -/
inductive Fatfs where
  | receiving
  | received (buf : Message)
  | written (fileTmp : FilPtr) (buf : Message)
  | closing (fileTmp : FilPtr)
  | overrun

/-- The threads, the queue and the files. `sent` records the calls of `rt_mq_send`, and
`inBounds` whether every access so far was inside its buffer. -/
structure Pipeline (Thread : Type) where
  producers : Thread → Producer
  mqSd : Fifo Message mqSdMsgs
  fatfs : Fatfs
  files : FilPtr → File
  sent : List Entry
  inBounds : Bool

/-- The file that a message is for. -/
def Message.fileTmp (buf : Message) : FilPtr := wordOfBytes ((buf.load 0 4).getD [])

/-- The number of bytes that a message asks to write. -/
def Message.writeCount (buf : Message) : Nat := (wordOfBytes ((buf.load 4 4).getD [])).toNat

namespace Pipeline

variable {Thread : Type} [DecidableEq Thread]

/-- Nothing was sent, and the files are open. -/
def start : Pipeline Thread where
  producers := fun _ => .idle
  mqSd := .empty Message mqSdMsgs
  fatfs := .receiving
  files := fun _ => ⟨[], true⟩
  sent := []
  inBounds := true

def become (s : Pipeline Thread) (thread : Thread) (producer : Producer) : Pipeline Thread :=
  { s with producers := Function.update s.producers thread producer }

/-- Go on with a buffer after a write. -/
def storing (s : Pipeline Thread) (thread : Thread) (stored : Option Message)
    (next : Message → Producer) : Pipeline Thread :=
  match stored with
  | none => { s.become thread .overrun with inBounds := false }
  | some buf => s.become thread (next buf)

/-- One statement of `SD_Printf_MQ`. -/
def sdPrintfMq (s : Pipeline Thread) (thread : Thread) : Option (Pipeline Thread) :=
  match s.producers thread with
  | .idle => none
  | .called fp text buf => some (s.storing thread (buf.store 0 (wordBytes fp)) (.pointed fp text))
  | .pointed fp text buf =>
    some (s.storing thread (buf.store 8 (text ++ [0]))
      (.formatted fp text (UInt32.ofNat text.length)))
  | .formatted fp text temp buf =>
    some (s.storing thread (buf.store 4 (wordBytes temp)) (.counted fp text))
  | .counted fp text buf =>
    let sent := s.sent ++ [(fp, text)]
    match s.mqSd.send buf with
    | none => some ({ s with sent := sent }.become thread .delayed)
    | some mqSd => some ({ s with sent := sent, mqSd := mqSd }.become thread .idle)
  | .delayed => some (s.become thread .idle)
  | .overrun => none

/-- One statement of the loop of `rt_thread_entry_FATfs`. -/
def rtThreadEntryFatfs (s : Pipeline Thread) : Option (Pipeline Thread) :=
  match s.fatfs with
  | .receiving =>
    s.mqSd.recv.map fun (buf, mqSd) => { s with mqSd := mqSd, fatfs := .received buf }
  | .received buf =>
    match buf.load 8 (Message.writeCount buf) with
    | none => some { s with fatfs := .overrun, inBounds := false }
    | some bytes =>
      let fileTmp := Message.fileTmp buf
      some { s with
        files := Function.update s.files fileTmp ((s.files fileTmp).fWrite bytes)
        fatfs := .written fileTmp buf }
  | .written fileTmp buf =>
    some { s with fatfs := if buf.isString 8 theEnd then .closing fileTmp else .receiving }
  | .closing fileTmp =>
    some { s with
      files := Function.update s.files fileTmp (s.files fileTmp).fClose
      fatfs := .receiving }
  | .overrun => none

end Pipeline

/-- What can happen: a call with the bytes that its stack holds, a statement of a call, a
statement of the FATfs thread. -/
inductive Event (Thread : Type) where
  | call (thread : Thread) (fp : FilPtr) (text : List UInt8) (stack : Message)
  | advance (thread : Thread)
  | fatfs

namespace Pipeline

variable {Thread : Type} [DecidableEq Thread]

def step (s : Pipeline Thread) : Event Thread → Option (Pipeline Thread)
  | .call thread fp text stack =>
    match s.producers thread with
    | .idle => some (s.become thread (.called fp text stack))
    | _ => none
  | .advance thread => s.sdPrintfMq thread
  | .fatfs => s.rtThreadEntryFatfs

end Pipeline

end BadmintonRobot.Log
