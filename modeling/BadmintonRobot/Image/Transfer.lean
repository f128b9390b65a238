import Mathlib.Data.Fintype.Basic
import Mathlib.Logic.Function.Basic
import BadmintonRobot.Semantics.Ring
import BadmintonRobot.Semantics.Run

/-!
# Image transfer

`Save_Img` asks a camera for an image and writes it to a file. The frames arrive by
CAN; `img_save_isr` puts them into the ring `Img_Cbuf`, from which `Save_Img` takes
them. `Pc` names the statements of `Save_Img`, and an interrupt can run before any
of them.
-/

namespace BadmintonRobot.Image

open BadmintonRobot.Semantics

/-- The states `cam_state` of a camera. -/
inductive CamSta where
  | noReady
  | ready
  | transmit
  | finish
deriving DecidableEq, Repr

/-- The modes `cam_mode` of a camera. -/
inductive CamMod where
  | norm
  | tran
deriving DecidableEq, Repr

/-- The bits of `cam_err`. -/
def camErrOK : Nat := 0x00
@[inherit_doc camErrOK] def camErrTimeout : Nat := 0x01
@[inherit_doc camErrOK] def camErrParam : Nat := 0x02
@[inherit_doc camErrOK] def camErrIt : Nat := 0x04
@[inherit_doc camErrOK] def camErrBufof : Nat := 0x08
@[inherit_doc camErrOK] def camErrFrame : Nat := 0x10
@[inherit_doc camErrOK] def camErrFile : Nat := 0x20
@[inherit_doc camErrOK] def camErrCan : Nat := 0x40

/-- The eight bytes that `MISO_CAMx_TRANS` holds when the interrupt runs. -/
abbrev Chunk := Fin 8 → UInt8

namespace Chunk

/-- The bytes in order. -/
def bytes (chunk : Chunk) : List UInt8 := List.ofFn chunk

/-- Byte `i`, for an index that need not be in range. -/
def byte (chunk : Chunk) (i : Nat) : UInt8 := if inside : i < 8 then chunk ⟨i, inside⟩ else 0

end Chunk

/-- The head and end frame `cam_trsimg_fh`. -/
def camTrsimgFh : Chunk := fun i => if i.val % 2 = 0 then 0x55 else 0xaa

/-- The number of ring slots: `sizeof(Img_Cbuf.buf)` over eight. -/
def slots : Nat := 768

/-- The size of `Img_Cbuf.buf`, which is `8*128*6`. -/
def bufSize : Nat := 6144

/-- The number of data frames of an image: `IMG_SIZE/8` with `IMG_SIZE` being
`320*240*2`. -/
def imgFrames : Nat := 19200

/-- The globals and statics of `sd_save.c`. The arrays are indexed by the camera
number. -/
structure Globals where
  camSta : Nat → CamSta
  camErrFlg : Nat → Nat
  camMode : Nat → CamMod
  rIndex : Nat
  wIndex : Nat
  buf : Nat → UInt8
  imgFcnt : Nat
  timeStamp : Nat
  waitTime : Nat

/-- The globals at power-on: everything is zero. -/
def powerOn : Globals where
  camSta _ := .noReady
  camErrFlg _ := camErrOK
  camMode _ := .norm
  rIndex := 0
  wIndex := 0
  buf _ := 0
  imgFcnt := 0
  timeStamp := 0
  waitTime := 0

/-- The data branch of the interrupt: store the frame behind the others, and report
an overflow when the ring is full. -/
def Globals.putChunk (g : Globals) (camx : Nat) (chunk : Chunk) : Globals :=
  let stored := g.wIndex + 8
  let wIndex := if stored = bufSize then 0 else stored
  { g with
    buf := Ring.store 8 g.buf g.wIndex chunk.byte
    wIndex := wIndex
    camErrFlg := if wIndex = g.rIndex
      then Function.update g.camErrFlg camx (camErrBufof ||| camErrIt) else g.camErrFlg
    imgFcnt := g.imgFcnt + 1 }

/-- The branch of the interrupt for the frame after the last data frame. -/
def Globals.endChunk (g : Globals) (camx : Nat) (chunk : Chunk) : Globals :=
  if chunk = camTrsimgFh then
    { g with camSta := Function.update g.camSta camx .finish, imgFcnt := 0 }
  else
    { g with
      camErrFlg := Function.update g.camErrFlg camx (camErrIt ||| camErrFrame)
      imgFcnt := 0 }

/-- The interrupt routine `img_save_isr`. -/
def imgSaveIsr (camx : Nat) (chunk : Chunk) (g : Globals) : Globals :=
  if g.camSta camx = .noReady then
    if chunk = camTrsimgFh then
      { g with camSta := Function.update g.camSta camx .ready }
    else
      { g with camErrFlg := Function.update g.camErrFlg camx (camErrIt ||| camErrFrame) }
  else
    let started := if g.imgFcnt = 0
      then { g with camSta := Function.update g.camSta camx .transmit } else g
    if started.camSta camx ≠ .finish then
      let timed := { started with timeStamp := 0 }
      if timed.imgFcnt < imgFrames then timed.putChunk camx chunk else timed.endChunk camx chunk
    else started

/-- The statements of `Save_Img`. -/
inductive Pc where
  | idle
  | param
  | initErrFlg | initSta | initMode | initRIndex | initWIndex
  | open_
  | canTransmit (canCnt : Nat)
  | canCheck (canCnt : Nat)
  | waitTest | waitCount | waitLimit | waitDelay | waitErr
  | timeoutTest
  | readyTest | readyDelay
  | pumpTest
  | drainTest | write | advance | wrapTest | wrap
  | pumpDelay | stampCount | stampTest
  | finishTest | finishMode | errReturn
  | returned (code : Nat)
deriving DecidableEq, Repr

/-- The globals together with the running call of `Save_Img`: its arguments, its
next statement and the bytes it has written to its file. `transfer` records the
frames that its camera sent since the call reset the camera's state, `polls` the
turns of its waiting loop, and `turns` those of its transfer loop since the last of
these frames. -/
structure System where
  g : Globals
  camx : Nat
  named : Bool
  pc : Pc
  file : List UInt8
  transfer : List Chunk
  polls : Nat
  turns : Nat

namespace System

/-- The state of the calling camera. -/
abbrev sta (s : System) : CamSta := s.g.camSta s.camx

/-- The error flag of the calling camera. -/
abbrev err (s : System) : Nat := s.g.camErrFlg s.camx

/-- The eight bytes at `r_index`. -/
def chunkAtRead (s : System) : List UInt8 :=
  (List.range 8).map fun i => s.g.buf (s.g.rIndex + i)

/-- The next statement of `Save_Img`. `ok` is the result of the device call in it,
if there is one: `f_open`, `CAN_Transmit` or `f_write`. -/
def exec (s : System) (ok : Bool) : System :=
  match s.pc with
  | .idle => s
  | .param =>
    if s.camx = 0 ∨ s.camx > 6 ∨ s.named = false then { s with pc := .returned camErrParam }
    else { s with pc := .initErrFlg }
  | .initErrFlg =>
    { s with
      g := { s.g with camErrFlg := Function.update s.g.camErrFlg s.camx camErrOK }
      pc := .initSta }
  | .initSta =>
    { s with
      g := { s.g with camSta := Function.update s.g.camSta s.camx .noReady }
      transfer := []
      pc := .initMode }
  | .initMode =>
    { s with
      g := { s.g with camMode := Function.update s.g.camMode s.camx .tran }
      pc := .initRIndex }
  | .initRIndex => { s with g := { s.g with rIndex := 0 }, pc := .initWIndex }
  | .initWIndex => { s with g := { s.g with wIndex := 0 }, pc := .open_ }
  | .open_ =>
    if ok then { s with pc := .canTransmit 0 }
    else { s with pc := .returned camErrFile }
  | .canTransmit canCnt =>
    if ok then { s with pc := .canCheck canCnt }
    else if canCnt < 200 then { s with pc := .canTransmit (canCnt + 1) }
    else { s with pc := .canCheck canCnt }
  | .canCheck canCnt =>
    if canCnt ≥ 200 then { s with pc := .returned (camErrCan ||| camErrTimeout) }
    else { s with pc := .waitTest }
  | .waitTest =>
    if s.sta = .noReady then { s with pc := .waitCount } else { s with pc := .timeoutTest }
  | .waitCount =>
    { s with
      g := { s.g with waitTime := (s.g.waitTime + 1) % 2 ^ 32 }
      polls := s.polls + 1
      pc := .waitLimit }
  | .waitLimit =>
    if s.g.waitTime > 400 then { s with pc := .timeoutTest } else { s with pc := .waitDelay }
  | .waitDelay => { s with pc := .waitErr }
  | .waitErr =>
    if s.err ≠ camErrOK then { s with pc := .errReturn } else { s with pc := .waitTest }
  | .timeoutTest =>
    if s.sta = .noReady then { s with pc := .returned camErrTimeout }
    else { s with pc := .readyTest }
  | .readyTest =>
    if s.sta = .ready then { s with pc := .readyDelay } else { s with pc := .pumpTest }
  | .readyDelay => { s with pc := .readyTest }
  | .pumpTest =>
    if s.sta = .transmit ∧ s.err = camErrOK then { s with pc := .drainTest }
    else { s with pc := .finishTest }
  | .drainTest =>
    if s.g.rIndex ≠ s.g.wIndex then { s with pc := .write } else { s with pc := .pumpDelay }
  | .write =>
    if ok then { s with file := s.file ++ s.chunkAtRead, pc := .advance }
    else { s with pc := .returned camErrFile }
  | .advance => { s with g := { s.g with rIndex := s.g.rIndex + 8 }, pc := .wrapTest }
  | .wrapTest =>
    if s.g.rIndex = bufSize then { s with pc := .wrap } else { s with pc := .drainTest }
  | .wrap => { s with g := { s.g with rIndex := 0 }, pc := .drainTest }
  | .pumpDelay => { s with pc := .stampCount }
  | .stampCount =>
    { s with
      g := { s.g with timeStamp := s.g.timeStamp + 1 }
      turns := s.turns + 1
      pc := .stampTest }
  | .stampTest =>
    if s.g.timeStamp > 20 then { s with pc := .returned camErrTimeout }
    else { s with pc := .pumpTest }
  | .finishTest =>
    if s.sta = .finish then { s with pc := .finishMode } else { s with pc := .errReturn }
  | .finishMode =>
    { s with
      g := { s.g with camMode := Function.update s.g.camMode s.camx .norm }
      pc := .returned camErrOK }
  | .errReturn => { s with pc := .returned s.err }
  | .returned _ => s

/-- No call is running. -/
def Resting (s : System) : Prop :=
  match s.pc with
  | .idle | .returned _ => True
  | _ => False

instance (s : System) : Decidable s.Resting := by
  unfold Resting
  split <;> infer_instance

/-- A frame of a camera runs the interrupt. -/
def interrupt (s : System) (camx : Nat) (chunk : Chunk) : System :=
  { s with
    g := imgSaveIsr camx chunk s.g
    transfer := if s.Resting ∨ camx ≠ s.camx then s.transfer else s.transfer ++ [chunk]
    turns := if s.Resting ∨ camx ≠ s.camx then s.turns else 0 }

end System

/-- A call of `Save_Img`, its next statement, or a frame of one of the cameras. -/
inductive Label where
  | call (camx : Nat) (named : Bool)
  | run (ok : Bool)
  | frame (camx : Nat) (chunk : Chunk)

/-- One step of the image transfer. -/
def step (s : System) : Label → Option System
  | .call camx named =>
    if s.Resting then
      some { s with
        camx := camx, named := named, pc := .param, file := [], transfer := [], polls := 0,
        turns := 0 }
    else none
  | .run ok => some (s.exec ok)
  | .frame camx chunk => if 1 ≤ camx ∧ camx ≤ 5 then some (s.interrupt camx chunk) else none

/-- No call has been made. The globals are arbitrary. -/
def initial (g : Globals) : System where
  g := g
  camx := 1
  named := false
  pc := .idle
  file := []
  transfer := []
  polls := 0
  turns := 0

end BadmintonRobot.Image
