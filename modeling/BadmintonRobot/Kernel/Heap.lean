import BadmintonRobot.Semantics.Memory

/-!
# The system heap

The heap of the kernel (`mem.c`) is one area of RAM. Blocks follow one another in it, each
behind a header with the places of its neighbours, and allocation takes the first block that
is large enough. Addresses are those of the RAM; `next` and `prev` of a header are distances
from `heap_ptr`, as in the source.
-/

namespace BadmintonRobot.Kernel

open Semantics

/-- Unsigned addition and subtraction of 32-bit words. -/
def add32 (a b : Nat) : Nat := (a + b) % 2 ^ 32

@[inherit_doc add32]
def sub32 (a b : Nat) : Nat := (a + (2 ^ 32 - b % 2 ^ 32)) % 2 ^ 32

theorem add32_of_lt {a b : Nat} (fits : a + b < 2 ^ 32) : add32 a b = a + b :=
  Nat.mod_eq_of_lt fits

theorem sub32_of_le {a b : Nat} (ordered : b ≤ a) (fits : a < 2 ^ 32) : sub32 a b = a - b := by
  rw [sub32]
  omega

def rtAlignSize : Nat := 8

/-- The macro `RT_ALIGN`, for `RT_ALIGN_SIZE`. -/
def rtAlign (size : Nat) : Nat := add32 size (rtAlignSize - 1) / rtAlignSize * rtAlignSize

/-- The macro `RT_ALIGN_DOWN`, for `RT_ALIGN_SIZE`. -/
def rtAlignDown (size : Nat) : Nat := size / rtAlignSize * rtAlignSize

def heapMagic : Nat := 0x1ea0

def minSize : Nat := 12

def minSizeAligned : Nat := 16

/-- The twelve bytes of `struct heap_mem`, aligned. -/
def sizeofStructMem : Nat := 16

/-- The variables of `mem.c` and the RAM. The pointer `heap_end` never changes after the
initialisation and is given by `heapEnd`. -/
structure Heap where
  ram : Memory
  heapPtr : Nat
  memSizeAligned : Nat
  lfree : Nat
  usedMem : Nat
  maxMem : Nat

namespace Heap

/-- The distance of the last header from `heap_ptr`. -/
def stop (h : Heap) : Nat := h.memSizeAligned + sizeofStructMem

def heapEnd (h : Heap) : Nat := h.heapPtr + h.stop

section Headers

/-! The fields of the `struct heap_mem` at an address. -/

def magic (h : Heap) (mem : Nat) : Nat := h.ram.load 2 mem
def used (h : Heap) (mem : Nat) : Nat := h.ram.load 2 (mem + 2)
def next (h : Heap) (mem : Nat) : Nat := h.ram.load 4 (mem + 4)
def prev (h : Heap) (mem : Nat) : Nat := h.ram.load 4 (mem + 8)

def setMagic (h : Heap) (mem value : Nat) : Heap := { h with ram := h.ram.store 2 mem value }
def setUsed (h : Heap) (mem value : Nat) : Heap := { h with ram := h.ram.store 2 (mem + 2) value }
def setNext (h : Heap) (mem value : Nat) : Heap := { h with ram := h.ram.store 4 (mem + 4) value }
def setPrev (h : Heap) (mem value : Nat) : Heap := { h with ram := h.ram.store 4 (mem + 8) value }

end Headers

/-- The function `rt_system_heap_init`, on the RAM with the variables as they are before. It
reports addresses between which no heap fits. -/
def rtSystemHeapInit (h : Heap) (beginAddr endAddr : Nat) : Heap :=
  let beginAlign := rtAlign beginAddr
  let endAlign := rtAlignDown endAddr
  if endAlign > 2 * sizeofStructMem ∧ endAlign - 2 * sizeofStructMem ≥ beginAlign then
    let h := { h with
      memSizeAligned := endAlign - beginAlign - 2 * sizeofStructMem, heapPtr := beginAlign }
    let mem := h.heapPtr
    let h := h.setMagic mem heapMagic
    let h := h.setNext mem h.stop
    let h := h.setPrev mem 0
    let h := h.setUsed mem 0
    let h := h.setMagic h.heapEnd heapMagic
    let h := h.setUsed h.heapEnd 1
    let h := h.setNext h.heapEnd h.stop
    let h := h.setPrev h.heapEnd h.stop
    { h with lfree := h.heapPtr }
  else h

/-- Join an unused block with the unused one behind it: the first half of `plug_holes`. -/
def plugForward (h : Heap) (mem : Nat) : Heap :=
  let nmem := h.heapPtr + h.next mem
  if mem ≠ nmem ∧ h.used nmem = 0 ∧ nmem ≠ h.heapEnd then
    let h := if h.lfree = nmem then { h with lfree := mem } else h
    let h := h.setNext mem (h.next nmem)
    h.setPrev (h.heapPtr + h.next nmem) (mem - h.heapPtr)
  else h

/-- Join an unused block with the unused one before it: the second half of `plug_holes`. -/
def plugBackward (h : Heap) (mem : Nat) : Heap :=
  let pmem := h.heapPtr + h.prev mem
  if pmem ≠ mem ∧ h.used pmem = 0 then
    let h := if h.lfree = mem then { h with lfree := pmem } else h
    let h := h.setNext pmem (h.next mem)
    h.setPrev (h.heapPtr + h.next mem) (pmem - h.heapPtr)
  else h

def plugHoles (h : Heap) (mem : Nat) : Heap := (h.plugForward mem).plugBackward mem

/-- The loop of `rt_malloc` over the blocks from `ptr` on: the place of the first one that is
unused and large enough. It has no result if the loop has not ended after `fuel` blocks. -/
def search (h : Heap) (size : Nat) : (fuel : Nat) → (ptr : Nat) → Option (Option Nat)
  | 0, _ => none
  | fuel + 1, ptr =>
    if ptr < sub32 h.memSizeAligned size then
      let mem := h.heapPtr + ptr
      if h.used mem = 0 ∧ sub32 (h.next mem) (add32 ptr sizeofStructMem) ≥ size then
        some (some ptr)
      else h.search size fuel (h.next mem)
    else some none

/-- The statistics after `amount` bytes more are in use. -/
def addUsed (h : Heap) (amount : Nat) : Heap :=
  let h := { h with usedMem := add32 h.usedMem amount }
  if h.maxMem < h.usedMem then { h with maxMem := h.usedMem } else h

/-- Cut the block at `ptr` in two, with an unused block at `ptr2`: the statements that
`rt_malloc` and `rt_realloc` have in common. -/
def cut (h : Heap) (ptr ptr2 : Nat) : Heap :=
  let mem := h.heapPtr + ptr
  let mem2 := h.heapPtr + ptr2
  let h := h.setUsed mem2 0
  let h := h.setNext mem2 (h.next mem)
  let h := h.setPrev mem2 ptr
  h.setNext mem ptr2

/-- Tell the block behind `mem2`, unless that is the last header. -/
def relink (h : Heap) (ptr2 : Nat) : Heap :=
  let mem2 := h.heapPtr + ptr2
  if h.next mem2 ≠ h.stop then h.setPrev (h.heapPtr + h.next mem2) ptr2 else h

/-- Take the block at `ptr`, and make a block of what is left if that is large enough. -/
def take (h : Heap) (ptr size : Nat) : Heap :=
  let mem := h.heapPtr + ptr
  if sub32 (h.next mem) (add32 ptr sizeofStructMem) ≥ size + sizeofStructMem + minSizeAligned then
    let ptr2 := add32 (add32 ptr sizeofStructMem) size
    let h := h.cut ptr ptr2
    let h := h.setUsed mem 1
    let h := h.relink ptr2
    h.addUsed (size + sizeofStructMem)
  else
    let h := h.setUsed mem 1
    h.addUsed (sub32 (h.next mem) ptr)

/-- The loop that moves `lfree` to the next unused block. -/
def raiseLfree (h : Heap) : (fuel : Nat) → Option Heap
  | 0 => none
  | fuel + 1 =>
    if h.used h.lfree ≠ 0 ∧ h.lfree ≠ h.heapEnd then
      raiseLfree { h with lfree := h.heapPtr + h.next h.lfree } fuel
    else some h

/-- More blocks than there are headers in the heap. -/
def fuel (h : Heap) : Nat := h.stop + 1

/-- What `rt_malloc` does with the block it has found. -/
def claim (h : Heap) (ptr size : Nat) : Option Heap :=
  let mem := h.heapPtr + ptr
  let h := (h.take ptr size).setMagic mem heapMagic
  if mem = h.lfree then h.raiseLfree h.fuel else some h

/-- The function `rt_malloc`. The section between taking and releasing `heap_sem` is one
step; the pointer `RT_NULL` is `none`. -/
def rtMalloc (h : Heap) (size : Nat) : Option (Heap × Option Nat) :=
  if size = 0 then some (h, none)
  else
    let size := rtAlign size
    if size > h.memSizeAligned then some (h, none)
    else
      let size := if size < minSizeAligned then minSizeAligned else size
      match h.search size h.fuel (h.lfree - h.heapPtr) with
      | none => none
      | some none => some (h, none)
      | some (some ptr) =>
        (h.claim ptr size).map fun h' => (h', some (h.heapPtr + ptr + sizeofStructMem))

/-- The function `rt_free`. -/
def rtFree (h : Heap) (rmem : Option Nat) : Heap :=
  match rmem with
  | none => h
  | some rmem =>
    if rmem < h.heapPtr ∨ rmem ≥ h.heapEnd then h
    else
      let mem := rmem - sizeofStructMem
      let h := h.setUsed mem 0
      let h := h.setMagic mem 0
      let h := if mem < h.lfree then { h with lfree := mem } else h
      let h := { h with usedMem := sub32 h.usedMem (sub32 (h.next mem) (mem - h.heapPtr)) }
      h.plugHoles mem

/-- Give back the end of a block of `size` bytes: the branch of `rt_realloc` that splits. -/
def split (h : Heap) (ptr size newsize : Nat) : Heap :=
  let h := { h with usedMem := sub32 h.usedMem (sub32 size newsize) }
  let ptr2 := add32 (add32 ptr sizeofStructMem) newsize
  let mem2 := h.heapPtr + ptr2
  let h := h.setMagic mem2 heapMagic
  let h := h.cut ptr ptr2
  let h := h.relink ptr2
  h.plugHoles mem2

/-- The section of `rt_realloc` under `heap_sem`, for a size that is aligned, with what it
returns; without that, the block has to be moved. -/
def resize (h : Heap) (rmem newsize : Nat) : Heap × Bool :=
  if rmem < h.heapPtr ∨ rmem ≥ h.heapEnd then (h, true)
  else
    let mem := rmem - sizeofStructMem
    let ptr := mem - h.heapPtr
    let size := sub32 (sub32 (h.next mem) ptr) sizeofStructMem
    if size = newsize then (h, true)
    else if add32 (add32 newsize sizeofStructMem) minSize < size then
      (h.split ptr size newsize, true)
    else (h, false)

/-- The usable size of the block at `rmem`, as `rt_realloc` computes it. -/
def blockSize (h : Heap) (rmem : Nat) : Nat :=
  sub32 (sub32 (h.next (rmem - sizeofStructMem)) (rmem - sizeofStructMem - h.heapPtr)) sizeofStructMem

/-- The function `rt_memcpy`. -/
def rtMemcpy (ram : Memory) (dst src count : Nat) : Memory := fun place =>
  if dst ≤ place ∧ place < dst + count then ram (src + (place - dst)) else ram place

/-- The function `rt_memset`. -/
def rtMemset (ram : Memory) (dst : Nat) (byte : UInt8) (count : Nat) : Memory := fun place =>
  if dst ≤ place ∧ place < dst + count then byte else ram place

/-- The function `rt_realloc`, without other calls between its sections. -/
def rtRealloc (h : Heap) (rmem : Option Nat) (newsize : Nat) : Option (Heap × Option Nat) :=
  let newsize := rtAlign newsize
  if newsize > h.memSizeAligned then some (h, none)
  else
    match rmem with
    | none => h.rtMalloc newsize
    | some rmem =>
      match h.resize rmem newsize with
      | (h, true) => some (h, some rmem)
      | (h, false) =>
        let size := h.blockSize rmem
        (h.rtMalloc newsize).map fun
          | (h, none) => (h, none)
          | (h, some nmem) =>
            let h := { h with ram := rtMemcpy h.ram nmem rmem (min size newsize) }
            (h.rtFree (some rmem), some nmem)

/-- The function `rt_calloc`. -/
def rtCalloc (h : Heap) (count size : Nat) : Option (Heap × Option Nat) :=
  let total := count * size % 2 ^ 32
  (h.rtMalloc total).map fun
    | (h, none) => (h, none)
    | (h, some p) => ({ h with ram := rtMemset h.ram p 0 total }, some p)

/-- The function `rt_memory_info`: total, used and maximum. -/
def rtMemoryInfo (h : Heap) : Nat × Nat × Nat := (h.memSizeAligned, h.usedMem, h.maxMem)

end Heap

end BadmintonRobot.Kernel
