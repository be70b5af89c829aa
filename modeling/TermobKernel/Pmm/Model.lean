import TermobKernel.Boot.Info
import TermobKernel.Heap.Model

/-!
# The frame allocator

`core/pmm.c`: a bitmap with one bit for every 4 KiB frame below the highest usable address, set for a frame
in use. The static variables are a record. The bytes of the bitmap are kept in it as a list, beside the
address that the heap gave them; nobody else owns that heap block. A counting loop is a recursion on the
number of rounds that are left.
-/

namespace TermobKernel.Pmm
open Boot

def pmmFrameSize : UInt32 := 4096
def kernelLoadAddress : UInt32 := 0x00100000

structure State where
  pmmBitmap : UInt32
  bitmapBytes : List UInt8
  pmmBitmapSizeBytes : UInt32
  pmmTotalFramesCount : UInt32
  pmmFreeFramesCount : UInt32
  pmmNextSearchFrame : UInt32
  pmmReady : Bool
  deriving DecidableEq, Repr

def pmmAlignUp (value alignment : UInt32) : UInt32 := (value + (alignment - 1)) &&& ~~~(alignment - 1)

def pmmAlignDown (value alignment : UInt32) : UInt32 := value &&& ~~~(alignment - 1)

def pmmBitmapIndex (frameIndex : UInt32) : Nat := (frameIndex >>> 3).toNat

def pmmBitmapMask (frameIndex : UInt32) : UInt8 := ((1 : UInt32) <<< (frameIndex &&& 7)).toUInt8

/-! ## Single frames -/

def pmmFrameIsUsed (s : State) (frameIndex : UInt32) : Bool :=
  s.bitmapBytes.getD (pmmBitmapIndex frameIndex) 0 &&& pmmBitmapMask frameIndex != 0

def pmmMarkFrameUsed (s : State) (frameIndex : UInt32) : State :=
  if frameIndex ≥ s.pmmTotalFramesCount ∨ pmmFrameIsUsed s frameIndex = true then s
  else
    let s :=
      { s with
        bitmapBytes := s.bitmapBytes.set (pmmBitmapIndex frameIndex)
          (s.bitmapBytes.getD (pmmBitmapIndex frameIndex) 0 ||| pmmBitmapMask frameIndex) }
    if s.pmmFreeFramesCount > 0 then { s with pmmFreeFramesCount := s.pmmFreeFramesCount - 1 } else s

def pmmMarkFrameFree (s : State) (frameIndex : UInt32) : State :=
  if frameIndex ≥ s.pmmTotalFramesCount ∨ pmmFrameIsUsed s frameIndex = false then s
  else
    { s with
      bitmapBytes := s.bitmapBytes.set (pmmBitmapIndex frameIndex)
        (s.bitmapBytes.getD (pmmBitmapIndex frameIndex) 0 &&& ~~~pmmBitmapMask frameIndex)
      pmmFreeFramesCount := s.pmmFreeFramesCount + 1 }

/-! ## Regions -/

def pmmMarkFrames (mark : State → UInt32 → State) : Nat → UInt32 → State → State
  | 0, _, s => s
  | count + 1, frameIndex, s => pmmMarkFrames mark count (frameIndex + 1) (mark s frameIndex)

/-- The end of a region, held below 4 GiB. -/
def pmmRegionEnd (baseAddr length : UInt32) : UInt32 :=
  if baseAddr > 0xFFFFFFFF - length then 0xFFFFFFFF else baseAddr + length

def pmmReleaseRegion (s : State) (baseAddr length : UInt32) : State :=
  if length = 0 then s
  else
    let start := pmmAlignUp baseAddr pmmFrameSize
    let stop := pmmAlignDown (pmmRegionEnd baseAddr length) pmmFrameSize
    if stop ≤ start then s
    else
      let startFrame := start / pmmFrameSize
      let endFrame := stop / pmmFrameSize
      pmmMarkFrames pmmMarkFrameFree (endFrame.toNat - startFrame.toNat) startFrame s

def pmmReserveRegion (s : State) (baseAddr length : UInt32) : State :=
  if length = 0 then s
  else
    let startFrame := baseAddr / pmmFrameSize
    let endFrame := pmmAlignUp (pmmRegionEnd baseAddr length) pmmFrameSize / pmmFrameSize
    let endFrame := if endFrame > s.pmmTotalFramesCount then s.pmmTotalFramesCount else endFrame
    pmmMarkFrames pmmMarkFrameUsed (endFrame.toNat - startFrame.toNat) startFrame s

/-! ## Initialisation -/

/-- The number of frames for the highest usable address. -/
def pmmTotalFramesFor (highestUsableAddress : UInt32) : UInt32 :=
  if highestUsableAddress = 0xFFFFFFFF then 0xFFFFFFFF / pmmFrameSize + 1
  else pmmAlignUp (highestUsableAddress + 1) pmmFrameSize / pmmFrameSize

/-- The ranges of type `AVAILABLE` are released, in order. -/
def pmmReleaseRanges (s : State) (ranges : List MemoryRange) : State :=
  ranges.foldl (fun s range =>
    if range.type = memoryTypeAvailable then pmmReleaseRegion s range.baseAddr range.length else s) s

/-- The reservations that follow the release. -/
def pmmReserveRegions (s : State) (boot : BootInfo) (kernelEnd heapStart heapEnd : UInt32) : State :=
  let s := pmmReserveRegion s 0 kernelLoadAddress
  let s := pmmReserveRegion s kernelLoadAddress (pmmAlignUp kernelEnd pmmFrameSize - kernelLoadAddress)
  let s := pmmReserveRegion s heapStart (heapEnd - heapStart)
  let s := pmmReserveRegion s boot.infoAddress boot.infoSize
  pmmReserveRegion s s.pmmBitmap s.pmmBitmapSizeBytes

def pmmReset : State := ⟨0, [], 0, 0, 0, 0, false⟩

/-- All frames in use: the bitmap once it is filled with `0xFF`. -/
def pmmFilled (bitmap bitmapSize total : UInt32) : State :=
  { pmmReset with
    pmmBitmap := bitmap
    bitmapBytes := List.replicate bitmapSize.toNat 0xFF
    pmmBitmapSizeBytes := bitmapSize
    pmmTotalFramesCount := total }

/-- `pmm_init`, with the boot information, the address of `__kernel_end` and the heap. `none` is a `kcalloc`
that does not end. -/
def pmmInit (boot : BootInfo) (kernelEnd : UInt32) (heap : Heap.State) : Option (State × Heap.State) :=
  if boot.ready = false ∨ heap.heapReady = false then some (pmmReset, heap)
  else if boot.highestUsableAddress < pmmFrameSize - 1 then some (pmmReset, heap)
  else
    let total := pmmTotalFramesFor boot.highestUsableAddress
    let bitmapSize := (total + 7) / 8
    match Heap.kcalloc heap bitmapSize 1 with
    | none => none
    | some (bitmap, heap) =>
      if bitmap = 0 then some (pmmReset, heap)
      else
        let s := pmmReleaseRanges (pmmFilled bitmap bitmapSize total) boot.memoryRanges
        let s := pmmReserveRegions s boot kernelEnd heap.heapStartPtr heap.heapEndPtr
        some ({ s with pmmReady := true }, heap)

/-! ## Allocation -/

/-- The first frame that is not in use among `count` frames from `frameIndex` on. -/
def pmmFindFree (s : State) : Nat → UInt32 → Option UInt32
  | 0, _ => none
  | count + 1, frameIndex =>
    if pmmFrameIsUsed s frameIndex = false then some frameIndex else pmmFindFree s count (frameIndex + 1)

/-- What both search loops do with the frame they found. -/
def pmmTakeFrame (s : State) (frameIndex : UInt32) : UInt32 × State :=
  (frameIndex * pmmFrameSize, { pmmMarkFrameUsed s frameIndex with pmmNextSearchFrame := frameIndex + 1 })

def pmmAllocFrame (s : State) : UInt32 × State :=
  if s.pmmReady = false ∨ s.pmmFreeFramesCount = 0 then (0, s)
  else
    match pmmFindFree s (s.pmmTotalFramesCount.toNat - s.pmmNextSearchFrame.toNat) s.pmmNextSearchFrame with
    | some frameIndex => pmmTakeFrame s frameIndex
    | none =>
      match pmmFindFree s s.pmmNextSearchFrame.toNat 0 with
      | some frameIndex => pmmTakeFrame s frameIndex
      | none => (0, s)

def pmmFreeFrame (s : State) (physicalAddress : UInt32) : State :=
  if s.pmmReady = false ∨ physicalAddress &&& (pmmFrameSize - 1) ≠ 0 then s
  else
    let frameIndex := physicalAddress / pmmFrameSize
    if frameIndex ≥ s.pmmTotalFramesCount then s
    else
      let s := pmmMarkFrameFree s frameIndex
      if frameIndex < s.pmmNextSearchFrame then { s with pmmNextSearchFrame := frameIndex } else s

end TermobKernel.Pmm
