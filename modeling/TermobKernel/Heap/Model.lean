import TermobKernel.Library.Memory

/-!
# The kernel heap

`core/heap.c` as functions on an explicit state: the file's static variables and the byte memory in
which the block headers live. Pointers are 32-bit addresses with `0` for null, `size_t` and `uintptr_t`
are 32 bits wide, and every sum, product and difference wraps as it does in the code.

Two loops of the file walk the free list without a bound. They are given `2 ^ 32` rounds, more than there
are addresses, so that `none` means that the loop of the code never ends: the memory does not change while
it runs and the next round depends on the cursor alone.
-/

namespace TermobKernel.Heap
open Word

/-! ## Constants and layout -/

def heapAlignment : UInt32 := 16
def heapSizeBytes : UInt32 := 1024 * 1024
def heapBlockMagic : UInt32 := 0x48454150
def heapBlockFlagFree : UInt32 := 0x00000001
def heapMinSplitBytes : UInt32 := heapAlignment
def heapDiagInvalidFree : UInt32 := 0x00000001
def heapDiagDoubleFree : UInt32 := 0x00000002
def heapDiagCorruption : UInt32 := 0x00000004
def heapDiagIntegrity : UInt32 := 0x00000008

/-- The words of `struct heap_block`, in order. -/
inductive Field where
  | magic
  | flags
  | sizeBytes
  | prevPhys
  | nextPhys
  | prevFree
  | nextFree
  deriving DecidableEq, Repr

def Field.offset : Field → UInt32
  | .magic => 0
  | .flags => 4
  | .sizeBytes => 8
  | .prevPhys => 12
  | .nextPhys => 16
  | .prevFree => 20
  | .nextFree => 24

def sizeofHeapBlock : UInt32 := 28

def heapHeaderSize : UInt32 := (sizeofHeapBlock + (heapAlignment - 1)) &&& ~~~(heapAlignment - 1)

/-- The static variables of the file, the memory, and the lines sent to the kernel log. -/
structure State where
  mem : Mem
  heapStartPtr : UInt32
  heapEndPtr : UInt32
  heapFirstBlock : UInt32
  heapFreeList : UInt32
  heapReady : Bool
  heapDiagErrorCount : UInt32
  heapDiagErrorFlags : UInt32
  heapDiagLastErrorMessage : String
  log : List String

def State.get (s : State) (f : Field) (block : UInt32) : UInt32 := s.mem.load32 (block + f.offset)

def State.set (s : State) (f : Field) (block v : UInt32) : State :=
  { s with mem := s.mem.store32 (block + f.offset) v }

/-! ## Small helpers -/

def heapAlignUp (value alignment : UInt32) : UInt32 := (value + (alignment - 1)) &&& ~~~(alignment - 1)

def heapLogEvent (s : State) (message : String) : State := { s with log := s.log ++ [message] }

def heapNoteError (s : State) (flag : UInt32) (message : String) : State :=
  heapLogEvent
    { s with
      heapDiagErrorCount := s.heapDiagErrorCount + 1
      heapDiagErrorFlags := s.heapDiagErrorFlags ||| flag
      heapDiagLastErrorMessage := message } message

def heapBlockPayloadAddress (block : UInt32) : UInt32 := block + heapHeaderSize

def heapBlockEndAddress (s : State) (block : UInt32) : UInt32 :=
  heapBlockPayloadAddress block + s.get .sizeBytes block

def heapBlockIsFree (s : State) (block : UInt32) : Bool := s.get .flags block &&& heapBlockFlagFree != 0

def heapMarkBlockFree (s : State) (block : UInt32) : State :=
  s.set .flags block (s.get .flags block ||| heapBlockFlagFree)

def heapMarkBlockUsed (s : State) (block : UInt32) : State :=
  s.set .flags block (s.get .flags block &&& ~~~heapBlockFlagFree)

/-- The loop of `heap_zero_bytes`: bytes `0 .. count - 1` from `dst`, around the end of memory. -/
def heapZeroBytes (s : State) (dst : UInt32) : Nat → State
  | 0 => s
  | count + 1 =>
    let s := heapZeroBytes s dst count
    { s with mem := s.mem.store8 (dst + UInt32.ofNat count) 0 }

def heapPointerWithinRegion (s : State) (pointer : UInt32) : Bool :=
  decide (pointer ≥ s.heapStartPtr) && decide (pointer < s.heapEndPtr)

def heapMaxWalks (s : State) : UInt32 :=
  let totalBytes := s.heapEndPtr - s.heapStartPtr
  if totalBytes = 0 then 0 else totalBytes / heapAlignment + 1

def heapBlockIsSane (s : State) (block : UInt32) : Bool :=
  if block = 0 then false
  else if block &&& (heapAlignment - 1) ≠ 0 then false
  else if heapPointerWithinRegion s block = false ∨ heapBlockPayloadAddress block < block then false
  else if s.get .magic block ≠ heapBlockMagic then false
  else if s.get .sizeBytes block &&& (heapAlignment - 1) ≠ 0 then false
  else if heapBlockEndAddress s block < heapBlockPayloadAddress block ∨
      heapBlockEndAddress s block > s.heapEndPtr then false
  else true

/-! ## The two lists -/

def heapRemoveFreeBlock (s : State) (block : UInt32) : State :=
  if block = 0 then s
  else
    let s :=
      if s.get .prevFree block ≠ 0 then s.set .nextFree (s.get .prevFree block) (s.get .nextFree block)
      else if s.heapFreeList = block then { s with heapFreeList := s.get .nextFree block }
      else s
    let s :=
      if s.get .nextFree block ≠ 0 then s.set .prevFree (s.get .nextFree block) (s.get .prevFree block)
      else s
    (s.set .prevFree block 0).set .nextFree block 0

/-- The loop of `heap_insert_free_block`: walk while the cursor lies below the block. -/
def heapInsertScan (s : State) (block : UInt32) : Nat → UInt32 → UInt32 → Option (UInt32 × UInt32)
  | 0, _, _ => none
  | fuel + 1, previous, cursor =>
    if cursor ≠ 0 ∧ cursor < block then heapInsertScan s block fuel cursor (s.get .nextFree cursor)
    else some (previous, cursor)

def heapInsertFront (s : State) (block : UInt32) : State :=
  let s := s.set .nextFree block s.heapFreeList
  let s := if s.heapFreeList ≠ 0 then s.set .prevFree s.heapFreeList block else s
  { s with heapFreeList := block }

def heapInsertBetween (s : State) (block previous cursor : UInt32) : State :=
  let s := s.set .prevFree block previous
  let s := s.set .nextFree block cursor
  let s := s.set .nextFree previous block
  if cursor ≠ 0 then s.set .prevFree cursor block else s

def heapInsertFreeBlock (s : State) (block : UInt32) : Option State :=
  if block = 0 then some s
  else
    let s := ((heapMarkBlockFree s block).set .prevFree block 0).set .nextFree block 0
    if s.heapFreeList = 0 ∨ block < s.heapFreeList then some (heapInsertFront s block)
    else
      match heapInsertScan s block UInt32.size s.heapFreeList (s.get .nextFree s.heapFreeList) with
      | none => none
      | some (previous, cursor) => some (heapInsertBetween s block previous cursor)

def heapInitializeBlock (s : State) (block sizeBytes prevPhys nextPhys : UInt32) (isFree : Bool) : State :=
  let s := s.set .magic block heapBlockMagic
  let s := s.set .flags block 0
  let s := s.set .sizeBytes block sizeBytes
  let s := s.set .prevPhys block prevPhys
  let s := s.set .nextPhys block nextPhys
  let s := s.set .prevFree block 0
  let s := s.set .nextFree block 0
  if isFree then heapMarkBlockFree s block else s

def heapCanSplitBlock (s : State) (block requestedSize : UInt32) : Bool :=
  if block = 0 ∨ requestedSize > s.get .sizeBytes block then false
  else decide (s.get .sizeBytes block - requestedSize ≥ heapHeaderSize + heapMinSplitBytes)

/-- The new block behind `block`, or `0` when the block is kept whole. -/
def heapSplitBlock (s : State) (block requestedSize : UInt32) : UInt32 × State :=
  if heapCanSplitBlock s block requestedSize = false then (0, s)
  else
    let splitBlock := heapBlockPayloadAddress block + requestedSize
    let splitPayloadBytes := s.get .sizeBytes block - requestedSize - heapHeaderSize
    let s := heapInitializeBlock s splitBlock splitPayloadBytes block (s.get .nextPhys block) true
    let s := if s.get .nextPhys block ≠ 0 then s.set .prevPhys (s.get .nextPhys block) splitBlock else s
    let s := s.set .nextPhys block splitBlock
    (splitBlock, s.set .sizeBytes block requestedSize)

def heapFindScan (s : State) (ptr : UInt32) : Nat → UInt32 → UInt32 × State
  | 0, _ => (0, s)
  | walks + 1, block =>
    if block = 0 then (0, s)
    else if heapBlockIsSane s block = false then
      (0, heapNoteError s heapDiagCorruption "TERMOB: heap corruption detected during free lookup")
    else if heapBlockPayloadAddress block = ptr then (block, s)
    else heapFindScan s ptr walks (s.get .nextPhys block)

def heapFindBlockByPayload (s : State) (ptr : UInt32) : UInt32 × State :=
  if s.heapReady = false ∨ ptr = 0 then (0, s)
  else heapFindScan s ptr (heapMaxWalks s).toNat s.heapFirstBlock

def heapContainsScan (s : State) (target : UInt32) : Nat → UInt32 → Bool
  | 0, _ => false
  | walks + 1, block =>
    if block = 0 then false
    else if block = target then true
    else heapContainsScan s target walks (s.get .nextFree block)

def heapFreeListContains (s : State) (target : UInt32) : Bool :=
  if target = 0 then false else heapContainsScan s target (heapMaxWalks s).toNat s.heapFreeList

def heapTryCoalesceWithNext (s : State) (block : UInt32) : State :=
  if block = 0 ∨ heapBlockIsFree s block = false then s
  else
    let next := s.get .nextPhys block
    if next = 0 ∨ heapBlockIsFree s next = false then s
    else if heapBlockIsSane s next = false ∨ heapBlockEndAddress s block ≠ next then
      heapNoteError s heapDiagCorruption "TERMOB: heap corruption detected during coalesce"
    else
      let s := heapRemoveFreeBlock s next
      let s := s.set .sizeBytes block (s.get .sizeBytes block + (heapHeaderSize + s.get .sizeBytes next))
      let s := s.set .nextPhys block (s.get .nextPhys next)
      if s.get .nextPhys next ≠ 0 then s.set .prevPhys (s.get .nextPhys next) block else s

def heapCoalesce (s : State) (block : UInt32) : UInt32 × State :=
  if block = 0 then (0, s)
  else
    let block :=
      if s.get .prevPhys block ≠ 0 ∧ heapBlockIsFree s (s.get .prevPhys block) =
          true then s.get .prevPhys block
      else block
    (block, heapTryCoalesceWithNext (heapTryCoalesceWithNext s block) block)

/-! ## The integrity check -/

/-- The first loop: the physical chain. Ends with the address behind the last block and the number of
free blocks, or with the message of the check that failed. -/
def heapCheckPhysical (s : State) :
    Nat → UInt32 → UInt32 → UInt32 → UInt32 → Except String (UInt32 × UInt32)
  | walks, block, previous, expectedAddress, physicalFreeBlocks =>
    if block = 0 then .ok (expectedAddress, physicalFreeBlocks)
    else
      match walks with
      | 0 => .error "TERMOB: heap integrity failed (physical loop)"
      | walks + 1 =>
        if heapBlockIsSane s block = false then .error "TERMOB: heap integrity failed (invalid block)"
        else if block ≠ expectedAddress then
          .error "TERMOB: heap integrity failed (non-contiguous block chain)"
        else if s.get .prevPhys block ≠ previous then
          .error "TERMOB: heap integrity failed (broken prev_phys)"
        else if heapBlockIsFree s block = true ∧ s.get .nextPhys block ≠ 0 ∧
            heapBlockIsFree s (s.get .nextPhys block) = true then
          .error "TERMOB: heap integrity failed (adjacent free blocks not coalesced)"
        else
          heapCheckPhysical s walks (s.get .nextPhys block) block (heapBlockEndAddress s block)
            (if heapBlockIsFree s block = true then physicalFreeBlocks + 1 else physicalFreeBlocks)

/-- The second loop: the free list. Ends with the number of blocks on it. -/
def heapCheckFreeList (s : State) : Nat → UInt32 → UInt32 → UInt32 → Except String UInt32
  | walks, freeBlock, previous, freeListBlocks =>
    if freeBlock = 0 then .ok freeListBlocks
    else
      match walks with
      | 0 => .error "TERMOB: heap integrity failed (free list loop)"
      | walks + 1 =>
        if heapBlockIsSane s freeBlock = false ∨ heapBlockIsFree s freeBlock = false then
          .error "TERMOB: heap integrity failed (invalid free block)"
        else if s.get .prevFree freeBlock ≠ previous then
          .error "TERMOB: heap integrity failed (broken prev_free)"
        else if previous ≠ 0 ∧ previous ≥ freeBlock then
          .error "TERMOB: heap integrity failed (free list ordering)"
        else heapCheckFreeList s walks (s.get .nextFree freeBlock) freeBlock (freeListBlocks + 1)

/-- The third loop: every free block of the physical chain is on the free list. -/
def heapCheckListed (s : State) : Nat → UInt32 → Except String Unit
  | walks, block =>
    if block = 0 then .ok ()
    else
      match walks with
      | 0 => .error "TERMOB: heap integrity failed (physical rewalk loop)"
      | walks + 1 =>
        if heapBlockIsFree s block = true ∧ heapFreeListContains s block = false then
          .error "TERMOB: heap integrity failed (free block missing from free list)"
        else heapCheckListed s walks (s.get .nextPhys block)

/-- The three loops in turn, with the comparisons between them. -/
def heapCheckChains (s : State) : Except String Unit := do
  let maxWalks := (heapMaxWalks s).toNat
  let (expectedAddress, physicalFreeBlocks) ←
    heapCheckPhysical s maxWalks s.heapFirstBlock 0 s.heapStartPtr 0
  if expectedAddress ≠ s.heapEndPtr then throw "TERMOB: heap integrity failed (heap end mismatch)"
  let freeListBlocks ← heapCheckFreeList s maxWalks s.heapFreeList 0 0
  if freeListBlocks ≠ physicalFreeBlocks then
    throw "TERMOB: heap integrity failed (free block count mismatch)"
  heapCheckListed s maxWalks s.heapFirstBlock

def heapCheckIntegrityInternal (s : State) (logErrors : Bool) : Bool × State :=
  if s.heapReady = false ∨ s.heapFirstBlock = 0 then (false, s)
  else
    match heapCheckChains s with
    | .ok () => (true, s)
    | .error message => (false, if logErrors then heapNoteError s heapDiagIntegrity message else s)

/-! ## The public operations -/

/-- `heap_init`, with the address the linker gives `__kernel_end`. -/
def heapInit (kernelEnd : UInt32) (s : State) : State :=
  let heapStartPtr := heapAlignUp kernelEnd heapAlignment
  let heapEndPtr := heapStartPtr + heapSizeBytes
  let s :=
    { s with
      heapStartPtr, heapEndPtr
      heapFirstBlock := 0
      heapFreeList := 0
      heapReady := false
      heapDiagErrorCount := 0
      heapDiagErrorFlags := 0
      heapDiagLastErrorMessage := "none" }
  if heapEndPtr ≤ heapStartPtr + heapHeaderSize then s
  else
    let payload := heapAlignUp (heapEndPtr - heapStartPtr - heapHeaderSize) heapAlignment
    let payload := if heapStartPtr + heapHeaderSize +
      payload > heapEndPtr then payload - heapAlignment else payload
    let s := heapInitializeBlock s heapStartPtr payload 0 0 true
    { s with heapFirstBlock := heapStartPtr, heapFreeList := heapStartPtr, heapReady := true }

/-- The body of the allocation loop once a block is chosen. -/
def kmallocTake (s : State) (block alignedSize : UInt32) : Option (UInt32 × State) :=
  let (splitBlock, s) := heapSplitBlock (heapRemoveFreeBlock s block) block alignedSize
  match (if splitBlock ≠ 0 then heapInsertFreeBlock s splitBlock else some s) with
  | none => none
  | some s => some (heapBlockPayloadAddress block, heapMarkBlockUsed s block)

/-- The loop of `kmalloc`: first fit along the free list. -/
def kmallocScan (s : State) (alignedSize : UInt32) : Nat → UInt32 → Option (UInt32 × State)
  | 0, _ => none
  | fuel + 1, block =>
    if block = 0 then some (0, s)
    else if heapBlockIsSane s block = false ∨ heapBlockIsFree s block = false then
      some (0, heapNoteError s heapDiagCorruption "TERMOB: heap corruption detected during allocation")
    else if s.get .sizeBytes block ≥ alignedSize then kmallocTake s block alignedSize
    else kmallocScan s alignedSize fuel (s.get .nextFree block)

def kmalloc (s : State) (size : UInt32) : Option (UInt32 × State) :=
  if s.heapReady = false ∨ size = 0 then some (0, s)
  else kmallocScan s (heapAlignUp size heapAlignment) UInt32.size s.heapFreeList

def kcalloc (s : State) (count size : UInt32) : Option (UInt32 × State) :=
  if count = 0 ∨ size = 0 then some (0, s)
  else if count > 0xFFFFFFFF / size then some (0, s)
  else
    let totalSize := count * size
    match kmalloc s totalSize with
    | none => none
    | some (block, s) => if block = 0 then some (0, s) else
        some (block, heapZeroBytes s block totalSize.toNat)

def kfree (s : State) (ptr : UInt32) : Option State :=
  if s.heapReady = false ∨ ptr = 0 then some s
  else
    let (block, s) := heapFindBlockByPayload s ptr
    if block = 0 then some (heapNoteError s heapDiagInvalidFree "TERMOB: invalid kfree pointer")
    else if heapBlockIsFree s block = true then
      some (heapNoteError s heapDiagDoubleFree "TERMOB: double free detected")
    else (heapInsertFreeBlock s block).map fun s => (heapCoalesce s block).2

/-- The loop of `heap_largest_free_block`; the fuel counts the walks that are left. -/
def heapLargestScan (s : State) : Nat → UInt32 → UInt32 → UInt32
  | 0, _, largest => largest
  | walks + 1, block, largest =>
    if block = 0 then largest
    else
      let largest := if s.get .sizeBytes block > largest then s.get .sizeBytes block else largest
      heapLargestScan s walks (s.get .nextFree block) largest

def heapLargestFreeBlock (s : State) : UInt32 :=
  if s.heapReady = false then 0 else heapLargestScan s (heapMaxWalks s).toNat s.heapFreeList 0

/-! ## Statistics -/

def heapTotalPayloadBytes (s : State) : UInt32 :=
  if s.heapReady = false ∨ s.heapEndPtr ≤ s.heapStartPtr + heapHeaderSize then 0
  else s.heapEndPtr - s.heapStartPtr - heapHeaderSize

/-- The loop of the two counters that walk the physical chain. A block that is not sane makes the
count zero. -/
def heapCountScan (s : State) (counts : UInt32 → Bool) : Nat → UInt32 → UInt32 → UInt32
  | 0, _, count => count
  | walks + 1, block, count =>
    if block = 0 then count
    else if heapBlockIsSane s block = false then 0
    else heapCountScan s counts walks (s.get .nextPhys block)
      (if counts block = true then count + 1 else count)

def heapTotalBlockCount (s : State) : UInt32 :=
  if s.heapReady = false then 0 else heapCountScan s (fun _ => true) (heapMaxWalks s).toNat
      s.heapFirstBlock 0

def heapUsedBlockCount (s : State) : UInt32 :=
  if s.heapReady = false then 0
  else heapCountScan s (fun block => !heapBlockIsFree s block) (heapMaxWalks s).toNat s.heapFirstBlock 0

/-- The loop of the two sums over the free list, which looks at no block twice and checks none. -/
def heapFreeSum (s : State) (amount : UInt32 → UInt32) : Nat → UInt32 → UInt32 → UInt32
  | 0, _, sum => sum
  | walks + 1, block, sum =>
    if block = 0 then sum else heapFreeSum s amount walks (s.get .nextFree block) (sum + amount block)

def heapFreeBlockCount (s : State) : UInt32 :=
  if s.heapReady = false then 0 else heapFreeSum s (fun _ => 1) (heapMaxWalks s).toNat s.heapFreeList 0

def heapBytesFree (s : State) : UInt32 :=
  if s.heapReady = false then 0 else heapFreeSum s (s.get .sizeBytes) (heapMaxWalks s).toNat
      s.heapFreeList 0

def heapBytesTotal (s : State) : UInt32 := heapTotalPayloadBytes s

def heapBytesUsed (s : State) : UInt32 :=
  if heapBytesTotal s ≥ heapBytesFree s then heapBytesTotal s - heapBytesFree s else 0

end TermobKernel.Heap
