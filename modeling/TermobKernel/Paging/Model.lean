import TermobKernel.Pmm.Model
import TermobKernel.Library.Pages

/-!
# Paging

`core/paging.c`: the two-level table that maps the low end of the address space to itself, built in frames
of the frame allocator, and the translation that the processor makes of it. The tables live in the memory
of the heap's state, which is the memory of the machine. A counting loop is a recursion on the number of
rounds that are left.
-/

namespace TermobKernel.Paging
open Boot Pmm Pages

def pagingPageSize : UInt32 := 4096
def pagingTableEntries : UInt32 := 1024
def pagingDirectoryEntries : UInt32 := 1024
def pagingBytesPerTable : UInt32 := pagingPageSize * pagingTableEntries
def pagingMinIdentityBytes : UInt32 := 16 * 1024 * 1024
def pagingFlagPresent : UInt32 := 0x001
def pagingFlagRw : UInt32 := 0x002

structure State where
  pagingDirectoryPhysical : UInt32
  pagingIdentityBytes : UInt32
  pagingTablesCount : UInt32
  pagingReady : Bool
  deriving DecidableEq, Repr

/-- What `paging_init` reads and writes: the modules initialised before it, the two control
registers and its own variables. -/
structure System where
  boot : BootInfo
  heap : Heap.State
  pmm : Pmm.State
  cr0 : UInt32
  cr3 : UInt32
  paging : State

def pagingAlignUp (value alignment : UInt32) : UInt32 := (value + (alignment - 1)) &&& ~~~(alignment - 1)

/-- The words of the page from `index` on are set to zero. -/
def pagingZeroWords (physicalAddress : UInt32) : Nat → UInt32 → Mem → Mem
  | 0, _, mem => mem
  | rounds + 1, index, mem =>
    pagingZeroWords physicalAddress rounds (index + 1) (mem.store32 (slot physicalAddress index) 0)

def pagingZeroPage (mem : Mem) (physicalAddress : UInt32) : Mem :=
  pagingZeroWords physicalAddress (pagingPageSize / 4).toNat 0 mem

def pagingIdentityLimitBytes (boot : BootInfo) (heap : Heap.State) : UInt32 :=
  let limit := heap.heapEndPtr
  let limit := if limit < pagingMinIdentityBytes then pagingMinIdentityBytes else limit
  let limit :=
    if boot.ready then
      let bootinfoEnd := boot.infoAddress + boot.infoSize
      if bootinfoEnd > limit then bootinfoEnd else limit
    else limit
  pagingAlignUp limit pagingBytesPerTable

/-- The inner loop: the entries of one table, from `pageIndex` on. It returns `physical_address` as well. -/
def pagingFillTable (pageTable identityBytes : UInt32) : Nat → UInt32 → UInt32 → Mem → UInt32 × Mem
  | 0, _, physicalAddress, mem => (physicalAddress, mem)
  | rounds + 1, pageIndex, physicalAddress, mem =>
    if physicalAddress < identityBytes then
      pagingFillTable pageTable identityBytes rounds (pageIndex + 1) (physicalAddress + pagingPageSize)
        (mem.store32 (slot pageTable pageIndex) (physicalAddress ||| pagingFlagPresent ||| pagingFlagRw))
    else (physicalAddress, mem)

/-- The outer loop. `false` is a table for which there is no frame. -/
def pagingTableLoop (pageDirectory identityBytes : UInt32) :
    Nat → UInt32 → UInt32 → Pmm.State → Mem → Bool × Pmm.State × Mem
  | 0, _, _, pmm, mem => (true, pmm, mem)
  | rounds + 1, tableIndex, physicalAddress, pmm, mem =>
    let tablePhysical := (pmmAllocFrame pmm).1
    let pmm := (pmmAllocFrame pmm).2
    if tablePhysical = 0 then (false, pmm, mem)
    else
      let filled := pagingFillTable tablePhysical identityBytes pagingTableEntries.toNat 0 physicalAddress
        (pagingZeroPage mem tablePhysical)
      pagingTableLoop pageDirectory identityBytes rounds (tableIndex + 1) filled.1 pmm
        (filled.2.store32 (slot pageDirectory tableIndex)
          (tablePhysical ||| pagingFlagPresent ||| pagingFlagRw))

def pagingReset : State := ⟨0, 0, 0, false⟩

/-- The end of `paging_init`, with what the outer loop returned: the control registers are loaded once all
tables are there. -/
def pagingEnable (s : System) (directory identityBytes tablesCount : UInt32)
    (built : Bool × Pmm.State × Mem) : System :=
  let s := { s with pmm := built.2.1, heap := { s.heap with mem := built.2.2 } }
  if built.1 = false then s
  else
    { s with
      cr0 := s.cr0 ||| 0x80000000
      cr3 := directory
      paging := ⟨directory, identityBytes, tablesCount, true⟩ }

/-- `paging_init` after the checks of the two modules it needs. -/
def pagingBuild (s : System) (identityBytes tablesCount : UInt32) : System :=
  if tablesCount = 0 ∨ tablesCount > pagingDirectoryEntries then s
  else if (pmmAllocFrame s.pmm).1 = 0 then { s with pmm := (pmmAllocFrame s.pmm).2 }
  else
    pagingEnable s (pmmAllocFrame s.pmm).1 identityBytes tablesCount
      (pagingTableLoop (pmmAllocFrame s.pmm).1 identityBytes tablesCount.toNat 0 0 (pmmAllocFrame s.pmm).2
        (pagingZeroPage s.heap.mem (pmmAllocFrame s.pmm).1))

/-- `paging_init`. A return before the end leaves the variables reset. -/
def pagingInit (s : System) : System :=
  if s.pmm.pmmReady = false ∨ s.heap.heapReady = false then { s with paging := pagingReset }
  else
    pagingBuild { s with paging := pagingReset } (pagingIdentityLimitBytes s.boot s.heap)
      (pagingIdentityLimitBytes s.boot s.heap / pagingBytesPerTable)

/-! ## The processor -/

/-- What a present translation gives. -/
structure Translation where
  physical : UInt32
  writable : Bool
  deriving DecidableEq, Repr

/-- The walk of the processor from the directory that `cr3` holds, with 4 KiB pages. `none` is a
page that is not present. -/
def translate (mem : Mem) (cr3 v : UInt32) : Option Translation :=
  let pde := word mem (cr3 &&& ~~~0xFFF) (v >>> 22)
  if pde &&& pagingFlagPresent = 0 then none
  else
    let pte := word mem (pde &&& ~~~0xFFF) ((v >>> 12) &&& 0x3FF)
    if pte &&& pagingFlagPresent = 0 then none
    else
      some
        { physical := (pte &&& ~~~0xFFF) ||| (v &&& 0xFFF)
          writable := pde &&& pagingFlagRw != 0 && pte &&& pagingFlagRw != 0 }

end TermobKernel.Paging
