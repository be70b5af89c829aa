import TermobKernel.Heap.FirstFit
import TermobKernel.Library.Word

/-!
# The memory of the virtqueue

`virtio_blk_queue_bytes` and the part of `virtio_blk_setup_queue` of `drivers/virtio.c` that lays
out the descriptor table, the available ring and the used ring in a block of the heap. The areas fit
for every queue size. But `virtio_blk_block_read` writes the descriptors 0, 1 and 2 whatever the
size is, and a device with a queue of one or two entries has no room for them: the third, or the
second and the third, come to lie in the available ring and behind it.
-/

namespace TermobKernel.Virtio
open Word
open Heap (HeapFits Reachable kmalloc heapAlignUp heapAlignment heapZeroBytes)

/-! ## The functions -/

/-- `sizeof(virtq_desc_t)`, and of the head and an entry of each ring. -/
def sizeofDesc : UInt32 := 16
def sizeofAvail : UInt32 := 4
def sizeofAvailEntry : UInt32 := 2
def sizeofUsedElem : UInt32 := 8

def virtioAlignUp (value alignment : UInt32) : UInt32 := (value + (alignment - 1)) &&& ~~~(alignment - 1)

def descBytes (queueSize : UInt16) : UInt32 := sizeofDesc * queueSize.toUInt32

def availBytes (queueSize : UInt16) : UInt32 := 4 + queueSize.toUInt32 * sizeofAvailEntry

def usedOffset (queueSize : UInt16) : UInt32 :=
  virtioAlignUp (descBytes queueSize + availBytes queueSize) 4096

def usedBytes (queueSize : UInt16) : UInt32 := 4 + queueSize.toUInt32 * sizeofUsedElem

def virtioBlkQueueBytes (queueSize : UInt16) : UInt32 := usedOffset queueSize + usedBytes queueSize

/-- The fields of `virtio_blk_state_t` about the memory of the queue. -/
structure QueueLayout where
  queueMemory : UInt32
  queueMemoryBytes : UInt32
  descTable : UInt32
  availRing : UInt32
  usedRing : UInt32
  deriving DecidableEq, Repr

/-- The addresses that follow from the block. -/
def queueLayout (queueSize : UInt16) (queueMemory : UInt32) : QueueLayout :=
  let alignedBase := virtioAlignUp queueMemory 4096
  { queueMemory
    queueMemoryBytes := virtioBlkQueueBytes queueSize
    descTable := alignedBase
    availRing := alignedBase + descBytes queueSize
    usedRing := alignedBase + usedOffset queueSize }

/-- `virtio_blk_setup_queue` from the queue size of the device on, as far as the memory is
concerned. The first component is `none` if the set-up fails. -/
def virtioBlkSetupQueue (heap : Heap.State) (queueSize : UInt16) :
    Option (Option QueueLayout × Heap.State) :=
  if queueSize = 0 then some (none, heap)
  else
    match kmalloc heap (virtioBlkQueueBytes queueSize + 4096) with
    | none => none
    | some (queueMemory, heap) =>
      if queueMemory = 0 then some (none, heap)
      else
        let layout := queueLayout queueSize queueMemory
        some (some layout, heapZeroBytes heap layout.descTable layout.queueMemoryBytes.toNat)

/-! ## Areas -/

structure Area where
  start : Nat
  length : Nat
  deriving DecidableEq, Repr

def Area.Inside (a b : Area) : Prop := b.start ≤ a.start ∧ a.start + a.length ≤ b.start + b.length

def Area.Apart (a b : Area) : Prop := a.start + a.length ≤ b.start ∨ b.start + b.length ≤ a.start

instance (a b : Area) : Decidable (a.Inside b) := inferInstanceAs (Decidable (_ ∧ _))
instance (a b : Area) : Decidable (a.Apart b) := inferInstanceAs (Decidable (_ ∨ _))

section Areas
variable (queueSize : UInt16) (l : QueueLayout)

def allocated : Area := ⟨l.queueMemory.toNat, (virtioBlkQueueBytes queueSize).toNat + 4096⟩

def descArea : Area := ⟨l.descTable.toNat, 16 * queueSize.toNat⟩

def availArea : Area := ⟨l.availRing.toNat, 4 + 2 * queueSize.toNat⟩

def usedArea : Area := ⟨l.usedRing.toNat, 4 + 8 * queueSize.toNat⟩

def descAccess (index : UInt32) : Area := ⟨(l.descTable + index * sizeofDesc).toNat, 16⟩

def availSlotAccess (availIndex : UInt16) : Area :=
  ⟨(l.availRing + sizeofAvail + (availIndex % queueSize).toUInt32 * sizeofAvailEntry).toNat, 2⟩

def usedIndexAccess : Area := ⟨(l.usedRing + 2).toNat, 2⟩

/-- The areas are apart and inside the block, and the used ring starts at a multiple of the page size. -/
structure AreasSound : Prop where
  desc : (descArea queueSize l).Inside (allocated queueSize l)
  avail : (availArea queueSize l).Inside (allocated queueSize l)
  used : (usedArea queueSize l).Inside (allocated queueSize l)
  descAvail : (descArea queueSize l).Apart (availArea queueSize l)
  descUsed : (descArea queueSize l).Apart (usedArea queueSize l)
  availUsed : (availArea queueSize l).Apart (usedArea queueSize l)
  page : l.usedRing.toNat % 4096 = 0

/-- A layout in which `virtio_blk_block_read` keeps to the areas. -/
structure LayoutSound : Prop extends AreasSound queueSize l where
  descriptors : ∀ index : UInt32, index < 3 → (descAccess l index).Inside (descArea queueSize l)
  availSlot : ∀ availIndex, (availSlotAccess queueSize l availIndex).Inside (availArea queueSize l)
  usedIndex : (usedIndexAccess l).Inside (usedArea queueSize l)

end Areas

/-! ## The sizes in exact integers -/

theorem virtioAlignUp_toNat (value : UInt32) :
    (virtioAlignUp value 4096).toNat = (value.toNat + 4095) % 2 ^ 32 / 4096 * 4096 := by
  rw [virtioAlignUp, show (4096 : UInt32) - 1 = UInt32.ofNat (2 ^ 12 - 1) from rfl,
    toNat_and_not_mask _ 12 (by omega), UInt32.toNat_add]
  rfl

section Sizes
variable (queueSize : UInt16)

theorem descBytes_toNat : (descBytes queueSize).toNat = 16 * queueSize.toNat := by
  have hlt := queueSize.toNat_lt
  rw [descBytes, sizeofDesc, UInt32.toNat_mul, UInt16.toNat_toUInt32]
  change 16 * _ % 2 ^ 32 = _
  omega

theorem availBytes_toNat : (availBytes queueSize).toNat = 4 + 2 * queueSize.toNat := by
  have hlt := queueSize.toNat_lt
  rw [availBytes, sizeofAvailEntry, UInt32.toNat_add, UInt32.toNat_mul, UInt16.toNat_toUInt32]
  change (4 + _ * 2 % 2 ^ 32) % 2 ^ 32 = _
  omega

theorem usedBytes_toNat : (usedBytes queueSize).toNat = 4 + 8 * queueSize.toNat := by
  have hlt := queueSize.toNat_lt
  rw [usedBytes, sizeofUsedElem, UInt32.toNat_add, UInt32.toNat_mul, UInt16.toNat_toUInt32]
  change (4 + _ * 8 % 2 ^ 32) % 2 ^ 32 = _
  omega

theorem usedOffset_toNat : (usedOffset queueSize).toNat = (18 * queueSize.toNat + 4099) / 4096 * 4096 := by
  have hlt := queueSize.toNat_lt
  have hsum : (descBytes queueSize + availBytes queueSize).toNat = 18 * queueSize.toNat + 4 := by
    rw [UInt32.toNat_add, descBytes_toNat, availBytes_toNat]
    omega
  rw [usedOffset, virtioAlignUp_toNat, hsum, Nat.mod_eq_of_lt (by omega)]

theorem queueBytes_toNat : (virtioBlkQueueBytes queueSize).toNat =
    (18 * queueSize.toNat + 4099) / 4096 * 4096 + (4 + 8 * queueSize.toNat) := by
  have hlt := queueSize.toNat_lt
  rw [virtioBlkQueueBytes, UInt32.toNat_add, usedOffset_toNat, usedBytes_toNat]
  omega

end Sizes

/-! ## The layout -/

theorem kmalloc_range {kernelEnd : UInt32} (hfits : HeapFits kernelEnd) {heap heap' : Heap.State}
    (hreach : Reachable kernelEnd heap) {bytes p : UInt32} (hbytes : bytes.toNat ≤ 2 ^ 32 - 16)
    (hk : kmalloc heap bytes = some (p, heap')) (hp : p ≠ 0) : p.toNat + bytes.toNat < 2 ^ 32 := by
  rcases hreach.kmalloc_cases hfits bytes with ⟨_, hnull, _⟩ | ⟨b, _, hrep, hmem, _, _, hfit, hserved⟩
  · rw [hnull] at hk
    exact absurd (Prod.mk.inj (Option.some.inj hk)).1.symm hp
  · rw [hserved] at hk
    have hpay := hrep.phys.payload_toNat hmem
    have hstop := (Heap.tiles_bounds hrep.phys.tiles hmem).2.1
    have hend := heap.heapEndPtr.toNat_lt
    simp only [Heap.Block.stop] at hstop
    rw [UInt32.le_iff_toNat_le, Heap.heapAlignUp_toNat] at hfit
    rw [← (Prod.mk.inj (Option.some.inj hk)).1]
    omega

theorem queueLayout_toNat (queueSize : UInt16) {queueMemory : UInt32}
    (hrange : queueMemory.toNat + ((virtioBlkQueueBytes queueSize).toNat + 4096) < 2 ^ 32) :
    let base := (queueMemory.toNat + 4095) / 4096 * 4096
    (queueLayout queueSize queueMemory).descTable.toNat = base ∧
      (queueLayout queueSize queueMemory).availRing.toNat = base + 16 * queueSize.toNat ∧
      (queueLayout queueSize queueMemory).usedRing.toNat = base +
        (18 * queueSize.toNat + 4099) / 4096 * 4096 := by
  intro base
  rw [queueBytes_toNat] at hrange
  have hbase : (virtioAlignUp queueMemory 4096).toNat = base := by
    rw [virtioAlignUp_toNat]
    omega
  have hle : base ≤ queueMemory.toNat + 4095 := Nat.div_mul_le_self _ _
  refine ⟨hbase, ?_, ?_⟩
  · change (virtioAlignUp queueMemory 4096 + descBytes queueSize).toNat = _
    rw [toNat_add_of_lt (by rw [hbase, descBytes_toNat]; omega), hbase, descBytes_toNat]
  · change (virtioAlignUp queueMemory 4096 + usedOffset queueSize).toNat = _
    rw [toNat_add_of_lt (by rw [hbase, usedOffset_toNat]; omega), hbase, usedOffset_toNat]

theorem queueLayout_areas (queueSize : UInt16) {queueMemory : UInt32}
    (hrange : queueMemory.toNat + ((virtioBlkQueueBytes queueSize).toNat + 4096) < 2 ^ 32) :
    AreasSound queueSize (queueLayout queueSize queueMemory) := by
  obtain ⟨hdesc, havail, hused⟩ := queueLayout_toNat queueSize hrange
  have hbytes := queueBytes_toNat queueSize
  have hmemory : (queueLayout queueSize queueMemory).queueMemory = queueMemory := rfl
  constructor
  all_goals
    simp only [Area.Inside, Area.Apart, descArea, availArea, usedArea, allocated, hmemory, hdesc,
      havail, hused, hbytes]
    omega

section Accesses
variable {queueSize : UInt16} {queueMemory : UInt32}
  (hrange : queueMemory.toNat + ((virtioBlkQueueBytes queueSize).toNat + 4096) < 2 ^ 32)
include hrange

theorem availSlot_inside (hpos : queueSize ≠ 0) (availIndex : UInt16) :
    (availSlotAccess queueSize (queueLayout queueSize queueMemory) availIndex).Inside
      (availArea queueSize (queueLayout queueSize queueMemory)) := by
  obtain ⟨_, havail, _⟩ := queueLayout_toNat queueSize hrange
  have hbytes := queueBytes_toNat queueSize
  have hmod : (availIndex % queueSize).toNat < queueSize.toNat := by
    rw [UInt16.toNat_mod]
    exact Nat.mod_lt _ (Nat.pos_of_ne_zero fun h0 => hpos (UInt16.toNat_inj.mp h0))
  have hslot : ((availIndex % queueSize).toUInt32 * sizeofAvailEntry).toNat =
      (availIndex % queueSize).toNat * 2 := by
    have hlt := (availIndex % queueSize).toNat_lt
    rw [sizeofAvailEntry, UInt32.toNat_mul, UInt16.toNat_toUInt32]
    change _ * 2 % 2 ^ 32 = _
    omega
  have haddress : ((queueLayout queueSize queueMemory).availRing + sizeofAvail +
      (availIndex % queueSize).toUInt32 * sizeofAvailEntry).toNat =
        (queueLayout queueSize queueMemory).availRing.toNat + 4 + (availIndex % queueSize).toNat * 2 := by
    rw [UInt32.toNat_add, UInt32.toNat_add, hslot, sizeofAvail, havail]
    change ((_ + 4) % 2 ^ 32 + _) % 2 ^ 32 = _
    omega
  rw [availSlotAccess, haddress]
  simp only [Area.Inside, availArea]
  omega

theorem usedIndex_inside : (usedIndexAccess (queueLayout queueSize queueMemory)).Inside
    (usedArea queueSize (queueLayout queueSize queueMemory)) := by
  obtain ⟨_, _, hused⟩ := queueLayout_toNat queueSize hrange
  have hbytes := queueBytes_toNat queueSize
  have haddress : ((queueLayout queueSize queueMemory).usedRing + 2).toNat =
      (queueLayout queueSize queueMemory).usedRing.toNat + 2 :=
      toNat_add_of_lt (by rw [hused]; change _ + 2 < _; omega)
  rw [usedIndexAccess, haddress]
  simp only [Area.Inside, usedArea]
  omega

theorem descAccess_inside_iff {index : UInt32} (hindex : index < 3) :
    (descAccess (queueLayout queueSize queueMemory) index).Inside
        (descArea queueSize (queueLayout queueSize queueMemory)) ↔ index.toNat < queueSize.toNat := by
  obtain ⟨hdesc, _, _⟩ := queueLayout_toNat queueSize hrange
  have hbytes := queueBytes_toNat queueSize
  rw [UInt32.lt_iff_toNat_lt] at hindex
  change index.toNat < 3 at hindex
  have haddress : ((queueLayout queueSize queueMemory).descTable + index * sizeofDesc).toNat =
      (queueLayout queueSize queueMemory).descTable.toNat + index.toNat * 16 := by
    rw [UInt32.toNat_add, UInt32.toNat_mul, sizeofDesc, hdesc]
    change (_ + _ * 16 % 2 ^ 32) % 2 ^ 32 = _
    omega
  rw [descAccess, haddress]
  simp only [Area.Inside, descArea]
  omega

end Accesses

/-- **The layout of the virtqueue.** Whenever the set-up succeeds, in any reachable state of the
heap and for any queue size, the areas are apart and inside the block; and a read keeps to them if
and only if the queue has at least three entries. -/
theorem queue_layout_sound_iff {kernelEnd : UInt32} (hfits : HeapFits kernelEnd) {heap heap' : Heap.State}
    (hreach : Reachable kernelEnd heap) {queueSize : UInt16} {layout : QueueLayout}
    (hsetup : virtioBlkSetupQueue heap queueSize = some (some layout, heap')) :
    AreasSound queueSize layout ∧ (LayoutSound queueSize layout ↔ 3 ≤ queueSize) := by
  have hlt := queueSize.toNat_lt
  have hbytes := queueBytes_toNat queueSize
  have hrequest : (virtioBlkQueueBytes queueSize + 4096).toNat =
      (virtioBlkQueueBytes queueSize).toNat + 4096 :=
    toNat_add_of_lt (by rw [hbytes]; change _ + 4096 < _; omega)
  -- The set-up has got a block, and the layout is the one of this block.
  unfold virtioBlkSetupQueue at hsetup
  by_cases hzero : queueSize = 0
  · rw [if_pos hzero] at hsetup
    simp at hsetup
  rw [if_neg hzero] at hsetup
  cases hk : kmalloc heap (virtioBlkQueueBytes queueSize + 4096) with
  | none => simp [hk] at hsetup
  | some result =>
    obtain ⟨queueMemory, heap₁⟩ := result
    rw [hk] at hsetup
    dsimp only at hsetup
    by_cases hnull : queueMemory = 0
    · rw [if_pos hnull] at hsetup
      simp at hsetup
    rw [if_neg hnull] at hsetup
    simp only [Option.some.injEq, Prod.mk.injEq] at hsetup
    obtain ⟨rfl, _⟩ := hsetup
    have hrange := kmalloc_range hfits hreach (by rw [hrequest, hbytes]; omega) hk hnull
    rw [hrequest] at hrange
    have hareas := queueLayout_areas queueSize hrange
    refine ⟨hareas, ?_⟩
    rw [UInt16.le_iff_toNat_le]
    change _ ↔ 3 ≤ queueSize.toNat
    constructor
    · intro h
      exact (descAccess_inside_iff hrange (by decide)).mp (h.descriptors 2 (by decide))
    · intro hthree
      refine ⟨hareas, fun index hindex => (descAccess_inside_iff hrange hindex).mpr ?_,
        availSlot_inside hrange hzero, usedIndex_inside hrange⟩
      rw [UInt32.lt_iff_toNat_lt] at hindex
      change index.toNat < 3 at hindex
      omega

/-- A queue of 128 entries after `heap_init`. -/
theorem queue_layout_sound_128 : ∃ layout heap',
    virtioBlkSetupQueue (Heap.heapInit 0x00200000 Heap.bootState) 128 = some (some layout, heap') ∧
      LayoutSound 128 layout := by
  have hfirst : (virtioBlkSetupQueue (Heap.heapInit 0x00200000 Heap.bootState) 128).map (·.1) =
      some (some (queueLayout 128 0x00200020)) := by decide +kernel
  obtain ⟨⟨layout, heap'⟩, hsetup, hlayout⟩ := Option.map_eq_some_iff.mp hfirst
  subst hlayout
  exact ⟨_, heap', hsetup,
    (queue_layout_sound_iff (by decide) Heap.reachable_init hsetup).2.mpr (by decide)⟩

/-- A queue of two entries after `heap_init`: the third descriptor is the start of the available ring. -/
theorem third_descriptor_outside :
    (virtioBlkSetupQueue (Heap.heapInit 0x00200000 Heap.bootState) 2).map (·.1) =
        some (some (queueLayout 2 0x00200020)) ∧
      ¬(descAccess (queueLayout 2 0x00200020) 2).Inside (descArea 2 (queueLayout 2 0x00200020)) ∧
      (descAccess (queueLayout 2 0x00200020) 2).start = (availArea 2 (queueLayout 2 0x00200020)).start := by
  decide +kernel

end TermobKernel.Virtio
