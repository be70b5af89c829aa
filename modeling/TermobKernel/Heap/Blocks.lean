import TermobKernel.Heap.FreeList

/-!
# The heap as a list of blocks

The abstract heap is a list of blocks that tile the region: an address, a payload size and a free flag
each. `Rep s bs` says that the memory and the static variables of `s` hold exactly the list `bs`: the
headers carry its sizes and flags, the physical chain runs through all of it, the free list through its
free blocks, and no two neighbours are free.
-/

namespace TermobKernel.Heap
open Word Dll

variable {bs : List Block} {lo hi : Nat} {b : Block}

/-- A block: the address of its header, its payload bytes and its flag. -/
structure Block where
  addr : UInt32
  size : UInt32
  free : Bool
  deriving DecidableEq, Repr

def Block.stop (b : Block) : Nat := b.addr.toNat + 32 + b.size.toNat

/-- The blocks lie end to end from `lo` to `hi`, with payloads of whole alignment units. -/
def Tiles : Nat → List Block → Nat → Prop
  | lo, [], hi => lo = hi
  | lo, b :: bs, hi => b.addr.toNat = lo ∧ b.size.toNat % 16 = 0 ∧ Tiles b.stop bs hi

def addrs (bs : List Block) : List UInt32 := bs.map (·.addr)

def freeAddrs (bs : List Block) : List UInt32 := (bs.filter (·.free)).map (·.addr)

@[simp] theorem addrs_append (xs ys : List Block) :
    addrs (xs ++ ys) = addrs xs ++ addrs ys := List.map_append
@[simp] theorem addrs_cons (b : Block) (bs : List Block) : addrs (b :: bs) = b.addr :: addrs bs := rfl
@[simp] theorem freeAddrs_append (xs ys : List Block) :
    freeAddrs (xs ++ ys) = freeAddrs xs ++ freeAddrs ys := by
  simp [freeAddrs]
theorem freeAddrs_cons_free (h : b.free = true) (bs : List Block) :
    freeAddrs (b :: bs) = b.addr :: freeAddrs bs := by
  simp [freeAddrs, h]
theorem freeAddrs_cons_used (h : b.free = false) (bs : List Block) :
    freeAddrs (b :: bs) = freeAddrs bs := by
  simp [freeAddrs, h]

theorem mem_addrs_of_freeAddrs {a : UInt32} (h : a ∈ freeAddrs bs) : a ∈ addrs bs := by
  simp only [freeAddrs, List.mem_map, List.mem_filter] at h
  obtain ⟨b, ⟨hb, _⟩, rfl⟩ := h
  exact List.mem_map_of_mem hb

theorem addrs_subset_append (xs : List Block) {ys zs : List Block} (h : addrs ys ⊆ addrs zs) :
    addrs (xs ++ ys) ⊆ addrs (xs ++ zs) := by
  intro a ha
  rw [addrs_append, List.mem_append] at ha ⊢
  exact ha.imp_right fun hy => h hy

/-! ### Tilings -/

theorem tiles_append {xs ys : List Block} :
    Tiles lo (xs ++ ys) hi ↔ ∃ mid, Tiles lo xs mid ∧ Tiles mid ys hi := by
  induction xs generalizing lo with
  | nil => simp [Tiles]
  | cons b xs ih =>
    simp only [List.cons_append, Tiles, ih]
    constructor
    · rintro ⟨h1, h2, mid, h3, h4⟩
      exact ⟨mid, ⟨h1, h2, h3⟩, h4⟩
    · rintro ⟨mid, ⟨h1, h2, h3⟩, h4⟩
      exact ⟨h1, h2, mid, h3, h4⟩

theorem tiles_middle {xs ys : List Block} :
    Tiles lo (xs ++ b :: ys) hi ↔
      Tiles lo xs b.addr.toNat ∧ b.size.toNat % 16 = 0 ∧ Tiles b.stop ys hi := by
  rw [tiles_append]
  constructor
  · rintro ⟨mid, h1, rfl, h2, h3⟩
    exact ⟨h1, h2, h3⟩
  · rintro ⟨h1, h2, h3⟩
    exact ⟨b.addr.toNat, h1, rfl, h2, h3⟩

section
variable (h : Tiles lo bs hi)
include h

theorem tiles_length : lo + 32 * bs.length ≤ hi := by
  induction bs generalizing lo with
  | nil =>
    have : lo = hi := h
    simp [this]
  | cons b bs ih =>
    obtain ⟨h1, _, h3⟩ := h
    have := ih h3
    simp only [Block.stop, List.length_cons] at this ⊢
    omega

theorem tiles_bounds (hb : b ∈ bs) :
    lo ≤ b.addr.toNat ∧ b.stop ≤ hi ∧ b.size.toNat % 16 = 0 := by
  obtain ⟨xs, ys, rfl⟩ := List.append_of_mem hb
  obtain ⟨h1, h2, h3⟩ := tiles_middle.mp h
  have hx := tiles_length h1
  have hy := tiles_length h3
  exact ⟨by omega, by omega, h2⟩

theorem tiles_aligned (hlo : lo % 16 = 0) :
    hi % 16 = 0 ∧ ∀ b ∈ bs, b.addr.toNat % 16 = 0 := by
  induction bs generalizing lo with
  | nil =>
    have : lo = hi := h
    exact ⟨by omega, by simp⟩
  | cons b bs ih =>
    obtain ⟨h1, h2, h3⟩ := h
    obtain ⟨h4, h5⟩ := ih h3 (by simp only [Block.stop]; omega)
    refine ⟨h4, fun c hc => ?_⟩
    rcases List.mem_cons.mp hc with rfl | hc
    · omega
    · exact h5 c hc

theorem tiles_disjoint {b c : Block} (hb : b ∈ bs)
    (hc : c ∈ bs) : b = c ∨ b.stop ≤ c.addr.toNat ∨ c.stop ≤ b.addr.toNat := by
  obtain ⟨xs, ys, rfl⟩ := List.append_of_mem hb
  obtain ⟨h1, _, h3⟩ := tiles_middle.mp h
  rcases List.mem_append.mp hc with hc | hc
  · exact Or.inr (Or.inr (tiles_bounds h1 hc).2.1)
  · rcases List.mem_cons.mp hc with rfl | hc
    · exact Or.inl rfl
    · exact Or.inr (Or.inl (tiles_bounds h3 hc).1)

theorem tiles_spread (hhi : hi ≤ 2 ^ 32) :
    Spread (· ∈ addrs bs) := by
  intro a b ha hb
  obtain ⟨x, hx, rfl⟩ := List.mem_map.mp ha
  obtain ⟨y, hy, rfl⟩ := List.mem_map.mp hb
  have hbx := (tiles_bounds h hx).2.1
  have hby := (tiles_bounds h hy).2.1
  simp only [Block.stop] at hbx hby
  rcases tiles_disjoint h hx hy with rfl | hle | hle
  · exact Or.inl rfl
  · simp only [Block.stop] at hle
    exact Or.inr (apart_of_le (by omega) (by omega))
  · simp only [Block.stop] at hle
    exact Or.inr (apart_of_le (by omega) (by omega)).symm

theorem tiles_addr_inj {b c : Block} (hb : b ∈ bs) (hc : c ∈ bs) (he : b.addr = c.addr) : b = c := by
  rcases tiles_disjoint h hb hc with heq | hle | hle
  · exact heq
  · simp only [Block.stop, he] at hle
    omega
  · simp only [Block.stop, he] at hle
    omega

end

/-! ### The representation -/

/-- The region that `heap_init` sets up: 1 MiB, aligned, not at address zero, inside the address space. -/
structure Region (s : State) : Prop where
  ready : s.heapReady = true
  start_pos : 0 < s.heapStartPtr.toNat
  aligned : s.heapStartPtr.toNat % 16 = 0
  span : s.heapEndPtr.toNat = s.heapStartPtr.toNat + 2 ^ 20

/-- The header of a block in memory. -/
structure Header (s : State) (b : Block) : Prop where
  magic : s.get .magic b.addr = heapBlockMagic
  size : s.get .sizeBytes b.addr = b.size
  free : heapBlockIsFree s b.addr = b.free

/-- The physical side: a tiling whose headers are in memory and chained in order. -/
structure Phys (s : State) (bs : List Block) : Prop where
  region : Region s
  tiles : Tiles s.heapStartPtr.toNat bs s.heapEndPtr.toNat
  chain : IsList 0 (physLinks s) (addrs bs)
  header : ∀ b ∈ bs, Header s b

def Coalesced (bs : List Block) : Prop := bs.IsChain fun b c => ¬(b.free = true ∧ c.free = true)

/-- The state holds the list of blocks. -/
structure Rep (s : State) (bs : List Block) : Prop where
  phys : Phys s bs
  listed : IsList 0 (freeLinks s) (freeAddrs bs)
  coalesced : Coalesced bs

section phys
variable {s s' : State} {bs : List Block}
variable {b : Block}

theorem Phys.spread (h : Phys s bs) : Spread (· ∈ addrs bs) :=
  tiles_spread h.tiles (Nat.le_of_lt s.heapEndPtr.toNat_lt)

theorem Phys.length_le (h : Phys s bs) : bs.length ≤ 32768 := by
  have hlen := tiles_length h.tiles
  have hspan := h.region.span
  omega

theorem Region.maxWalks (h : Region s) : (heapMaxWalks s).toNat = 65537 := by
  have hspan := h.span
  have htotal : (s.heapEndPtr - s.heapStartPtr).toNat = 2 ^ 20 := by
    rw [toNat_sub_of_le (by omega)]
    omega
  have hne : s.heapEndPtr - s.heapStartPtr ≠ 0 := by
    intro he
    rw [he] at htotal
    simp at htotal
  simp only [heapMaxWalks, if_neg hne, UInt32.toNat_add, UInt32.toNat_div, htotal]
  rfl

/-- The walk bound is never what ends a walk. -/
theorem Phys.length_lt_walks (h : Phys s bs) : bs.length < (heapMaxWalks s).toNat := by
  have h1 := h.region.maxWalks
  have h2 := h.length_le
  omega

theorem Phys.addr_ne_zero (h : Phys s bs) (hb : b ∈ bs) : b.addr ≠ 0 := by
  intro he
  have hlo := (tiles_bounds h.tiles hb).1
  have hpos := h.region.start_pos
  rw [he, UInt32.toNat_zero] at hlo
  omega

theorem Phys.payload_toNat (h : Phys s bs) (hb : b ∈ bs) :
    (heapBlockPayloadAddress b.addr).toNat = b.addr.toNat + 32 := by
  have hhi := (tiles_bounds h.tiles hb).2.1
  have hend := s.heapEndPtr.toNat_lt
  simp only [Block.stop] at hhi
  rw [heapBlockPayloadAddress, toNat_add_of_lt (by rw [heapHeaderSize_toNat]; omega), heapHeaderSize_toNat]

theorem Phys.payload_ne_zero (h : Phys s bs) (hb : b ∈ bs) : heapBlockPayloadAddress b.addr ≠ 0 := by
  intro he
  have hpay := h.payload_toNat hb
  rw [he, UInt32.toNat_zero] at hpay
  omega

theorem Phys.end_toNat (h : Phys s bs) (hb : b ∈ bs) :
    (heapBlockEndAddress s b.addr).toNat = b.stop := by
  have hhi := (tiles_bounds h.tiles hb).2.1
  have hend := s.heapEndPtr.toNat_lt
  have hpay := h.payload_toNat hb
  simp only [Block.stop] at hhi ⊢
  rw [heapBlockEndAddress, (h.header b hb).size, toNat_add_of_lt (by rw [hpay]; omega), hpay]

theorem Phys.sane (h : Phys s bs) (hb : b ∈ bs) : heapBlockIsSane s b.addr = true := by
  obtain ⟨hlo, hhi, hsize⟩ := tiles_bounds h.tiles hb
  have halign := (tiles_aligned h.tiles h.region.aligned).2 b hb
  obtain ⟨hmagic, hget, _⟩ := h.header b hb
  have hpay := h.payload_toNat hb
  have hstop := h.end_toNat hb
  simp only [Block.stop] at hhi hstop
  have hmask : ∀ x : UInt32, x.toNat % 16 = 0 → x &&& (heapAlignment - 1) = 0 := by
    intro x hx
    apply UInt32.toNat_inj.mp
    rw [show heapAlignment - 1 = UInt32.ofNat (2 ^ 4 - 1) from rfl, toNat_and_mask x 4 (by omega)]
    simpa using hx
  have hwithin : heapPointerWithinRegion s b.addr = true := by
    simp only [heapPointerWithinRegion, Bool.and_eq_true, decide_eq_true_eq, ge_iff_le,
      UInt32.le_iff_toNat_le, UInt32.lt_iff_toNat_lt]
    omega
  unfold heapBlockIsSane
  rw [if_neg (h.addr_ne_zero hb), hmask _ halign, hget, hmask _ hsize, hmagic, hwithin,
    if_neg (by simp), if_neg, if_neg (by simp), if_neg (by simp), if_neg]
  · rw [gt_iff_lt, UInt32.lt_iff_toNat_lt, UInt32.lt_iff_toNat_lt, hpay, hstop]
    omega
  · simp only [Bool.true_eq_false, false_or, UInt32.lt_iff_toNat_lt, hpay]
    omega

/-- The loops along the physical chain and along the free list of the blocks `bs`. -/
abbrev PhysScan (s : State) (bs : List Block) : Nat → UInt32 → UInt32 → List Block → Prop :=
  Scan (s.get .nextPhys) (s.get .prevPhys) 0 Block.addr (· ∈ bs)

abbrev FreeScan (s : State) (bs : List Block) : Nat → UInt32 → UInt32 → List Block → Prop :=
  Scan (s.get .nextFree) (s.get .prevFree) 0 Block.addr fun b => b ∈ bs ∧ b.free = true

theorem Phys.scan (h : Phys s bs) : PhysScan s bs (heapMaxWalks s).toNat 0 s.heapFirstBlock bs := by
  have hfirst : s.heapFirstBlock = (addrs bs).headD 0 := h.chain.head
  rw [hfirst]
  exact h.chain.seg.scan h.length_lt_walks fun b hb => ⟨h.addr_ne_zero hb, hb⟩

theorem Rep.scan (h : Rep s bs) {rounds : Nat} (hrounds : bs.length < rounds) :
    FreeScan s bs rounds 0 s.heapFreeList (bs.filter (·.free)) := by
  have hhead : s.heapFreeList = (addrs (bs.filter (·.free))).headD 0 := h.listed.head
  rw [hhead]
  refine h.listed.seg.scan ((List.length_filter_le ..).trans_lt hrounds) fun b hb => ?_
  obtain ⟨hmem, hfree⟩ := List.mem_filter.mp hb
  exact ⟨h.phys.addr_ne_zero hmem, hmem, hfree⟩

end phys

end TermobKernel.Heap
