import Mathlib.Tactic

/-!
# Block devices

`core/block.c` as the file system sees it. A device is its sector size, its contents and a pattern of
failures: whether an access fails may depend on how many accesses went before and on the sector. Buffers
are maps from byte indices; a successful access fills one sector of the buffer, a failed one has no effect.

The null checks of pointer arguments are not modelled, and neither are the parts of a device record that
only the listing on the terminal uses.
-/

namespace TermobKernel.Fat

abbrev Buffer := Nat → UInt8

structure BlockDevice where
  sectorSizeBytes : UInt32
  /-- The driver supplied a `read` function. -/
  hooked : Bool
  /-- The bytes of each sector. -/
  image : UInt32 → Buffer
  /-- Whether an access to this sector fails when it comes after `n` others. -/
  fails : Nat → UInt32 → Bool

structure Disks where
  blockReady : Bool
  blockDeviceList : List BlockDevice

/-- What changes when devices are accessed: the sectors asked for so far and the kernel log. -/
structure Io where
  accesses : List UInt32
  log : List String
  deriving Repr, DecidableEq

def Io.note (io : Io) (message : String) : Io := { io with log := io.log ++ [message] }

/-- One call of the driver's `read` for one sector, into the buffer from byte `base` on. -/
def BlockDevice.read (device : BlockDevice) (lba : UInt32) (buffer : Buffer) (base : Nat) (io : Io) :
    Option Buffer × Io :=
  let result :=
    if device.fails io.accesses.length lba then none
    else some fun i =>
      if base ≤ i ∧ i < base + device.sectorSizeBytes.toNat then device.image lba (i - base) else buffer i
  (result, { io with accesses := io.accesses ++ [lba] })

def blockDeviceAt (d : Disks) (index : UInt32) : Option BlockDevice :=
  if d.blockReady = false then none else d.blockDeviceList[index.toNat]?

def blockReadLoop (device : BlockDevice) (lba : UInt32) (buffer : Buffer) (io : Io) :
    Nat → Option Buffer × Io
  | 0 => (some buffer, io)
  | n + 1 =>
    match blockReadLoop device lba buffer io n with
    | (none, io) => (none, io)
    | (some buffer, io) =>
      device.read (lba + UInt32.ofNat n) buffer (n * device.sectorSizeBytes.toNat) io

def blockReadDevice (d : Disks) (index lba sectorCount : UInt32) (buffer : Buffer) (io : Io) :
    Option Buffer × Io :=
  match blockDeviceAt d index with
  | none => (none, io)
  | some device =>
    if device.hooked = false ∨ sectorCount = 0 then (none, io)
    else if sectorCount = 1 then device.read lba buffer 0 io
    else if device.sectorSizeBytes = 0 then (none, io)
    else blockReadLoop device lba buffer io sectorCount.toNat

/-! ### What a read of consecutive sectors does -/

def sectorRun (lba : UInt32) (n : Nat) : List UInt32 := (List.range n).map fun k => lba + UInt32.ofNat k

theorem sectorRun_succ (lba : UInt32) (n : Nat) :
    sectorRun lba (n + 1) = sectorRun lba n ++ [lba + UInt32.ofNat n] := by
  simp [sectorRun, List.range_succ]

theorem sectorRun_cons (lba : UInt32) (n : Nat) : sectorRun lba (n + 1) = lba :: sectorRun (lba + 1) n := by
  rw [sectorRun, List.range_succ_eq_map, List.map_cons, List.map_map]
  refine congr (congrArg _ (UInt32.add_zero lba)) (List.map_congr_left fun k _ => ?_)
  dsimp only [Function.comp]
  rw [UInt32.add_assoc, UInt32.add_comm 1, Nat.succ_eq_add_one, UInt32.ofNat_add]
  rfl

theorem sectorRun_length (lba : UInt32) (n : Nat) : (sectorRun lba n).length = n := by
  simp [sectorRun]

def Io.accessed (io : Io) (lbas : List UInt32) : Io := { io with accesses := io.accesses ++ lbas }

theorem Io.accessed_nil (io : Io) : io.accessed [] = io := by
  simp [Io.accessed]

/-- None of the next `n` accesses, to the sectors from `lba` on, fails. -/
def BlockDevice.Serves (device : BlockDevice) (io : Io) (lba : UInt32) (n : Nat) : Prop :=
  ∀ k < n, device.fails (io.accesses.length + k) (lba + UInt32.ofNat k) = false

instance (device : BlockDevice) (io : Io) (lba : UInt32) (n : Nat) : Decidable (device.Serves io lba n) :=
  inferInstanceAs (Decidable (∀ k < n, _))

/-- Of the next accesses, to `n` sectors from `lba` on, the `k`-th is made and fails. -/
def BlockDevice.StopsAfter (device : BlockDevice) (io : Io) (lba : UInt32) (n k : Nat) : Prop :=
  ∃ j < n, k = j + 1 ∧ device.fails (io.accesses.length + j) (lba + UInt32.ofNat j) = true

/-- The buffer after `n` sectors from `lba` on were read into it. -/
def BlockDevice.filled (device : BlockDevice) (lba : UInt32) (n : Nat) (buffer : Buffer) :
    Buffer := fun i =>
  if i < n * device.sectorSizeBytes.toNat then
    device.image (lba + UInt32.ofNat (i / device.sectorSizeBytes.toNat)) (i % device.sectorSizeBytes.toNat)
  else buffer i

theorem BlockDevice.filled_succ (device : BlockDevice) (lba : UInt32) (n : Nat) (buffer : Buffer) :
    device.filled lba (n + 1) buffer = fun i =>
      if n * device.sectorSizeBytes.toNat ≤ i ∧
          i < n * device.sectorSizeBytes.toNat + device.sectorSizeBytes.toNat then
        device.image (lba + UInt32.ofNat n) (i - n * device.sectorSizeBytes.toNat)
      else device.filled lba n buffer i := by
  funext i
  unfold BlockDevice.filled
  generalize device.sectorSizeBytes.toNat = size
  rw [Nat.add_one_mul]
  by_cases hlow : i < n * size
  · rw [if_pos (by omega), if_neg (by omega), if_pos hlow]
  · by_cases hhigh : i < n * size + size
    · have hdiv : i / size = n := Nat.div_eq_of_lt_le (by omega) (by rw [Nat.add_one_mul]; omega)
      have hmod : i % size = i - n * size := by
        rw [Nat.mod_eq_sub_mul_div, hdiv, Nat.mul_comm]
      rw [if_pos hhigh, if_pos (by omega), hdiv, hmod]
    · rw [if_neg hhigh, if_neg (by omega), if_neg hlow]

theorem blockReadLoop_spec (device : BlockDevice) (lba : UInt32) (buffer : Buffer) (io : Io) (n : Nat) :
    (device.Serves io lba n ∧
      blockReadLoop device lba buffer io n =
        (some (device.filled lba n buffer), io.accessed (sectorRun lba n))) ∨
    (¬device.Serves io lba n ∧ ∃ k, device.StopsAfter io lba n k ∧
      blockReadLoop device lba buffer io n = (none, io.accessed (sectorRun lba k))) := by
  induction n with
  | zero =>
    left
    refine ⟨fun k hk => absurd hk (Nat.not_lt_zero k), ?_⟩
    have hfilled : device.filled lba 0 buffer = buffer := by
      funext i
      simp [BlockDevice.filled]
    simp [hfilled, blockReadLoop, sectorRun, Io.accessed_nil]
  | succ n ih =>
    rcases ih with ⟨hserves, hloop⟩ | ⟨hfails, k, ⟨j, hj, hstops⟩, hloop⟩
    · have hlen : (io.accessed (sectorRun lba n)).accesses.length = io.accesses.length + n := by
        simp [Io.accessed, sectorRun_length]
      have hacc : { io.accessed (sectorRun lba n) with
          accesses := (io.accessed (sectorRun lba n)).accesses ++ [lba + UInt32.ofNat n] } =
            io.accessed (sectorRun lba (n + 1)) := by
        simp [Io.accessed, sectorRun_succ]
      rw [blockReadLoop, hloop]
      dsimp only [BlockDevice.read]
      rw [hlen, hacc]
      by_cases hf : device.fails (io.accesses.length + n) (lba + UInt32.ofNat n) = true
      · right
        refine ⟨fun h => ?_, n + 1, ⟨n, Nat.lt_succ_self n, rfl, hf⟩, by rw [if_pos hf]⟩
        exact absurd hf (by rw [h n (Nat.lt_succ_self n)]; decide)
      · left
        refine ⟨fun k hk => ?_, by rw [if_neg hf, BlockDevice.filled_succ]⟩
        rcases Nat.lt_succ_iff_lt_or_eq.mp hk with hk | rfl
        · exact hserves k hk
        · simpa using hf
    · right
      refine ⟨fun h => hfails fun k hk => h k (Nat.lt_succ_of_lt hk), k,
        ⟨j, Nat.lt_succ_of_lt hj, hstops⟩, ?_⟩
      rw [blockReadLoop, hloop]

theorem blockReadLoop_one (device : BlockDevice) (lba : UInt32) (buffer : Buffer) (io : Io) :
    blockReadLoop device lba buffer io 1 = device.read lba buffer 0 io := by
  simp [blockReadLoop]

theorem blockReadDevice_eq_loop {d : Disks} {index : UInt32} {device : BlockDevice}
    (hfound : blockDeviceAt d index = some device) (hhooked : device.hooked = true)
    (hsize : device.sectorSizeBytes ≠ 0) (lba : UInt32) {sectorCount : UInt32} (hcount : sectorCount ≠ 0)
    (buffer : Buffer) (io : Io) :
    blockReadDevice d index lba sectorCount buffer io =
      blockReadLoop device lba buffer io sectorCount.toNat := by
  unfold blockReadDevice
  rw [hfound]
  dsimp only
  rw [if_neg (by simp [hhooked, hcount])]
  by_cases hone : sectorCount = 1
  · rw [if_pos hone, hone]
    exact (blockReadLoop_one device lba buffer io).symm
  · rw [if_neg hone, if_neg hsize]

theorem blockReadDevice_accesses (d : Disks) (index lba sectorCount : UInt32) (buffer : Buffer) (io : Io) :
    ∃ k ≤ sectorCount.toNat,
      (blockReadDevice d index lba sectorCount buffer io).2 = io.accessed (sectorRun lba k) := by
  have hloop : ∀ device : BlockDevice, ∃ k ≤ sectorCount.toNat,
      (blockReadLoop device lba buffer io sectorCount.toNat).2 = io.accessed (sectorRun lba k) := by
    intro device
    rcases blockReadLoop_spec device lba buffer io sectorCount.toNat with
      ⟨_, h⟩ | ⟨_, k, ⟨j, hj, rfl, _⟩, h⟩
    · exact ⟨_, le_refl _, by rw [h]⟩
    · exact ⟨j + 1, hj, by rw [h]⟩
  have hnothing : io = io.accessed (sectorRun lba 0) := (Io.accessed_nil io).symm
  unfold blockReadDevice
  cases blockDeviceAt d index with
  | none => exact ⟨0, Nat.zero_le _, hnothing⟩
  | some device =>
    dsimp only
    split_ifs with hoff hone hsize
    · exact ⟨0, Nat.zero_le _, hnothing⟩
    · have hone' := hloop device
      rw [hone] at hone' ⊢
      rw [← blockReadLoop_one]
      exact hone'
    · exact ⟨0, Nat.zero_le _, hnothing⟩
    · exact hloop device

end TermobKernel.Fat
