import TermobKernel.Fat.Volume
import TermobKernel.Library.Word

/-!
# The geometry of a mounted volume

What `fat_mount` has checked when it accepts a volume (`Mounted`), and what follows for the layout. The
checks are made in wrapping 32-bit arithmetic, so that the areas of the volume are where the fields say only
as long as the exact sums fit into a word.
-/

namespace TermobKernel.Fat
open Word

variable {io io' : Io} {d : Disks}

/-- What is known of a volume that `fat_mount` accepted. -/
structure Mounted (d : Disks) (fs : FatFs) (device : BlockDevice) : Prop where
  found : blockDeviceAt d fs.deviceIndex = some device
  hooked : device.hooked = true
  bytesPerSector : fs.bytesPerSector = 512 ∨ fs.bytesPerSector = 1024 ∨ fs.bytesPerSector = 2048 ∨
    fs.bytesPerSector = 4096
  sectorSize : fs.bytesPerSector = device.sectorSizeBytes
  sectorsPerCluster : fatIsPowerOfTwo fs.sectorsPerCluster = true ∧ ¬fs.sectorsPerCluster > 128
  reservedSectors : fs.reservedSectors ≠ 0 ∧ fs.reservedSectors.toNat < 2 ^ 16
  fatCount : fs.fatCount ≠ 0 ∧ fs.fatCount.toNat < 2 ^ 8
  sectorsPerFat : fs.sectorsPerFat ≠ 0
  rootEntryCount : fs.rootEntryCount.toNat < 2 ^ 16
  rootDirSectors : fs.rootDirSectors =
    (fs.rootEntryCount * 32 + (fs.bytesPerSector - 1)) / fs.bytesPerSector
  layout : fs.reservedSectors + fs.fatCount * fs.sectorsPerFat + fs.rootDirSectors < fs.totalSectors
  clusterCount : fs.clusterCount =
    (fs.totalSectors - (fs.reservedSectors + fs.fatCount * fs.sectorsPerFat + fs.rootDirSectors)) /
      fs.sectorsPerCluster
  clusters : fs.clusterCount ≠ 0
  fatType : fs.fatType = fatTypeOf fs.clusterCount
  firstFatLba : fs.firstFatLba = fs.bootLba + fs.reservedSectors
  firstRootDirLba : fs.firstRootDirLba =
    if fs.fatType = .fat32 then 0 else fs.firstFatLba + fs.fatCount * fs.sectorsPerFat
  firstDataLba : fs.firstDataLba = fs.firstFatLba + fs.fatCount * fs.sectorsPerFat + fs.rootDirSectors
  rootCluster : fs.fatType = .fat32 → fatClusterIsValid fs fs.rootCluster = true

theorem toUInt32_lt_of_byte (b : UInt8) : b.toUInt32.toNat < 2 ^ 8 := by
  rw [UInt8.toNat_toUInt32]
  exact b.toNat_lt

theorem toUInt32_lt_of_half (w : UInt16) : w.toUInt32.toNat < 2 ^ 16 := by
  rw [UInt16.toNat_toUInt32]
  exact w.toNat_lt

theorem blockReadDevice_hooked {index lba count : UInt32} {device : BlockDevice}
    {buffer sector : Buffer} (hdev : blockDeviceAt d index = some device)
    (h : blockReadDevice d index lba count buffer io = (some sector, io')) : device.hooked = true := by
  unfold blockReadDevice at h
  rw [hdev] at h
  by_contra hne
  have hoff : device.hooked = false := by simpa using hne
  simp [hoff] at h

theorem not_refused {α β : Type*} {c : Prop} [Decidable c] {io io' : β} {fs : α} {rest : Option α × β}
    (h : (if c then (none, io) else rest) = (some fs, io')) : ¬c ∧ rest = (some fs, io') := by
  by_cases hc : c
  · simp [hc] at h
  · exact ⟨hc, by rwa [if_neg hc] at h⟩

theorem fatMount_mounted {deviceIndex bootLba : UInt32} {fs : FatFs}
    (h : fatMount d deviceIndex bootLba io = (some fs, io')) :
    ∃ device, Mounted d fs device ∧ fs.deviceIndex = deviceIndex ∧ fs.bootLba = bootLba := by
  unfold fatMount at h
  split at h
  · simp at h
  · next device hdev =>
    split at h
    · simp at h
    · next sector _ hread =>
      have hhooked := blockReadDevice_hooked hdev hread
      generalize hp : fatParseBpb deviceIndex bootLba sector = p at h
      have hindex : p.deviceIndex = deviceIndex := by rw [← hp]; rfl
      have hboot : p.bootLba = bootLba := by rw [← hp]; rfl
      have hres : p.reservedSectors.toNat < 2 ^ 16 := by rw [← hp]; exact toUInt32_lt_of_half _
      have hcount : p.fatCount.toNat < 2 ^ 8 := by rw [← hp]; exact toUInt32_lt_of_byte _
      have hroot : p.rootEntryCount.toNat < 2 ^ 16 := by rw [← hp]; exact toUInt32_lt_of_half _
      obtain ⟨hbytes, h⟩ := not_refused h
      obtain ⟨hsector, h⟩ := not_refused h
      obtain ⟨hcluster, h⟩ := not_refused h
      obtain ⟨hbpb, h⟩ := not_refused h
      obtain ⟨hlayout, h⟩ := not_refused h
      obtain ⟨hclusters, h⟩ := not_refused h
      obtain ⟨hvalid, h⟩ := not_refused h
      obtain rfl := Option.some.inj (Prod.mk.inj h).1
      simp only [not_or] at hbpb hcluster
      refine ⟨device, ?_, hindex, hboot⟩
      constructor
      case found => rw [← hdev, ← hindex]
      case rootCluster =>
        intro h32
        by_contra hno
        exact hvalid ⟨h32, by simpa using hno⟩
      case sectorsPerCluster => exact ⟨by simpa using hcluster.1, hcluster.2⟩
      case layout => exact UInt32.not_le.mp hlayout
      case bytesPerSector => exact not_not.mp hbytes
      case sectorSize => exact not_not.mp hsector
      case reservedSectors => exact ⟨hbpb.1, hres⟩
      case fatCount => exact ⟨hbpb.2.1, hcount⟩
      case sectorsPerFat => exact hbpb.2.2.1
      case hooked => exact hhooked
      case rootEntryCount => exact hroot
      case clusters => exact hclusters
      all_goals rfl

theorem fatMount_device {deviceIndex bootLba : UInt32} {fs : FatFs}
    {device : BlockDevice} (h : fatMount d deviceIndex bootLba io = (some fs, io'))
    (hdevice : blockDeviceAt d deviceIndex = some device) : Mounted d fs device := by
  obtain ⟨mounted, hm, hindex, _⟩ := fatMount_mounted h
  have heq : mounted = device := by
    have hfound := hm.found
    rw [hindex, hdevice] at hfound
    exact (Option.some.inj hfound).symm
  rwa [heq] at hm

/-! ### The areas of a volume -/

structure Area where
  start : Nat
  count : Nat

/-- The areas follow one another from `first` on, without gaps, and end by `last`. -/
def Consecutive : Nat → List Area → Nat → Prop
  | first, [], last => first ≤ last
  | first, area :: areas, last => area.start = first ∧ Consecutive (area.start + area.count) areas last

theorem Consecutive.inside {first last : Nat} {areas : List Area} (h : Consecutive first areas last) :
    ∀ area ∈ areas, first ≤ area.start ∧ area.start + area.count ≤ last := by
  induction areas generalizing first with
  | nil => simp
  | cons area areas ih =>
    obtain ⟨hstart, hrest⟩ := h
    have hend : ∀ {first : Nat} {areas : List Area}, Consecutive first areas last → first ≤ last := by
      intro first areas
      induction areas generalizing first with
      | nil => exact id
      | cons area areas ih =>
        intro h
        have := ih h.2
        have := h.1
        omega
    intro other hmem
    rcases List.mem_cons.mp hmem with rfl | hmem
    · exact ⟨hstart.ge, hend hrest⟩
    · have := ih hrest other hmem
      omega

theorem Consecutive.disjoint {first last : Nat} {areas : List Area} (h : Consecutive first areas last) :
    areas.Pairwise fun a b => a.start + a.count ≤ b.start := by
  induction areas generalizing first with
  | nil => exact List.Pairwise.nil
  | cons area areas ih =>
    refine List.Pairwise.cons ?_ (ih h.2)
    intro other hmem
    exact (h.2.inside other hmem).1

/-- The reserved area, the copies of the table, the fixed root directory and the data, where the
mounted volume has them. FAT32 has no field for a fixed root directory; what its boot sector
declares for one lies right behind the table. -/
def FatFs.areas (fs : FatFs) : List Area :=
  [⟨fs.bootLba.toNat, fs.reservedSectors.toNat⟩,
    ⟨fs.firstFatLba.toNat, fs.fatCount.toNat * fs.sectorsPerFat.toNat⟩,
    ⟨if fs.fatType = .fat32 then fs.firstFatLba.toNat + fs.fatCount.toNat * fs.sectorsPerFat.toNat
      else fs.firstRootDirLba.toNat, fs.rootDirSectors.toNat⟩,
    ⟨fs.firstDataLba.toNat, fs.clusterCount.toNat * fs.sectorsPerCluster.toNat⟩]

/-- The layout holds in exact integers. -/
structure RealGeometry (fs : FatFs) : Prop where
  fits : fs.reservedSectors.toNat + fs.fatCount.toNat * fs.sectorsPerFat.toNat + fs.rootDirSectors.toNat +
    fs.clusterCount.toNat * fs.sectorsPerCluster.toNat ≤ fs.totalSectors.toNat
  clusters : 0 < fs.clusterCount.toNat
  consecutive : Consecutive fs.bootLba.toNat fs.areas (fs.bootLba.toNat + fs.totalSectors.toNat)
  disjoint : fs.areas.Pairwise fun a b => a.start + a.count ≤ b.start
  inside : ∀ area ∈ fs.areas, fs.bootLba.toNat ≤ area.start ∧
    area.start + area.count ≤ fs.bootLba.toNat + fs.totalSectors.toNat

section Accepted
variable {d : Disks} {fs : FatFs} {device : BlockDevice}

theorem Mounted.bytesPerSector_bounds (h : Mounted d fs device) :
    512 ≤ fs.bytesPerSector.toNat ∧ fs.bytesPerSector.toNat ≤ 4096 := by
  rcases h.bytesPerSector with hb | hb | hb | hb <;> rw [hb] <;> decide

theorem Mounted.sectorsPerCluster_bounds (h : Mounted d fs device) :
    0 < fs.sectorsPerCluster.toNat ∧ fs.sectorsPerCluster.toNat ≤ 128 := by
  obtain ⟨hpow, hle⟩ := h.sectorsPerCluster
  have hne : fs.sectorsPerCluster ≠ 0 := by
    intro h0
    rw [h0] at hpow
    exact absurd hpow (by decide)
  refine ⟨Nat.pos_of_ne_zero fun h0 => hne (UInt32.toNat_inj.mp h0), ?_⟩
  exact UInt32.le_iff_toNat_le.mp (UInt32.not_lt.mp hle)

theorem Mounted.rootDirSectors_toNat (h : Mounted d fs device) :
    fs.rootDirSectors.toNat =
      (fs.rootEntryCount.toNat * 32 + (fs.bytesPerSector.toNat - 1)) / fs.bytesPerSector.toNat := by
  have hroot := h.rootEntryCount
  obtain ⟨hlow, hhigh⟩ := h.bytesPerSector_bounds
  have hmul : (fs.rootEntryCount * 32).toNat = fs.rootEntryCount.toNat * 32 :=
    toNat_mul_of_lt (by change _ * 32 < _; omega)
  have hsub : (fs.bytesPerSector - 1).toNat = fs.bytesPerSector.toNat - 1 :=
    toNat_sub_of_le (by change 1 ≤ _; omega)
  rw [h.rootDirSectors, UInt32.toNat_div, toNat_add_of_lt (by rw [hmul, hsub]; omega), hmul, hsub]

/-- The sectors before the data, counted from the boot sector in exact integers. -/
def FatFs.metadata (fs : FatFs) : Nat :=
  fs.reservedSectors.toNat + fs.fatCount.toNat * fs.sectorsPerFat.toNat + fs.rootDirSectors.toNat

theorem Mounted.sums (h : Mounted d fs device) (hfit : fs.bootLba.toNat + fs.metadata < 2 ^ 32) :
    fs.firstFatLba.toNat = fs.bootLba.toNat + fs.reservedSectors.toNat ∧
      (fs.fatType ≠ .fat32 → fs.firstRootDirLba.toNat =
        fs.firstFatLba.toNat + fs.fatCount.toNat * fs.sectorsPerFat.toNat) ∧
      fs.firstDataLba.toNat = fs.bootLba.toNat + fs.metadata ∧
      fs.metadata + fs.clusterCount.toNat * fs.sectorsPerCluster.toNat ≤ fs.totalSectors.toNat := by
  unfold FatFs.metadata at hfit ⊢
  have hmul : (fs.fatCount * fs.sectorsPerFat).toNat = fs.fatCount.toNat * fs.sectorsPerFat.toNat :=
    toNat_mul_of_lt (by omega)
  have hfat : fs.firstFatLba.toNat = fs.bootLba.toNat + fs.reservedSectors.toNat := by
    rw [h.firstFatLba, toNat_add_of_lt (by omega)]
  have hroot : (fs.firstFatLba + fs.fatCount * fs.sectorsPerFat).toNat =
      fs.firstFatLba.toNat + fs.fatCount.toNat * fs.sectorsPerFat.toNat := by
    rw [toNat_add_of_lt (by omega), hmul]
  have hmeta : (fs.reservedSectors + fs.fatCount * fs.sectorsPerFat + fs.rootDirSectors).toNat =
      fs.reservedSectors.toNat + fs.fatCount.toNat * fs.sectorsPerFat.toNat + fs.rootDirSectors.toNat := by
    rw [toNat_add_of_lt, toNat_add_of_lt, hmul]
    · omega
    · rw [toNat_add_of_lt] <;> omega
  refine ⟨hfat, ?_, ?_, ?_⟩
  · intro hne
    rw [h.firstRootDirLba, if_neg hne, hroot]
  · rw [h.firstDataLba, toNat_add_of_lt (by omega)]
    omega
  · have hlt := UInt32.lt_iff_toNat_lt.mp h.layout
    have hdiv := Nat.div_mul_le_self
      (fs.totalSectors.toNat - (fs.reservedSectors.toNat + fs.fatCount.toNat * fs.sectorsPerFat.toNat +
        fs.rootDirSectors.toNat)) fs.sectorsPerCluster.toNat
    rw [h.clusterCount, UInt32.toNat_div, toNat_sub_of_le hlt.le, hmeta]
    omega

end Accepted

/-- **The geometry of a mounted volume.** The layout that `fat_mount` accepts is real if and only if the
first sector of the data, computed without wrapping from the fields of the boot sector, is a word. -/
theorem geometry_real_iff {d : Disks} {deviceIndex bootLba : UInt32} {io io' : Io} {fs : FatFs}
    (h : fatMount d deviceIndex bootLba io = (some fs, io')) :
    RealGeometry fs ↔
      bootLba.toNat + fs.reservedSectors.toNat + fs.fatCount.toNat * fs.sectorsPerFat.toNat +
        (fs.rootEntryCount.toNat * 32 + (fs.bytesPerSector.toNat - 1)) / fs.bytesPerSector.toNat <
      2 ^ 32 := by
  obtain ⟨device, hm, _, rfl⟩ := fatMount_mounted h
  rw [← hm.rootDirSectors_toNat]
  constructor
  · intro hreal
    have hdata := fs.firstDataLba.toNat_lt
    obtain ⟨_, hfat, hroot, hstart, _⟩ := hreal.consecutive
    dsimp only at hfat hroot hstart
    omega
  · intro hfit
    obtain ⟨hfat, hroot, hdata, htotal⟩ := hm.sums (by unfold FatFs.metadata; omega)
    unfold FatFs.metadata at hdata htotal
    have hcons : Consecutive fs.bootLba.toNat fs.areas (fs.bootLba.toNat + fs.totalSectors.toNat) := by
      refine ⟨rfl, hfat, ?_, ?_, ?_⟩
      · dsimp only
        split_ifs with h32
        · rfl
        · exact hroot h32
      · dsimp only
        split_ifs with h32
        · omega
        · rw [hroot h32]
          omega
      · dsimp only [Consecutive]
        omega
    refine ⟨htotal, Nat.pos_of_ne_zero ?_, hcons, hcons.disjoint, hcons.inside⟩
    exact fun h0 => hm.clusters (UInt32.toNat_inj.mp h0)

/-! ### Concrete volumes -/

def sparseSector (bytes : List (Nat × UInt8)) : Buffer := fun i => (bytes.lookup i).getD 0

def sparseDevice (sectors : List (UInt32 × List (Nat × UInt8))) (fails : Nat → UInt32 → Bool) :
    BlockDevice :=
  { sectorSizeBytes := 512, hooked := true,
    image := fun lba => sparseSector ((sectors.lookup lba).getD []), fails }

def sparseDisks (sectors : List (UInt32 × List (Nat × UInt8))) (fails : Nat → UInt32 → Bool) : Disks :=
  ⟨true, [sparseDevice sectors fails]⟩

def Io.start : Io := ⟨[], []⟩

/-- The boot sector of a floppy: one sector in a cluster, two tables of nine sectors, 224 root entries and
2880 sectors. -/
def floppyBoot : List (Nat × UInt8) :=
  [(12, 2), (13, 1), (14, 1), (16, 2), (17, 224), (19, 0x40), (20, 0x0B), (22, 9), (510, 0x55), (511, 0xAA)]

def floppyVolume : FatFs :=
  { deviceIndex := 0, bootLba := 0, bytesPerSector := 512, sectorsPerCluster := 1, reservedSectors := 1
    fatCount := 2, sectorsPerFat := 9, rootEntryCount := 224, totalSectors := 2880, firstFatLba := 1
    firstDataLba := 33, firstRootDirLba := 19, rootDirSectors := 14, rootCluster := 0, clusterCount := 2847
    fatType := .fat12 }

theorem floppy_mounts :
    fatMount (sparseDisks [(0, floppyBoot)] fun _ _ => false) 0 0 .start =
        (some floppyVolume, ⟨[0], []⟩) := by
  decide

theorem floppy_geometry_real : RealGeometry floppyVolume :=
  (geometry_real_iff floppy_mounts).mpr (by decide)

/-- A boot sector whose two tables of `2 ^ 31` sectors each take no space in wrapping arithmetic, on
a volume of 100 sectors. -/
def hugeTablesBoot : List (Nat × UInt8) :=
  [(12, 2), (13, 1), (14, 1), (16, 2), (19, 100), (39, 0x80), (510, 0x55), (511, 0xAA)]

theorem huge_tables_mount_unreal : ∃ fs io',
    fatMount (sparseDisks [(0, hugeTablesBoot)] fun _ _ => false) 0 0 .start = (some fs, io') ∧
      ¬RealGeometry fs := by
  refine ⟨⟨0, 0, 512, 1, 1, 2, 0x80000000, 0, 100, 1, 1, 1, 0, 0, 99, .fat12⟩, ⟨[0], []⟩, by decide, ?_⟩
  intro hreal
  exact absurd hreal.fits (by decide)

end TermobKernel.Fat
