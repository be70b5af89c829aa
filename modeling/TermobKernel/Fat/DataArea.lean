import TermobKernel.Fat.Table

/-!
# The data area of a mounted volume

Which sectors the clusters of a volume are made of. The sums of the layout may wrap, so that sectors
are compared by their distance from the boot sector; the product of a valid cluster number with the
size of a cluster never does, because the number of clusters was obtained by division.
-/

namespace TermobKernel.Fat
open Word

/-- The sectors before the data area, as `fat_mount` adds them up. -/
def metadataSectors (fs : FatFs) : UInt32 :=
  fs.reservedSectors + fs.fatCount * fs.sectorsPerFat + fs.rootDirSectors

/-- The place of a sector of a cluster among all sectors of the data area. -/
def dataIndex (fs : FatFs) (cluster sector : UInt32) : Nat :=
  (cluster.toNat - 2) * fs.sectorsPerCluster.toNat + sector.toNat

section
variable {d : Disks} {fs : FatFs} {device : BlockDevice} {cluster sector : UInt32}

theorem Mounted.dataIndex_lt (hm : Mounted d fs device) (hvalid : fatClusterIsValid fs cluster = true)
    (hsector : sector < fs.sectorsPerCluster) :
    (metadataSectors fs).toNat + dataIndex fs cluster sector < fs.totalSectors.toNat := by
  obtain ⟨h2, hlt⟩ := (hm.valid_iff cluster).mp hvalid
  have hsector' := UInt32.lt_iff_toNat_lt.mp hsector
  have hlayout := UInt32.lt_iff_toNat_lt.mp hm.layout
  have hcount : fs.clusterCount.toNat =
      (fs.totalSectors.toNat - (metadataSectors fs).toNat) / fs.sectorsPerCluster.toNat := by
    rw [hm.clusterCount, UInt32.toNat_div, toNat_sub_of_le hlayout.le, metadataSectors]
  have hroom : fs.clusterCount.toNat * fs.sectorsPerCluster.toNat ≤
      fs.totalSectors.toNat - (metadataSectors fs).toNat := by
    rw [hcount]
    exact Nat.div_mul_le_self _ _
  have hmul : (cluster.toNat - 2 + 1) * fs.sectorsPerCluster.toNat ≤
      fs.clusterCount.toNat * fs.sectorsPerCluster.toNat := Nat.mul_le_mul_right _ (by omega)
  rw [Nat.add_one_mul] at hmul
  unfold dataIndex
  have hmetadata : (metadataSectors fs).toNat < fs.totalSectors.toNat := hlayout
  omega

theorem Mounted.distance_toNat (hm : Mounted d fs device) (hvalid : fatClusterIsValid fs cluster = true)
    (hsector : sector < fs.sectorsPerCluster) :
    (fatClusterFirstLba fs cluster + sector - fs.bootLba).toNat =
      (metadataSectors fs).toNat + dataIndex fs cluster sector := by
  have hlt := hm.dataIndex_lt hvalid hsector
  have htotal := fs.totalSectors.toNat_lt
  have h2 := ((hm.valid_iff cluster).mp hvalid).1
  have hcluster : (cluster - 2).toNat = cluster.toNat - 2 := toNat_sub_of_le h2
  have hdistance : fatClusterFirstLba fs cluster + sector - fs.bootLba =
      metadataSectors fs + ((cluster - 2) * fs.sectorsPerCluster + sector) := by
    rw [fatClusterFirstLba, hm.firstDataLba, hm.firstFatLba, metadataSectors]
    grind
  unfold dataIndex at hlt ⊢
  have hproduct : ((cluster - 2) * fs.sectorsPerCluster).toNat =
      (cluster.toNat - 2) * fs.sectorsPerCluster.toNat := by
    rw [toNat_mul_of_lt (by rw [hcluster]; omega), hcluster]
  have hindex : ((cluster - 2) * fs.sectorsPerCluster + sector).toNat =
      (cluster.toNat - 2) * fs.sectorsPerCluster.toNat + sector.toNat := by
    rw [toNat_add_of_lt (by rw [hproduct]; omega), hproduct]
  rw [hdistance, toNat_add_of_lt (by rw [hindex]; omega), hindex]

theorem Mounted.dataIndex_inj (hm : Mounted d fs device) {cluster' sector' : UInt32}
    (hvalid : fatClusterIsValid fs cluster = true) (hvalid' : fatClusterIsValid fs cluster' = true)
    (hsector : sector < fs.sectorsPerCluster) (hsector' : sector' < fs.sectorsPerCluster)
    (h : dataIndex fs cluster sector = dataIndex fs cluster' sector') :
    cluster = cluster' ∧ sector = sector' := by
  obtain ⟨hpos, _⟩ := hm.sectorsPerCluster_bounds
  have h2 := ((hm.valid_iff cluster).mp hvalid).1
  have h2' := ((hm.valid_iff cluster').mp hvalid').1
  have hdiv := congrArg (· / fs.sectorsPerCluster.toNat) h
  have hmod := congrArg (· % fs.sectorsPerCluster.toNat) h
  simp only [dataIndex, Nat.mul_comm _ fs.sectorsPerCluster.toNat, Nat.mul_add_div hpos, Nat.mul_add_mod,
    Nat.div_eq_of_lt (UInt32.lt_iff_toNat_lt.mp hsector),
    Nat.div_eq_of_lt (UInt32.lt_iff_toNat_lt.mp hsector'),
    Nat.mod_eq_of_lt (UInt32.lt_iff_toNat_lt.mp hsector),
    Nat.mod_eq_of_lt (UInt32.lt_iff_toNat_lt.mp hsector')] at hdiv hmod
  exact ⟨UInt32.toNat_inj.mp (by omega), UInt32.toNat_inj.mp hmod⟩

end

/-- **Data sectors.** On an accepted volume no sector belongs to two clusters or twice to one, and
every sector of a valid cluster is behind the metadata and inside of the volume. -/
theorem data_sectors_apart_and_inside {d : Disks} {deviceIndex bootLba : UInt32} {io io' : Io} {fs : FatFs}
    (h : fatMount d deviceIndex bootLba io = (some fs, io')) :
    (∀ cluster cluster' sector sector' : UInt32,
      fatClusterIsValid fs cluster = true → fatClusterIsValid fs cluster' = true →
      sector < fs.sectorsPerCluster → sector' < fs.sectorsPerCluster →
      fatClusterFirstLba fs cluster + sector = fatClusterFirstLba fs cluster' + sector' →
      cluster = cluster' ∧ sector = sector') ∧
    ∀ cluster sector : UInt32, fatClusterIsValid fs cluster = true → sector < fs.sectorsPerCluster →
      metadataSectors fs ≤ fatClusterFirstLba fs cluster + sector - bootLba ∧
        fatClusterFirstLba fs cluster + sector - bootLba < fs.totalSectors := by
  obtain ⟨device, hm, _, hboot⟩ := fatMount_mounted h
  constructor
  · intro cluster cluster' sector sector' hvalid hvalid' hsector hsector' hsame
    apply hm.dataIndex_inj hvalid hvalid' hsector hsector'
    have hdistance := congrArg (fun lba => (lba - fs.bootLba).toNat) hsame
    rw [hm.distance_toNat hvalid hsector, hm.distance_toNat hvalid' hsector'] at hdistance
    omega
  · intro cluster sector hvalid hsector
    have hlt := hm.dataIndex_lt hvalid hsector
    rw [← hboot, UInt32.le_iff_toNat_le, UInt32.lt_iff_toNat_lt, hm.distance_toNat hvalid hsector]
    omega

/-- The last sector of the floppy is the last sector of its last cluster. -/
theorem floppy_last_sector :
    metadataSectors floppyVolume ≤ fatClusterFirstLba floppyVolume 2848 + 0 - 0 ∧
      fatClusterFirstLba floppyVolume 2848 + 0 - 0 < floppyVolume.totalSectors :=
  (data_sectors_apart_and_inside floppy_mounts).2 2848 0 (by decide) (by decide)

end TermobKernel.Fat
