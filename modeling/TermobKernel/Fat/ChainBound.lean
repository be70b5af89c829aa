import TermobKernel.Fat.Chain

/-!
# The bound on the length of a chain

`fat_file_max_clusters` rounds the size of a file up to whole clusters by adding `cluster_size - 1`
before it divides. The sum has 32 bits. For a size within a cluster of 4 GiB it wraps, the quotient
is zero, and `fat_file_advance_cluster` calls every chain of the file too long, also the one that
has just been entered.
-/

namespace TermobKernel.Fat
open Word

def clustersNeeded (fs : FatFs) (file : FatFile) : Nat :=
  (file.dirent.sizeBytes.toNat + (clusterSize fs - 1)) / clusterSize fs

/-- The step fails with the message that the chain is too long. -/
def ReportsTooLong (d : Disks) (file : FatFile) (io : Io) : Prop :=
  (fatFileAdvanceCluster d file io).1 = .corrupt ∧
    (fatFileAdvanceCluster d file io).2.2.log.getLast? = some "TERMOB: fat file chain too long"

theorem log_note (io : Io) (message : String) : (io.note message).log.getLast? = some message :=
  List.getLast?_concat

theorem ReportsTooLong.seen {d : Disks} {file : FatFile} {io : Io} (h : ReportsTooLong d file io) :
    fatFileMaxClusters file ≤ file.clustersSeen := by
  by_contra hbound
  revert h
  unfold ReportsTooLong fatFileAdvanceCluster
  rw [if_neg (show ¬file.clustersSeen ≥ fatFileMaxClusters file from hbound)]
  -- Every other way to fail has its own status or its own message.
  repeat' split
  all_goals simp [log_note]

theorem Mounted.maxClusters_zero {d : Disks} {fs : FatFs} {device : BlockDevice} (hm : Mounted d fs device)
    {file : FatFile} (hfs : file.fs = fs) (hwrap : 2 ^ 32 < file.dirent.sizeBytes.toNat + clusterSize fs) :
    (fatFileMaxClusters file).toNat = 0 := by
  obtain ⟨hpos, hle⟩ := hm.clusterSize_bounds
  have hcs := hm.clusterSizeBytes_toNat file hfs
  have hlt := file.dirent.sizeBytes.toNat_lt
  have hzero : file.dirent.sizeBytes ≠ 0 := by
    intro h0
    rw [h0, UInt32.toNat_zero] at hwrap
    omega
  have hsub : (file.dirent.sizeBytes + fatFileClusterSizeBytes file - 1).toNat < clusterSize fs := by
    rw [UInt32.toNat_sub, UInt32.toNat_add, hcs]
    change (2 ^ 32 - 1 + _) % 2 ^ 32 < _
    omega
  rw [fatFileMaxClusters, if_neg hzero, UInt32.toNat_div, hcs, Nat.div_eq_of_lt hsub]

/-- **The bound on the chain.** For every file the bound is the number of clusters that the file
needs, and the chain is called too long only when the clusters seen cover the file, if and only if
size and cluster size add up to 4 GiB at most. -/
theorem chain_bound_exact_iff {d : Disks} {deviceIndex bootLba : UInt32} {io₀ io₁ : Io} {fs : FatFs}
    {file : FatFile} (hmount : fatMount d deviceIndex bootLba io₀ = (some fs, io₁))
    (hfs : file.fs = fs) :
    ((fatFileMaxClusters file).toNat = clustersNeeded fs file ∧
        ∀ io, ReportsTooLong d file io →
        file.dirent.sizeBytes.toNat ≤ file.clustersSeen.toNat * clusterSize fs) ↔
      file.dirent.sizeBytes.toNat + clusterSize fs ≤ 2 ^ 32 := by
  obtain ⟨device, hm, _⟩ := fatMount_mounted hmount
  obtain ⟨hpos, hle⟩ := hm.clusterSize_bounds
  constructor
  · rintro ⟨hexact, _⟩
    by_contra hroom
    rw [hm.maxClusters_zero hfs (by omega), clustersNeeded] at hexact
    have hone : 1 ≤ (file.dirent.sizeBytes.toNat + (clusterSize fs - 1)) / clusterSize fs :=
      (Nat.one_le_div_iff hpos).mpr (by omega)
    omega
  · intro hroom
    have hmax := hm.maxClusters_toNat hfs hroom
    refine ⟨hmax, fun io hlong => ?_⟩
    have hseen := UInt32.le_iff_toNat_le.mp hlong.seen
    rw [hmax, Nat.div_le_iff_le_mul_add_pred hpos, Nat.mul_comm] at hseen
    omega

theorem chain_bound_exact_two_clusters :
    (fatFileMaxClusters (openedHandle floppyVolume twoClusterEntry)).toNat =
      clustersNeeded floppyVolume (openedHandle floppyVolume twoClusterEntry) :=
  ((chain_bound_exact_iff twoCluster_mounts rfl).mpr (by decide)).1

/-- The largest size of a directory entry, with clusters of 512 bytes: the file needs `2 ^ 23`
clusters, the bound is zero, and the step from the first cluster fails. -/
theorem largest_file_chain_too_long :
    let file := openedHandle floppyVolume { twoClusterEntry with sizeBytes := 0xFFFFFFFF }
    clustersNeeded floppyVolume file = 8388608 ∧ fatFileMaxClusters file = 0 ∧ file.clustersSeen = 1 ∧
      fatFileAdvanceCluster (sparseDisks twoClusterSectors fun _ _ => false) file .start =
        (.corrupt, file, ⟨[], ["TERMOB: fat file chain too long"]⟩) := by
  decide +kernel

end TermobKernel.Fat
