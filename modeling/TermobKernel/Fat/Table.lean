import TermobKernel.Fat.Geometry
import TermobKernel.Fat.File

/-!
# The allocation table of a mounted volume

What `fat_read_fat_entry` returns, as a function of the bytes of the first table, and which sectors
it reads for it. Two results about the volumes that `fat_mount` accepts follow. The size of the
table is never compared with the number of clusters, and the largest volumes of each type have
clusters whose numbers are markers.
-/

namespace TermobKernel.Fat
open Word

variable {fs : FatFs} {d : Disks}

/-! ### Entries as bytes of the table -/

def tableBytes (device : BlockDevice) (fs : FatFs) : Buffer := fun i =>
  device.image (fs.firstFatLba + UInt32.ofNat (i / fs.bytesPerSector.toNat)) (i % fs.bytesPerSector.toNat)

def entryWidth : FatType → Nat
  | .fat12 => 2
  | .fat16 => 2
  | .fat32 => 4
  | .none => 0

def entryOffset (fs : FatFs) (cluster : UInt32) : UInt32 := (fatEntryOffset fs.fatType cluster).getD 0

def entryLba (fs : FatFs) (cluster : UInt32) : UInt32 :=
  fs.firstFatLba + entryOffset fs cluster / fs.bytesPerSector

def entrySectors (fs : FatFs) (cluster : UInt32) : Nat :=
  (fatEntrySectors fs (entryOffset fs cluster % fs.bytesPerSector)).toNat

def fatEntryValue (device : BlockDevice) (fs : FatFs) (cluster : UInt32) : Option UInt32 :=
  fatEntryDecode fs.fatType cluster (tableBytes device fs) (entryOffset fs cluster).toNat

theorem fatEntryDecode_congr (fatType : FatType) (cluster : UInt32) {buf buf' : Buffer}
    {offset offset' : Nat} (h : ∀ j < entryWidth fatType, buf (offset + j) = buf' (offset' + j)) :
    fatEntryDecode fatType cluster buf offset = fatEntryDecode fatType cluster buf' offset' := by
  cases fatType with
  | none => rfl
  | fat12 =>
    have h0 := h 0 (by decide)
    have h1 := h 1 (by decide)
    simp only [Nat.add_zero] at h0
    simp only [fatEntryDecode, fatReadLe16, h0, h1]
  | fat16 =>
    have h0 := h 0 (by decide)
    have h1 := h 1 (by decide)
    simp only [Nat.add_zero] at h0
    simp only [fatEntryDecode, fatReadLe16, h0, h1]
  | fat32 =>
    have h0 := h 0 (by decide)
    have h1 := h 1 (by decide)
    have h2 := h 2 (by decide)
    have h3 := h 3 (by decide)
    simp only [Nat.add_zero] at h0
    simp only [fatEntryDecode, fatReadLe32, h0, h1, h2, h3]

/-- A volume with a type, on a device that has a driver and sectors of the volume's size. -/
structure OnDevice (d : Disks) (fs : FatFs) (device : BlockDevice) : Prop where
  found : blockDeviceAt d fs.deviceIndex = some device
  hooked : device.hooked = true
  bytesPerSector : fs.bytesPerSector = 512 ∨ fs.bytesPerSector = 1024 ∨ fs.bytesPerSector = 2048 ∨
    fs.bytesPerSector = 4096
  sectorSize : fs.bytesPerSector = device.sectorSizeBytes
  typed : fs.fatType ≠ .none

section OnDevice
variable {d : Disks} {fs : FatFs} {device : BlockDevice}

theorem Mounted.fatType_ne_none (hm : Mounted d fs device) : fs.fatType ≠ .none := by
  rw [hm.fatType]
  unfold fatTypeOf
  split_ifs <;> decide

theorem Mounted.onDevice (hm : Mounted d fs device) : OnDevice d fs device :=
  ⟨hm.found, hm.hooked, hm.bytesPerSector, hm.sectorSize, hm.fatType_ne_none⟩

theorem OnDevice.bytesPerSector_bounds (h : OnDevice d fs device) :
    512 ≤ fs.bytesPerSector.toNat ∧ fs.bytesPerSector.toNat ≤ 4096 := by
  rcases h.bytesPerSector with hb | hb | hb | hb <;> rw [hb] <;> decide

section
variable (hm : OnDevice d fs device)
include hm

theorem OnDevice.entryOffset_eq (cluster : UInt32) :
    fatEntryOffset fs.fatType cluster = some (entryOffset fs cluster) := by
  unfold entryOffset
  cases h : fs.fatType with
  | none => exact absurd h hm.typed
  | _ => rfl

theorem OnDevice.entrySectors_spec (cluster : UInt32) :
    (entryOffset fs cluster).toNat / fs.bytesPerSector.toNat + entrySectors fs cluster =
      ((entryOffset fs cluster).toNat + entryWidth fs.fatType - 1) / fs.bytesPerSector.toNat + 1 := by
  have hlt := cluster.toNat_lt
  unfold entrySectors fatEntrySectors entryOffset
  rcases hm.bytesPerSector with hb | hb | hb | hb <;> rw [hb]
  all_goals
    cases ht : fs.fatType with
    | none => exact absurd ht hm.typed
    | fat12 =>
      simp [fatEntryOffset, entryWidth, ← UInt32.toNat_inj]
      split_ifs <;> simp <;> omega
    | fat16 =>
      simp [fatEntryOffset, entryWidth, UInt32.lt_iff_toNat_lt]
      split_ifs <;> simp <;> omega
    | fat32 =>
      simp [fatEntryOffset, entryWidth, UInt32.lt_iff_toNat_lt]
      split_ifs <;> simp <;> omega

theorem OnDevice.entryWidth_pos : 0 < entryWidth fs.fatType := by
  cases ht : fs.fatType with
  | none => exact absurd ht hm.typed
  | _ => decide

theorem OnDevice.entrySectors_pos (cluster : UInt32) :
    0 < entrySectors fs cluster := by
  have hspec := hm.entrySectors_spec cluster
  have hwidth := hm.entryWidth_pos
  have hmono : (entryOffset fs cluster).toNat / fs.bytesPerSector.toNat ≤
      ((entryOffset fs cluster).toNat + entryWidth fs.fatType - 1) / fs.bytesPerSector.toNat :=
    Nat.div_le_div_right (by omega)
  omega

theorem OnDevice.entry_in_buffer (cluster : UInt32) {j : Nat} (hj : j < entryWidth fs.fatType) :
    (entryOffset fs cluster % fs.bytesPerSector).toNat + j <
        entrySectors fs cluster * fs.bytesPerSector.toNat := by
  have hpos : 0 < fs.bytesPerSector.toNat := by
    have hlow := hm.bytesPerSector_bounds.1
    omega
  have hsectors := hm.entrySectors_spec cluster
  have hdivmod := Nat.div_add_mod (entryOffset fs cluster).toNat fs.bytesPerSector.toNat
  have hlast := Nat.lt_mul_div_succ ((entryOffset fs cluster).toNat + entryWidth fs.fatType - 1) hpos
  rw [UInt32.toNat_mod]
  generalize (entryOffset fs cluster).toNat = offset at *
  generalize fs.bytesPerSector.toNat = size at *
  have hend : entrySectors fs cluster * size =
      size * ((offset + entryWidth fs.fatType - 1) / size + 1) - size * (offset / size) := by
    rw [← hsectors, Nat.mul_add, Nat.add_sub_cancel_left, Nat.mul_comm]
  omega

theorem OnDevice.filled_entry (cluster : UInt32) (buffer : Buffer) {j : Nat}
    (hj : j < entryWidth fs.fatType) :
    device.filled (entryLba fs cluster) (entrySectors fs cluster) buffer
        ((entryOffset fs cluster % fs.bytesPerSector).toNat + j) =
      tableBytes device fs ((entryOffset fs cluster).toNat + j) := by
  have hpos : 0 < fs.bytesPerSector.toNat := by
    have hlow := hm.bytesPerSector_bounds.1
    omega
  have hbound := hm.entry_in_buffer cluster hj
  have hlba : entryLba fs cluster =
      fs.firstFatLba + UInt32.ofNat ((entryOffset fs cluster).toNat / fs.bytesPerSector.toNat) := by
    unfold entryLba
    congr 1
    apply UInt32.toNat_inj.mp
    rw [UInt32.toNat_div, UInt32.toNat_ofNat', Nat.mod_eq_of_lt]
    exact Nat.lt_of_le_of_lt (Nat.div_le_self _ _) (entryOffset fs cluster).toNat_lt
  unfold BlockDevice.filled tableBytes
  rw [← hm.sectorSize, if_pos hbound, UInt32.toNat_mod, hlba]
  have hdivmod := Nat.div_add_mod (entryOffset fs cluster).toNat fs.bytesPerSector.toNat
  generalize (entryOffset fs cluster).toNat = offset at *
  generalize fs.bytesPerSector.toNat = size at *
  -- the offset is a number of whole sectors and a place in the first sector that is read
  have hsplit : offset + j = size * (offset / size) + (offset % size + j) := by omega
  rw [hsplit, Nat.mul_add_div hpos, Nat.mul_add_mod, UInt32.add_assoc, ← UInt32.ofNat_add]

theorem OnDevice.sectorSize_ne_zero : device.sectorSizeBytes ≠ 0 := by
  intro h
  have hlow := hm.bytesPerSector_bounds.1
  rw [hm.sectorSize, h] at hlow
  exact absurd hlow (by decide)

theorem OnDevice.fatBlockReadSector_spec (lba : UInt32) (io : Io) :
    (device.Serves io lba 1 ∧
      fatBlockReadSector d fs lba io = (some (device.filled lba 1 freshBuffer),
        io.accessed (sectorRun lba 1))) ∨
    (¬device.Serves io lba 1 ∧ ∃ k, fatBlockReadSector d fs lba io =
      (none, io.accessed (sectorRun lba k))) := by
  have hloop := blockReadDevice_eq_loop hm.found hm.hooked hm.sectorSize_ne_zero lba
    (show (1 : UInt32) ≠ 0 by decide) freshBuffer io
  unfold fatBlockReadSector
  rw [hloop]
  rcases blockReadLoop_spec device lba freshBuffer io 1 with h | ⟨hfails, k, _, h⟩
  · exact Or.inl h
  · exact Or.inr ⟨hfails, k, h⟩

theorem OnDevice.fatReadFatEntry_eq (cluster : UInt32) (io : Io) :
    fatReadFatEntry d fs cluster io =
      match blockReadLoop device (entryLba fs cluster) freshBuffer io (entrySectors fs cluster) with
      | (none, io) => (none, io)
      | (some entryBuffer, io) =>
        (fatEntryDecode fs.fatType cluster entryBuffer (entryOffset fs cluster % fs.bytesPerSector).toNat,
          io) := by
  have hsmall : ¬fs.bytesPerSector > 8192 := by
    intro h
    have hlt := UInt32.lt_iff_toNat_lt.mp h
    have hhigh := hm.bytesPerSector_bounds.2
    simp only [UInt32.reduceToNat] at hlt
    omega
  have hcount : fatEntrySectors fs (entryOffset fs cluster % fs.bytesPerSector) ≠ 0 := by
    unfold fatEntrySectors
    split_ifs <;> decide
  unfold fatReadFatEntry entrySectors
  rw [if_neg hsmall, hm.entryOffset_eq,
    ← blockReadDevice_eq_loop hm.found hm.hooked hm.sectorSize_ne_zero (entryLba fs cluster) hcount]
  rfl

theorem OnDevice.fatReadFatEntry_spec (cluster : UInt32) (io : Io) :
    (device.Serves io (entryLba fs cluster) (entrySectors fs cluster) ∧
      fatReadFatEntry d fs cluster io = (fatEntryValue device fs cluster,
        io.accessed (sectorRun (entryLba fs cluster) (entrySectors fs cluster)))) ∨
    (¬device.Serves io (entryLba fs cluster) (entrySectors fs cluster) ∧
      ∃ k, device.StopsAfter io (entryLba fs cluster) (entrySectors fs cluster) k ∧
      fatReadFatEntry d fs cluster io = (none, io.accessed (sectorRun (entryLba fs cluster) k))) := by
  rw [hm.fatReadFatEntry_eq]
  rcases blockReadLoop_spec device (entryLba fs cluster) freshBuffer io (entrySectors fs cluster) with
    ⟨hserves, hloop⟩ | ⟨hfails, k, hk, hloop⟩
  · left
    refine ⟨hserves, ?_⟩
    rw [hloop, fatEntryValue]
    dsimp only
    rw [fatEntryDecode_congr _ _ fun j hj => hm.filled_entry cluster freshBuffer hj]
  · right
    refine ⟨hfails, k, hk, ?_⟩
    rw [hloop]

end

/-! ### The clusters of a volume -/

/-- The number of clusters that each type stands for. On FAT32 the check of the root cluster also keeps
`cluster_count + 2` from wrapping. -/
theorem Mounted.clusterCount_range (hm : Mounted d fs device) :
    match fs.fatType with
    | .fat12 => fs.clusterCount.toNat < 4085
    | .fat16 => 4085 ≤ fs.clusterCount.toNat ∧ fs.clusterCount.toNat < 65525
    | .fat32 => 65525 ≤ fs.clusterCount.toNat ∧ fs.clusterCount.toNat + 2 < 2 ^ 32
    | .none => False := by
  have htype := hm.fatType
  have hroot := hm.rootCluster
  have hlt := fs.clusterCount.toNat_lt
  unfold fatTypeOf at htype
  split_ifs at htype with h12 h16 <;> rw [htype] <;> dsimp only
  · exact UInt32.lt_iff_toNat_lt.mp h12
  · exact ⟨UInt32.le_iff_toNat_le.mp (UInt32.not_lt.mp h12), UInt32.lt_iff_toNat_lt.mp h16⟩
  · refine ⟨UInt32.le_iff_toNat_le.mp (UInt32.not_lt.mp h16), ?_⟩
    have hvalid := hroot htype
    simp only [fatClusterIsValid, Bool.and_eq_true, decide_eq_true_eq, ge_iff_le, UInt32.le_iff_toNat_le,
      UInt32.lt_iff_toNat_lt, UInt32.toNat_add, UInt32.reduceToNat] at hvalid
    omega

theorem Mounted.clusterCount_lt (hm : Mounted d fs device) : fs.clusterCount.toNat + 2 < 2 ^ 32 := by
  have hrange := hm.clusterCount_range
  cases ht : fs.fatType <;> rw [ht] at hrange <;> dsimp only at hrange <;> omega

theorem Mounted.valid_iff (hm : Mounted d fs device) (cluster : UInt32) :
    fatClusterIsValid fs cluster = true ↔ 2 ≤ cluster.toNat ∧
        cluster.toNat < fs.clusterCount.toNat + 2 := by
  have hlt := hm.clusterCount_lt
  have hsum : (fs.clusterCount + 2).toNat = fs.clusterCount.toNat + 2 := toNat_add_of_lt hlt
  simp only [fatClusterIsValid, Bool.and_eq_true, decide_eq_true_eq, ge_iff_le, UInt32.le_iff_toNat_le,
    UInt32.lt_iff_toNat_lt, UInt32.reduceToNat, hsum]

/-! ### Reads outside of the table -/

/-- Where the entry of a cluster ends in a table, in exact integers. -/
def entryEnd (fatType : FatType) (cluster : Nat) : Nat :=
  match fatType with
  | .fat12 => cluster + cluster / 2 + 2
  | .fat16 => 2 * cluster + 2
  | .fat32 => 4 * cluster + 4
  | .none => 0

def tableNeed (fs : FatFs) : Nat := entryEnd fs.fatType (fs.clusterCount.toNat + 1)

/-- The bytes that lookups come to: on FAT32 the offset of an entry wraps at `2 ^ 32` bytes. -/
def tableReach (fs : FatFs) : Nat := min (tableNeed fs) (2 ^ 32)

theorem entryEnd_mono (fatType : FatType) {c c' : Nat} (h : c ≤ c') :
    entryEnd fatType c ≤ entryEnd fatType c' := by
  have hhalf : c / 2 ≤ c' / 2 := Nat.div_le_div_right h
  cases fatType <;> simp only [entryEnd] <;> omega

theorem Mounted.entry_end_le (hm : Mounted d fs device) {cluster : UInt32}
    (hvalid : fatClusterIsValid fs cluster = true) :
    (entryOffset fs cluster).toNat + entryWidth fs.fatType ≤ tableReach fs := by
  have hrange := hm.clusterCount_range
  obtain ⟨h2, hlt⟩ := (hm.valid_iff cluster).mp hvalid
  have hhalf : cluster.toNat / 2 ≤ (fs.clusterCount.toNat + 1) / 2 := Nat.div_le_div_right (by omega)
  have hmod := Nat.mod_le (cluster.toNat + cluster.toNat / 2) (2 ^ 32)
  unfold entryOffset tableReach tableNeed entryEnd
  cases ht : fs.fatType <;> rw [ht] at hrange <;> simp [fatEntryOffset, entryWidth] at hrange ⊢ <;> omega

theorem Mounted.exists_entry_end (hm : Mounted d fs device) :
    ∃ cluster, fatClusterIsValid fs cluster = true ∧
    (entryOffset fs cluster).toNat + entryWidth fs.fatType = tableReach fs := by
  have hrange := hm.clusterCount_range
  have hpos : 0 < fs.clusterCount.toNat := Nat.pos_of_ne_zero fun h => hm.clusters (UInt32.toNat_inj.mp h)
  have hlt := hm.clusterCount_lt
  refine ⟨UInt32.ofNat (min (fs.clusterCount.toNat + 1) (2 ^ 30 - 1)), ?_, ?_⟩
  · rw [hm.valid_iff, UInt32.toNat_ofNat_of_lt' (by change _ < 2 ^ 32; omega)]
    omega
  · unfold entryOffset tableReach tableNeed entryEnd
    cases ht : fs.fatType <;> rw [ht] at hrange <;> simp [fatEntryOffset, entryWidth] at hrange ⊢ <;> omega

theorem OnDevice.mem_entry_run (hm : OnDevice d fs device) (cluster : UInt32) {k : Nat} :
    k < entrySectors fs cluster ↔ (entryOffset fs cluster).toNat / fs.bytesPerSector.toNat + k ≤
      ((entryOffset fs cluster).toNat + entryWidth fs.fatType - 1) / fs.bytesPerSector.toNat := by
  have hsectors := hm.entrySectors_spec cluster
  omega

theorem OnDevice.entryLba_add (hm : OnDevice d fs device) (cluster : UInt32) {k : Nat}
    (hk : k < entrySectors fs cluster) :
    (entryLba fs cluster + UInt32.ofNat k).toNat =
      (fs.firstFatLba.toNat + ((entryOffset fs cluster).toNat / fs.bytesPerSector.toNat + k)) % 2 ^ 32 := by
  have hle := (hm.mem_entry_run cluster).mp hk
  unfold entryLba
  simp only [UInt32.toNat_add, UInt32.toNat_div, UInt32.toNat_ofNat']
  omega

end OnDevice

/-- All sectors that are read for entries of valid clusters, whatever the device then does, are sectors of
the first table. -/
def TableReadsInside (fs : FatFs) : Prop :=
  ∀ (d : Disks) (io : Io) (cluster : UInt32), fatClusterIsValid fs cluster = true →
    ∃ read, (fatReadFatEntry d fs cluster io).2.accesses = io.accesses ++ read ∧
      ∀ lba ∈ read, fs.firstFatLba.toNat ≤ lba.toNat ∧
        lba.toNat < fs.firstFatLba.toNat + fs.sectorsPerFat.toNat

theorem fatReadFatEntry_accesses (d : Disks) (fs : FatFs) (cluster : UInt32) (io : Io) :
    ∃ k ≤ entrySectors fs cluster,
      (fatReadFatEntry d fs cluster io).2 = io.accessed (sectorRun (entryLba fs cluster) k) := by
  have hnothing : io = io.accessed (sectorRun (entryLba fs cluster) 0) := (Io.accessed_nil io).symm
  unfold fatReadFatEntry
  split_ifs with hlarge
  · exact ⟨0, Nat.zero_le _, hnothing⟩
  · cases hoff : fatEntryOffset fs.fatType cluster with
    | none => exact ⟨0, Nat.zero_le _, hnothing⟩
    | some offset =>
      have heq : entryOffset fs cluster = offset := by rw [entryOffset, hoff, Option.getD_some]
      obtain ⟨k, hk, hacc⟩ := blockReadDevice_accesses d fs.deviceIndex (entryLba fs cluster)
        (fatEntrySectors fs (offset % fs.bytesPerSector)) freshBuffer io
      unfold entrySectors
      rw [heq]
      refine ⟨k, hk, ?_⟩
      rw [← hacc]
      unfold entryLba
      rw [heq]
      dsimp only
      generalize blockReadDevice d fs.deviceIndex _ _ freshBuffer io = result
      obtain ⟨_ | _, _⟩ := result <;> rfl

/-- Disks on which every access to the device of the volume succeeds. -/
def blankDisks (fs : FatFs) : Disks :=
  ⟨true, List.replicate (fs.deviceIndex.toNat + 1) ⟨fs.bytesPerSector,
    true, fun _ => freshBuffer, fun _ _ => false⟩⟩

theorem blankDisks_at (fs : FatFs) : blockDeviceAt (blankDisks fs) fs.deviceIndex =
    some ⟨fs.bytesPerSector, true, fun _ => freshBuffer, fun _ _ => false⟩ := by
  simp [blockDeviceAt, blankDisks]

theorem Mounted.blank {device : BlockDevice} (hm : Mounted d fs device) :
    Mounted (blankDisks fs) fs ⟨fs.bytesPerSector, true, fun _ => freshBuffer, fun _ _ => false⟩ :=
  { hm with found := blankDisks_at fs, hooked := rfl, sectorSize := rfl }

theorem Mounted.tableReadsInside_iff {device : BlockDevice} (hm : Mounted d fs device) :
    TableReadsInside fs ↔ tableReach fs ≤ fs.sectorsPerFat.toNat * fs.bytesPerSector.toNat ∧
      fs.firstFatLba.toNat + (tableReach fs - 1) / fs.bytesPerSector.toNat < 2 ^ 32 := by
  have ha := hm.onDevice
  obtain ⟨hlow, _⟩ := hm.bytesPerSector_bounds
  have hpos : 0 < fs.bytesPerSector.toNat := by omega
  obtain ⟨last, hlast, hend⟩ := hm.exists_entry_end
  constructor
  · intro hinside
    -- on a device that serves every access, the last sector of the last entry is read
    have hsectors := ha.entrySectors_spec last
    have hrun : entrySectors fs last - 1 < entrySectors fs last :=
      Nat.sub_lt (ha.entrySectors_pos last) Nat.one_pos
    obtain ⟨read, hread, hall⟩ := hinside (blankDisks fs) .start last hlast
    rcases hm.blank.onDevice.fatReadFatEntry_spec last .start with ⟨_, hspec⟩ | ⟨hfails, _⟩
    · rw [hspec] at hread
      have hread : sectorRun (entryLba fs last) (entrySectors fs last) = read :=
        List.append_cancel_left hread
      have hmem : entryLba fs last + UInt32.ofNat (entrySectors fs last - 1) ∈ read := by
        rw [← hread]
        exact List.mem_map.mpr ⟨_, List.mem_range.mpr hrun, rfl⟩
      obtain ⟨hge, hlt⟩ := hall _ hmem
      have hsum : (entryOffset fs last).toNat / fs.bytesPerSector.toNat + (entrySectors fs last - 1) =
          (tableReach fs - 1) / fs.bytesPerSector.toNat := by
        rw [← hend]
        omega
      rw [ha.entryLba_add last hrun, hsum] at hge hlt
      have hsmall : (tableReach fs - 1) / fs.bytesPerSector.toNat < 2 ^ 32 := by
        have hoff := (entryOffset fs last).toNat_lt
        have hwide : entryWidth fs.fatType ≤ 4 := by cases fs.fatType <;> decide
        exact (Nat.div_lt_iff_lt_mul hpos).mpr (by omega)
      have hfirst := fs.firstFatLba.toNat_lt
      have hnowrap : fs.firstFatLba.toNat + (tableReach fs - 1) / fs.bytesPerSector.toNat < 2 ^ 32 := by
        omega
      rw [Nat.mod_eq_of_lt hnowrap] at hlt
      have hroom := (Nat.div_lt_iff_lt_mul hpos).mp (Nat.lt_of_add_lt_add_left hlt)
      exact ⟨by omega, hnowrap⟩
    · exact absurd (fun _ _ => rfl) hfails
  · intro ⟨hroom, hword⟩ d' io cluster hvalid
    have hle := hm.entry_end_le hvalid
    have hwidth := ha.entryWidth_pos
    obtain ⟨k, hk, hacc⟩ := fatReadFatEntry_accesses d' fs cluster io
    refine ⟨_, by rw [hacc]; rfl, ?_⟩
    intro lba hmem
    obtain ⟨j, hj, rfl⟩ := List.mem_map.mp hmem
    have hj : j < entrySectors fs cluster := Nat.lt_of_lt_of_le (List.mem_range.mp hj) hk
    have hrun := (ha.mem_entry_run cluster).mp hj
    have hmono : ((entryOffset fs cluster).toNat + entryWidth fs.fatType - 1) / fs.bytesPerSector.toNat ≤
        (tableReach fs - 1) / fs.bytesPerSector.toNat := Nat.div_le_div_right (by omega)
    have hspf : (tableReach fs - 1) / fs.bytesPerSector.toNat < fs.sectorsPerFat.toNat :=
      (Nat.div_lt_iff_lt_mul hpos).mpr (by omega)
    rw [ha.entryLba_add cluster hj]
    generalize (entryOffset fs cluster).toNat / fs.bytesPerSector.toNat = first at hrun ⊢
    rw [Nat.mod_eq_of_lt (by omega)]
    omega

/-- Lookups stay inside of the table, and it is large enough for an entry of every valid cluster. -/
structure TableInside (fs : FatFs) : Prop where
  reads : TableReadsInside fs
  room : ∀ cluster, fatClusterIsValid fs cluster = true →
    entryEnd fs.fatType cluster.toNat ≤ fs.sectorsPerFat.toNat * fs.bytesPerSector.toNat

/-- **Lookups stay inside of a table with room for every entry** if and only if the table has the
bytes of these entries and the number of the last sector that is read for them does not wrap. -/
theorem table_inside_iff {d : Disks} {deviceIndex bootLba : UInt32} {io io' : Io} {fs : FatFs}
    (h : fatMount d deviceIndex bootLba io = (some fs, io')) :
    TableInside fs ↔ tableNeed fs ≤ fs.sectorsPerFat.toNat * fs.bytesPerSector.toNat ∧
      fs.firstFatLba.toNat + (min (tableNeed fs) (2 ^ 32) - 1) / fs.bytesPerSector.toNat < 2 ^ 32 := by
  obtain ⟨device, hm, _, _⟩ := fatMount_mounted h
  have hreads := hm.tableReadsInside_iff
  have hreach : tableReach fs ≤ tableNeed fs := Nat.min_le_left _ _
  constructor
  · intro hinside
    refine ⟨?_, (hreads.mp hinside.reads).2⟩
    have hlt := hm.clusterCount_lt
    have hpos : 0 < fs.clusterCount.toNat := Nat.pos_of_ne_zero fun h => hm.clusters (UInt32.toNat_inj.mp h)
    have hlast : (UInt32.ofNat (fs.clusterCount.toNat + 1)).toNat = fs.clusterCount.toNat + 1 :=
      UInt32.toNat_ofNat_of_lt' (by change _ < 2 ^ 32; omega)
    have hroom := hinside.room (UInt32.ofNat (fs.clusterCount.toNat + 1))
      (by rw [hm.valid_iff, hlast]; omega)
    rwa [hlast] at hroom
  · rintro ⟨hneed, hword⟩
    refine ⟨hreads.mpr ⟨hreach.trans hneed, hword⟩, fun cluster hvalid => ?_⟩
    have hlt := ((hm.valid_iff cluster).mp hvalid).2
    exact (entryEnd_mono fs.fatType (by omega)).trans hneed

theorem floppy_table_inside : TableInside floppyVolume :=
  (table_inside_iff floppy_mounts).mpr (by decide)

/-- The boot sector of the floppy, but with tables of one sector only. -/
def shortTablesBoot : List (Nat × UInt8) :=
  [(12, 2), (13, 1), (14, 1), (16, 2), (17, 224), (19, 0x40), (20, 0x0B), (22, 1), (510, 0x55), (511, 0xAA)]

/-- The entry of the last cluster is looked for in sector 9, in the middle of the root directory. -/
theorem short_tables_read_outside : ∃ fs io',
    fatMount (sparseDisks [(0, shortTablesBoot)] fun _ _ => false) 0 0 .start = (some fs, io') ∧
      fatClusterIsValid fs 2864 = true ∧ ¬TableInside fs := by
  refine ⟨⟨0, 0, 512, 1, 1, 2, 1, 224, 2880, 1, 17, 3, 14, 0, 2863, .fat12⟩, ⟨[0], []⟩, by decide,
    by decide, ?_⟩
  intro hinside
  obtain ⟨read, hread, hall⟩ :=
    hinside.reads (sparseDisks [(0, shortTablesBoot)] fun _ _ => false) .start 2864 (by decide)
  have hnine : [9] = read := by
    rw [← List.nil_append read]
    exact hread
  have hlt := (hall 9 (by rw [← hnine]; decide)).2
  exact absurd hlt (by decide)

/-! ### Clusters and markers -/

def firstMarker : FatType → Nat
  | .fat12 => 0xFF0
  | .fat16 => 0xFFF0
  | .fat32 => 0x0FFFFFF0
  | .none => 0

def isMarker (fatType : FatType) (value : UInt32) : Bool :=
  fatEntryIsEnd fatType value || fatEntryIsBad fatType value || fatEntryIsReserved fatType value

theorem isMarker_iff {fatType : FatType} (hne : fatType ≠ .none) (value : UInt32) :
    isMarker fatType value = true ↔ firstMarker fatType ≤ value.toNat := by
  cases fatType with
  | none => exact absurd rfl hne
  | _ =>
    simp only [isMarker, fatEntryIsEnd, fatEntryIsBad, fatEntryIsReserved, firstMarker, Bool.or_eq_true,
      Bool.and_eq_true, decide_eq_true_eq, ge_iff_le, UInt32.le_iff_toNat_le, ← UInt32.toNat_inj,
      UInt32.reduceToNat]
    omega

/-- The numbers of valid clusters are not markers, and an entry that holds one is followed: by the walks
through directories, and by files. -/
structure LinksFollowed (fs : FatFs) : Prop where
  notMarker : ∀ cluster, fatClusterIsValid fs cluster = true →
    fatEntryIsEnd fs.fatType cluster = false ∧ fatEntryIsBad fs.fatType cluster = false ∧
      fatEntryIsReserved fs.fatType cluster = false
  byWalk : ∀ {σ : Type} (d : Disks) (callback : DirentCallback σ)
    (stop : σ → Bool) (messages : ChainMessages)
    (slots : Nat) (visited : List UInt32) (cluster next : UInt32) (lfnState lfnState' : LfnState)
    (user user' : σ) (io io' io'' : Io),
    fatClusterIsValid fs cluster = true → cluster ∉ visited →
    fatWalkSectors d fs callback stop messages.readFail fs.sectorsPerCluster.toNat
      (fatClusterFirstLba fs cluster) lfnState user io = (none, lfnState', user', io') →
    fatReadFatEntry d fs cluster io' = (some next, io'') → fatClusterIsValid fs next = true →
    fatWalkChain d fs callback stop messages (slots + 1) visited cluster lfnState user io =
      fatWalkChain d fs callback stop messages slots (visited ++ [cluster]) next lfnState' user' io''
  byFile : ∀ (d : Disks) (file : FatFile) (next : UInt32) (io io' : Io), file.fs = fs →
    fatClusterIsValid fs file.currentCluster = true → file.clustersSeen < fatFileMaxClusters file →
    fatReadFatEntry d fs file.currentCluster io = (some next, io') → fatClusterIsValid fs next = true →
    next ∉ file.visitedClusters.toList.take file.visitedCount.toNat → file.visitedCount < 256 →
    ∃ file', fatFileAdvanceCluster d file io = (.ok, file', io') ∧ file'.currentCluster = next

theorem valid_ne_zero {cluster : UInt32} (h : fatClusterIsValid fs cluster = true) :
    cluster ≠ 0 := by
  rintro rfl
  exact absurd h (by simp [fatClusterIsValid])

theorem isMarker_eq_false {fatType : FatType} {value : UInt32} (h : isMarker fatType value = false) :
    fatEntryIsEnd fatType value = false ∧ fatEntryIsBad fatType value = false ∧
      fatEntryIsReserved fatType value = false := by
  simpa [isMarker, and_assoc] using h

def FatFile.advanced (file : FatFile) (next : UInt32) : FatFile :=
  { file with
    currentCluster := next
    currentClusterFileOffset := file.currentClusterFileOffset + fatFileClusterSizeBytes file
    clustersSeen := file.clustersSeen + 1
    visitedClusters := file.visitedClusters.setIfInBounds file.visitedCount.toNat next
    visitedCount := file.visitedCount + 1 }

theorem fatFileAdvanceCluster_ok {file : FatFile} {next : UInt32} {io io' : Io}
    (hcurrent : fatClusterIsValid file.fs file.currentCluster = true)
    (hseen : file.clustersSeen < fatFileMaxClusters file)
    (hread : fatReadFatEntry d file.fs file.currentCluster io = (some next, io'))
    (hnext : fatClusterIsValid file.fs next = true) (hmarker : isMarker file.fs.fatType next = false)
    (hnew : next ∉ file.visitedClusters.toList.take file.visitedCount.toNat)
    (hcount : file.visitedCount < 256) :
    fatFileAdvanceCluster d file io = (.ok, file.advanced next, io') := by
  obtain ⟨hend, hbad, hreserved⟩ := isMarker_eq_false hmarker
  unfold fatFileAdvanceCluster
  rw [if_neg (by simp [valid_ne_zero hcurrent, hcurrent]), if_neg (UInt32.not_le.mpr hseen), hread]
  dsimp only
  rw [if_neg (by simp [hend]), if_neg (by simp [valid_ne_zero hnext, hbad, hreserved, hnext]), if_neg hnew,
    if_neg (UInt32.not_le.mpr hcount)]
  rfl

/-- **Links and markers.** Entries that point to clusters are followed on an accepted volume if and only if
the number of the last cluster is below the first marker of the type. -/
theorem links_followed_iff {d : Disks} {deviceIndex bootLba : UInt32} {io io' : Io} {fs : FatFs}
    (h : fatMount d deviceIndex bootLba io = (some fs, io')) :
    LinksFollowed fs ↔ fs.clusterCount.toNat + 1 < firstMarker fs.fatType := by
  obtain ⟨device, hm, _, _⟩ := fatMount_mounted h
  have hlt := hm.clusterCount_lt
  constructor
  · intro hlinks
    have hpos : 0 < fs.clusterCount.toNat := Nat.pos_of_ne_zero fun h => hm.clusters (UInt32.toNat_inj.mp h)
    have hlast : (UInt32.ofNat (fs.clusterCount.toNat + 1)).toNat = fs.clusterCount.toNat + 1 :=
      UInt32.toNat_ofNat_of_lt' (by change _ < 2 ^ 32; omega)
    have hvalid : fatClusterIsValid fs (UInt32.ofNat (fs.clusterCount.toNat + 1)) = true := by
      rw [hm.valid_iff, hlast]
      omega
    obtain ⟨hend, hbad, hreserved⟩ := hlinks.notMarker _ hvalid
    by_contra hge
    have hmarker := (isMarker_iff hm.fatType_ne_none (UInt32.ofNat (fs.clusterCount.toNat + 1))).mpr
      (by rw [hlast]; omega)
    rw [isMarker, hend, hbad, hreserved] at hmarker
    exact absurd hmarker (by decide)
  · intro hbelow
    have hclear : ∀ cluster, fatClusterIsValid fs cluster = true → isMarker fs.fatType cluster = false := by
      intro cluster hvalid
      have hle := ((hm.valid_iff cluster).mp hvalid).2
      by_contra hmarker
      have := (isMarker_iff hm.fatType_ne_none cluster).mp (by simpa using hmarker)
      omega
    refine ⟨fun cluster hvalid => isMarker_eq_false (hclear cluster hvalid), ?_, ?_⟩
    · intro σ d callback stop messages slots visited cluster next lfnState lfnState' user user' io io' io''
        hcluster hnew hsectors hread hnext
      obtain ⟨hend, hbad, hreserved⟩ := isMarker_eq_false (hclear next hnext)
      rw [fatWalkChain, if_neg (by simp [hcluster]), if_neg hnew, hsectors]
      dsimp only
      rw [hread]
      dsimp only
      rw [if_neg (by simp [hend]), if_neg (by simp [valid_ne_zero hnext, hbad, hreserved, hnext])]
    · intro d file next io io' hfs hcurrent hseen hread hnext hnew hcount
      subst hfs
      exact ⟨file.advanced next,
        fatFileAdvanceCluster_ok hcurrent hseen hread hnext (hclear next hnext) hnew hcount, rfl⟩

theorem floppy_links_followed : LinksFollowed floppyVolume :=
  (links_followed_iff floppy_mounts).mpr (by decide)

/-- The boot sector of a volume with 4084 clusters, as many as FAT12 can have. -/
def fullFat12Boot : List (Nat × UInt8) :=
  [(12, 2), (13, 1), (14, 1), (16, 1), (17, 16), (19, 0x02), (20, 0x10), (22, 12), (510, 0x55), (511, 0xAA)]

/-- Cluster `0xFF0` of that volume is valid, and its number is a reserved value. -/
theorem full_fat12_cluster_reserved : ∃ fs io',
    fatMount (sparseDisks [(0, fullFat12Boot)] fun _ _ => false) 0 0 .start = (some fs, io') ∧
      fatClusterIsValid fs 0xFF0 = true ∧ fatEntryIsReserved fs.fatType 0xFF0 = true ∧
      ¬LinksFollowed fs := by
  refine ⟨⟨0, 0, 512, 1, 1, 1, 12, 16, 4098, 1, 14, 13, 1, 0, 4084, .fat12⟩, ⟨[0], []⟩,
    by decide, by decide, by decide, ?_⟩
  intro hlinks
  exact absurd (hlinks.notMarker 0xFF0 (by decide)).2.2 (by decide)

end TermobKernel.Fat
