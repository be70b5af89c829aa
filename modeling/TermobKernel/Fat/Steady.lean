import TermobKernel.Fat.Resolve

/-!
# Disks that do not change

A disk is steady when each of its sectors either always reads or always fails. What the file system
computes from a steady disk does not depend on what was read before, so that the results of two
calls can be compared.
-/

namespace TermobKernel.Fat

/-- Whether a sector can be read does not depend on the accesses before. -/
def Disks.Steady (d : Disks) : Prop :=
  ∀ device ∈ d.blockDeviceList, ∀ n m lba, device.fails n lba = device.fails m lba

section steady
variable {d : Disks}

theorem blockReadLoop_steady {device : BlockDevice} (h : ∀ n m lba, device.fails n lba = device.fails m lba)
    (lba : UInt32) (buffer : Buffer) (n : Nat) :
    ∃ r, ∀ io, ∃ io', blockReadLoop device lba buffer io n = (r, io') := by
  induction n with
  | zero => exact ⟨some buffer, fun io => ⟨io, rfl⟩⟩
  | succ n ih =>
    obtain ⟨r, hr⟩ := ih
    cases r with
    | none =>
      refine ⟨none, fun io => ?_⟩
      obtain ⟨io', hio⟩ := hr io
      exact ⟨io', by rw [blockReadLoop, hio]⟩
    | some buffer' =>
      refine ⟨(device.read (lba + UInt32.ofNat n) buffer' (n * device.sectorSizeBytes.toNat)
        ⟨[], []⟩).1, fun io => ?_⟩
      obtain ⟨io', hio⟩ := hr io
      rw [blockReadLoop, hio]
      dsimp only [BlockDevice.read]
      rw [h io'.accesses.length ([] : List UInt32).length]
      exact ⟨_, rfl⟩

theorem blockReadDevice_steady (hd : d.Steady) (index lba sectorCount : UInt32) (buffer : Buffer) :
    ∃ r, ∀ io, ∃ io', blockReadDevice d index lba sectorCount buffer io = (r, io') := by
  cases hdevice : blockDeviceAt d index with
  | none => exact ⟨none, fun io => ⟨io, by rw [blockReadDevice, hdevice]⟩⟩
  | some device =>
    have hmem : device ∈ d.blockDeviceList := by
      unfold blockDeviceAt at hdevice
      split at hdevice
      · cases hdevice
      · exact List.mem_of_getElem? hdevice
    by_cases hoff : device.hooked = false ∨ sectorCount = 0
    · exact ⟨none, fun io => ⟨io, by rw [blockReadDevice, hdevice]; exact if_pos hoff⟩⟩
    by_cases hone : sectorCount = 1
    · obtain ⟨r, hr⟩ := blockReadLoop_steady (hd device hmem) lba buffer 1
      refine ⟨r, fun io => ?_⟩
      obtain ⟨io', hio⟩ := hr io
      refine ⟨io', ?_⟩
      rw [blockReadDevice, hdevice]
      dsimp only
      rw [if_neg hoff, if_pos hone, ← blockReadLoop_one, hio]
    by_cases hsize : device.sectorSizeBytes = 0
    · refine ⟨none, fun io => ⟨io, ?_⟩⟩
      rw [blockReadDevice, hdevice]
      dsimp only
      rw [if_neg hoff, if_neg hone, if_pos hsize]
    · obtain ⟨r, hr⟩ := blockReadLoop_steady (hd device hmem) lba buffer sectorCount.toNat
      refine ⟨r, fun io => ?_⟩
      obtain ⟨io', hio⟩ := hr io
      refine ⟨io', ?_⟩
      rw [blockReadDevice, hdevice]
      dsimp only
      rw [if_neg hoff, if_neg hone, if_neg hsize, hio]

variable (hd : d.Steady) (fs : FatFs)
include hd

theorem fatReadFatEntry_steady (cluster : UInt32) :
    ∃ r, ∀ io, ∃ io', fatReadFatEntry d fs cluster io = (r, io') := by
  by_cases hbig : fs.bytesPerSector > 8192
  · exact ⟨none, fun io => ⟨io, by rw [fatReadFatEntry, if_pos hbig]⟩⟩
  cases hoffset : fatEntryOffset fs.fatType cluster with
  | none =>
    refine ⟨none, fun io => ⟨io, ?_⟩⟩
    rw [fatReadFatEntry, if_neg hbig, hoffset]
  | some fatOffset =>
    obtain ⟨r, hr⟩ := blockReadDevice_steady hd fs.deviceIndex
      (fs.firstFatLba + fatOffset / fs.bytesPerSector)
      (fatEntrySectors fs (fatOffset % fs.bytesPerSector)) freshBuffer
    refine ⟨r.bind fun b => fatEntryDecode fs.fatType cluster b
      (fatOffset % fs.bytesPerSector).toNat, fun io => ?_⟩
    obtain ⟨io', hio⟩ := hr io
    refine ⟨io', ?_⟩
    rw [fatReadFatEntry, if_neg hbig, hoffset]
    dsimp only
    rw [hio]
    cases r with
    | none => rfl
    | some entryBuffer => rfl

section walks
variable {σ : Type} (callback : DirentCallback σ) (stop : σ → Bool)

theorem sectors_steady (message : String) (count : Nat) (lba : UInt32) (lfnState : LfnState) (user : σ) :
    ∃ walkEnd lfnState' user', ∀ io, ∃ io',
      fatWalkSectors d fs callback stop message count lba lfnState user io =
        (walkEnd, lfnState', user', io') := by
  induction count generalizing lba lfnState user with
  | zero => exact ⟨none, lfnState, user, fun io => ⟨io, rfl⟩⟩
  | succ count ih =>
    obtain ⟨r, hr⟩ := blockReadDevice_steady hd fs.deviceIndex lba 1 freshBuffer
    cases r with
    | none =>
      refine ⟨some .readFailed, lfnState, user, fun io => ?_⟩
      obtain ⟨io', hio⟩ := hr io
      exact ⟨_, fatWalkSectors_unread hio⟩
    | some sector =>
      obtain ⟨lfnState', user', reachedEnd, hvisit⟩ : ∃ lfnState' user' reachedEnd,
          fatVisitSectorEntries fs sector lfnState callback user = (lfnState', user', reachedEnd) :=
          ⟨_, _, _, rfl⟩
      have hstep : ∀ io io', fatBlockReadSector d fs lba io = (some sector, io') →
          fatWalkSectors d fs callback stop message (count + 1) lba lfnState user io =
            if stop user' then (some .stopped, lfnState', user', io')
            else if reachedEnd then (some .reachedEnd, lfnState', user', io')
            else fatWalkSectors d fs callback stop message count (lba + 1) lfnState' user' io' :=
        fun io io' hio => fatWalkSectors_read hio hvisit
      by_cases hstop : stop user' = true
      · refine ⟨some .stopped, lfnState', user', fun io => ?_⟩
        obtain ⟨io', hio⟩ := hr io
        exact ⟨io', by rw [hstep io io' hio, if_pos hstop]⟩
      by_cases hend : reachedEnd = true
      · refine ⟨some .reachedEnd, lfnState', user', fun io => ?_⟩
        obtain ⟨io', hio⟩ := hr io
        exact ⟨io', by rw [hstep io io' hio, if_neg hstop, if_pos hend]⟩
      · obtain ⟨walkEnd, lfnState'', user'', hrest⟩ := ih (lba + 1) lfnState' user'
        refine ⟨walkEnd, lfnState'', user'', fun io => ?_⟩
        obtain ⟨io', hio⟩ := hr io
        obtain ⟨io'', hio''⟩ := hrest io'
        exact ⟨io'', by rw [hstep io io' hio, if_neg hstop, if_neg hend, hio'']⟩

theorem chain_steady (messages : ChainMessages) (slots : Nat) (visited : List UInt32) (cluster : UInt32)
    (lfnState : LfnState) (user : σ) :
    ∃ walkEnd user', ∀ io, ∃ io',
      fatWalkChain d fs callback stop messages slots visited cluster lfnState user io =
        (walkEnd, user', io') := by
  by_cases hvalid : fatClusterIsValid fs cluster = false
  · exact ⟨.invalid, user, fun io => ⟨_, fatWalkChain_invalid hvalid⟩⟩
  rw [Bool.not_eq_false] at hvalid
  induction slots generalizing visited cluster lfnState user with
  | zero =>
    by_cases hloop : cluster ∈ visited
    · exact ⟨.looped, user, fun io => ⟨_, fatWalkChain_looped hvalid hloop⟩⟩
    · exact ⟨.tooLong, user, fun io => ⟨_, fatWalkChain_full hvalid hloop⟩⟩
  | succ slots ih =>
    by_cases hloop : cluster ∈ visited
    · exact ⟨.looped, user, fun io => ⟨_, fatWalkChain_looped hvalid hloop⟩⟩
    obtain ⟨walkEnd, lfnState', user', hs⟩ := sectors_steady hd fs callback stop messages.readFail
      fs.sectorsPerCluster.toNat (fatClusterFirstLba fs cluster) lfnState user
    cases walkEnd with
    | some walkEnd =>
      refine ⟨walkEnd, user', fun io => ?_⟩
      obtain ⟨io', hio⟩ := hs io
      exact ⟨io', fatWalkChain_ended hvalid hloop hio⟩
    | none =>
      obtain ⟨r, hr⟩ := fatReadFatEntry_steady hd fs cluster
      cases r with
      | none =>
        refine ⟨.nextFailed, user', fun io => ?_⟩
        obtain ⟨io', hio⟩ := hs io
        obtain ⟨io'', hio''⟩ := hr io'
        exact ⟨_, fatWalkChain_unlinked hvalid hloop hio hio''⟩
      | some next =>
        by_cases hend : fatEntryIsEnd fs.fatType next = true
        · refine ⟨.exhausted, user', fun io => ?_⟩
          obtain ⟨io', hio⟩ := hs io
          obtain ⟨io'', hio''⟩ := hr io'
          exact ⟨io'', by rw [fatWalkChain_linked hvalid hloop hio hio'', if_pos hend]⟩
        by_cases hbad : BadLink fs next
        · refine ⟨.corrupted, user', fun io => ?_⟩
          obtain ⟨io', hio⟩ := hs io
          obtain ⟨io'', hio''⟩ := hr io'
          exact ⟨_, by rw [fatWalkChain_linked hvalid hloop hio hio'', if_neg hend, if_pos hbad]⟩
        · have hnext : fatClusterIsValid fs next = true := by
            by_contra h
            exact hbad (Or.inr (Or.inr (Or.inr (by simpa using h))))
          obtain ⟨walkEnd, user'', hrest⟩ := ih (visited ++ [cluster]) next lfnState' user' hnext
          refine ⟨walkEnd, user'', fun io => ?_⟩
          obtain ⟨io', hio⟩ := hs io
          obtain ⟨io'', hio''⟩ := hr io'
          obtain ⟨io₃, hio₃⟩ := hrest io''
          exact ⟨io₃, by rw [fatWalkChain_linked hvalid hloop hio hio'', if_neg hend, if_neg hbad, hio₃]⟩

theorem rootFixed_steady (message : String) (user : σ) :
    ∃ walkEnd user', ∀ io, ∃ io', fatWalkRootFixed d fs callback stop message user io =
        (walkEnd, user', io') := by
  obtain ⟨walkEnd, lfnState, user', hs⟩ := sectors_steady hd fs callback stop message
    ((fs.firstRootDirLba + fs.rootDirSectors).toNat - fs.firstRootDirLba.toNat) fs.firstRootDirLba
      fatLfnReset user
  refine ⟨walkEnd.getD .exhausted, user', fun io => ?_⟩
  obtain ⟨io', hio⟩ := hs io
  refine ⟨io', ?_⟩
  simp only [fatWalkRootFixed, hio]
  cases walkEnd with
  | none => rfl
  | some walkEnd => rfl

end walks

/-! ### Searches, listings and paths -/

theorem fatFindRootFixed_steady (name : List UInt8) :
    ∃ status found, ∀ io, ∃ io', fatFindRootFixed d fs name io = (status, found, io') := by
  obtain ⟨walkEnd, found, hw⟩ := rootFixed_steady hd fs (some (fatFindEntryCallback name)) Option.isSome
    "TERMOB: fat path root read failed" none
  refine ⟨fatFindStatus walkEnd found, found, fun io => ?_⟩
  obtain ⟨io', hio⟩ := hw io
  exact ⟨io', by simp only [fatFindRootFixed, hio]⟩

theorem fatFindDirectoryClusterChain_steady (startCluster : UInt32) (name : List UInt8)
    (messages : ChainMessages) :
    ∃ status found, ∀ io, ∃ io', fatFindDirectoryClusterChain d fs startCluster name messages io =
        (status, found, io') := by
  obtain ⟨walkEnd, found, hw⟩ :=
    chain_steady hd fs (some (fatFindEntryCallback name)) Option.isSome messages
    fatMaxVisitedClusters [] startCluster fatLfnReset none
  refine ⟨fatFindStatus walkEnd found, found, fun io => ?_⟩
  obtain ⟨io', hio⟩ := hw io
  exact ⟨io', by simp only [fatFindDirectoryClusterChain, hio]⟩

theorem searchIn_steady (current : LookupResult) (name : List UInt8) :
    ∃ status found, ∀ io, ∃ io', searchIn d fs current name io = (status, found, io') := by
  unfold searchIn fatFindRootEntry fatFindDirectoryEntry
  cases current.isRoot with
  | true =>
    cases fs.fatType with
    | none => exact ⟨.corrupt, none, fun io => ⟨io, rfl⟩⟩
    | fat12 => exact fatFindRootFixed_steady hd fs name
    | fat16 => exact fatFindRootFixed_steady hd fs name
    | fat32 => exact fatFindDirectoryClusterChain_steady hd fs fs.rootCluster name _
  | false =>
    cases fatClusterIsValid fs current.dirent.firstCluster with
    | false => exact ⟨.corrupt, none, fun io => ⟨_, rfl⟩⟩
    | true => exact fatFindDirectoryClusterChain_steady hd fs current.dirent.firstCluster name _

theorem fatListClusterChain_steady (startCluster : UInt32) (messages : ChainMessages) :
    ∃ listed entries, ∀ io, ∃ io',
      fatListClusterChain d fs startCluster collect messages [] io = (listed, entries, io') := by
  obtain ⟨walkEnd, entries, hw⟩ :=
    chain_steady hd fs collect (fun _ => false) messages fatMaxVisitedClusters []
    startCluster fatLfnReset []
  refine ⟨walkEnd.listed, entries, fun io => ?_⟩
  obtain ⟨io', hio⟩ := hw io
  exact ⟨io', by simp only [fatListClusterChain, hio]⟩

theorem fatListRootFixed_steady :
    ∃ listed entries, ∀ io, ∃ io', fatListRootFixed d fs collect [] io = (listed, entries, io') := by
  obtain ⟨walkEnd, entries, hw⟩ :=
    rootFixed_steady hd fs collect (fun _ => false) "TERMOB: fat root read failed" []
  refine ⟨walkEnd.listed, entries, fun io => ?_⟩
  obtain ⟨io', hio⟩ := hw io
  exact ⟨io', by simp only [fatListRootFixed, hio]⟩

omit hd in
def listIn (d : Disks) (fs : FatFs) (current : LookupResult) (io : Io) : Bool × List Dirent × Io :=
  if current.isRoot then fatListRoot d fs collect [] io
  else fatListDirectory d fs current.dirent.firstCluster collect [] io

theorem listIn_steady (current : LookupResult) :
    ∃ listed entries, ∀ io, ∃ io', listIn d fs current io = (listed, entries, io') := by
  unfold listIn fatListRoot fatListDirectory
  cases current.isRoot with
  | true =>
    cases fs.fatType with
    | none => exact ⟨false, [], fun io => ⟨io, rfl⟩⟩
    | fat12 => exact fatListRootFixed_steady hd fs
    | fat16 => exact fatListRootFixed_steady hd fs
    | fat32 => exact fatListClusterChain_steady hd fs fs.rootCluster _
  | false =>
    cases fatClusterIsValid fs current.dirent.firstCluster with
    | false => exact ⟨false, [], fun io => ⟨_, rfl⟩⟩
    | true => exact fatListClusterChain_steady hd fs current.dirent.firstCluster _

theorem resolve_steady (components : List (List UInt8)) (current : LookupResult) :
    ∃ status result, ∀ io, ∃ io', resolve d fs components current io = (status, result, io') := by
  induction components generalizing current with
  | nil => exact ⟨.ok, current, fun io => ⟨io, rfl⟩⟩
  | cons component components ih =>
    by_cases hdir : current.isRoot = false ∧ current.dirent.kind ≠ .directory
    · exact ⟨.notDirectory, current, fun io => ⟨_, resolve_notDirectory hdir⟩⟩
    by_cases hvalid : ValidComponent component
    · obtain ⟨status, found, hs⟩ := searchIn_steady hd fs current component
      by_cases hok : status = .ok
      · subst hok
        obtain ⟨io₀, hio₀⟩ := hs ⟨[], []⟩
        obtain ⟨e, rfl, _⟩ := searchIn_ok hio₀
        obtain ⟨status, result, hrest⟩ := ih ⟨e, false⟩
        refine ⟨status, result, fun io => ?_⟩
        obtain ⟨io', hio⟩ := hs io
        obtain ⟨io'', hio''⟩ := hrest io'
        exact ⟨io'', by rw [resolve_found hdir hvalid hio, hio'']⟩
      · refine ⟨status, current, fun io => ?_⟩
        obtain ⟨io', hio⟩ := hs io
        exact ⟨io', resolve_failed hdir hvalid hio hok⟩
    · exact ⟨.invalidPath, current, fun io => ⟨_, resolve_invalid hdir hvalid⟩⟩

end steady

/-! ### Directories -/

section directories
variable {d : Disks} {fs : FatFs}
variable {a b : LookupResult}

theorem searchIn_agrees (d : Disks) (fs : FatFs) (current : LookupResult) (name : List UInt8) (io : Io) :
    SearchAgrees name (listIn d fs current io).1 (listIn d fs current io).2.1
      (searchIn d fs current name io).1
      (searchIn d fs current name io).2.1 := by
  have hnothing : SearchAgrees name false [] .corrupt none :=
    ⟨rfl, fun h => absurd h Bool.false_ne_true, fun _ => Or.inl rfl⟩
  unfold listIn searchIn fatListRoot fatListDirectory fatFindRootEntry fatFindDirectoryEntry
  cases current.isRoot with
  | true =>
    cases fs.fatType with
    | none => exact hnothing
    | fat12 => exact root_agrees d fs name io
    | fat16 => exact root_agrees d fs name io
    | fat32 => exact chain_agrees d fs name io fs.rootCluster _ _
  | false =>
    cases fatClusterIsValid fs current.dirent.firstCluster with
    | false => exact hnothing
    | true => exact chain_agrees d fs name io current.dirent.firstCluster _ _

/-- Two lookups that have reached the same directory, perhaps through different entries. -/
def SameDirectory (a b : LookupResult) : Prop :=
  a.isRoot = b.isRoot ∧
    (a.isRoot = false → a.dirent.kind = b.dirent.kind ∧ a.dirent.firstCluster = b.dirent.firstCluster)

theorem SameDirectory.refl (a : LookupResult) : SameDirectory a a := ⟨rfl, fun _ => ⟨rfl, rfl⟩⟩

theorem SameDirectory.searchIn (h : SameDirectory a b) (name : List UInt8) (io : Io) :
    searchIn d fs a name io = searchIn d fs b name io := by
  unfold Fat.searchIn
  rw [← h.1]
  cases hroot : a.isRoot with
  | true => rfl
  | false => rw [(h.2 hroot).2]

theorem SameDirectory.listIn (h : SameDirectory a b) (io : Io) :
    listIn d fs a io = listIn d fs b io := by
  unfold Fat.listIn
  rw [← h.1]
  cases hroot : a.isRoot with
  | true => rfl
  | false => rw [(h.2 hroot).2]

theorem SameDirectory.resolve (h : SameDirectory a b) (d : Disks) (fs : FatFs)
    (components : List (List UInt8)) (io : Io) :
    ∃ status a' b' io', resolve d fs components a io = (status, a', io') ∧
      resolve d fs components b io = (status, b', io') ∧
      (status = .ok → SameDirectory a' b' ∧ (components ≠ [] → a' = b')) := by
  cases components with
  | nil => exact ⟨.ok, a, b, io, rfl, rfl, fun _ => ⟨h, fun hne => absurd rfl hne⟩⟩
  | cons component components =>
    by_cases hdir : a.isRoot = false ∧ a.dirent.kind ≠ .directory
    · have hdir' : b.isRoot = false ∧ b.dirent.kind ≠ .directory := by
        rw [← h.1, ← (h.2 hdir.1).1]
        exact hdir
      exact ⟨_, _, _, _, resolve_notDirectory hdir, resolve_notDirectory hdir', fun h => by cases h⟩
    have hdir' : ¬(b.isRoot = false ∧ b.dirent.kind ≠ .directory) := by
      intro hb
      rw [← h.1] at hb
      exact hdir ⟨hb.1, (h.2 hb.1).1 ▸ hb.2⟩
    by_cases hvalid : ValidComponent component
    · obtain ⟨status, found, io', hs⟩ : ∃ status found io', Fat.searchIn d fs a component io =
          (status, found, io') :=
        ⟨_, _, _, rfl⟩
      have hs' := (h.searchIn component io).symm.trans hs
      by_cases hok : status = .ok
      · subst hok
        obtain ⟨e, rfl, _⟩ := searchIn_ok hs
        refine ⟨_, _, _, _, resolve_found hdir hvalid hs, resolve_found hdir' hvalid hs', fun _ => ?_⟩
        exact ⟨SameDirectory.refl _, fun _ => rfl⟩
      · exact ⟨_, _, _, _, resolve_failed hdir hvalid hs hok, resolve_failed hdir' hvalid hs' hok,
          fun h => absurd h hok⟩
    · exact ⟨_, _, _, _, resolve_invalid hdir hvalid, resolve_invalid hdir' hvalid, fun h => by cases h⟩

theorem fatListPath_abs (path : List UInt8) (io : Io) :
    fatListPath d fs (0x2F :: path) collect [] io =
      match resolve d fs (pathComponents (0x2F :: path)) ⟨freshDirent, true⟩ io with
      | (.ok, current, io) =>
        if current.isRoot = false ∧ current.dirent.kind ≠ .directory then
          (.notDirectory, [], io.note "TERMOB: fat list path target not directory")
        else (fatListStatus (listIn d fs current io).1, (listIn d fs current io).2.1,
          (listIn d fs current io).2.2)
      | (status, _, io) => (status, [], io) := by
  unfold fatListPath
  rw [if_neg (List.cons_ne_nil _ _), fatLookupPath_abs]
  by_cases hroot : path = []
  · subst hroot
    rfl
  · rw [if_neg (by simpa using hroot)]
    obtain ⟨status, current, io', hr⟩ : ∃ status current io', resolve d fs (pathComponents (0x2F :: path))
        ⟨freshDirent, true⟩ io = (status, current, io') := ⟨_, _, _, rfl⟩
    rw [hr]
    cases status with
    | ok =>
      dsimp only [listIn]
      cases hisRoot : current.isRoot with
      | true => simp
      | false => simp
    | _ => rfl

end directories

end TermobKernel.Fat
