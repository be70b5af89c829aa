import TermobKernel.Fat.Steady
import Mathlib.Data.Bool.AllAny

/-!
# The tree of directories

What holds between a listing and the paths below the listed directory. A listed entry is opened by
its listed name exactly when that name fits into the component buffer of the lookup, and `..` leads
back exactly when the parent is not the root directory: the lookup has no case for the cluster `0`
that stands for the root.
-/

namespace TermobKernel.Fat

/-! ### What a walk reports -/

/-- An entry that a walk hands to its callback. -/
inductive Reported (fs : FatFs) : Dirent → Prop where
  | deleted {sector : Buffer} {base : Nat} (h : sector base = 0xE5) : Reported fs
      (fatDirentFromRaw sector base)
  | short (sector : Buffer) (base : Nat) (lfnState : LfnState) : Reported fs
      (fatShortDirent fs sector base lfnState)

section invariant
variable {σ : Type} (d : Disks) {fs : FatFs} {callback : DirentCallback σ}
  (stop : σ → Bool) {inv : σ → Prop}
  (hcall : ∀ e, Reported fs e → ∀ user, inv user → inv (callback.call fs e user).2)
include hcall

theorem visit_keeps (sector : Buffer) (count base : Nat) (lfnState : LfnState) {user : σ}
    (huser : inv user) :
    inv (fatVisitEntries fs sector callback count base lfnState user).2.1 := by
  induction count generalizing base lfnState user with
  | zero => exact huser
  | succ count ih =>
    have hpass : ∀ e, Reported fs e →
        inv (if (callback.call fs e user).1 then
          fatVisitEntries fs sector callback count (base + fatDirEntrySize) fatLfnReset
            (callback.call fs e user).2
        else (fatLfnReset, (callback.call fs e user).2, false)).2.1 := by
      intro e he
      split
      · exact ih _ _ (hcall e he user huser)
      · exact hcall e he user huser
    rw [fatVisitEntries]
    by_cases hend : sector base = 0x00
    · rw [if_pos hend]
      exact huser
    rw [if_neg hend]
    by_cases hdeleted : sector base = 0xE5
    · rw [if_pos hdeleted]
      exact hpass _ (.deleted hdeleted)
    rw [if_neg hdeleted]
    by_cases hlfn : sector (base + 11) = fatAttrLfn
    · rw [if_pos hlfn]
      exact ih _ _ huser
    · rw [if_neg hlfn]
      exact hpass _ (.short sector base lfnState)

theorem sectors_keep (message : String) (count : Nat) (lba : UInt32) (lfnState : LfnState) {user : σ}
    (huser : inv user) (io : Io) :
    inv (fatWalkSectors d fs callback stop message count lba lfnState user io).2.2.1 := by
  induction count generalizing lba lfnState user io with
  | zero => exact huser
  | succ count ih =>
    cases hread : fatBlockReadSector d fs lba io with
    | mk result io' =>
      cases result with
      | none =>
        rw [fatWalkSectors_unread hread]
        exact huser
      | some sector =>
        have hvisit : inv (fatVisitSectorEntries fs sector lfnState callback user).2.1 :=
          visit_keeps hcall sector _ 0 lfnState huser
        rw [fatWalkSectors_read hread rfl]
        split_ifs
        · exact hvisit
        · exact hvisit
        · exact ih _ _ hvisit _

end invariant

theorem listIn_reported (d : Disks) (fs : FatFs) (current : LookupResult) (io : Io) :
    ∀ e ∈ (listIn d fs current io).2.1, Reported fs e := by
  have hcall : ∀ e, Reported fs e → ∀ seen : List Dirent, (∀ e' ∈ seen, Reported fs e') →
      ∀ e' ∈ (collect.call fs e seen).2, Reported fs e' := by
    intro e he seen hseen e' hmem
    rcases List.mem_append.mp hmem with hmem | hmem
    · exact hseen e' hmem
    · rw [List.mem_singleton.mp hmem]
      exact he
  have hnil : ∀ e ∈ ([] : List Dirent), Reported fs e := fun e he => absurd he List.not_mem_nil
  have hroot : ∀ e ∈ (fatListRootFixed d fs collect [] io).2.1, Reported fs e := by
    have h := sectors_keep d (fun _ => false) hcall "TERMOB: fat root read failed"
      ((fs.firstRootDirLba + fs.rootDirSectors).toNat - fs.firstRootDirLba.toNat) fs.firstRootDirLba
        fatLfnReset hnil io
    simp only [fatListRootFixed, fatWalkRootFixed]
    generalize fatWalkSectors d fs collect (fun _ => false) "TERMOB: fat root read failed" _ _ _ _
      _ = all at h ⊢
    obtain ⟨walkEnd, lfnState, es, io'⟩ := all
    cases walkEnd with
    | none => exact h
    | some walkEnd => exact h
  have hchain : ∀ startCluster messages,
      ∀ e ∈ (fatListClusterChain d fs startCluster collect messages [] io).2.1, Reported fs e := by
    intro startCluster messages
    refine (chain_keeps d fs collect _ messages
      (fun seen => ∀ e ∈ seen, Reported fs e) (fun _ _ => trivial) ?_
      fatMaxVisitedClusters [] startCluster fatLfnReset hnil io).1
    exact fun cluster lfnState seen io hseen =>
      ⟨sectors_keep d _ hcall _ _ _ lfnState hseen io, fun _ _ => trivial⟩
  unfold listIn fatListRoot fatListDirectory
  cases current.isRoot with
  | true =>
    cases fs.fatType with
    | none => exact hnil
    | fat12 => exact hroot
    | fat16 => exact hroot
    | fat32 => exact hchain fs.rootCluster _
  | false =>
    cases fatClusterIsValid fs current.dirent.firstCluster with
    | false => exact hnil
    | true => exact hchain current.dirent.firstCluster _

/-! ### Reported names and clusters -/

section reported
variable {fs : FatFs} {e : Dirent}

theorem fatCopy83Name_ne_nil (rawName : List UInt8) : fatCopy83Name rawName ≠ [] := by
  unfold fatCopy83Name
  dsimp only
  generalize List.mapIdx _ _ ++ _ = name
  by_cases hname : name = []
  · rw [if_pos hname]
    exact List.cons_ne_nil _ _
  · rw [if_neg hname]
    exact hname

theorem Reported.displayName_ne_nil (h : Reported fs e) : e.displayName ≠ [] := by
  cases h with
  | deleted _ => exact fatCopy83Name_ne_nil _
  | short sector base lfnState =>
    have hlong : (lfnState.name.toList.take fatNameMax).takeWhile (· ≠ 0) ≠ [] ∨ lfnState.name[0] = 0 := by
      by_cases hfirst : lfnState.name[0] = 0
      · exact Or.inr hfirst
      · refine Or.inl fun hnil => ?_
        have hcons : lfnState.name.toList = lfnState.name[0] :: lfnState.name.toList.tail := by
          apply List.ext_getElem
          · simp
          · intro i hi hi'
            cases i with
            | zero => simp
            | succ i => simp
        rw [hcons, fatNameMax, List.take_succ_cons, List.takeWhile_cons] at hnil
        simp [hfirst] at hnil
    unfold fatShortDirent
    dsimp only
    split_ifs with h1 h2 h3
    · exact hlong.resolve_right h1.2.2
    · exact hlong.resolve_right h1.2.2
    · exact fatCopy83Name_ne_nil _
    · exact fatCopy83Name_ne_nil _

theorem Reported.shortName_ne_nil (h : Reported fs e) : e.shortName ≠ [] := by
  cases h with
  | deleted _ => exact fatCopy83Name_ne_nil _
  | short sector base lfnState =>
    unfold fatShortDirent
    dsimp only
    split_ifs
    · exact fatCopy83Name_ne_nil _
    · exact fatCopy83Name_ne_nil _
    · exact fatCopy83Name_ne_nil _
    · exact fatCopy83Name_ne_nil _

theorem Reported.not_matches_nil (h : Reported fs e) : ¬e.Matches [] := by
  intro hmatch
  rcases hmatch with hshort | ⟨_, hlong⟩
  · exact h.shortName_ne_nil (List.map_eq_nil_iff.mp hshort)
  · exact h.displayName_ne_nil (List.map_eq_nil_iff.mp hlong)

theorem Reported.matches_displayName (h : Reported fs e) : e.Matches e.displayName := by
  cases h with
  | deleted _ => exact Or.inl rfl
  | short sector base lfnState =>
    unfold fatShortDirent
    dsimp only
    split_ifs
    · exact Or.inr ⟨rfl, rfl⟩
    · exact Or.inr ⟨rfl, rfl⟩
    · exact Or.inl rfl
    · exact Or.inl rfl

theorem Reported.not_suspicious (h : Reported fs e) (hkind : e.kind = .directory)
    (hcluster : e.firstCluster = 0 ∨ fatClusterIsValid fs e.firstCluster = true) :
    e.suspicious = false := by
  cases h with
  | deleted hdeleted =>
    have : (fatDirentFromRaw _ _).kind = .deleted := if_pos hdeleted
    rw [this] at hkind
    cases hkind
  | short sector base lfnState =>
    unfold fatShortDirent at hkind hcluster ⊢
    dsimp only at hkind hcluster ⊢
    split_ifs at hkind hcluster ⊢ <;> simp_all [fatDirentFromRaw]

end reported

/-! ### Paths below a directory -/

def joinPath (path name : List UInt8) : List UInt8 := path ++ 0x2F :: name

theorem pathComponents_joinPath (path name : List UInt8) :
    pathComponents (joinPath path name) = pathComponents path ++ pathComponents name :=
  pathComponents_append_sep path name

theorem fatLookupPath_joinPath (d : Disks) (fs : FatFs) (path name : List UInt8)
    (out : LookupResult) (io : Io) :
    fatLookupPath d fs (joinPath (0x2F :: path) name) out io =
      resolve d fs (pathComponents (0x2F :: path) ++ pathComponents name)
        { out with isRoot := true } io := by
  rw [← pathComponents_joinPath]
  exact fatLookupPath_abs d fs (joinPath path name) out io

section paths
variable {d : Disks} {fs : FatFs} {current : LookupResult} {name : List UInt8} {e : Dirent} {io io' : Io}

theorem firstAnswer_some {entries : List Dirent} (h : firstAnswer name entries = some e) :
    e ∈ entries ∧ e.Answers name := by
  refine ⟨List.mem_of_find?_eq_some h, ?_⟩
  have hfound := List.find?_some h
  exact of_decide_eq_true hfound

theorem searchIn_of_firstAnswer (h : firstAnswer name (listIn d fs current io).2.1 = some e)
    (hclean : e.suspicious = false) : ∃ io', searchIn d fs current name io = (.ok, some e, io') := by
  have hagrees := searchIn_agrees d fs current name io
  rw [SearchAgrees, h] at hagrees
  dsimp only at hagrees
  rw [hclean, if_neg Bool.false_ne_true] at hagrees
  exact ⟨_, Prod.ext hagrees.2 (Prod.ext hagrees.1 rfl)⟩

theorem searchIn_ne_invalidPath (d : Disks) (fs : FatFs) (current : LookupResult)
    (name : List UInt8) (io : Io) :
    (searchIn d fs current name io).1 ≠ .invalidPath := by
  intro h
  have hagrees := searchIn_agrees d fs current name io
  rw [SearchAgrees, h] at hagrees
  split at hagrees
  · obtain ⟨_, hstatus⟩ := hagrees
    split_ifs at hstatus
  · obtain ⟨_, hlisted, hfailed⟩ := hagrees
    cases hl : (listIn d fs current io).1 with
    | true => cases hlisted hl
    | false =>
      rcases hfailed hl with hs | hs
      · cases hs
      · cases hs

def LookupResult.IsDirectory (current : LookupResult) : Prop :=
  current.isRoot = true ∨ current.dirent.kind = .directory

theorem LookupResult.IsDirectory.not_file (h : current.IsDirectory) :
    ¬(current.isRoot = false ∧ current.dirent.kind ≠ .directory) := by
  intro hfile
  rcases h with hroot | hkind
  · rw [hroot] at hfile
    cases hfile.1
  · exact hfile.2 hkind

theorem resolve_step (hdir : current.IsDirectory) (hvalid : ValidComponent name) (io : Io)
    (h : firstAnswer name (listIn d fs current io).2.1 = some e) (hclean : e.suspicious = false) :
    ∃ io', ∀ components, resolve d fs (name :: components) current io = resolve d fs components
        ⟨e, false⟩ io' := by
  obtain ⟨io', hsearch⟩ := searchIn_of_firstAnswer h hclean
  exact ⟨io', fun components => resolve_found hdir.not_file hvalid hsearch⟩

theorem listIn_entries_const (hd : d.Steady) (io io' : Io) :
    (listIn d fs current io).2.1 = (listIn d fs current io').2.1 := by
  obtain ⟨listed, entries, hsteady⟩ := listIn_steady hd fs current
  obtain ⟨_, h⟩ := hsteady io
  obtain ⟨_, h'⟩ := hsteady io'
  rw [h, h']

theorem path_abs_of_lookup {path : List UInt8} {out result : LookupResult}
    (h : fatLookupPath d fs path out io = (.ok, result, io')) : ∃ rest, path = 0x2F :: rest := by
  cases path with
  | nil => cases h
  | cons c rest =>
    by_cases hc : c = 0x2F
    · exact ⟨rest, by rw [hc]⟩
    · rw [fatLookupPath, if_pos (by simpa using hc)] at h
      cases h

theorem fatListPath_ok {path : List UInt8} {entries : List Dirent}
    (h : fatListPath d fs path collect [] io = (.ok, entries, io')) :
    ∃ rest current io'', path = 0x2F :: rest ∧
      resolve d fs (pathComponents path) ⟨freshDirent, true⟩ io = (.ok, current, io'') ∧
      current.IsDirectory ∧ (listIn d fs current io'').2.1 = entries := by
  obtain ⟨rest, rfl⟩ : ∃ rest, path = 0x2F :: rest := by
    cases path with
    | nil => cases h
    | cons c rest =>
      by_cases hc : c = 0x2F
      · exact ⟨rest, by rw [hc]⟩
      · rw [fatListPath, if_neg (List.cons_ne_nil _ _), if_neg (by simp [hc]), fatLookupPath,
          if_pos (by simpa using hc)] at h
        cases h
  rw [fatListPath_abs] at h
  obtain ⟨status, current, io'', hr⟩ : ∃ status current io'', resolve d fs (pathComponents (0x2F :: rest))
      ⟨freshDirent, true⟩ io = (status, current, io'') := ⟨_, _, _, rfl⟩
  rw [hr] at h
  cases status with
  | ok =>
    dsimp only at h
    split_ifs at h with hfile
    · cases h
    refine ⟨rest, current, io'', rfl, hr, ?_, congrArg (·.2.1) h⟩
    cases hroot : current.isRoot with
    | true => exact Or.inl hroot
    | false => exact Or.inr (not_not.mp fun hkind => hfile ⟨hroot, hkind⟩)
  | _ => cases h

theorem resolve_again (hd : d.Steady) {components : List (List UInt8)} {dirent : Dirent}
    (h : resolve d fs components ⟨dirent, true⟩ io = (.ok, current, io')) (out : Dirent) (io₂ : Io) :
    ∃ reached io₃, resolve d fs components ⟨out, true⟩ io₂ = (.ok, reached, io₃) ∧
        SameDirectory reached current := by
  have hstart : SameDirectory ⟨out, true⟩ ⟨dirent, true⟩ := ⟨rfl, fun h => by cases h⟩
  obtain ⟨status, result, hsteady⟩ := resolve_steady hd fs components ⟨dirent, true⟩
  obtain ⟨io₁, h₁⟩ := hsteady io
  rw [h] at h₁
  cases h₁
  obtain ⟨status, reached, result, io₃, hreached, hresult, hsame⟩ := hstart.resolve d fs components io₂
  obtain ⟨io₄, h₄⟩ := hsteady io₂
  rw [h₄] at hresult
  cases hresult
  exact ⟨reached, io₃, hreached, (hsame rfl).1⟩

theorem SameDirectory.isDirectory {a b : LookupResult} (h : SameDirectory a b)
    (hb : b.IsDirectory) : a.IsDirectory := by
  cases hroot : a.isRoot with
  | true => exact Or.inl hroot
  | false =>
    refine Or.inr ?_
    rw [(h.2 hroot).1]
    refine hb.resolve_left fun hb => ?_
    rw [← h.1, hroot] at hb
    cases hb

end paths

/-! ### A small volume -/

def rawEntry (rawName : List UInt8) (attributes cluster : UInt8) : List UInt8 :=
  rawName ++ [attributes] ++ List.replicate 14 0 ++ [cluster] ++ List.replicate 5 0

def rawA : List UInt8 := 0x41 :: List.replicate 10 0x20
def rawB : List UInt8 := 0x42 :: List.replicate 10 0x20
def rawDot : List UInt8 := 0x2E :: List.replicate 10 0x20
def rawDotDot : List UInt8 := 0x2E :: 0x2E :: List.replicate 9 0x20
def rawLong : List UInt8 := [0x4C, 0x4F, 0x4E, 0x47, 0x46, 0x49, 0x7E, 0x31, 0x20, 0x20, 0x20]
def longName : List UInt8 := [0x6C, 0x6F, 0x6E, 0x67, 0x66, 0x69, 0x6C, 0x65, 0x6E, 0x61, 0x6D, 0x65, 0x31]

/-- The only long-name slot of a name with thirteen characters. -/
def rawSlot (name : List UInt8) (checksum : UInt8) : List UInt8 :=
  let units := name.flatMap fun c => [c, 0]
  [0x41] ++ units.take 10 ++ [0x0F, 0, checksum] ++ (units.drop 10).take 12 ++ [0, 0] ++ units.drop 22

/-- The sectors of a FAT12 volume: boot sector, table, root directory with `A` and a file with a
long name, `A` with the subdirectory `B`, and `B`. -/
def sampleImage : UInt32 → List UInt8
  | 0 => [0xEB, 0x3C, 0x90] ++ List.replicate 8 0x20 ++ [0x00, 0x02, 1, 1, 0, 1, 16, 0, 5, 0, 0xF8, 1, 0] ++
      List.replicate 486 0 ++ [0x55, 0xAA]
  | 1 => [0xF8, 0xFF, 0xFF, 0xFF, 0xFF, 0xFF]
  | 2 => rawEntry rawA 0x10 2 ++ rawSlot longName (fatShortNameChecksum rawLong) ++ rawEntry rawLong 0x20 0
  | 3 => rawEntry rawDot 0x10 2 ++ rawEntry rawDotDot 0x10 0 ++ rawEntry rawB 0x10 3
  | 4 => rawEntry rawDot 0x10 3 ++ rawEntry rawDotDot 0x10 2
  | _ => []

def sampleDisks : Disks where
  blockReady := true
  blockDeviceList := [⟨512, true, fun lba i => (sampleImage lba).getD i 0, fun _ _ => false⟩]

def sampleFs : FatFs where
  deviceIndex := 0
  bootLba := 0
  bytesPerSector := 512
  sectorsPerCluster := 1
  reservedSectors := 1
  fatCount := 1
  sectorsPerFat := 1
  rootEntryCount := 16
  totalSectors := 5
  firstFatLba := 1
  firstDataLba := 3
  firstRootDirLba := 2
  rootDirSectors := 1
  rootCluster := 0
  clusterCount := 2
  fatType := .fat12

theorem sample_mounted : (fatMount sampleDisks 0 0 ⟨[], []⟩).1 = some sampleFs := by decide +kernel

theorem sample_steady : sampleDisks.Steady := by
  intro device hdevice n m lba
  rw [List.mem_singleton.mp hdevice]

def directoryA : Dirent := ⟨[0x41], [0x41], rawA, 0x10, 2, 0, .directory, false, false⟩
def directoryB : Dirent := ⟨[0x42], [0x42], rawB, 0x10, 3, 0, .directory, false, false⟩
def longFile : Dirent := ⟨rawLong.take 8, longName, rawLong, 0x20, 0, 0, .file, true, false⟩

theorem sample_root_listing :
    fatListPath sampleDisks sampleFs [0x2F] collect [] ⟨[], []⟩ =
        (.ok, [directoryA, longFile], ⟨[2], []⟩) := by
  decide +kernel

/-! ### Opening what is listed -/

/-- On a disk that reads alike every time: a listed file or directory that is not suspicious, with a
printable name that no earlier entry has, is what the lookup of `directory/name` returns, if and
only if its name has at most twelve characters. -/
theorem listed_name_opens_iff {d : Disks} {fs : FatFs} (hd : d.Steady) {directory : List UInt8}
    {before after : List Dirent} {e : Dirent} {io io' : Io}
    (hlist : fatListPath d fs directory collect [] io = (.ok, before ++ e :: after, io'))
    (hkind : e.kind = .file ∨ e.kind = .directory) (hclean : e.suspicious = false)
    (hchars : ∀ c ∈ e.displayName, 32 ≤ c ∧ c ≤ 126 ∧ c ≠ 0x2F)
    (hfirst : ∀ e' ∈ before, ¬e'.Matches e.displayName) (out : LookupResult) (io₂ : Io) :
    (∃ io₃, fatLookupPath d fs (joinPath directory e.displayName) out io₂ = (.ok, ⟨e, false⟩, io₃)) ↔
      e.displayName.length ≤ 12 := by
  obtain ⟨rest, current, io₁, rfl, hresolve, hdir, hentries⟩ := fatListPath_ok hlist
  have hreported : Reported fs e := listIn_reported d fs current io₁ e (by simp [hentries])
  have hname : pathComponents e.displayName = [e.displayName] :=
    pathComponents_single hreported.displayName_ne_nil fun hsep => (hchars _ hsep).2.2 rfl
  obtain ⟨reached, io₃, hreached, hsame⟩ := resolve_again hd hresolve out.dirent io₂
  have hlookup : fatLookupPath d fs (joinPath (0x2F :: rest) e.displayName) out io₂ =
      resolve d fs [e.displayName] reached io₃ := by
    rw [fatLookupPath_joinPath, resolve_append hreached, hname]
  have hdir' := hsame.isDirectory hdir
  rw [hlookup]
  by_cases hvalid : ValidComponent e.displayName
  · refine iff_of_true ?_ hvalid.1
    have hanswer : firstAnswer e.displayName (listIn d fs reached io₃).2.1 = some e := by
      rw [hsame.listIn, listIn_entries_const hd io₃ io₁, hentries, firstAnswer,
        List.find?_eq_some_iff_append]
      refine ⟨decide_eq_true ⟨hkind, hreported.matches_displayName⟩, before, after, rfl, fun e' he' => ?_⟩
      rw [Bool.not_eq_true', decide_eq_false_iff_not]
      exact fun hanswers => hfirst e' he' hanswers.2
    obtain ⟨io₄, hstep⟩ := resolve_step hdir' hvalid io₃ hanswer hclean
    exact ⟨io₄, hstep []⟩
  · refine iff_of_false ?_ fun hlength => hvalid ⟨hlength, fun c hc => ⟨(hchars c hc).1, (hchars c hc).2.1⟩⟩
    rintro ⟨io₄, hfound⟩
    rw [resolve_invalid hdir'.not_file hvalid] at hfound
    cases hfound

theorem listed_name_opens_directoryA :
    ∃ io, fatLookupPath sampleDisks sampleFs (joinPath [0x2F] directoryA.displayName)
      ⟨freshDirent, false⟩ ⟨[], []⟩ = (.ok, ⟨directoryA, false⟩, io) :=
  have hlist : fatListPath sampleDisks sampleFs [0x2F] collect [] ⟨[], []⟩ =
      (.ok, [] ++ directoryA :: [longFile], ⟨[2], []⟩) := sample_root_listing
  (listed_name_opens_iff sample_steady hlist (by decide) (by decide)
    (List.all_iff_forall_prop.mp (by decide)) (by decide)
    ⟨freshDirent, false⟩ ⟨[], []⟩).mpr (by decide)

/-- A mounted volume lists a file under a printable name of thirteen characters, and no lookup
accepts that name. -/
theorem long_listed_name_refused :
    (fatMount sampleDisks 0 0 ⟨[], []⟩).1 = some sampleFs ∧
      fatListPath sampleDisks sampleFs [0x2F] collect [] ⟨[], []⟩ =
        (.ok, [directoryA, longFile], ⟨[2], []⟩) ∧
      longFile.kind = .file ∧ longFile.suspicious = false ∧
      (∀ c ∈ longFile.displayName, 32 ≤ c ∧ c ≤ 126 ∧ c ≠ 0x2F) ∧ ¬directoryA.Matches longFile.displayName ∧
      (fatLookupPath sampleDisks sampleFs (joinPath [0x2F] longFile.displayName)
        ⟨freshDirent, false⟩ ⟨[], []⟩).1 = .invalidPath := by
  refine ⟨sample_mounted, sample_root_listing, rfl, rfl, List.all_iff_forall_prop.mp (by decide), by decide,
    by decide +kernel⟩

/-! ### Going up -/

def dotDot : List UInt8 := [0x2E, 0x2E]
def dot : List UInt8 := [0x2E]

def LeadsTo (d : Disks) (fs : FatFs) (path : List UInt8) (place : LookupResult) : Prop :=
  (∀ io, ∃ io', fatLookupPath d fs path ⟨freshDirent, false⟩ io = (.ok, place, io')) ∧ place.IsDirectory

/-- A directory that its parent lists under this name. The entries of a directory for itself and for
its parent do not count. -/
structure Subdirectory (d : Disks) (fs : FatFs) (parent : LookupResult) (name : List UInt8)
    (child : Dirent) : Prop where
  listed : ∀ io, firstAnswer name (listIn d fs parent io).2.1 = some child
  kind : child.kind = .directory
  clean : child.suspicious = false
  proper : child.shortName ≠ dot ∧ child.shortName ≠ dotDot
  noSeparator : 0x2F ∉ name

/-- The convention of FAT: each subdirectory has an entry `..` with the first cluster of its parent,
or with `0` if that is the root directory. -/
def FollowsConvention (d : Disks) (fs : FatFs) : Prop :=
  ∀ path parent name child, LeadsTo d fs path parent → Subdirectory d fs parent name child →
    ∃ up : Dirent, (∀ io, firstAnswer dotDot (listIn d fs ⟨child, false⟩ io).2.1 = some up) ∧
      up.kind = .directory ∧
      up.firstCluster = if parent.isRoot then 0 else parent.dirent.firstCluster

/-- The same status and, on success, the same entry. Without any further component the two lookups
return the entry `..` and the entry of the directory itself, which are two entries of one directory.
-/
def SameOutcome (rest : List UInt8) (a b : FatStatus × LookupResult × Io) : Prop :=
  a.1 = b.1 ∧ (a.1 = .ok → SameDirectory a.2.1 b.2.1 ∧ (pathComponents rest ≠ [] → a.2.1 = b.2.1))

/-- Going down to `name` and up by `..` changes nothing: every further path has the same outcome,
and the listing has the same status and the same entries. -/
def DotDotLeadsBack (d : Disks) (fs : FatFs) (path name : List UInt8) : Prop :=
  (∀ rest out io io', SameOutcome rest
      (fatLookupPath d fs (joinPath path (joinPath (joinPath name dotDot) rest)) out io)
      (fatLookupPath d fs (joinPath path rest) out io')) ∧
    ∀ io io', (fatListPath d fs (joinPath path (joinPath name dotDot)) collect [] io).1 =
        (fatListPath d fs path collect [] io').1 ∧
      (fatListPath d fs (joinPath path (joinPath name dotDot)) collect [] io).2.1 =
        (fatListPath d fs path collect [] io').2.1

section up
variable {d : Disks} {fs : FatFs} {path name : List UInt8} {parent : LookupResult} {child : Dirent}

theorem fatClusterIsValid_zero (fs : FatFs) : fatClusterIsValid fs 0 = false := rfl

theorem searchIn_cluster_zero {up : Dirent} (h : up.firstCluster = 0) (name : List UInt8) (io : Io) :
    (searchIn d fs ⟨up, false⟩ name io).1 = .corrupt := by
  rw [searchIn, if_neg Bool.false_ne_true, fatFindDirectoryEntry, h, fatClusterIsValid_zero, if_pos rfl]

theorem Subdirectory.parent_valid (hsub : Subdirectory d fs parent name child)
    (hroot : parent.isRoot = false) :
    fatClusterIsValid fs parent.dirent.firstCluster = true := by
  have hlisted := hsub.listed ⟨[], []⟩
  by_contra hvalid
  rw [listIn, hroot, if_neg Bool.false_ne_true, fatListDirectory,
    if_pos (Bool.not_eq_true _ ▸ hvalid)] at hlisted
  cases hlisted

theorem Subdirectory.name_ne_nil (hsub : Subdirectory d fs parent name child) : name ≠ [] := by
  intro hnil
  obtain ⟨hmem, _, hmatches⟩ := firstAnswer_some (hsub.listed ⟨[], []⟩)
  rw [hnil] at hmatches
  exact (listIn_reported d fs parent ⟨[], []⟩ child hmem).not_matches_nil hmatches

theorem FollowsConvention.up (hconv : FollowsConvention d fs) (hpath : LeadsTo d fs path parent)
    (hsub : Subdirectory d fs parent name child) (hvalid : ValidComponent name) :
    ∃ up : Dirent, up.kind = .directory ∧
      up.firstCluster = (if parent.isRoot then 0 else parent.dirent.firstCluster) ∧
      ∀ current, SameDirectory current parent → ∀ io, ∃ io', ∀ components,
        resolve d fs (name :: dotDot :: components) current io = resolve d fs components
        ⟨up, false⟩ io' := by
  obtain ⟨up, hup, hkind, hcluster⟩ := hconv path parent name child hpath hsub
  have hclean : up.suspicious = false := by
    obtain ⟨hmem, _⟩ := firstAnswer_some (hup ⟨[], []⟩)
    refine (listIn_reported d fs _ _ up hmem).not_suspicious hkind ?_
    rw [hcluster]
    cases hroot : parent.isRoot with
    | true => exact Or.inl rfl
    | false => exact Or.inr (hsub.parent_valid hroot)
  refine ⟨up, hkind, hcluster, fun current hsame io => ?_⟩
  obtain ⟨io₁, hdown⟩ := resolve_step (hsame.isDirectory hpath.2) hvalid io
    (by rw [hsame.listIn]; exact hsub.listed io) hsub.clean
  obtain ⟨io₂, hback⟩ :=
    resolve_step (show (⟨child, false⟩ : LookupResult).IsDirectory from Or.inr hsub.kind)
    (by decide) io₁ (hup io₁) hclean
  exact ⟨io₂, fun components => by rw [hdown, hback]⟩

theorem LeadsTo.of_lookup (hd : d.Steady) {io io' : Io}
    (h : fatLookupPath d fs path ⟨freshDirent, false⟩ io = (.ok, parent, io')) (hdir : parent.IsDirectory) :
    LeadsTo d fs path parent := by
  obtain ⟨tail, rfl⟩ := path_abs_of_lookup h
  refine ⟨fun io₂ => ?_, hdir⟩
  obtain ⟨status, result, hsteady⟩ := resolve_steady hd fs (pathComponents (0x2F :: tail))
    ⟨freshDirent, true⟩
  obtain ⟨io₁, h₁⟩ := hsteady io
  obtain ⟨io₃, h₃⟩ := hsteady io₂
  rw [fatLookupPath_abs, h₁] at h
  cases h
  exact ⟨io₃, by rw [fatLookupPath_abs, h₃]⟩

theorem LeadsTo.again (hd : d.Steady) (hpath : LeadsTo d fs path parent) (out : Dirent) (io : Io) :
    ∃ reached io', resolve d fs (pathComponents path) ⟨out, true⟩ io = (.ok, reached, io') ∧
      SameDirectory reached parent := by
  obtain ⟨io', hlookup⟩ := hpath.1 ⟨[], []⟩
  obtain ⟨rest, rfl⟩ := path_abs_of_lookup hlookup
  rw [fatLookupPath_abs] at hlookup
  exact resolve_again hd hlookup out io

theorem SameDirectory.outcome {a b : LookupResult} (h : SameDirectory a b) (hd : d.Steady)
    (rest : List UInt8) (io io' : Io) :
    SameOutcome rest (Fat.resolve d fs (pathComponents rest) a io)
        (Fat.resolve d fs (pathComponents rest) b io') := by
  obtain ⟨status, a', b', io₁, ha, hb, hsame⟩ := h.resolve d fs (pathComponents rest) io
  obtain ⟨status', result, hsteady⟩ := resolve_steady hd fs (pathComponents rest) b
  obtain ⟨io₂, h₂⟩ := hsteady io
  obtain ⟨io₃, h₃⟩ := hsteady io'
  rw [hb] at h₂
  cases h₂
  rw [ha, h₃]
  exact ⟨rfl, hsame⟩

theorem SameDirectory.listing {a b : LookupResult} (h : SameDirectory a b) (hd : d.Steady)
    (hdir : b.IsDirectory)
    {path path' : List UInt8} {io io₁ io' io₁' : Io}
    (ha : Fat.resolve d fs (pathComponents (0x2F :: path)) ⟨freshDirent, true⟩ io = (.ok, a, io₁))
    (hb : Fat.resolve d fs (pathComponents (0x2F :: path')) ⟨freshDirent, true⟩ io' = (.ok, b, io₁')) :
    (fatListPath d fs (0x2F :: path) collect [] io).1 =
      (fatListPath d fs (0x2F :: path') collect [] io').1 ∧
      (fatListPath d fs (0x2F :: path) collect [] io).2.1 =
        (fatListPath d fs (0x2F :: path') collect [] io').2.1 := by
  obtain ⟨listed, entries, hsteady⟩ := listIn_steady hd fs b
  obtain ⟨io₂, h₂⟩ := hsteady io₁
  obtain ⟨io₃, h₃⟩ := hsteady io₁'
  rw [fatListPath_abs, fatListPath_abs, ha, hb]
  dsimp only
  rw [if_neg (h.isDirectory hdir).not_file, if_neg hdir.not_file, h.listIn, h₂, h₃]
  exact ⟨rfl, rfl⟩

theorem LeadsTo.below (hd : d.Steady) (hpath : LeadsTo d fs path parent) (rest : List UInt8)
    (out : LookupResult) (io : Io) :
    ∃ reached io', SameDirectory reached parent ∧
      fatLookupPath d fs (joinPath path rest) out io = resolve d fs (pathComponents rest) reached io' := by
  obtain ⟨_, habs⟩ := hpath.1 ⟨[], []⟩
  obtain ⟨tail, rfl⟩ := path_abs_of_lookup habs
  obtain ⟨reached, io', hreached, hsame⟩ := hpath.again hd out.dirent io
  exact ⟨reached, io', hsame, by rw [fatLookupPath_joinPath, resolve_append hreached]⟩

theorem Subdirectory.components (hsub : Subdirectory d fs parent name child) (rest : List UInt8) :
    pathComponents (joinPath (joinPath name dotDot) rest) = name :: dotDot :: pathComponents rest := by
  rw [pathComponents_joinPath, pathComponents_joinPath,
    pathComponents_single hsub.name_ne_nil hsub.noSeparator]
  rfl

theorem not_sameOutcome_of_invalid (hd : d.Steady) (hpath : LeadsTo d fs path parent)
    (hsub : Subdirectory d fs parent name child) (hvalid : ¬ValidComponent name)
    (out : LookupResult) (io io' : Io) :
    ¬SameOutcome dot (fatLookupPath d fs (joinPath path (joinPath (joinPath name dotDot) dot)) out io)
      (fatLookupPath d fs (joinPath path dot) out io') := by
  intro ⟨hstatus, _⟩
  obtain ⟨reached, io₁, hsame, hthere⟩ := hpath.below hd (joinPath (joinPath name dotDot) dot) out io
  obtain ⟨reached', io₂, hsame', hhere⟩ := hpath.below hd dot out io'
  have hdir := (hsame.isDirectory hpath.2).not_file
  have hdir' := (hsame'.isDirectory hpath.2).not_file
  rw [hthere, hsub.components, resolve_invalid hdir hvalid, hhere] at hstatus
  have hdot : pathComponents dot = [dot] := by decide
  obtain ⟨status, found, io₃, hsearch⟩ : ∃ status found io₃, searchIn d fs reached' dot io₂ =
      (status, found, io₃) :=
    ⟨_, _, _, rfl⟩
  have hinvalid : status ≠ .invalidPath := by
    have h := searchIn_ne_invalidPath d fs reached' dot io₂
    rw [hsearch] at h
    exact h
  rw [hdot] at hstatus
  by_cases hok : status = .ok
  · subst hok
    obtain ⟨e, rfl, _⟩ := searchIn_ok hsearch
    rw [resolve_found hdir' (by decide) hsearch] at hstatus
    cases hstatus
  · rw [resolve_failed hdir' (by decide) hsearch hok] at hstatus
    exact hinvalid hstatus.symm

theorem not_sameOutcome_of_root (hd : d.Steady) (hconv : FollowsConvention d fs)
    (hpath : LeadsTo d fs path parent) (hsub : Subdirectory d fs parent name child)
    (hvalid : ValidComponent name) (hroot : parent.isRoot = true) (out : LookupResult)
    (io io' : Io) :
    ¬SameOutcome name (fatLookupPath d fs (joinPath path (joinPath (joinPath name dotDot) name)) out io)
      (fatLookupPath d fs (joinPath path name) out io') := by
  intro ⟨hstatus, _⟩
  obtain ⟨up, hkind, hcluster, hup⟩ := hconv.up hpath hsub hvalid
  rw [hroot, if_pos rfl] at hcluster
  obtain ⟨reached, io₁, hsame, hthere⟩ := hpath.below hd (joinPath (joinPath name dotDot) name) out io
  obtain ⟨reached', io₂, hsame', hhere⟩ := hpath.below hd name out io'
  obtain ⟨io₃, hup⟩ := hup reached hsame io₁
  obtain ⟨io₄, hdown⟩ := resolve_step (hsame'.isDirectory hpath.2) hvalid io₂
    (by rw [hsame'.listIn]; exact hsub.listed io₂) hsub.clean
  obtain ⟨found, io₅, hsearch⟩ : ∃ found io₅, searchIn d fs ⟨up, false⟩ name io₃ = (.corrupt, found, io₅) :=
    ⟨_, _, Prod.ext (searchIn_cluster_zero hcluster name io₃) rfl⟩
  have hfile : ¬((⟨up, false⟩ : LookupResult).isRoot = false ∧ up.kind ≠ .directory) := fun h => h.2 hkind
  rw [hthere, hsub.components, hup, hhere, pathComponents_single hsub.name_ne_nil hsub.noSeparator,
    resolve_failed hfile hvalid hsearch FatStatus.noConfusion, hdown] at hstatus
  cases hstatus

theorem FollowsConvention.back (hconv : FollowsConvention d fs) (hpath : LeadsTo d fs path parent)
    (hsub : Subdirectory d fs parent name child) (hvalid : ValidComponent name)
    (hroot : parent.isRoot = false) :
    ∃ up : LookupResult, ∀ current, SameDirectory current parent → SameDirectory up current ∧ ∀ io,
      ∃ io', ∀ components,
      resolve d fs (name :: dotDot :: components) current io = resolve d fs components up io' := by
  obtain ⟨up, hkind, hcluster, hup⟩ := hconv.up hpath hsub hvalid
  rw [hroot, if_neg Bool.false_ne_true] at hcluster
  refine ⟨⟨up, false⟩, fun current hsame => ⟨?_, hup current hsame⟩⟩
  have hroot' : current.isRoot = false := hsame.1.trans hroot
  refine ⟨hroot'.symm, fun _ => ?_⟩
  have hdir : parent.dirent.kind = .directory := hpath.2.resolve_left (by simp [hroot])
  obtain ⟨hk, hc⟩ := hsame.2 hroot'
  exact ⟨hkind.trans (hk.trans hdir).symm, hcluster.trans hc.symm⟩

end up

/-! ### The directories of the small volume -/

def selfEntry (cluster : UInt32) : Dirent := ⟨dot, dot, rawDot, 0x10, cluster, 0, .directory, false, false⟩
def upEntry (cluster : UInt32) : Dirent :=
  ⟨dotDot, dotDot, rawDotDot, 0x10, cluster, 0, .directory, false, false⟩

theorem sample_list_root (e : Dirent) (io : Io) :
    (listIn sampleDisks sampleFs ⟨e, true⟩ io).2.1 = [directoryA, longFile] := by
  rw [listIn_entries_const sample_steady io ⟨[], []⟩]
  change (fatListRoot sampleDisks sampleFs collect [] ⟨[], []⟩).2.1 = _
  decide +kernel

theorem sample_list_A {e : Dirent} (h : e.firstCluster = 2) (io : Io) :
    (listIn sampleDisks sampleFs ⟨e, false⟩ io).2.1 = [selfEntry 2, upEntry 0, directoryB] := by
  rw [listIn_entries_const sample_steady io ⟨[], []⟩, listIn, if_neg Bool.false_ne_true, h]
  decide +kernel

theorem sample_list_B {e : Dirent} (h : e.firstCluster = 3) (io : Io) :
    (listIn sampleDisks sampleFs ⟨e, false⟩ io).2.1 = [selfEntry 3, upEntry 2] := by
  rw [listIn_entries_const sample_steady io ⟨[], []⟩, listIn, if_neg Bool.false_ne_true, h]
  decide +kernel

theorem sample_clusters {cluster : UInt32} (h : fatClusterIsValid sampleFs cluster = true) :
    cluster = 2 ∨ cluster = 3 := by
  simp only [fatClusterIsValid, sampleFs, Bool.and_eq_true, decide_eq_true_eq,
    UInt32.le_iff_toNat_le, ge_iff_le, UInt32.lt_iff_toNat_lt] at h
  have hrange : cluster.toNat = 2 ∨ cluster.toNat = 3 := by
    have h2 : (2 : UInt32).toNat = 2 := rfl
    have h4 : (2 + 2 : UInt32).toNat = 4 := rfl
    omega
  rcases hrange with h | h
  · exact Or.inl (UInt32.toNat_inj.mp h)
  · exact Or.inr (UInt32.toNat_inj.mp h)

theorem sample_convention : FollowsConvention sampleDisks sampleFs := by
  intro path parent name child _ hsub
  obtain ⟨hmem, _⟩ := firstAnswer_some (hsub.listed ⟨[], []⟩)
  obtain ⟨e, isRoot⟩ := parent
  cases isRoot with
  | true =>
    rw [sample_list_root, List.mem_pair] at hmem
    rcases hmem with rfl | rfl
    · exact ⟨upEntry 0, fun io => by rw [sample_list_A rfl]; decide, rfl, rfl⟩
    · exact absurd hsub.kind (by decide)
  | false =>
    rcases sample_clusters (hsub.parent_valid rfl) with hcluster | hcluster
    · rw [sample_list_A hcluster, List.mem_cons, List.mem_pair] at hmem
      rcases hmem with rfl | rfl | rfl
      · exact absurd rfl hsub.proper.1
      · exact absurd rfl hsub.proper.2
      · exact ⟨upEntry 2, fun io => by rw [sample_list_B rfl]; decide, rfl, hcluster.symm⟩
    · rw [sample_list_B hcluster, List.mem_pair] at hmem
      rcases hmem with rfl | rfl
      · exact absurd rfl hsub.proper.1
      · exact absurd rfl hsub.proper.2

theorem sample_leads_A : LeadsTo sampleDisks sampleFs [0x2F, 0x41] ⟨directoryA, false⟩ :=
  have hlookup : fatLookupPath sampleDisks sampleFs [0x2F, 0x41] ⟨freshDirent, false⟩ ⟨[], []⟩ =
      (.ok, ⟨directoryA, false⟩, ⟨[2], []⟩) := by decide +kernel
  LeadsTo.of_lookup sample_steady hlookup (Or.inr rfl)

theorem sample_subdirectory_B : Subdirectory sampleDisks sampleFs ⟨directoryA, false⟩ [0x42] directoryB :=
  ⟨fun io => by rw [sample_list_A rfl]; decide, rfl, rfl, by decide, by decide⟩

/-! ### The way down and up -/

/-- On a disk that reads alike every time, with directories that follow the convention: going down
from a directory, up by `..` and on is like going on directly, for every further path and for
listings, if and only if the directory is not the root and the name of the subdirectory is a valid
component. -/
theorem dotDot_leads_back_iff {d : Disks} {fs : FatFs} (hd : d.Steady) (hconv : FollowsConvention d fs)
    {path name : List UInt8} {parent : LookupResult} {child : Dirent} (hpath : LeadsTo d fs path parent)
    (hsub : Subdirectory d fs parent name child) :
    DotDotLeadsBack d fs path name ↔ parent.isRoot = false ∧ ValidComponent name := by
  constructor
  · intro ⟨hlookup, _⟩
    have hvalid : ValidComponent name := by
      by_contra hvalid
      exact not_sameOutcome_of_invalid hd hpath hsub hvalid ⟨freshDirent, true⟩ ⟨[], []⟩
        ⟨[], []⟩ (hlookup _ _ _ _)
    refine ⟨?_, hvalid⟩
    by_contra hroot
    exact not_sameOutcome_of_root hd hconv hpath hsub hvalid (Bool.not_eq_false _ ▸ hroot)
      ⟨freshDirent, true⟩
      ⟨[], []⟩ ⟨[], []⟩ (hlookup _ _ _ _)
  · intro ⟨hroot, hvalid⟩
    obtain ⟨up, hback⟩ := hconv.back hpath hsub hvalid hroot
    constructor
    · intro rest out io io'
      obtain ⟨reached, io₁, hsame, hthere⟩ := hpath.below hd (joinPath (joinPath name dotDot) rest) out io
      obtain ⟨reached', io₂, hsame', hhere⟩ := hpath.below hd rest out io'
      obtain ⟨_, hup⟩ := hback reached hsame
      obtain ⟨io₃, hup⟩ := hup io₁
      rw [hthere, hsub.components, hup, hhere]
      exact (hback reached' hsame').1.outcome hd rest io₃ io₂
    · intro io io'
      obtain ⟨_, habs⟩ := hpath.1 ⟨[], []⟩
      obtain ⟨tail, rfl⟩ := path_abs_of_lookup habs
      obtain ⟨reached, io₁, hreached, hsame⟩ := hpath.again hd freshDirent io
      obtain ⟨reached', io₂, hreached', hsame'⟩ := hpath.again hd freshDirent io'
      obtain ⟨_, hup⟩ := hback reached hsame
      obtain ⟨io₃, hup⟩ := hup io₁
      have hcomponents : pathComponents (0x2F :: joinPath tail (joinPath name dotDot)) =
          pathComponents (0x2F :: tail) ++ [name, dotDot] := by
        rw [pathComponents_sep, pathComponents_joinPath, pathComponents_sep, pathComponents_joinPath,
          pathComponents_single hsub.name_ne_nil hsub.noSeparator]
        rfl
      have hthere : resolve d fs (pathComponents (0x2F :: joinPath tail (joinPath name dotDot)))
          ⟨freshDirent, true⟩ io = (.ok, up, io₃) := by
        rw [hcomponents, resolve_append hreached, hup]
        rfl
      exact (hback reached' hsame').1.listing hd (hsame'.isDirectory hpath.2) hthere hreached'

theorem dotDot_leads_back_A : DotDotLeadsBack sampleDisks sampleFs [0x2F, 0x41] [0x42] :=
  (dotDot_leads_back_iff sample_steady sample_convention sample_leads_A sample_subdirectory_B).mpr
    ⟨rfl, by decide⟩

/-- On a volume that follows the convention `/A` is found and `/A/../A` is not. -/
theorem dotDot_above_root_corrupt :
    (fatMount sampleDisks 0 0 ⟨[], []⟩).1 = some sampleFs ∧ FollowsConvention sampleDisks sampleFs ∧
      LeadsTo sampleDisks sampleFs [0x2F] ⟨freshDirent, true⟩ ∧
      Subdirectory sampleDisks sampleFs ⟨freshDirent, true⟩ [0x41] directoryA ∧
      (fatLookupPath sampleDisks sampleFs (joinPath [0x2F] (joinPath (joinPath [0x41] dotDot) [0x41]))
        ⟨freshDirent, false⟩ ⟨[], []⟩).1 = .corrupt ∧
      (fatLookupPath sampleDisks sampleFs (joinPath [0x2F] [0x41]) ⟨freshDirent, false⟩
        ⟨[], []⟩).1 = .ok := by
  refine ⟨sample_mounted, sample_convention, ?_, ?_, by decide +kernel, by decide +kernel⟩
  · have hlookup : fatLookupPath sampleDisks sampleFs [0x2F] ⟨freshDirent, false⟩ ⟨[], []⟩ =
        (.ok, ⟨freshDirent, true⟩, ⟨[], []⟩) := by decide +kernel
    exact LeadsTo.of_lookup sample_steady hlookup (Or.inl rfl)
  · exact ⟨fun io => by rw [sample_list_root]; decide, rfl, rfl, by decide, by decide⟩

end TermobKernel.Fat
