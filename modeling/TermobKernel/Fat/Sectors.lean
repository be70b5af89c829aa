import TermobKernel.Fat.LongNames

/-!
# The sectors of a directory

A listing reads the sectors of a directory and visits each one as it comes. Which sectors there are,
and how the reading ends, depends on the device and on the table alone; the callback cannot change
it. So a listing is a visit of the sectors, one after the other, up to one with an end marker.
-/

namespace TermobKernel.Fat

/-! ### The entries of a sector -/

def sectorFed (fs : FatFs) (sector : Buffer) : List Buffer :=
  fedEntries sector ((fs.bytesPerSector.toNat + 31) / 32) 0

def Listed (raw : Buffer) : Prop := raw 0 ≠ 0x00 ∧ (raw 0 = 0xE5 ∨ raw 11 ≠ fatAttrLfn)

instance (raw : Buffer) : Decidable (Listed raw) := inferInstanceAs (Decidable (_ ∧ _))

def Marked (fs : FatFs) (sector : Buffer) : Prop := ∃ raw ∈ sectorFed fs sector, raw 0 = 0x00

def HasListed (fs : FatFs) (sector : Buffer) : Prop := ∃ raw ∈ sectorFed fs sector, Listed raw

instance (fs : FatFs) (sector : Buffer) : Decidable (Marked fs sector) :=
    inferInstanceAs (Decidable (∃ _ ∈ _, _))

instance (fs : FatFs) (sector : Buffer) : Decidable (HasListed fs sector) :=
    inferInstanceAs (Decidable (∃ _ ∈ _, _))

section entries
variable (fs : FatFs)

theorem fed_cons (sector : Buffer) (sectors : List Buffer) :
    fed fs (sector :: sectors) = sectorFed fs sector ++ fed fs sectors := List.flatMap_cons

theorem reportedFor_eq_none {state : LfnState} {raw : Buffer} :
    reportedFor fs state raw = none ↔ ¬Listed raw := by
  unfold reportedFor Listed
  by_cases h0 : raw 0 = 0x00
  · simp [h0]
  · by_cases hE5 : raw 0 = 0xE5
    · simp [hE5]
    · by_cases hattr : raw 11 = fatAttrLfn
      · simp [h0, hE5, hattr]
      · simp [h0, hE5, hattr]

theorem reportsAfter_raw (before es : List Buffer) :
    (reportsAfter fs before es).map Report.raw = es.filter fun raw => decide (Listed raw) := by
  induction es generalizing before with
  | nil => rfl
  | cons raw es ih =>
    rw [reportsAfter, List.map_append, ih, List.filter_cons]
    cases hreported : reportedFor fs (lfnStateAfter before) raw with
    | none =>
      rw [if_neg (by simpa using (reportedFor_eq_none fs).mp hreported)]
      rfl
    | some e =>
      have hlisted : Listed raw := by
        by_contra hnot
        rw [(reportedFor_eq_none fs).mpr hnot] at hreported
        cases hreported
      rw [if_pos (by simpa using hlisted)]
      rfl

theorem reportsAfter_eq_nil {before es : List Buffer} :
    (reportsAfter fs before es).map Report.dirent = [] ↔ ∀ raw ∈ es, ¬Listed raw := by
  rw [List.map_eq_nil_iff, ← List.map_eq_nil_iff (f := Report.raw), reportsAfter_raw,
    List.filter_eq_nil_iff]
  simp

theorem visit_reachedEnd (sector : Buffer) (count base : Nat) (lfnState : LfnState) (seen : List Dirent) :
    (fatVisitEntries fs sector collect count base lfnState seen).2.2 = true ↔
      ∃ raw ∈ fedEntries sector count base, raw 0 = 0x00 := by
  induction count generalizing base lfnState seen with
  | zero => simp [fatVisitEntries, fedEntries]
  | succ count ih =>
    simp only [fatVisitEntries, collect_call, if_true, fedEntries]
    by_cases hend : sector base = 0x00
    · simp only [if_pos hend]
      exact iff_of_true trivial ⟨_, List.mem_cons_self .., hend⟩
    · have hhead : entryAt sector base 0 ≠ 0x00 := hend
      simp only [if_neg hend, List.mem_cons, exists_eq_or_imp, hhead, false_or]
      split
      · exact ih _ _ _
      · split
        · exact ih _ _ _
        · exact ih _ _ _

theorem visitSector_collect (sector : Buffer) (before : List Buffer) :
    fatVisitSectorEntries fs sector (lfnStateAfter before) collect [] =
      (lfnStateAfter (before ++ sectorFed fs sector),
        (reportsAfter fs before (sectorFed fs sector)).map Report.dirent, decide (Marked fs sector)) := by
  obtain ⟨hstate, hseen⟩ := visit_reports fs sector ((fs.bytesPerSector.toNat + 31) / 32) 0 before []
  have hend := visit_reachedEnd fs sector ((fs.bytesPerSector.toNat + 31) / 32) 0 (lfnStateAfter before) []
  refine Prod.ext hstate (Prod.ext hseen ?_)
  rw [Bool.eq_iff_iff, decide_eq_true_iff]
  exact hend

end entries

/-! ### Visiting the sectors -/

/-- Visiting one sector after the other, up to one with an end marker. -/
def visitUntilEnd {σ : Type} (fs : FatFs) (callback : DirentCallback σ) :
    List Buffer → LfnState → σ → LfnState × σ × Bool
  | [], lfnState, user => (lfnState, user, false)
  | sector :: sectors, lfnState, user =>
    let visit := fatVisitSectorEntries fs sector lfnState callback user
    if visit.2.2 then visit else visitUntilEnd fs callback sectors visit.1 visit.2.1

/-- The sectors from `lba` on as far as they can be read, whether all could, and the accesses made. -/
def sectorsFrom (d : Disks) (fs : FatFs) : Nat → UInt32 → Io → List Buffer × Bool × Io
  | 0, _, io => ([], true, io)
  | count + 1, lba, io =>
    match fatBlockReadSector d fs lba io with
    | (none, io) => ([], false, io)
    | (some sector, io) =>
      let rest := sectorsFrom d fs count (lba + 1) io
      (sector :: rest.1, rest.2)

/-- The sectors of the clusters of a chain as far as the chain can be followed, and why no further. -/
def chainSectors (d : Disks) (fs : FatFs) : Nat → List UInt32 → UInt32 → Io → List Buffer × WalkEnd
  | slots, visited, cluster, io =>
    if fatClusterIsValid fs cluster = false then ([], .invalid)
    else if cluster ∈ visited then ([], .looped)
    else
      match slots with
      | 0 => ([], .tooLong)
      | slots + 1 =>
        let read := sectorsFrom d fs fs.sectorsPerCluster.toNat (fatClusterFirstLba fs cluster) io
        let rest :=
          if read.2.1 = false then ([], .readFailed)
          else
            match fatReadFatEntry d fs cluster read.2.2 with
            | (none, _) => ([], .nextFailed)
            | (some next, io) =>
              if fatEntryIsEnd fs.fatType next then ([], .exhausted)
              else if BadLink fs next then ([], .corrupted)
              else chainSectors d fs slots (visited ++ [cluster]) next io
        (read.1 ++ rest.1, rest.2)

section
variable {σ : Type} {d : Disks} {fs : FatFs} {callback : DirentCallback σ}

theorem visitUntilEnd_append (sectors sectors' : List Buffer) (lfnState : LfnState) (user : σ) :
    visitUntilEnd fs callback (sectors ++ sectors') lfnState user =
      let first := visitUntilEnd fs callback sectors lfnState user
      if first.2.2 then first else visitUntilEnd fs callback sectors' first.1 first.2.1 := by
  induction sectors generalizing lfnState user with
  | nil => rfl
  | cons sector sectors ih =>
    rw [List.cons_append, visitUntilEnd, visitUntilEnd]
    dsimp only
    by_cases hend : (fatVisitSectorEntries fs sector lfnState callback user).2.2 = true
    · rw [if_pos hend, if_pos hend, if_pos hend]
    · rw [if_neg hend, if_neg hend, ih]

theorem chainSectors_invalid (d : Disks) {slots : Nat} {visited : List UInt32} {cluster : UInt32}
    {io : Io} (hvalid : fatClusterIsValid fs cluster = false) :
    chainSectors d fs slots visited cluster io = ([], .invalid) := by
  cases slots <;> rw [chainSectors, if_pos hvalid]

theorem chainSectors_looped (d : Disks) {slots : Nat} {visited : List UInt32} {cluster : UInt32} {io : Io}
    (hvalid : fatClusterIsValid fs cluster = true) (hloop : cluster ∈ visited) :
    chainSectors d fs slots visited cluster io = ([], .looped) := by
  cases slots <;> rw [chainSectors, if_neg (by simp [hvalid]), if_pos hloop]

variable (d fs callback)

theorem fatWalkSectors_visit (message : String) (count : Nat) (lba : UInt32) (lfnState : LfnState)
    (user : σ) (io : Io) :
    let read := sectorsFrom d fs count lba io
    let visit := visitUntilEnd fs callback read.1 lfnState user
    ∃ io', fatWalkSectors d fs callback (fun _ => false) message count lba lfnState user io =
        (if visit.2.2 then some .reachedEnd else if read.2.1 then none else some .readFailed,
          visit.1, visit.2.1, io') ∧
      (visit.2.2 = false → read.2.1 = true → io' = read.2.2) := by
  induction count generalizing lba lfnState user io with
  | zero => exact ⟨io, rfl, fun _ _ => rfl⟩
  | succ count ih =>
    cases hread : fatBlockReadSector d fs lba io with
    | mk result io₁ =>
      cases result with
      | none =>
        rw [fatWalkSectors_unread hread, sectorsFrom, hread]
        exact ⟨io₁.note message, rfl, fun _ h => absurd h Bool.false_ne_true⟩
      | some sector =>
        cases hvisit : fatVisitSectorEntries fs sector lfnState callback user with
        | mk lfnState₁ visit =>
          obtain ⟨user₁, reachedEnd⟩ := visit
          rw [fatWalkSectors_read hread hvisit, if_neg Bool.false_ne_true, sectorsFrom, hread]
          dsimp only
          rw [visitUntilEnd, hvisit]
          cases reachedEnd with
          | true => exact ⟨io₁, rfl, fun h => absurd h.symm Bool.false_ne_true⟩
          | false => exact ih (lba + 1) lfnState₁ user₁ io₁

theorem fatWalkChain_visit (messages : ChainMessages) (slots : Nat) (visited : List UInt32)
    (cluster : UInt32) (lfnState : LfnState) (user : σ) (io : Io) :
    let read := chainSectors d fs slots visited cluster io
    let visit := visitUntilEnd fs callback read.1 lfnState user
    ∃ io', fatWalkChain d fs callback (fun _ => false) messages slots visited cluster lfnState user io =
      (if visit.2.2 then .reachedEnd else read.2, visit.2.1, io') := by
  induction slots, visited, cluster using chain_induction fs generalizing lfnState user io with
  | invalid slots visited cluster hbad =>
    rw [fatWalkChain_invalid hbad, chainSectors_invalid d hbad]
    exact ⟨_, rfl⟩
  | looped slots visited cluster hvalid hloop =>
    rw [fatWalkChain_looped hvalid hloop, chainSectors_looped d hvalid hloop]
    exact ⟨_, rfl⟩
  | full visited cluster hvalid hloop =>
    rw [fatWalkChain_full hvalid hloop, chainSectors, if_neg (by simp [hvalid]), if_neg hloop]
    exact ⟨_, rfl⟩
  | enter slots visited cluster hvalid hloop ih =>
    obtain ⟨io₁, hwalk, hio⟩ := fatWalkSectors_visit d fs callback messages.readFail
      fs.sectorsPerCluster.toNat (fatClusterFirstLba fs cluster) lfnState user io
    rw [chainSectors, if_neg (by simp [hvalid]), if_neg hloop]
    dsimp only
    rw [visitUntilEnd_append]
    rcases hsectors : sectorsFrom d fs fs.sectorsPerCluster.toNat (fatClusterFirstLba fs cluster) io
      with ⟨sectors, all, io₂⟩
    rw [hsectors] at hwalk hio
    dsimp only at hwalk hio ⊢
    rcases hvisit : visitUntilEnd fs callback sectors lfnState user with ⟨lfnState₁, user₁, reachedEnd⟩
    rw [hvisit] at hwalk hio
    cases reachedEnd with
    | true =>
      rw [fatWalkChain_ended hvalid hloop hwalk]
      exact ⟨io₁, rfl⟩
    | false =>
      cases all with
      | false =>
        rw [fatWalkChain_ended hvalid hloop hwalk]
        exact ⟨io₁, rfl⟩
      | true =>
        obtain rfl := hio rfl rfl
        dsimp only
        rw [if_neg Bool.false_ne_true, if_neg Bool.true_eq_false.mp]
        rcases hnext : fatReadFatEntry d fs cluster io₁ with ⟨_ | next, io₃⟩
        · rw [fatWalkChain_unlinked hvalid hloop hwalk hnext]
          exact ⟨_, rfl⟩
        · rw [fatWalkChain_linked hvalid hloop hwalk hnext]
          dsimp only
          split
          · exact ⟨_, rfl⟩
          split
          · exact ⟨_, rfl⟩
          · exact ih next lfnState₁ user₁ io₃

end

/-! ### Listings -/

def rootSectors (d : Disks) (fs : FatFs) (io : Io) : List Buffer :=
  match fs.fatType with
  | .fat32 => (chainSectors d fs fatMaxVisitedClusters [] fs.rootCluster io).1
  | .none => []
  | _ => (sectorsFrom d fs ((fs.firstRootDirLba + fs.rootDirSectors).toNat - fs.firstRootDirLba.toNat)
      fs.firstRootDirLba io).1

def directorySectors (d : Disks) (fs : FatFs) (startCluster : UInt32) (io : Io) : List Buffer :=
  (chainSectors d fs fatMaxVisitedClusters [] startCluster io).1

inductive Listing where
  | root
  | directory (startCluster : UInt32)
  | byPath (path : List UInt8)

def Listing.run {σ : Type} (d : Disks) (fs : FatFs) (callback : DirentCallback σ) (user : σ)
    (io : Io) : Listing → σ
  | .root => (fatListRoot d fs callback user io).2.1
  | .directory startCluster => (fatListDirectory d fs startCluster callback user io).2.1
  | .byPath path => (fatListPath d fs path callback user io).2.1

def Listing.sectors (d : Disks) (fs : FatFs) (io : Io) : Listing → List Buffer
  | .root => rootSectors d fs io
  | .directory startCluster => directorySectors d fs startCluster io
  | .byPath path =>
    if path = [] then []
    else if path = [0x2F] then rootSectors d fs io
    else
      match fatLookupPath d fs path ⟨freshDirent, false⟩ io with
      | (.ok, lookup, io) =>
        if lookup.isRoot = true then rootSectors d fs io
        else if lookup.dirent.kind ≠ .directory then []
        else directorySectors d fs lookup.dirent.firstCluster io
      | _ => []

section
variable {σ : Type} (d : Disks) (fs : FatFs) (callback : DirentCallback σ) (user : σ) (io : Io)

theorem fatListRoot_visit :
    (fatListRoot d fs callback user io).2.1 =
      (visitUntilEnd fs callback (rootSectors d fs io) fatLfnReset user).2.1 := by
  have hfixed : (fatListRootFixed d fs callback user io).2.1 = (visitUntilEnd fs callback
      (sectorsFrom d fs ((fs.firstRootDirLba + fs.rootDirSectors).toNat - fs.firstRootDirLba.toNat)
        fs.firstRootDirLba io).1 fatLfnReset user).2.1 := by
    obtain ⟨io', hwalk, _⟩ := fatWalkSectors_visit d fs callback "TERMOB: fat root read failed"
      ((fs.firstRootDirLba + fs.rootDirSectors).toNat - fs.firstRootDirLba.toNat) fs.firstRootDirLba
        fatLfnReset user io
    rw [fatListRootFixed, fatWalkRootFixed, hwalk]
    dsimp only
    split
    · next h =>
      split at h
      · simp_all
      · split at h <;> simp_all
    · next h =>
      split at h
      · simp_all
      · split at h <;> simp_all
  unfold fatListRoot rootSectors
  cases fs.fatType with
  | none => rfl
  | fat12 => exact hfixed
  | fat16 => exact hfixed
  | fat32 =>
    dsimp only
    rw [fatListClusterChain]
    obtain ⟨io', hwalk⟩ := fatWalkChain_visit d fs callback _ fatMaxVisitedClusters
      [] fs.rootCluster fatLfnReset user io
    rw [hwalk]

theorem fatListDirectory_visit (startCluster : UInt32) :
    (fatListDirectory d fs startCluster callback user io).2.1 =
      (visitUntilEnd fs callback (directorySectors d fs startCluster io) fatLfnReset user).2.1 := by
  unfold fatListDirectory directorySectors
  by_cases hvalid : fatClusterIsValid fs startCluster = false
  · rw [if_pos hvalid, chainSectors_invalid d hvalid]
    rfl
  · rw [if_neg hvalid, fatListClusterChain]
    obtain ⟨io', hwalk⟩ := fatWalkChain_visit d fs callback _ fatMaxVisitedClusters
      [] startCluster fatLfnReset user io
    rw [hwalk]

theorem Listing.run_eq (listing : Listing) :
    listing.run d fs callback user io =
      (visitUntilEnd fs callback (listing.sectors d fs io) fatLfnReset user).2.1 := by
  cases listing with
  | root => exact fatListRoot_visit d fs callback user io
  | directory startCluster => exact fatListDirectory_visit d fs callback user io startCluster
  | byPath path =>
    rw [Listing.run, Listing.sectors, fatListPath]
    split
    · rfl
    split
    · exact fatListRoot_visit d fs callback user io
    cases hlookup : fatLookupPath d fs path ⟨freshDirent, false⟩ io with
    | mk status rest =>
      obtain ⟨lookup, io'⟩ := rest
      cases status with
      | ok =>
        dsimp only
        split
        · exact fatListRoot_visit d fs callback user io'
        split
        · rfl
        · exact fatListDirectory_visit d fs callback user io' _
      | _ => rfl

end

end TermobKernel.Fat
