import TermobKernel.Fat.Directory

/-!
# Listing and searching a directory

The listing functions of `fs/fat.c` and what a search has to do with them. A listing walks like a
search whose callback never asks to stop. What it passes to a callback that always goes on are the
entries of the directory; a search returns the first of them that matches.
-/

namespace TermobKernel.Fat

def WalkEnd.listed : WalkEnd → Bool
  | .reachedEnd => true
  | .exhausted => true
  | _ => false

section model
variable {σ : Type} (d : Disks) (fs : FatFs)

def fatListRootFixed (callback : DirentCallback σ) (user : σ) (io : Io) : Bool × σ × Io :=
  let (walkEnd, user, io) :=
    fatWalkRootFixed d fs callback (fun _ => false) "TERMOB: fat root read failed" user io
  (walkEnd.listed, user, io)

def fatListClusterChain (startCluster : UInt32) (callback : DirentCallback σ)
    (messages : ChainMessages) (user : σ) (io : Io) : Bool × σ × Io :=
  let (walkEnd, user, io) :=
    fatWalkChain d fs callback (fun _ => false) messages fatMaxVisitedClusters
      [] startCluster fatLfnReset user io
  (walkEnd.listed, user, io)

def fatListDirectory (startCluster : UInt32) (callback : DirentCallback σ) (user : σ) (io : Io) :
    Bool × σ × Io :=
  if fatClusterIsValid fs startCluster = false then
    (false, user, io.note "TERMOB: fat directory cluster invalid")
  else
    fatListClusterChain d fs startCluster callback
      { readFail := "TERMOB: fat directory cluster read failed"
        nextFail := "TERMOB: fat directory next cluster read failed"
        loop := "TERMOB: fat directory loop detected"
        long := "TERMOB: fat directory chain too long for guard table"
        corrupt := "TERMOB: fat directory chain corrupted"
        invalid := "TERMOB: fat directory cluster invalid" } user io

def fatListRoot (callback : DirentCallback σ) (user : σ) (io : Io) : Bool × σ × Io :=
  match fs.fatType with
  | .fat12 => fatListRootFixed d fs callback user io
  | .fat16 => fatListRootFixed d fs callback user io
  | .fat32 =>
    fatListClusterChain d fs fs.rootCluster callback
      { readFail := "TERMOB: fat root cluster read failed"
        nextFail := "TERMOB: fat root next cluster read failed"
        loop := "TERMOB: fat root chain loop detected"
        long := "TERMOB: fat root chain too long for guard table"
        corrupt := "TERMOB: fat root chain corrupted"
        invalid := "TERMOB: fat root cluster invalid" } user io
  | .none => (false, user, io)

def fatListStatus (listed : Bool) : FatStatus := if listed then .ok else .corrupt

def fatListPath (path : List UInt8) (callback : DirentCallback σ) (user : σ) (io : Io) :
    FatStatus × σ × Io :=
  if path = [] then (.invalidPath, user, io.note "TERMOB: fat path invalid syntax")
  else if path = [0x2F] then
    let (listed, user, io) := fatListRoot d fs callback user io
    (fatListStatus listed, user, io)
  else
    match fatLookupPath d fs path ⟨freshDirent, false⟩ io with
    | (.ok, lookup, io) =>
      if lookup.isRoot = true then
        let (listed, user, io) := fatListRoot d fs callback user io
        (fatListStatus listed, user, io)
      else if lookup.dirent.kind ≠ .directory then
        (.notDirectory, user, io.note "TERMOB: fat list path target not directory")
      else
        let (listed, user, io) := fatListDirectory d fs lookup.dirent.firstCluster callback user io
        (fatListStatus listed, user, io)
    | (status, _, io) => (status, user, io)

end model

/-! ### Names -/

theorem fatNameEqualsCaseInsensitive_iff (a b : List UInt8) :
    fatNameEqualsCaseInsensitive a b = true ↔ a.map fatAsciiUpper = b.map fatAsciiUpper := by
  induction a generalizing b with
  | nil => cases b <;> simp [fatNameEqualsCaseInsensitive]
  | cons x a ih =>
    cases b with
    | nil => simp [fatNameEqualsCaseInsensitive]
    | cons y b =>
      rw [fatNameEqualsCaseInsensitive]
      by_cases hxy : fatAsciiUpper x = fatAsciiUpper y
      · simp [hxy, ih]
      · simp [hxy]

/-- The short name, or the long display name, is this one up to the case of letters. -/
def Dirent.Matches (e : Dirent) (name : List UInt8) : Prop :=
  e.shortName.map fatAsciiUpper = name.map fatAsciiUpper ∨
    (e.hasLongName = true ∧ e.displayName.map fatAsciiUpper = name.map fatAsciiUpper)

instance (e : Dirent) (name : List UInt8) : Decidable (e.Matches name) :=
  inferInstanceAs (Decidable (_ ∨ _))

theorem fatDirentNameMatches_iff (e : Dirent) (name : List UInt8) :
    fatDirentNameMatches e name = true ↔ e.Matches name := by
  rw [fatDirentNameMatches, Dirent.Matches, ← fatNameEqualsCaseInsensitive_iff,
    ← fatNameEqualsCaseInsensitive_iff]
  split
  · rename_i h
    simp [h]
  · rename_i h
    simp [h]

def Dirent.Answers (e : Dirent) (name : List UInt8) : Prop :=
  (e.kind = .file ∨ e.kind = .directory) ∧ e.Matches name

instance (e : Dirent) (name : List UInt8) : Decidable (e.Answers name) :=
    inferInstanceAs (Decidable (_ ∧ _))

theorem fatFindEntryCallback_eq (name : List UInt8) (fs : FatFs) (e : Dirent) (found : Option Dirent) :
    fatFindEntryCallback name fs e found = if e.Answers name then (false, some e) else (true, found) := by
  unfold fatFindEntryCallback
  by_cases hm : e.Matches name
  · have hb := (fatDirentNameMatches_iff e name).mpr hm
    cases hk : e.kind <;> simp [Dirent.Answers, hm, hb, hk]
  · have hb : fatDirentNameMatches e name = false := by
      rw [← Bool.not_eq_true, fatDirentNameMatches_iff]
      exact hm
    cases hk : e.kind <;> simp [Dirent.Answers, hm, hb]

/-! ### The entries of a directory -/

def collect : DirentCallback (List Dirent) := some fun _ e seen => (true, seen ++ [e])

def search (name : List UInt8) : DirentCallback (Option Dirent) := some (fatFindEntryCallback name)

def firstAnswer (name : List UInt8) (entries : List Dirent) : Option Dirent :=
  entries.find? fun e => decide (e.Answers name)

theorem firstAnswer_append (name : List UInt8) (es es' : List Dirent) :
    firstAnswer name (es ++ es') = (firstAnswer name es).or (firstAnswer name es') := List.find?_append

section walks
variable (d : Disks) (fs : FatFs) (name : List UInt8)

@[simp] theorem collect_call (e : Dirent) (seen : List Dirent) :
    collect.call fs e seen = (true, seen ++ [e]) := rfl

@[simp] theorem search_call (e : Dirent) (found : Option Dirent) :
    (search name).call fs e found = if e.Answers name then (false, some e) else (true, found) :=
  fatFindEntryCallback_eq name fs e found

theorem visit_collect (sector : Buffer) (count base : Nat) (lfnState : LfnState) (seen : List Dirent) :
    fatVisitEntries fs sector collect count base lfnState seen =
      ((fatVisitEntries fs sector collect count base lfnState []).1,
        seen ++ (fatVisitEntries fs sector collect count base lfnState []).2.1,
        (fatVisitEntries fs sector collect count base lfnState []).2.2) := by
  induction count generalizing base lfnState seen with
  | zero => simp [fatVisitEntries]
  | succ count ih =>
    simp only [fatVisitEntries, collect_call, if_true, List.nil_append]
    split
    · simp
    · split
      · rw [ih, ih _ _ [_]]
        simp
      · split
        · rw [ih]
        · rw [ih, ih _ _ [_]]
          simp

theorem visit_search (sector : Buffer) (count base : Nat) (lfnState : LfnState) :
    let all := fatVisitEntries fs sector collect count base lfnState []
    (firstAnswer name all.2.1 = none ∧
        fatVisitEntries fs sector (search name) count base lfnState none = (all.1, none, all.2.2)) ∨
      ∃ e, firstAnswer name all.2.1 = some e ∧
        fatVisitEntries fs sector (search name) count base lfnState none =
          (fatLfnReset, some e, false) := by
  induction count generalizing base lfnState with
  | zero => exact Or.inl ⟨rfl, rfl⟩
  | succ count ih =>
    -- an entry is passed on and everything after it is left, or the search ends with it
    have hpass : ∀ e : Dirent,
        let all := fatVisitEntries fs sector collect count (base + fatDirEntrySize) fatLfnReset [e]
        let found := (search name).call fs e none
        (firstAnswer name all.2.1 = none ∧
            (if found.1 then
              fatVisitEntries fs sector (search name) count (base + fatDirEntrySize) fatLfnReset found.2
            else (fatLfnReset, found.2, false)) = (all.1, none, all.2.2)) ∨
          ∃ e', firstAnswer name all.2.1 = some e' ∧
            (if found.1 then
              fatVisitEntries fs sector (search name) count (base + fatDirEntrySize) fatLfnReset found.2
            else (fatLfnReset, found.2, false)) = (fatLfnReset, some e', false) := by
      intro e
      dsimp only
      rw [visit_collect, firstAnswer_append, search_call]
      by_cases he : e.Answers name
      · refine Or.inr ⟨e, ?_, by simp [he]⟩
        simp [firstAnswer, he]
      · have hnone : firstAnswer name [e] = none := by simp [firstAnswer, he]
        rw [hnone, Option.none_or, if_neg he]
        exact ih (base + fatDirEntrySize) fatLfnReset
    simp only [fatVisitEntries, collect_call, if_true, List.nil_append]
    split
    · exact Or.inl ⟨rfl, rfl⟩
    · split
      · exact hpass _
      · split
        · exact ih _ _
        · exact hpass _

/-! ### Runs of sectors -/

section sectors
variable {σ : Type} {d : Disks} {fs : FatFs} {callback : DirentCallback σ} {stop : σ → Bool}
  {message : String}
  {count : Nat} {lba : UInt32} {lfnState lfnState' : LfnState} {user user' : σ} {io io' : Io}
    {sector : Buffer}
  {reachedEnd : Bool}

theorem fatWalkSectors_unread (hread : fatBlockReadSector d fs lba io = (none, io')) :
    fatWalkSectors d fs callback stop message (count + 1) lba lfnState user io =
      (some .readFailed, lfnState, user, io'.note message) := by
  simp only [fatWalkSectors, hread]

theorem fatWalkSectors_read (hread : fatBlockReadSector d fs lba io = (some sector, io'))
    (hvisit : fatVisitSectorEntries fs sector lfnState callback user = (lfnState', user', reachedEnd)) :
    fatWalkSectors d fs callback stop message (count + 1) lba lfnState user io =
      if stop user' then (some .stopped, lfnState', user', io')
      else if reachedEnd then (some .reachedEnd, lfnState', user', io')
      else fatWalkSectors d fs callback stop message count (lba + 1) lfnState' user' io' := by
  simp only [fatWalkSectors, hread, hvisit]

end sectors

theorem sectors_collect (message : String) (count : Nat) (lba : UInt32) (lfnState : LfnState)
    (seen : List Dirent) (io : Io) :
    fatWalkSectors d fs collect (fun _ => false) message count lba lfnState seen io =
      let all := fatWalkSectors d fs collect (fun _ => false) message count lba lfnState [] io
      (all.1, all.2.1, seen ++ all.2.2.1, all.2.2.2) := by
  induction count generalizing lba lfnState seen io with
  | zero => simp [fatWalkSectors]
  | succ count ih =>
    cases hread : fatBlockReadSector d fs lba io with
    | mk result io' =>
      cases result with
      | none => simp [fatWalkSectors_unread hread]
      | some sector =>
        obtain ⟨lfnState', es, reachedEnd, hvisit⟩ : ∃ lfnState' es reachedEnd,
            fatVisitSectorEntries fs sector lfnState collect [] = (lfnState', es, reachedEnd) :=
            ⟨_, _, _, rfl⟩
        have hvisit' : fatVisitSectorEntries fs sector lfnState collect seen =
            (lfnState', seen ++ es, reachedEnd) := by
          rw [fatVisitSectorEntries] at hvisit ⊢
          rw [visit_collect, hvisit]
        rw [fatWalkSectors_read hread hvisit, fatWalkSectors_read hread hvisit']
        cases reachedEnd with
        | true => rfl
        | false =>
          dsimp only [Bool.false_eq_true, if_false]
          rw [if_neg Bool.false_ne_true, if_neg Bool.false_ne_true, ih, ih _ _ es]
          simp

theorem sectors_ne_stopped {σ : Type} (callback : DirentCallback σ) (message : String) (count : Nat)
    (lba : UInt32) (lfnState : LfnState) (user : σ) (io : Io) :
    (fatWalkSectors d fs callback (fun _ => false) message count lba lfnState user io).1 ≠
        some .stopped := by
  induction count generalizing lba lfnState user io with
  | zero => simp [fatWalkSectors]
  | succ count ih =>
    cases hread : fatBlockReadSector d fs lba io with
    | mk result io' =>
      cases result with
      | none => simp [fatWalkSectors_unread hread]
      | some sector =>
        rw [fatWalkSectors_read hread rfl, if_neg Bool.false_ne_true]
        split
        · simp
        · exact ih _ _ _ _

theorem sectors_search (message message' : String) (count : Nat) (lba : UInt32)
    (lfnState : LfnState) (io : Io) :
    let all := fatWalkSectors d fs collect (fun _ => false) message count lba lfnState [] io
    (firstAnswer name all.2.2.1 = none ∧
        ∃ io', fatWalkSectors d fs (search name) Option.isSome message' count lba lfnState none io =
          (all.1, all.2.1, none, io') ∧ (all.1 = none → io' = all.2.2.2)) ∨
      ∃ e lfnState' io', firstAnswer name all.2.2.1 = some e ∧
        fatWalkSectors d fs (search name) Option.isSome message' count lba lfnState none io =
          (some .stopped, lfnState', some e, io') := by
  induction count generalizing lba lfnState io with
  | zero => exact Or.inl ⟨rfl, io, rfl, fun _ => rfl⟩
  | succ count ih =>
    cases hread : fatBlockReadSector d fs lba io with
    | mk result io' =>
      cases result with
      | none =>
        rw [fatWalkSectors_unread hread, fatWalkSectors_unread hread]
        exact Or.inl ⟨rfl, _, rfl, fun h => by cases h⟩
      | some sector =>
        obtain ⟨lfnState', es, reachedEnd, hvisit⟩ : ∃ lfnState' es reachedEnd,
            fatVisitSectorEntries fs sector lfnState collect [] = (lfnState', es, reachedEnd) :=
            ⟨_, _, _, rfl⟩
        have hall := visit_search fs name sector ((fs.bytesPerSector.toNat + 31) / 32) 0 lfnState
        rw [← fatVisitSectorEntries, ← fatVisitSectorEntries, hvisit] at hall
        dsimp only at hall ⊢
        rw [fatWalkSectors_read hread hvisit, if_neg Bool.false_ne_true]
        rcases hall with ⟨hnone, hv⟩ | ⟨e, hsome, hv⟩
        · rw [fatWalkSectors_read hread hv, Option.isSome_none, if_neg Bool.false_ne_true]
          cases reachedEnd with
          | true => exact Or.inl ⟨hnone, _, rfl, fun h => by cases h⟩
          | false =>
            rw [if_neg Bool.false_ne_true, if_neg Bool.false_ne_true, sectors_collect]
            dsimp only
            rw [firstAnswer_append, hnone, Option.none_or]
            exact ih ..
        · rw [fatWalkSectors_read hread hv, Option.isSome_some, if_pos rfl]
          refine Or.inr ⟨e, _, _, ?_, rfl⟩
          cases reachedEnd with
          | true => exact hsome
          | false =>
            rw [if_neg Bool.false_ne_true, sectors_collect]
            dsimp only
            rw [firstAnswer_append, hsome, Option.some_or]

/-! ### Cluster chains -/

/-- The sectors of one cluster of a chain. -/
def fatWalkCluster {σ : Type} (d : Disks) (fs : FatFs) (callback : DirentCallback σ) (stop : σ → Bool)
    (messages : ChainMessages) (cluster : UInt32) (lfnState : LfnState) (user : σ) (io : Io) :
    Option WalkEnd × LfnState × σ × Io :=
  fatWalkSectors d fs callback stop messages.readFail fs.sectorsPerCluster.toNat
    (fatClusterFirstLba fs cluster)
    lfnState user io

section chain
variable {σ : Type} {d : Disks} {fs : FatFs} {callback : DirentCallback σ} {stop : σ → Bool}
  {messages : ChainMessages}
  {slots : Nat} {visited : List UInt32} {cluster next : UInt32} {lfnState lfnState' : LfnState}
    {user user' : σ}
  {io io' io'' : Io} {walkEnd : WalkEnd}

theorem fatWalkChain_invalid (hvalid : fatClusterIsValid fs cluster = false) :
    fatWalkChain d fs callback stop messages slots visited cluster lfnState user io =
      (.invalid, user, io.note messages.invalid) := by
  cases slots <;> rw [fatWalkChain, if_pos hvalid]

variable (hvalid : fatClusterIsValid fs cluster = true)
include hvalid

theorem fatWalkChain_looped (hloop : cluster ∈ visited) :
    fatWalkChain d fs callback stop messages slots visited cluster lfnState user io =
      (.looped, user, io.note messages.loop) := by
  cases slots <;> rw [fatWalkChain, if_neg (by simp [hvalid]), if_pos hloop]

variable (hloop : cluster ∉ visited)
include hloop

theorem fatWalkChain_full :
    fatWalkChain d fs callback stop messages 0 visited cluster lfnState user io =
      (.tooLong, user, io.note messages.long) := by
  rw [fatWalkChain, if_neg (by simp [hvalid]), if_neg hloop]

theorem fatWalkChain_ended
    (hs : fatWalkCluster d fs callback stop messages cluster lfnState user io =
      (some walkEnd, lfnState', user', io')) :
    fatWalkChain d fs callback stop messages (slots + 1) visited cluster lfnState user io =
        (walkEnd, user', io') := by
  rw [fatWalkChain, if_neg (by simp [hvalid]), if_neg hloop, ← fatWalkCluster, hs]

/-- A link value that a chain cannot go on with. -/
def BadLink (fs : FatFs) (next : UInt32) : Prop :=
  next = 0 ∨ fatEntryIsBad fs.fatType next = true ∨ fatEntryIsReserved fs.fatType next = true ∨
    fatClusterIsValid fs next = false

instance (fs : FatFs) (next : UInt32) : Decidable (BadLink fs next) := inferInstanceAs (Decidable (_ ∨ _))

variable (hs : fatWalkCluster d fs callback stop messages cluster lfnState user io =
  (none, lfnState', user', io'))
include hs

theorem fatWalkChain_unlinked (hnext : fatReadFatEntry d fs cluster io' = (none, io'')) :
    fatWalkChain d fs callback stop messages (slots + 1) visited cluster lfnState user io =
      (.nextFailed, user', io''.note messages.nextFail) := by
  rw [fatWalkChain, if_neg (by simp [hvalid]), if_neg hloop, ← fatWalkCluster, hs]
  simp only [hnext]

theorem fatWalkChain_linked (hnext : fatReadFatEntry d fs cluster io' = (some next, io'')) :
    fatWalkChain d fs callback stop messages (slots + 1) visited cluster lfnState user io =
      if fatEntryIsEnd fs.fatType next then (.exhausted, user', io'')
      else if BadLink fs next then (.corrupted, user', io''.note messages.corrupt)
      else fatWalkChain d fs callback stop messages slots (visited ++ [cluster]) next lfnState'
          user' io'' := by
  rw [fatWalkChain, if_neg (by simp [hvalid]), if_neg hloop, ← fatWalkCluster, hs]
  simp only [hnext]
  rfl

end chain

/-- Induction along a chain: a walk ends at the cluster, or goes through it with one slot less. -/
theorem chain_induction {motive : Nat → List UInt32 → UInt32 → Prop}
    (invalid : ∀ slots visited cluster, fatClusterIsValid fs cluster = false → motive slots visited cluster)
    (looped : ∀ slots visited cluster, fatClusterIsValid fs cluster = true → cluster ∈ visited →
      motive slots visited cluster)
    (full : ∀ visited cluster, fatClusterIsValid fs cluster = true → cluster ∉ visited →
      motive 0 visited cluster)
    (enter : ∀ slots visited cluster, fatClusterIsValid fs cluster = true → cluster ∉ visited →
      (∀ next, motive slots (visited ++ [cluster]) next) → motive (slots + 1) visited cluster)
    (slots : Nat) (visited : List UInt32) (cluster : UInt32) : motive slots visited cluster := by
  have hcases : ∀ slots, (∀ visited cluster, fatClusterIsValid fs cluster = true → cluster ∉ visited →
      motive slots visited cluster) → ∀ visited cluster, motive slots visited cluster := by
    intro slots hfresh visited cluster
    by_cases hvalid : fatClusterIsValid fs cluster = false
    · exact invalid _ _ _ hvalid
    · rw [Bool.not_eq_false] at hvalid
      by_cases hloop : cluster ∈ visited
      · exact looped _ _ _ hvalid hloop
      · exact hfresh _ _ hvalid hloop
  induction slots generalizing visited cluster with
  | zero => exact hcases 0 full visited cluster
  | succ slots ih =>
      exact hcases _ (fun _ _ hvalid hloop => enter _ _ _ hvalid hloop (ih _)) visited cluster

/-- What the sectors of every cluster keep of the user state, a chain keeps; so does the way in
which it ends, if the sectors do not end otherwise. -/
theorem chain_keeps {σ : Type} (callback : DirentCallback σ) (stop : σ → Bool) (messages : ChainMessages)
    (inv : σ → Prop) {ends : WalkEnd → Prop} (hends : ∀ walkEnd, walkEnd ≠ .stopped → ends walkEnd)
    (hsectors : ∀ cluster lfnState user io, inv user →
      let walk := fatWalkCluster d fs callback stop messages cluster lfnState user io
      inv walk.2.2.1 ∧ ∀ walkEnd, walk.1 = some walkEnd → ends walkEnd)
    (slots : Nat) (visited : List UInt32) (cluster : UInt32) (lfnState : LfnState) {user : σ}
      (huser : inv user)
    (io : Io) :
    let walk := fatWalkChain d fs callback stop messages slots visited cluster lfnState user io
    inv walk.2.1 ∧ ends walk.1 := by
  induction slots, visited, cluster using chain_induction fs generalizing lfnState user io with
  | invalid slots visited cluster hbad =>
    rw [fatWalkChain_invalid hbad]
    exact ⟨huser, hends _ (by simp)⟩
  | looped slots visited cluster hvalid hloop =>
    rw [fatWalkChain_looped hvalid hloop]
    exact ⟨huser, hends _ (by simp)⟩
  | full visited cluster hvalid hloop =>
    rw [fatWalkChain_full hvalid hloop]
    exact ⟨huser, hends _ (by simp)⟩
  | enter slots visited cluster hvalid hloop ih =>
    obtain ⟨huser', hended⟩ := hsectors cluster lfnState user io huser
    rcases hs : fatWalkCluster d fs callback stop messages cluster lfnState user io with
      ⟨_ | walkEnd, lfnState', user', io'⟩
    · rw [hs] at huser'
      rcases hnext : fatReadFatEntry d fs cluster io' with ⟨_ | next, io''⟩
      · rw [fatWalkChain_unlinked hvalid hloop hs hnext]
        exact ⟨huser', hends _ (by simp)⟩
      · rw [fatWalkChain_linked hvalid hloop hs hnext]
        split_ifs
        · exact ⟨huser', hends _ (by simp)⟩
        · exact ⟨huser', hends _ (by simp)⟩
        · exact ih next lfnState' huser' io''
    · rw [fatWalkChain_ended hvalid hloop hs]
      rw [hs] at huser' hended
      exact ⟨huser', hended walkEnd rfl⟩

theorem chain_collect (messages : ChainMessages) (slots : Nat) (visited : List UInt32) (cluster : UInt32)
    (lfnState : LfnState) (seen : List Dirent) (io : Io) :
    fatWalkChain d fs collect (fun _ => false) messages slots visited cluster lfnState seen io =
      let all := fatWalkChain d fs collect (fun _ => false) messages slots visited cluster lfnState [] io
      (all.1, seen ++ all.2.1, all.2.2) := by
  induction slots, visited, cluster using chain_induction fs generalizing lfnState seen io with
  | invalid slots visited cluster hbad => simp [fatWalkChain_invalid hbad]
  | looped slots visited cluster hvalid hloop => simp [fatWalkChain_looped hvalid hloop]
  | full visited cluster hvalid hloop => simp [fatWalkChain_full hvalid hloop]
  | enter slots visited cluster hvalid hloop ih =>
    rcases hs : fatWalkCluster d fs collect (fun _ => false) messages cluster lfnState [] io with
      ⟨_ | walkEnd, lfnState', es, io'⟩
    all_goals
      have hs' := sectors_collect d fs messages.readFail fs.sectorsPerCluster.toNat
        (fatClusterFirstLba fs cluster)
        lfnState seen io
      rw [← fatWalkCluster, ← fatWalkCluster, hs] at hs'
    · rcases hnext : fatReadFatEntry d fs cluster io' with ⟨_ | next, io''⟩
      · rw [fatWalkChain_unlinked hvalid hloop hs hnext, fatWalkChain_unlinked hvalid hloop hs' hnext]
      · rw [fatWalkChain_linked hvalid hloop hs hnext, fatWalkChain_linked hvalid hloop hs' hnext]
        split_ifs
        · rfl
        · rfl
        · rw [ih, ih _ _ es]
          simp
    · rw [fatWalkChain_ended hvalid hloop hs, fatWalkChain_ended hvalid hloop hs']

theorem chain_search (messages messages' : ChainMessages) (slots : Nat) (visited : List UInt32)
    (cluster : UInt32) (lfnState : LfnState) (io : Io) :
    let all := fatWalkChain d fs collect (fun _ => false) messages slots visited cluster lfnState [] io
    (firstAnswer name all.2.1 = none ∧
        ∃ io', fatWalkChain d fs (search name) Option.isSome messages' slots visited cluster
          lfnState none io = (all.1, none, io')) ∨
      ∃ e io', firstAnswer name all.2.1 = some e ∧
        fatWalkChain d fs (search name) Option.isSome messages' slots visited cluster lfnState none io =
          (.stopped, some e, io') := by
  induction slots, visited, cluster using chain_induction fs generalizing lfnState io with
  | invalid slots visited cluster hbad =>
    rw [fatWalkChain_invalid hbad, fatWalkChain_invalid hbad]
    exact Or.inl ⟨rfl, _, rfl⟩
  | looped slots visited cluster hvalid hloop =>
    rw [fatWalkChain_looped hvalid hloop, fatWalkChain_looped hvalid hloop]
    exact Or.inl ⟨rfl, _, rfl⟩
  | full visited cluster hvalid hloop =>
    rw [fatWalkChain_full hvalid hloop, fatWalkChain_full hvalid hloop]
    exact Or.inl ⟨rfl, _, rfl⟩
  | enter slots visited cluster hvalid hloop ih =>
    have hall := sectors_search d fs name messages.readFail messages'.readFail fs.sectorsPerCluster.toNat
      (fatClusterFirstLba fs cluster) lfnState io
    rw [← fatWalkCluster, ← fatWalkCluster] at hall
    rcases hs : fatWalkCluster d fs collect (fun _ => false) messages cluster lfnState [] io with
      ⟨walkEnd, lfnState', es, io'⟩
    rw [hs] at hall
    dsimp only at hall ⊢
    rcases hall with ⟨hnone, io₁, hs₁, hio⟩ | ⟨e, lfnState₁, io₁, hsome, hs₁⟩
    · cases walkEnd with
      | some walkEnd =>
        rw [fatWalkChain_ended hvalid hloop hs, fatWalkChain_ended hvalid hloop hs₁]
        exact Or.inl ⟨hnone, _, rfl⟩
      | none =>
        obtain rfl : io₁ = io' := hio rfl
        rcases hnext : fatReadFatEntry d fs cluster io₁ with ⟨_ | next, io''⟩
        · rw [fatWalkChain_unlinked hvalid hloop hs hnext, fatWalkChain_unlinked hvalid hloop hs₁ hnext]
          exact Or.inl ⟨hnone, _, rfl⟩
        · rw [fatWalkChain_linked hvalid hloop hs hnext, fatWalkChain_linked hvalid hloop hs₁ hnext]
          split_ifs
          · exact Or.inl ⟨hnone, _, rfl⟩
          · exact Or.inl ⟨hnone, _, rfl⟩
          · rw [chain_collect]
            dsimp only
            rw [firstAnswer_append, hnone, Option.none_or]
            exact ih ..
    · -- the search stops in this cluster; the listing may go on
      refine Or.inr ⟨e, io₁, ?_, fatWalkChain_ended hvalid hloop hs₁⟩
      cases walkEnd with
      | some walkEnd => rwa [fatWalkChain_ended hvalid hloop hs]
      | none =>
        rcases hnext : fatReadFatEntry d fs cluster io' with ⟨_ | next, io''⟩
        · rwa [fatWalkChain_unlinked hvalid hloop hs hnext]
        · rw [fatWalkChain_linked hvalid hloop hs hnext]
          split_ifs
          · exact hsome
          · exact hsome
          · rw [chain_collect]
            dsimp only
            rw [firstAnswer_append, hsome, Option.some_or]

end walks

/-! ### Lookup and listing -/

/-- What a search says about a directory with these entries, whose listing returned `listed`. -/
def SearchAgrees (name : List UInt8) (listed : Bool) (entries : List Dirent) (status : FatStatus)
    (found : Option Dirent) : Prop :=
  match firstAnswer name entries with
  | some e => found = some e ∧ status = if e.suspicious then .corrupt else .ok
  | none =>
    found = none ∧ (listed = true → status = .notFound) ∧
      (listed = false → status = .corrupt ∨ status = .ioError)

theorem fatFindStatus_listed {walkEnd : WalkEnd} (h : walkEnd ≠ .stopped) :
    (walkEnd.listed = true → fatFindStatus walkEnd none = .notFound) ∧
      (walkEnd.listed = false → fatFindStatus walkEnd none = .corrupt ∨
        fatFindStatus walkEnd none = .ioError) := by
  cases walkEnd <;> simp_all [WalkEnd.listed, fatFindStatus]

section agreement
variable (d : Disks) (fs : FatFs) (name : List UInt8) (io : Io)

theorem chain_agrees (startCluster : UInt32) (messages messages' : ChainMessages) :
    SearchAgrees name (fatListClusterChain d fs startCluster collect messages [] io).1
      (fatListClusterChain d fs startCluster collect messages [] io).2.1
      (fatFindDirectoryClusterChain d fs startCluster name messages' io).1
      (fatFindDirectoryClusterChain d fs startCluster name messages' io).2.1 := by
  have hne : (fatWalkChain d fs collect (fun _ => false) messages fatMaxVisitedClusters
      [] startCluster fatLfnReset [] io).1 ≠ .stopped := by
    refine (chain_keeps d fs collect _ messages (fun _ => True) (fun _ h => h)
      (fun cluster lfnState user io _ => ⟨trivial, ?_⟩) _ _ _ _ trivial io).2
    intro walkEnd hended hstopped
    exact sectors_ne_stopped d fs collect messages.readFail _ _ lfnState user io (hstopped ▸ hended)
  simp only [SearchAgrees, fatListClusterChain, fatFindDirectoryClusterChain]
  rcases chain_search d fs name messages messages' fatMaxVisitedClusters [] startCluster fatLfnReset io with
    ⟨hnone, io', hs⟩ | ⟨e, io', hsome, hs⟩
  · rw [hnone]
    simp only [search] at hs
    rw [hs]
    exact ⟨rfl, fatFindStatus_listed hne⟩
  · rw [hsome]
    simp only [search] at hs
    rw [hs]
    exact ⟨rfl, rfl⟩

theorem root_agrees :
    SearchAgrees name (fatListRootFixed d fs collect [] io).1 (fatListRootFixed d fs collect [] io).2.1
      (fatFindRootFixed d fs name io).1 (fatFindRootFixed d fs name io).2.1 := by
  simp only [SearchAgrees, fatListRootFixed, fatFindRootFixed, fatWalkRootFixed]
  generalize (fs.firstRootDirLba + fs.rootDirSectors).toNat - fs.firstRootDirLba.toNat = count
  have hne := sectors_ne_stopped d fs collect "TERMOB: fat root read failed" count
    fs.firstRootDirLba fatLfnReset [] io
  have hall := sectors_search d fs name "TERMOB: fat root read failed"
    "TERMOB: fat path root read failed" count
    fs.firstRootDirLba fatLfnReset io
  generalize fatWalkSectors d fs collect (fun _ => false) "TERMOB: fat root read failed" count
    fs.firstRootDirLba
    fatLfnReset [] io = all at hne hall
  simp only [search] at hall
  obtain ⟨walkEnd, lfnState, es, io'⟩ := all
  rcases hall with ⟨hnone, io'', hs, _⟩ | ⟨e, lfnState', io'', hsome, hs⟩
  · rw [hs]
    cases walkEnd with
    | none =>
      dsimp only at hnone ⊢
      rw [hnone]
      exact ⟨rfl, fatFindStatus_listed WalkEnd.noConfusion⟩
    | some walkEnd =>
      dsimp only at hnone ⊢
      rw [hnone]
      exact ⟨rfl, fatFindStatus_listed fun h => hne (congrArg some h)⟩
  · rw [hs]
    cases walkEnd with
    | none =>
      dsimp only at hsome ⊢
      rw [hsome]
      exact ⟨rfl, rfl⟩
    | some walkEnd =>
      dsimp only at hsome ⊢
      rw [hsome]
      exact ⟨rfl, rfl⟩

/-- Searching a directory and listing it agree, on every disk: on cluster chains from any start
cluster, and on the fixed root directory. -/
theorem lookup_agrees_with_listing :
    (∀ startCluster messages messages',
        SearchAgrees name (fatListClusterChain d fs startCluster collect messages [] io).1
          (fatListClusterChain d fs startCluster collect messages [] io).2.1
          (fatFindDirectoryClusterChain d fs startCluster name messages' io).1
          (fatFindDirectoryClusterChain d fs startCluster name messages' io).2.1) ∧
      SearchAgrees name (fatListRootFixed d fs collect [] io).1 (fatListRootFixed d fs collect [] io).2.1
        (fatFindRootFixed d fs name io).1 (fatFindRootFixed d fs name io).2.1 :=
  ⟨fun startCluster messages messages' => chain_agrees d fs name io startCluster messages messages',
    root_agrees d fs name io⟩

end agreement

end TermobKernel.Fat
