import TermobKernel.Boot.Bounds

/-!
# When the walk over the boot information ends

`bootinfo_init` adds the size that a tag declares to a 32-bit address and rounds up, and the loop
over the entries of a memory map adds the declared entry size, with no check that either sum got
larger. The two loops are characterised in terms of the block alone: the loop over the tags ends
when the chain of tags comes back to none of its addresses, and the loop over the entries when the
last address that its stride can reach lies behind the end of the tag (`EntriesEnd`).
-/

namespace TermobKernel.Boot
open Walk

section
variable (mem : Mem)

/-- The loop over the tags passes this tag, as far as its type and size are concerned. -/
def Passes (tag : UInt32) : Prop := tagType mem tag ≠ multibootTagTypeEnd ∧ ¬tagSize mem tag < 8

/-- The chain of tags has a tag number `n`: the tags before it lead on, and its header ends within
the block. -/
def OnChain (infoEnd first : UInt32) (n : Nat) : Prop :=
  Arrives (fun tag => tag + 8 ≤ infoEnd) (Passes mem) (nextTag mem) first n

def entryStride (tag : UInt32) : Nat := Nat.gcd (tagEntrySize mem tag).toNat (2 ^ 32)

/-- The tag ends before the last address that the loop over its entries can reach. -/
def EntriesEnd (tag : UInt32) : Prop :=
  (tag + tagSize mem tag).toNat < 2 ^ 32 - entryStride mem tag + (tag + 16).toNat % entryStride mem tag

instance (tag : UInt32) : Decidable (EntriesEnd mem tag) := inferInstanceAs (Decidable (_ < _))

/-- The chain of tags does not come back to one of its addresses, and every memory map on it ends before the
last address that the loop over its entries can reach. -/
structure ChainEnds (infoEnd first : UInt32) : Prop where
  fresh : ∀ m n, m < n → OnChain mem infoEnd first n → (nextTag mem)^[m] first ≠ (nextTag mem)^[n] first
  entries : ∀ n, OnChain mem infoEnd first n → HasEntries mem ((nextTag mem)^[n] first) →
    EntriesEnd mem ((nextTag mem)^[n] first)

end

section
variable {mem : Mem} {tag : UInt32}
variable {b : BootInfo}

theorem entryGuard_iff (k : Nat) :
    EntryGuard mem tag (entryAt mem tag k) ↔
      ((tag + 16).toNat + (k + 1) * (tagEntrySize mem tag).toNat) % 2 ^ 32 ≤
        (tag + tagSize mem tag).toNat := by
  have hnext : (entryAt mem tag k + tagEntrySize mem tag).toNat =
      ((tag + 16).toNat + (k + 1) * (tagEntrySize mem tag).toNat) % 2 ^ 32 := by
    rw [entryAt, ← iterate_add_word, ← Function.iterate_succ_apply' (· + tagEntrySize mem tag),
      iterate_add_word,
      UInt32.toNat_add, UInt32.toNat_mul, UInt32.toNat_ofNat', Nat.mod_mul_mod, Nat.add_mod_mod]
  rw [EntryGuard, UInt32.le_iff_toNat_le, hnext]

theorem entriesEnd_iff : (entryLoop mem tag b).isSome ↔ EntriesEnd mem tag := by
  rw [entryLoop_ends_iff, EntriesEnd, entryStride, ← exceeds_iff (by decide)]
  constructor
  · rintro ⟨k, hk⟩
    obtain ⟨i, _, hstop⟩ : ∃ i ≤ k, ¬EntryGuard mem tag (entryAt mem tag i) := by
      simpa [Declared] using hk
    rw [entryGuard_iff] at hstop
    exact ⟨i + 1, Nat.succ_pos i, Nat.not_le.mp hstop⟩
  · rintro ⟨k, hpos, hk⟩
    obtain ⟨i, rfl⟩ := Nat.exists_eq_add_of_lt hpos
    rw [Nat.zero_add] at hk
    refine ⟨i, fun hall => ?_⟩
    have hguard := (entryGuard_iff i).mp (hall i le_rfl)
    omega

theorem bootinfoTagLoop_isSome_iff {infoEnd : UInt32} {fuel : Nat} :
    (bootinfoTagLoop mem infoEnd fuel tag b).isSome ↔
      (∃ k < fuel, Stops (fun t => t + 8 ≤ infoEnd) (Passes mem) ((nextTag mem)^[k] tag)) ∧
        ∀ n < fuel, OnChain mem infoEnd tag n → HasEntries mem ((nextTag mem)^[n] tag) →
          EntriesEnd mem ((nextTag mem)^[n] tag) := by
  induction fuel generalizing tag b with
  | zero => simp [bootinfoTagLoop]
  | succ fuel ih =>
    rw [bootinfoTagLoop_succ]
    by_cases hfits : tag + 8 ≤ infoEnd
    · rw [if_pos hfits]
      -- a tag that is not passed is the last one, and only its own entries count
      have hlast : ¬Passes mem tag →
          ((∃ k < fuel + 1, Stops (fun t => t + 8 ≤ infoEnd) (Passes mem) ((nextTag mem)^[k] tag)) ∧
            ∀ n < fuel + 1, OnChain mem infoEnd tag n → HasEntries mem ((nextTag mem)^[n] tag) →
              EntriesEnd mem ((nextTag mem)^[n] tag)) = (HasEntries mem tag → EntriesEnd mem tag) := by
        intro hstop
        apply propext
        constructor
        · rintro ⟨_, hall⟩
          exact hall 0 (Nat.succ_pos fuel) (arrives_zero.mpr hfits)
        · intro hhere
          refine ⟨⟨0, Nat.succ_pos fuel, Or.inr hstop⟩, ?_⟩
          rintro (_ | n) _ hon
          · exact hhere
          · exact absurd (arrives_succ.mp hon).2.1 hstop
      by_cases hend : tagType mem tag = multibootTagTypeEnd
      · rw [if_pos hend, hlast fun hpass => hpass.1 hend]
        refine iff_of_true rfl fun hmap => ?_
        rw [HasEntries, hend] at hmap
        exact absurd hmap.1 (by decide)
      rw [if_neg hend]
      by_cases hentries : HasEntries mem tag → EntriesEnd mem tag
      · obtain ⟨c, hc⟩ : ∃ c, (if HasEntries mem tag then entryLoop mem tag b else some b) = some c := by
          by_cases hmap : HasEntries mem tag
          · rw [if_pos hmap]
            exact Option.isSome_iff_exists.mp (entriesEnd_iff.mpr (hentries hmap))
          · rw [if_neg hmap]
            exact ⟨b, rfl⟩
        rw [hc, Option.bind_some]
        by_cases hsmall : tagSize mem tag < 8
        · rw [if_pos hsmall, hlast fun hpass => hpass.2 hsmall]
          exact iff_of_true rfl hentries
        rw [if_neg hsmall, ih]
        have hpass : Passes mem tag := ⟨hend, hsmall⟩
        constructor
        · rintro ⟨⟨k, hk, hstop⟩, hall⟩
          refine ⟨⟨k + 1, by omega, hstop⟩, ?_⟩
          rintro (_ | n) hn hon
          · exact hentries
          · exact hall n (by omega) (arrives_succ.mp hon).2.2
        · rintro ⟨⟨k, hk, hstop⟩, hall⟩
          refine ⟨?_, fun n hn hon => hall (n + 1) (by omega) (arrives_succ.mpr ⟨hfits, hpass, hon⟩)⟩
          rcases k with _ | k
          · exact absurd hstop (by simp [Stops, hfits, hpass])
          · exact ⟨k, by omega, hstop⟩
      · have hmap : HasEntries mem tag := by
          by_contra hno
          exact hentries fun hmap => absurd hmap hno
        have hnone : entryLoop mem tag b = none := by
          rw [← Option.not_isSome_iff_eq_none, entriesEnd_iff]
          exact fun h => hentries fun _ => h
        rw [if_pos hmap, hnone]
        refine iff_of_false (by simp) ?_
        rintro ⟨_, hall⟩
        exact hentries (hall 0 (Nat.succ_pos fuel) (arrives_zero.mpr hfits))
    · rw [if_neg hfits]
      refine iff_of_true rfl ⟨⟨0, Nat.succ_pos fuel, Or.inl hfits⟩, ?_⟩
      intro n _ hon
      exact absurd (hon.1 0 (Nat.zero_le n)) hfits

theorem bootinfoTagLoop_ends_iff {infoEnd : UInt32} :
    (bootinfoTagLoop mem infoEnd UInt32.size tag b).isSome ↔ ChainEnds mem infoEnd tag := by
  rw [bootinfoTagLoop_isSome_iff, stops_iff_no_revisit]
  constructor
  · rintro ⟨hfresh, hall⟩
    refine ⟨hfresh, fun n hon hmap => ?_⟩
    -- an early tag has the same address
    obtain ⟨m, hm, hmn, heq⟩ := iterate_early (nextTag mem) tag n
    rw [← heq] at hmap ⊢
    exact hall m hm (hon.mono hmn) hmap
  · intro h
    exact ⟨h.fresh, fun n _ => h.entries n⟩

end

/-- `bootinfo_init` ends, for any memory and any address of the block, exactly when it refuses the
block or the chain of tags in it ends. -/
theorem boot_parsing_ends_iff (mem : Mem) (magic address : UInt32) :
    (bootinfoInit mem magic address).isSome ↔
      (magic = multiboot2Magic → address ≠ 0 → 8 ≤ mem.load32 address →
        ChainEnds mem (address + mem.load32 address) (address + 8)) := by
  rw [bootinfoInit]
  by_cases hvalid : magic ≠ multiboot2Magic ∨ address = 0
  · rw [if_pos hvalid]
    refine iff_of_true rfl ?_
    intro hmagic haddress
    rcases hvalid with hwrong | hzero
    · exact absurd hmagic hwrong
    · exact absurd hzero haddress
  rw [if_neg hvalid]
  obtain ⟨hmagic, haddress⟩ := not_or.mp hvalid
  dsimp only
  by_cases hsize : mem.load32 address < 8
  · rw [if_pos hsize]
    exact iff_of_true rfl fun _ _ hlarge => absurd hsize (UInt32.not_lt.mpr hlarge)
  rw [if_neg hsize, Option.isSome_map, bootinfoTagLoop_ends_iff]
  constructor
  · intro h _ _ _
    exact h
  · intro h
    exact h (not_not.mp hmagic) haddress (UInt32.not_lt.mp hsize)

def backwardBlock : Mem :=
  ((zeroMem.store32 0x1000 24).store32 0x1008 1).store32 0x100C 0xFFFFFFF9

/-- The size leads from the tag back to the same tag. -/
theorem backward_tag_never_ends :
    (0x1000 : UInt32).toNat + (backwardBlock.load32 0x1000).toNat ≤ 2 ^ 32 ∧
      bootinfoInit backwardBlock multiboot2Magic 0x1000 = none := by
  have hback : nextTag backwardBlock 0x1008 = 0x1008 := by decide +kernel
  have hstays : ∀ n, (nextTag backwardBlock)^[n] 0x1008 = 0x1008 := fun n => Function.iterate_fixed hback n
  have hgoes : ¬Stops (fun t => t + 8 ≤ (0x1018 : UInt32)) (Passes backwardBlock) 0x1008 := by
    rw [Stops, Passes]
    decide +kernel
  have hloop : ∀ b, bootinfoTagLoop backwardBlock 0x1018 UInt32.size 0x1008 b = none := by
    intro b
    rw [← Option.not_isSome_iff_eq_none, bootinfoTagLoop_isSome_iff]
    rintro ⟨⟨k, _, hstop⟩, _⟩
    rw [hstays] at hstop
    exact hgoes hstop
  refine ⟨by decide +kernel, ?_⟩
  rw [bootinfoInit, if_neg (by decide)]
  dsimp only
  rw [if_neg (by decide +kernel), show (0x1000 : UInt32) + backwardBlock.load32 0x1000 =
    0x1018 by decide +kernel, show (0x1000 : UInt32) + 8 = 0x1008 from rfl, hloop]
  rfl

end TermobKernel.Boot
