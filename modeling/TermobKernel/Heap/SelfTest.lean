import TermobKernel.Heap.Undo
import TermobKernel.Heap.Statistics

/-!
# The self test of the heap

`heap_run_self_test` allocates four blocks in a heap that is in use, releases them in another order
and looks whether the heap is the same afterwards. `Holding` says what a state of the test holds:
the blocks of the heap before it, and those that the test has allocated and not yet released.
-/

namespace TermobKernel.Heap
open Word Runs

variable {xs ys : List Block} {lo hi : Nat} {b : Block} {s : State}

def heapDiagSelftest : UInt32 := 0x00000010

def heapRunSelfTest (s : State) : Option (Bool × State) :=
  if s.heapReady = false then some (false, s)
  else
    let freeBefore := heapBytesFree s
    let (sane, s) := heapCheckIntegrityInternal s true
    if sane = false then some (false, s)
    else do
      let (a, s) ← kmalloc s 64
      let (b, s) ← kmalloc s 128
      let (c, s) ← kcalloc s 16 8
      if a = 0 ∨ b = 0 ∨ c = 0 then
        let s := heapNoteError s heapDiagSelftest "TERMOB: heap self-test allocation failed"
        let s ← (if a ≠ 0 then kfree s a else some s)
        let s ← (if b ≠ 0 then kfree s b else some s)
        let s ← (if c ≠ 0 then kfree s c else some s)
        some (false, s)
      else
        let s ← kfree s b
        let (d, s) ← kmalloc s 80
        if d = 0 then
          let s := heapNoteError s heapDiagSelftest "TERMOB: heap self-test reuse allocation failed"
          let s ← kfree s a
          let s ← kfree s c
          some (false, s)
        else
          let s ← kfree s d
          let s ← kfree s c
          let s ← kfree s a
          let (sane, s) := heapCheckIntegrityInternal s true
          if sane = false then some (false, s)
          else
            let freeAfter := heapBytesFree s
            if freeAfter ≠ freeBefore then
              some (false, heapNoteError s heapDiagSelftest "TERMOB: heap self-test free space mismatch")
            else some (true, heapLogEvent s "TERMOB: heap self-test ok")

/-! ### A released block is room -/

theorem absorb_covers (h : Tiles lo (xs ++ b :: ys) hi) (hhi : hi < 2 ^ 32) :
    b.stop ≤ (absorb b ys).1.stop ∧ Tiles lo (xs ++ (absorb b ys).1 :: (absorb b ys).2) hi := by
  cases ys with
  | nil => exact ⟨le_rfl, h⟩
  | cons n ys =>
    rw [absorb]
    split
    · refine ⟨?_, tiles_merge h hhi⟩
      obtain ⟨-, -, htiles⟩ := tiles_middle.mp h
      rw [(merged_size_toNat h hhi).2, ← htiles.1]
      simp only [Block.stop]
      omega
    · exact ⟨le_rfl, h⟩

theorem absorbTwice_covers (h : Tiles lo (xs ++ b :: ys) hi)
    (hhi : hi < 2 ^ 32) (hb : b.free = true) :
    ∃ c ∈ absorbTwice b ys, c.free = true ∧ c.addr = b.addr ∧ b.stop ≤ c.stop := by
  obtain ⟨hstop, htiles⟩ := absorb_covers h hhi
  obtain ⟨hstop', -⟩ := absorb_covers htiles hhi
  obtain ⟨haddr, hfree⟩ := absorb_addr b ys
  obtain ⟨haddr', hfree'⟩ := absorb_addr (absorb b ys).1 (absorb b ys).2
  exact ⟨_, List.mem_cons_self, by rw [hfree', hfree, hb], haddr'.trans haddr, hstop.trans hstop'⟩

theorem coalesced_covers (h : Tiles lo (xs ++ b :: ys) hi) (hhi : hi < 2 ^ 32)
    (hb : b.free = true) : ∃ c ∈ coalesced xs b ys, c.free = true ∧ b.size ≤ c.size := by
  have hsize : ∀ c : Block, c.addr.toNat ≤ b.addr.toNat → b.stop ≤ c.stop → b.size ≤ c.size := by
    intro c haddr hstop
    simp only [Block.stop] at hstop
    rw [UInt32.le_iff_toNat_le]
    omega
  rcases List.eq_nil_or_concat' xs with rfl | ⟨zs, p, rfl⟩
  · obtain ⟨c, hc, hfree, haddr, hstop⟩ := absorbTwice_covers h hhi hb
    exact ⟨c, hc, hfree, hsize c (by rw [haddr]) hstop⟩
  · cases hp : p.free with
    | false =>
      obtain ⟨c, hc, hfree, haddr, hstop⟩ := absorbTwice_covers h hhi hb
      rw [coalesced_of_last_used (by simpa using hp)]
      exact ⟨c, List.mem_append_right _ hc, hfree, hsize c (by rw [haddr]) hstop⟩
    | true =>
      -- the block before it takes it in
      rw [List.append_assoc, List.singleton_append] at h
      have habsorb : absorb p (b :: ys) = (merged p b, ys) := by rw [absorb, if_pos hb]
      obtain ⟨hstop, -⟩ := absorb_covers (tiles_merge h hhi) hhi
      obtain ⟨haddr, hfree⟩ := absorb_addr (merged p b) ys
      rw [coalesced_of_last_free hp, absorbTwice, habsorb]
      refine ⟨_, List.mem_append_right _ List.mem_cons_self, hfree.trans hp, hsize _ ?_ ?_⟩
      · have hbefore := (tiles_middle.mp h).2.2.1
        simp only [Block.stop] at hbefore
        rw [haddr]
        change p.addr.toNat ≤ _
        omega
      · rw [← (merged_size_toNat h hhi).2]
        exact hstop

/-! ### What the test holds -/

/-- The heap holds the used blocks of `bs₀` and the blocks `held`. -/
structure Holding (bs₀ held : List Block) (s : State) (bs : List Block) : Prop where
  rep : Rep s bs
  used_iff : ∀ c, c ∈ used bs ↔ c ∈ used bs₀ ∨ c ∈ held
  fresh : ∀ c ∈ held, c ∉ used bs₀
  nodup : held.Nodup

section holding
variable {bs₀ held bs : List Block} {s : State}

theorem Holding.note (h : Holding bs₀ held s bs) (flag : UInt32) (message : String) :
    Holding bs₀ held (heapNoteError s flag message) bs :=
      ⟨h.rep.note flag message, h.used_iff, h.fresh, h.nodup⟩

theorem Rep.log (h : Rep s bs) (message : String) : Rep (heapLogEvent s message) bs := by
  obtain ⟨⟨⟨h1, h2, h3, h4⟩, h5, h6, h7⟩, h8, h9⟩ := h
  exact ⟨⟨⟨h1, h2, h3, h4⟩, h5, h6, fun b hb => ⟨(h7 b hb).magic, (h7 b hb).size, (h7 b hb).free⟩⟩, h8, h9⟩

theorem mem_used {c : Block} : c ∈ used bs ↔ c ∈ bs ∧ c.free = false := by
  rw [used, List.mem_filter, Bool.not_eq_true']

theorem Holding.take {xs ys : List Block} {b : Block} {need : UInt32} {s' : State}
    (h : Holding bs₀ held s (xs ++ b :: ys)) (hb : b.free = true)
    (hrep : Rep s' (xs ++ (taken b need ++ ys))) :
    ∃ bs', Holding bs₀ (served b need :: held) s' bs' := by
  obtain ⟨zs, hzs, hused, -⟩ := taken_append b need ys
  rw [hzs] at hrep
  have hnew : served b need ∉ used (xs ++ b :: ys) := by
    intro hmem
    have hmem := (mem_used.mp hmem)
    have hsame : (served b need).addr = b.addr := served_addr b need
    have hin : b ∈ xs ++ b :: ys := by simp
    rw [tiles_addr_inj h.rep.phys.tiles hmem.1 hin hsame, hb] at hmem
    exact Bool.noConfusion hmem.2
  refine ⟨_, hrep, fun c => ?_, fun c hc => ?_, ?_⟩
  · rw [used_append, used_cons_used (served_free b need), hused]
    have hold := h.used_iff c
    rw [used_append, used_cons_free hb] at hold
    simp only [List.mem_append, List.mem_cons] at hold ⊢
    tauto
  · rcases List.mem_cons.mp hc with rfl | hc
    · exact fun hmem => hnew ((h.used_iff _).mpr (.inl hmem))
    · exact h.fresh c hc
  · exact List.nodup_cons.mpr ⟨fun hmem => hnew ((h.used_iff _).mpr (.inr hmem)), h.nodup⟩

theorem Holding.kmalloc (h : Holding bs₀ held s bs) (size : UInt32) :
    (Heap.kmalloc s size = some (0, s) ∧ (size = 0 ∨ firstFit bs (heapAlignUp size heapAlignment) = none)) ∨
      ∃ b s' bs', Heap.kmalloc s size = some (heapBlockPayloadAddress b.addr, s') ∧
        heapBlockPayloadAddress b.addr ≠ 0 ∧ heapAlignUp size heapAlignment ≤ b.size ∧
        s'.statics = s.statics ∧ Holding bs₀ (b :: held) s' bs' := by
  rcases kmalloc_cases h.rep size with hnull | ⟨xs, b, ys, s', -, rfl, hb, hfit, -, hk, hrep, hkept⟩
  · exact .inl hnull
  · obtain ⟨bs', hheld⟩ := h.take hb hrep
    refine .inr ⟨_, s', bs', ?_, ?_, (served_size hfit).1, hkept.statics, hheld⟩
    · rw [served_addr]
      exact hk
    · rw [served_addr]
      exact h.rep.phys.payload_ne_zero (by simp)

theorem Holding.kcalloc (h : Holding bs₀ held s bs) {count size : UInt32}
    (hsmall : requested count size ≤ 2 ^ 32 - 16) :
    Heap.kcalloc s count size = some (0, s) ∨
      ∃ b s' bs', Heap.kcalloc s count size = some (heapBlockPayloadAddress b.addr, s') ∧
        heapBlockPayloadAddress b.addr ≠ 0 ∧ s'.statics = s.statics ∧ Holding bs₀ (b :: held) s' bs' := by
  rcases h.rep.kcalloc_cases hsmall with hnull | ⟨xs, b, ys, rounded, s', rfl, hb, hk, hrep, hkept⟩
  · exact .inl hnull
  · obtain ⟨bs', hheld⟩ := h.take hb hrep
    refine .inr ⟨_, s', bs', ?_, ?_, hkept.statics, hheld⟩
    · rw [served_addr]
      exact hk
    · rw [served_addr]
      exact h.rep.phys.payload_ne_zero (by simp)

theorem Holding.kfree (h : Holding bs₀ held s bs) {b : Block} (hb : b ∈ held) :
    ∃ s' bs', Heap.kfree s (heapBlockPayloadAddress b.addr) = some s' ∧ s'.statics = s.statics ∧
      Holding bs₀ (held.erase b) s' bs' ∧ ∃ c ∈ bs', c.free = true ∧ b.size ≤ c.size := by
  have hin := mem_used.mp ((h.used_iff b).mpr (.inr hb))
  obtain ⟨xs, ys, rfl⟩ := List.append_of_mem hin.1
  obtain ⟨s', hk, hrep, hkept⟩ := kfree_used h.rep hin.2
  have htiles : Tiles s.heapStartPtr.toNat (xs ++ { b with free := true } :: ys) s.heapEndPtr.toNat := by
    obtain ⟨hbefore, hsize, hbehind⟩ := tiles_middle.mp h.rep.phys.tiles
    exact tiles_middle.mpr ⟨hbefore, hsize, hbehind⟩
  have hroom := coalesced_covers htiles s.heapEndPtr.toNat_lt rfl
  refine ⟨s', _, hk, hkept.statics, ⟨hrep, fun c => ?_, fun c hc => h.fresh c (List.mem_of_mem_erase hc),
    h.nodup.erase b⟩, hroom⟩
  have hothers : ∀ c ∈ xs ++ ys, c ≠ b := by
    rintro c hc rfl
    exact h.rep.phys.payload_ne hc rfl
  have hiff := h.used_iff c
  rw [used_append, used_cons_used hin.2] at hiff
  rw [released, used_coalesced _ rfl, h.nodup.mem_erase_iff]
  simp only [List.mem_append, List.mem_cons, mem_used] at hiff hothers ⊢
  have hfresh := h.fresh b hb
  rw [mem_used] at hfresh
  by_cases hcb : c = b
  · subst hcb
    have hno : ¬(c ∈ xs ∨ c ∈ ys) := fun hmem => hothers c hmem rfl
    tauto
  · tauto

theorem Holding.perm (h : Holding bs₀ held s bs) {held' : List Block} (hp : held.Perm held') :
    Holding bs₀ held' s bs :=
  ⟨h.rep, fun c => by rw [h.used_iff, hp.mem_iff], fun c hc => h.fresh c (hp.mem_iff.mpr hc),
    hp.nodup_iff.mp h.nodup⟩

def pointer (o : Option Block) : UInt32 := o.elim 0 fun b => heapBlockPayloadAddress b.addr

theorem pointer_some (b : Block) : pointer (some b) = heapBlockPayloadAddress b.addr := rfl

theorem Holding.request (h : Holding bs₀ held s bs) (size : UInt32) :
    ∃ o s' bs', Heap.kmalloc s size = some (pointer o, s') ∧ (pointer o = 0 ↔ o = none) ∧
      (∀ b ∈ o, heapAlignUp size heapAlignment ≤ b.size) ∧ s'.statics = s.statics ∧
      Holding bs₀ (o.toList ++ held) s' bs' := by
  rcases h.kmalloc size with ⟨hnull, -⟩ | ⟨b, s', bs', hk, hp, hfit, hst, hheld⟩
  · exact ⟨none, s, bs, hnull, iff_of_true rfl rfl, fun b hb => absurd hb (Option.not_mem_none b), rfl, h⟩
  · refine ⟨some b, s', bs', hk, iff_of_false hp (Option.some_ne_none b), fun c hc => ?_, hst, hheld⟩
    rw [← Option.some.inj hc]
    exact hfit

theorem Holding.requestCleared (h : Holding bs₀ held s bs) {count size : UInt32}
    (hsmall : requested count size ≤ 2 ^ 32 - 16) :
    ∃ o s' bs', Heap.kcalloc s count size = some (pointer o, s') ∧ (pointer o = 0 ↔ o = none) ∧
      s'.statics = s.statics ∧ Holding bs₀ (o.toList ++ held) s' bs' := by
  rcases h.kcalloc hsmall with hnull | ⟨b, s', bs', hk, hp, hst, hheld⟩
  · exact ⟨none, s, bs, hnull, iff_of_true rfl rfl, rfl, h⟩
  · exact ⟨some b, s', bs', hk, iff_of_false hp (Option.some_ne_none b), hst, hheld⟩

theorem Holding.release {o : Option Block} {rest : List Block} (h : Holding bs₀ held s bs)
    (hp : held.Perm (o.toList ++ rest)) (hnull : pointer o = 0 ↔ o = none) :
    ∃ s' bs', (if pointer o ≠ 0 then Heap.kfree s (pointer o) else some s) = some s' ∧
      s'.statics = s.statics ∧ Holding bs₀ rest s' bs' := by
  cases o with
  | none => exact ⟨s, bs, if_neg (not_not.mpr rfl), rfl, h.perm hp⟩
  | some b =>
    have hne : pointer (some b) ≠ 0 := fun h0 => Option.some_ne_none b (hnull.mp h0)
    obtain ⟨s', bs', hk, hst, hheld, -⟩ := (h.perm hp).kfree List.mem_cons_self
    refine ⟨s', bs', (if_pos hne).trans hk, hst, ?_⟩
    rwa [Option.toList_some, List.singleton_append, List.erase_cons_head] at hheld

theorem Holding.done {s₀ : State} (h₀ : Rep s₀ bs₀) (h : Holding bs₀ [] s bs)
    (hst : s.heapStartPtr = s₀.heapStartPtr) (hend : s.heapEndPtr = s₀.heapEndPtr) : bs = bs₀ := by
  have hsorted : ∀ {t : State} {cs : List Block}, Rep t cs → (used cs).Pairwise fun b c =>
      b.addr.toNat < c.addr.toNat := by
    intro t cs hcs
    refine ((tiles_sorted hcs.phys.tiles).filter _).imp fun {b c} hle => ?_
    simp only [Block.stop] at hle
    omega
  have : Std.Irrefl fun b c : Block => b.addr.toNat < c.addr.toNat := ⟨fun _ => lt_irrefl _⟩
  have : Std.Antisymm fun b c : Block => b.addr.toNat < c.addr.toNat :=
    ⟨fun _ _ hlt hgt => absurd hlt (by omega)⟩
  have hused : used bs₀ = used bs :=
    (hsorted h₀).eq_of_mem_iff (hsorted h.rep) fun c => by rw [h.used_iff]; simp
  exact (h₀.same_blocks h.rep hst hend hused).symm

end holding

/-! ### The test -/

def ThreeServed (s : State) : Prop :=
  ∃ a s₁ b s₂ c s₃, kmalloc s 64 = some (a, s₁) ∧ kmalloc s₁ 128 = some (b, s₂) ∧
    kcalloc s₂ 16 8 = some (c, s₃) ∧ a ≠ 0 ∧ b ≠ 0 ∧ c ≠ 0

theorem Holding.giveUp {bs₀ bs : List Block} {a b c : Option Block}
    (h : Holding bs₀ (c.toList ++ (b.toList ++ a.toList)) s bs) (ha : pointer a = 0 ↔ a = none)
    (hb : pointer b = 0 ↔ b = none) (hc : pointer c = 0 ↔ c = none) :
    ∃ s₁ s₂ s₃ bs₃, (if pointer a ≠ 0 then Heap.kfree s (pointer a) else some s) = some s₁ ∧
      (if pointer b ≠ 0 then Heap.kfree s₁ (pointer b) else some s₁) = some s₂ ∧
      (if pointer c ≠ 0 then Heap.kfree s₂ (pointer c) else some s₂) = some s₃ ∧
      s₃.statics = s.statics ∧ Holding bs₀ [] s₃ bs₃ := by
  have hperm : (c.toList ++ (b.toList ++ a.toList)).Perm (a.toList ++ (c.toList ++ b.toList)) := by
    rw [← List.append_assoc]
    exact List.perm_append_comm
  obtain ⟨s₁, bs₁, hk₁, hst₁, hheld₁⟩ := h.release hperm ha
  obtain ⟨s₂, bs₂, hk₂, hst₂, hheld₂⟩ := hheld₁.release List.perm_append_comm hb
  obtain ⟨s₃, bs₃, hk₃, hst₃, hheld₃⟩ := hheld₂.release (by rw [List.append_nil]) hc
  exact ⟨s₁, s₂, s₃, bs₃, hk₁, hk₂, hk₃, hst₃.trans (hst₂.trans hst₁), hheld₃⟩

/-- The second half of the test: the block `b` is released, its room serves a smaller request, and
all is released. -/
theorem Holding.reuse {bs₀ bs : List Block} {a b c : Block} (h : Holding bs₀ [c, b, a] s bs)
    (hb : 128 ≤ b.size) :
    ∃ s₁ d s₂ s₃ s₄ s₅ bs₅, Heap.kfree s (heapBlockPayloadAddress b.addr) = some s₁ ∧
      Heap.kmalloc s₁ 80 = some (d, s₂) ∧ d ≠ 0 ∧ Heap.kfree s₂ d = some s₃ ∧
      Heap.kfree s₃ (heapBlockPayloadAddress c.addr) = some s₄ ∧
      Heap.kfree s₄ (heapBlockPayloadAddress a.addr) = some s₅ ∧ s₅.statics = s.statics ∧
      Holding bs₀ [] s₅ bs₅ := by
  have hperm : [c, b, a].Perm [b, c, a] := List.Perm.swap b c [a]
  obtain ⟨s₁, bs₁, hk₁, hst₁, hheld₁, x, hx, hxfree, hxsize⟩ := (h.perm hperm).kfree List.mem_cons_self
  rw [List.erase_cons_head] at hheld₁
  rcases hheld₁.kmalloc 80 with ⟨-, hnone | hnone⟩ | ⟨d, s₂, bs₂, hk₂, hd, -, hst₂, hheld₂⟩
  · exact absurd hnone (by decide)
  · -- the room that was released is large enough
    have hfit := List.find?_eq_none.mp hnone x hx
    have hneed : heapAlignUp 80 heapAlignment ≤ x.size := by
      have h80 : heapAlignUp 80 heapAlignment ≤ 128 := by decide
      exact UInt32.le_trans h80 (UInt32.le_trans hb hxsize)
    simp [hxfree, hneed] at hfit
  · obtain ⟨s₃, bs₃, hk₃, hst₃, hheld₃, -⟩ := hheld₂.kfree List.mem_cons_self
    rw [List.erase_cons_head] at hheld₃
    obtain ⟨s₄, bs₄, hk₄, hst₄, hheld₄, -⟩ := hheld₃.kfree List.mem_cons_self
    rw [List.erase_cons_head] at hheld₄
    obtain ⟨s₅, bs₅, hk₅, hst₅, hheld₅, -⟩ := hheld₄.kfree List.mem_cons_self
    rw [List.erase_cons_head] at hheld₅
    exact ⟨s₁, _, s₂, s₃, s₄, s₅, bs₅, hk₁, hk₂, hd, hk₃, hk₄, hk₅,
      hst₅.trans (hst₄.trans (hst₃.trans (hst₂.trans hst₁))), hheld₅⟩

/-- On a heap in order the test holds nothing at its end, and it fails only when it is refused a block. -/
theorem Rep.selfTest {bs : List Block} (h : Rep s bs) :
    ∃ ok s', heapRunSelfTest s = some (ok, s') ∧ Rep s' bs ∧ (ok = true ↔ ThreeServed s) ∧
      s'.statics = (if ok then heapLogEvent s "TERMOB: heap self-test ok"
        else heapNoteError s heapDiagSelftest "TERMOB: heap self-test allocation failed").statics := by
  have hstart : Holding bs [] s bs :=
    ⟨h, fun c => by simp, fun c hc => absurd hc List.not_mem_nil, List.nodup_nil⟩
  obtain ⟨a, s₁, bs₁, hka, ha, -, hst₁, hheld₁⟩ := hstart.request 64
  obtain ⟨b, s₂, bs₂, hkb, hb, hbsize, hst₂, hheld₂⟩ := hheld₁.request 128
  obtain ⟨c, s₃, bs₃, hkc, hc, hst₃, hheld₃⟩ := @Holding.requestCleared _ _ _ _ hheld₂ 16 8 (by decide)
  rw [List.append_nil] at hheld₃
  have hst : s₃.statics = s.statics := hst₃.trans (hst₂.trans hst₁)
  have hready : ¬s.heapReady = false := by rw [h.phys.region.ready]; exact Bool.noConfusion
  have hserved : ThreeServed s ↔ ¬(pointer a = 0 ∨ pointer b = 0 ∨ pointer c = 0) := by
    constructor
    · rintro ⟨a', t₁, b', t₂, c', t₃, h₁, h₂, h₃, hne⟩
      rw [hka] at h₁
      cases h₁
      rw [hkb] at h₂
      cases h₂
      rw [hkc] at h₃
      cases h₃
      tauto
    · intro hne
      exact ⟨_, s₁, _, s₂, _, s₃, hka, hkb, hkc, by tauto⟩
  simp only [heapRunSelfTest, if_neg hready, h.integrity true, Bool.true_eq_false, if_false, hka, hkb, hkc,
    Option.bind_eq_bind, Option.bind_some]
  by_cases hnull : pointer a = 0 ∨ pointer b = 0 ∨ pointer c = 0
  · obtain ⟨s₄, s₅, s₆, bs₆, hk₄, hk₅, hk₆, hst₆, hheld₆⟩ :=
      (hheld₃.note heapDiagSelftest "TERMOB: heap self-test allocation failed").giveUp ha hb hc
    simp only [if_pos hnull, hk₄, hk₅, hk₆, Option.bind_some]
    have hnoted : (heapNoteError s₃ heapDiagSelftest "TERMOB: heap self-test allocation failed").statics =
        (heapNoteError s heapDiagSelftest "TERMOB: heap self-test allocation failed").statics := by
      simp only [State.statics, Prod.mk.injEq] at hst
      simp only [State.statics, heapNoteError, heapLogEvent, hst]
    have hlo : s₃.heapStartPtr = s.heapStartPtr := statics_start hst
    have hhi : s₃.heapEndPtr = s.heapEndPtr := statics_end hst
    have hback : bs₆ = bs := hheld₆.done h ((statics_start hst₆).trans hlo) ((statics_end hst₆).trans hhi)
    refine ⟨false, s₆, rfl, hback ▸ hheld₆.rep,
      iff_of_false Bool.noConfusion fun hs => hserved.mp hs hnull, ?_⟩
    rw [hst₆, hnoted]
    rfl
  · simp only [if_neg hnull]
    rw [not_or, not_or, ha, hb, hc] at hnull
    obtain ⟨hane, hbne, hcne⟩ := hnull
    obtain ⟨a, rfl⟩ := Option.ne_none_iff_exists'.mp hane
    obtain ⟨b, rfl⟩ := Option.ne_none_iff_exists'.mp hbne
    obtain ⟨c, rfl⟩ := Option.ne_none_iff_exists'.mp hcne
    obtain ⟨s₄, d, s₅, s₆, s₇, s₈, bs₈, hk₄, hk₅, hd, hk₆, hk₇, hk₈, hst₈, hheld₈⟩ :=
      hheld₃.reuse (hbsize b rfl)
    have hback : bs₈ = bs := hheld₈.done h (statics_start (hst₈.trans hst)) (statics_end (hst₈.trans hst))
    have hrep : Rep s₈ bs := hback ▸ hheld₈.rep
    have hfree : heapBytesFree s₈ = heapBytesFree s := by
      rw [← UInt32.toNat_inj, hrep.bytesFree, h.bytesFree]
    simp only [pointer_some, hk₄, hk₅, if_neg hd, hk₆, hk₇, hk₈, Option.bind_some, hrep.integrity true,
      Bool.true_eq_false, if_false, hfree, ne_eq, not_true_eq_false]
    have hlogged : (heapLogEvent s₈ "TERMOB: heap self-test ok").statics =
        (heapLogEvent s "TERMOB: heap self-test ok").statics := by
      have hall := hst₈.trans hst
      simp only [State.statics, Prod.mk.injEq] at hall
      simp only [State.statics, heapLogEvent, hall]
    refine ⟨true, _, rfl, hrep.log _, iff_of_true rfl (hserved.mpr ?_), hlogged⟩
    simp only [ha, hb, hc, reduceCtorEq, or_self, not_false_eq_true]

/-- **The self test is a probe**: it ends in every reachable state. On a heap in order it leaves
every block and the free list as they were and answers whether its three requests were served (its
other two checks cannot fail); on a lost heap it answers no and only records what the check found.
-/
theorem heap_self_test_probes {kernelEnd : UInt32} (hfits : HeapFits kernelEnd) {s : State}
    (hreach : Reachable kernelEnd s) :
    ∃ ok s', heapRunSelfTest s = some (ok, s') ∧
      ((heapCheckIntegrityInternal s true).1 = true → blocks s' = blocks s ∧ freeBlocks s' = freeBlocks s ∧
        (ok = true ↔ ThreeServed s) ∧
        s'.statics = (if ok then heapLogEvent s "TERMOB: heap self-test ok"
          else heapNoteError s heapDiagSelftest "TERMOB: heap self-test allocation failed").statics) ∧
      ((heapCheckIntegrityInternal s true).1 = false →
        ok = false ∧ s' = if s.heapReady then (heapCheckIntegrityInternal s true).2 else s) := by
  rcases hreach.cases hfits with ⟨bs, h⟩ | hlost
  · obtain ⟨ok, s', hrun, hrep, hok, hst⟩ := h.selfTest
    refine ⟨ok, s', hrun, fun _ => ⟨?_, ?_, hok, hst⟩, fun hbad => ?_⟩
    · rw [hrep.blocks_eq, h.blocks_eq]
    · rw [hrep.freeBlocks_eq, h.freeBlocks_eq]
    · rw [h.integrity true] at hbad
      exact Bool.noConfusion hbad
  · have hbad := hlost.integrity true
    refine ⟨false, if s.heapReady then (heapCheckIntegrityInternal s true).2 else s, ?_,
      ?_, fun _ => ⟨rfl, rfl⟩⟩
    · cases hready : s.heapReady <;> simp [heapRunSelfTest, hready, hbad]
    · intro hgood
      rw [hbad] at hgood
      exact Bool.noConfusion hgood

theorem threeServed_at_boot : ThreeServed (heapInit 0x00200000 bootState) := by
  have hrep := heapInit_rep (show HeapFits 0x00200000 by decide) bootState
  rcases kmalloc_cases hrep 64 with ⟨-, hnone⟩ | ⟨xs, b, ys, s₁, -, hsplit, -, -, -, hk₁, hrep₁, -⟩
  · exact absurd hnone (by decide)
  obtain ⟨rfl, ⟨rfl, rfl⟩⟩ : xs = [] ∧ b = initialBlock 0x00200000 ∧ ys = [] := by
    cases xs with
    | nil => exact ⟨rfl, (List.cons_eq_cons.mp hsplit).1.symm, (List.cons_eq_cons.mp hsplit).2.symm⟩
    | cons x xs => exact absurd (List.cons_eq_cons.mp hsplit).2 (by simp)
  rcases kmalloc_cases hrep₁ 128 with ⟨-, hnone⟩ | ⟨xs, b, ys, s₂, -, hsplit, hb, -, -, hk₂, hrep₂, -⟩
  · exact absurd hnone (by decide)
  have hmem : b ∈ [splitBack (initialBlock 0x00200000) (heapAlignUp 64 heapAlignment)] := by
    have hfree : b ∈ (taken (initialBlock 0x00200000) (heapAlignUp 64 heapAlignment)).filter (·.free) :=
      List.mem_filter.mpr ⟨by
        have hin : b ∈ xs ++ b :: ys := by simp
        rw [← hsplit] at hin
        simpa using hin, hb⟩
    exact hfree
  obtain rfl := List.mem_singleton.mp hmem
  obtain ⟨p, s₃, -, hk₃, -, -, ⟨-, -, hnone⟩ | ⟨hp, -⟩⟩ := @Rep.kcalloc_spec _ _ hrep₂ 16 8 (by decide)
  · -- what the second request left is still large enough
    have hrest : splitBack (splitBack (initialBlock 0x00200000) (heapAlignUp 64 heapAlignment))
        (heapAlignUp 128 heapAlignment) ∈ xs ++ (taken (splitBack (initialBlock 0x00200000)
          (heapAlignUp 64 heapAlignment)) (heapAlignUp 128 heapAlignment) ++ ys) := by
      rw [taken, if_pos (by decide)]
      simp
    rcases hnone with h0 | hnone
    · exact absurd h0 (by decide)
    · exact absurd (List.find?_eq_none.mp hnone _ hrest) (by decide)
  · exact ⟨_, s₁, _, s₂, p, s₃, hk₁, hk₂, hk₃, by decide, by decide, hp⟩

theorem heap_self_test_probes_at_boot :
    ∃ s', heapRunSelfTest (heapInit 0x00200000 bootState) = some (true, s') ∧
      blocks s' = [initialBlock 0x00200000] ∧ s'.log = bootState.log ++ ["TERMOB: heap self-test ok"] := by
  have hfits : HeapFits 0x00200000 := by decide
  have hrep := heapInit_rep hfits bootState
  obtain ⟨ok, s', hrun, hsound, -⟩ := heap_self_test_probes hfits reachable_init
  obtain ⟨hblocks, -, hok, hst⟩ := hsound (by rw [hrep.integrity true])
  obtain rfl := hok.mpr threeServed_at_boot
  refine ⟨s', hrun, hblocks.trans hrep.blocks_eq, ?_⟩
  simp only [State.statics, Prod.mk.injEq] at hst
  rw [hst.2.2.2.2.2.2.2]
  rfl

end TermobKernel.Heap
