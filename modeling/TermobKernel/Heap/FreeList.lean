import TermobKernel.Heap.Header

/-!
# The free list

`heap_remove_free_block` and `heap_insert_free_block` as edits of a doubly linked list. Both are stated
over any spread set `D` of headers that contains the blocks involved, so that the physical chain can be
carried through by its frame.
-/

namespace TermobKernel.Heap
open Word Dll

/-! ### Taking a block off the free list -/

def unlinkNext (s : State) (block : UInt32) : State :=
  if s.get .prevFree block ≠ 0 then s.set .nextFree (s.get .prevFree block) (s.get .nextFree block)
  else if s.heapFreeList = block then { s with heapFreeList := s.get .nextFree block }
  else s

def unlinkPrev (s : State) (block : UInt32) : State :=
  if s.get .nextFree block ≠ 0 then s.set .prevFree (s.get .nextFree block) (s.get .prevFree block)
  else s

theorem heapRemoveFreeBlock_eq (s : State) {block : UInt32} (hb : block ≠ 0) :
    heapRemoveFreeBlock s block =
      ((unlinkPrev (unlinkNext s block) block).set .prevFree block 0).set .nextFree block 0 := by
  rw [heapRemoveFreeBlock, if_neg hb]
  rfl

section removal
variable {D : UInt32 → Prop} (hD : Spread D) {s : State} {block : UInt32}
include hD

theorem unlinkNext_spec (hp : s.get .prevFree block ≠ 0 → D (s.get .prevFree block)) :
    Frame D [.nextFree] s (unlinkNext s block) ∧
      (unlinkNext s block).heapFreeList = (unlink 0 (freeLinks s) block).head ∧
      ∀ y, D y → (unlinkNext s block).get .nextFree y = (unlink 0 (freeLinks s) block).next y := by
  unfold unlinkNext
  by_cases hp0 : s.get .prevFree block = 0
  · rw [if_neg (by simpa using hp0)]
    by_cases hhead : s.heapFreeList = block
    · rw [if_pos hhead]
      refine ⟨⟨rfl, fun _ _ _ _ => rfl⟩, ?_, fun y _ => ?_⟩
      · simp [unlink, freeLinks, hp0, hhead]
      · change s.get .nextFree y = _
        simp [unlink, freeLinks, hp0]
    · rw [if_neg hhead]
      refine ⟨Frame.refl _ _ _, ?_, fun y _ => ?_⟩
      · simp [unlink, freeLinks, hhead]
      · simp [unlink, freeLinks, hp0]
  · rw [if_pos hp0]
    refine ⟨frame_set hD s _ (hp hp0) (by simp), ?_, fun y hy => ?_⟩
    · simp [unlink, freeLinks, hp0]
    · rw [get_set hD s _ _ _ (hp hp0) hy]
      simp [unlink, freeLinks, hp0]

theorem unlinkPrev_spec (hn : s.get .nextFree block ≠ 0 → D (s.get .nextFree block)) :
    Frame D [.prevFree] s (unlinkPrev s block) ∧
      (unlinkPrev s block).heapFreeList = s.heapFreeList ∧
      ∀ y, D y → (unlinkPrev s block).get .prevFree y = (unlink 0 (freeLinks s) block).prev y := by
  unfold unlinkPrev
  refine ⟨frame_set_guarded hD s _ hn (by simp), heapFreeList_set_guarded _ _ _ _, fun y hy => ?_⟩
  rw [get_set_guarded hD s _ _ _ hn hy]
  simp only [unlink, freeLinks, true_and]
  rfl

theorem heapRemoveFreeBlock_spec {xs ys : List UInt32} (h : IsList 0 (freeLinks s) (xs ++ block :: ys))
    (hsub : ∀ x ∈ xs ++ block :: ys, D x) :
    IsList 0 (freeLinks (heapRemoveFreeBlock s block)) (xs ++ ys) ∧
      Frame D [.prevFree, .nextFree] s (heapRemoveFreeBlock s block) := by
  have hb0 : block ≠ 0 := fun e => h.nil_notMem (by simp [e])
  have hb : D block := hsub block (by simp)
  have hnodup : block ∉ xs ++ ys := (List.nodup_middle.mp h.nodup).notMem
  have hrest : ∀ y ∈ xs ++ ys, D y := by
    intro y hy
    exact hsub y (List.mem_append.mpr ((List.mem_append.mp hy).imp_right (List.mem_cons_of_mem _)))
  have hprev : s.get .prevFree block = xs.getLastD 0 := h.prev_eq
  have hnext : s.get .nextFree block = ys.headD 0 := h.next_eq
  have hDprev : s.get .prevFree block ≠ 0 → D (s.get .prevFree block) := by
    intro h0
    rcases List.eq_nil_or_concat' xs with rfl | ⟨zs, z, rfl⟩
    · exact absurd hprev h0
    · rw [hprev]
      exact hsub _ (by simp)
  have hpb : s.get .prevFree block ≠ block := by
    rw [hprev]
    rcases List.eq_nil_or_concat' xs with rfl | ⟨zs, z, rfl⟩
    · exact Ne.symm hb0
    · intro e
      exact hnodup (by simp at e; simp [e])
  obtain ⟨hf1, hhead1, hnext1⟩ := unlinkNext_spec hD hDprev
  -- the first half leaves the links of the block itself
  have hbn : (unlinkNext s block).get .nextFree block = s.get .nextFree block := by
    rw [hnext1 block hb]
    simp [unlink, freeLinks, Ne.symm hpb]
  have hbp : (unlinkNext s block).get .prevFree block = s.get .prevFree block := hf1.get _ hb _ (by simp)
  have hDnext : (unlinkNext s block).get .nextFree block ≠ 0 →
      D ((unlinkNext s block).get .nextFree block) := by
    rw [hbn, hnext]
    intro h0
    cases ys with
    | nil => exact absurd rfl h0
    | cons y ys => exact hsub _ (by simp)
  obtain ⟨hf2, hhead2, hprev2⟩ := unlinkPrev_spec hD hDnext
  rw [heapRemoveFreeBlock_eq s hb0]
  generalize unlinkPrev (unlinkNext s block) block = t at hf2 hhead2 hprev2 ⊢
  constructor
  · refine h.unlink.congr ?_ ?_ ?_
    · exact hhead2.trans hhead1
    · intro y hy
      have hyb : y ≠ block := fun e => hnodup (e ▸ hy)
      have hy' : D y := hrest y hy
      show State.get _ .nextFree y = _
      rw [get_set hD _ _ _ _ hb hy', if_neg (by simp [hyb]), get_set hD _ _ _ _ hb hy', if_neg (by simp),
        hf2.get y hy' _ (by simp), hnext1 y hy']
    · intro y hy
      have hyb : y ≠ block := fun e => hnodup (e ▸ hy)
      have hy' : D y := hrest y hy
      show State.get _ .prevFree y = _
      rw [get_set hD _ _ _ _ hb hy', if_neg (by simp), get_set hD _ _ _ _ hb hy', if_neg (by simp [hyb]),
        hprev2 y hy']
      simp only [unlink, freeLinks, hbn, hbp, hf1.get y hy' .prevFree (by simp)]
      rfl
  · have hf3 : Frame D [.prevFree, .nextFree] t (t.set .prevFree block 0) := frame_set hD t 0 hb (by simp)
    have hf4 : Frame D [.prevFree, .nextFree] (t.set .prevFree block 0)
        ((t.set .prevFree block 0).set .nextFree block 0) :=
      frame_set hD (t.set .prevFree block 0) 0 hb (by simp)
    have hf1' : Frame D [.prevFree, .nextFree] s (unlinkNext s block) := hf1.mono (fun _ h => h) (by simp)
    have hf2' : Frame D [.prevFree, .nextFree] (unlinkNext s block) t := hf2.mono (fun _ h => h) (by simp)
    exact hf1'.trans (hf2'.trans (hf3.trans hf4))

end removal

/-! ### Putting a block on the free list -/

theorem heapInsertScan_spec {s : State} {block : UInt32} {ys : List UInt32}
    (hys : ∀ y, ys.head? = some y → ¬y < block) :
    ∀ (zs : List UInt32) (fuel : Nat) (previous : UInt32), zs.length < fuel →
      Seg (s.get .nextFree) (s.get .prevFree) previous (zs ++ ys) 0 → (∀ z ∈ zs, z ≠ 0 ∧ z < block) →
      heapInsertScan s block fuel previous ((zs ++ ys).headD 0) =
        some (zs.getLastD previous, ys.headD 0) := by
  intro zs
  induction zs with
  | nil =>
    intro fuel previous hfuel _ _
    obtain ⟨fuel, rfl⟩ : ∃ n, fuel = n + 1 := ⟨fuel - 1, by simp at hfuel; omega⟩
    rw [heapInsertScan, if_neg]
    · rfl
    · rintro ⟨h0, hlt⟩
      cases ys with
      | nil => exact h0 rfl
      | cons y ys => exact hys y rfl hlt
  | cons z zs ih =>
    intro fuel previous hfuel hseg hbelow
    obtain ⟨fuel, rfl⟩ : ∃ n, fuel = n + 1 := ⟨fuel - 1, by simp at hfuel; omega⟩
    obtain ⟨_, hnext, hrest⟩ := hseg
    change heapInsertScan s block (fuel + 1) previous z = _
    rw [heapInsertScan, if_pos (hbelow z (by simp)), hnext]
    change heapInsertScan s block fuel z ((zs ++ ys).headD 0) = _
    rw [ ih fuel z (by simp at hfuel; omega) hrest (fun w hw => hbelow w (by simp [hw]))]
    cases zs <;> rfl

section insertion
variable {D : UInt32 → Prop} (hD : Spread D) {s : State} {block : UInt32}
include hD

/-- The state in which the list is entered: the block is marked free and its links are cleared. -/
def insertReady (s : State) (block : UInt32) : State :=
  ((heapMarkBlockFree s block).set .prevFree block 0).set .nextFree block 0

theorem insertReady_spec (hb : D block) :
    Frame D [.flags, .prevFree, .nextFree] s (insertReady s block) ∧
      (∀ a, D a → (insertReady s block).get .flags a =
        if a = block then s.get .flags a ||| heapBlockFlagFree else s.get .flags a) ∧
      ∀ a, D a → a ≠ block → ∀ f, (insertReady s block).get f a = s.get f a := by
  unfold insertReady heapMarkBlockFree
  refine ⟨⟨rfl, fun a ha f hf => ?_⟩, fun a ha => ?_, fun a ha hab f => ?_⟩
  · simp only [List.mem_cons, List.not_mem_nil, or_false, not_or] at hf
    simp only [get_set hD _ _ _ _ hb ha, hf, false_and, if_false]
  · by_cases hab : a = block
    · subst hab
      simp only [get_set hD _ _ _ _ hb hb, reduceCtorEq, false_and, if_false, and_self, if_true]
    · simp only [get_set hD _ _ _ _ hb ha, hab, and_false, if_false]
  · simp only [get_set hD _ _ _ _ hb ha, hab, and_false, if_false]

theorem heapInsertFront_spec (hb : D block) (hb0 : block ≠ 0) {ys : List UInt32}
    (h : IsList 0 (freeLinks s) ys) (hsub : ∀ y ∈ ys, D y) (hfresh : block ∉ ys)
    (hprev : s.get .prevFree block = 0) :
    IsList 0 (freeLinks (heapInsertFront s block)) (block :: ys) ∧
      Frame D [.prevFree, .nextFree] s (heapInsertFront s block) := by
  have hhead : s.heapFreeList = ys.headD 0 := h.head
  have hDhead : s.heapFreeList ≠ 0 → D s.heapFreeList := by
    rw [hhead]
    intro h0
    cases ys with
    | nil => exact absurd rfl h0
    | cons y ys => exact hsub _ (by simp)
  have hne : block ≠ s.heapFreeList := by
    rw [hhead]
    cases ys with
    | nil => exact hb0
    | cons y ys => exact fun e => hfresh (by simp [e])
  have hmem : ∀ y ∈ block :: ys, D y := by
    intro y hy
    rcases List.mem_cons.mp hy with rfl | hy
    · exact hb
    · exact hsub y hy
  let t := s.set .nextFree block s.heapFreeList
  let u := if s.heapFreeList ≠ 0 then t.set .prevFree s.heapFreeList block else t
  have heq : heapInsertFront s block = { u with heapFreeList := block } := rfl
  have hget : ∀ (f : Field) (y : UInt32), (heapInsertFront s block).get f y = u.get f y := fun _ _ => rfl
  constructor
  · refine (h.pushFront hfresh hb0).congr (by rw [heq]; rfl) (fun y hy => ?_) (fun y hy => ?_)
    · change (heapInsertFront s block).get .nextFree y = _
      rw [hget, get_set_guarded hD t _ _ _ hDhead (hmem y hy), get_set hD s _ _ _ hb (hmem y hy)]
      simp [pushFront, freeLinks]
    · change (heapInsertFront s block).get .prevFree y = _
      rw [hget, get_set_guarded hD t _ _ _ hDhead (hmem y hy), get_set hD s _ _ _ hb (hmem y hy)]
      by_cases hyb : y = block
      · subst hyb
        simp [pushFront, freeLinks, hne, hprev]
      · simp only [pushFront, freeLinks, hyb, reduceCtorEq, true_and, false_and, if_false]
        rfl
  · have hft : Frame D [.prevFree, .nextFree] s t := frame_set hD s _ hb (by simp)
    have hfu : Frame D [.prevFree, .nextFree] t u := frame_set_guarded hD t _ hDhead (by simp)
    have hf := hft.trans hfu
    exact ⟨hf.statics, hf.get⟩

theorem heapInsertBetween_spec (hb : D block) (hb0 : block ≠ 0) {previous : UInt32} {xs ys : List UInt32}
    (h : IsList 0 (freeLinks s) (xs ++ previous :: ys)) (hsub : ∀ y ∈ xs ++ previous :: ys, D y)
    (hfresh : block ∉ xs ++ previous :: ys) :
    IsList 0 (freeLinks (heapInsertBetween s block previous (ys.headD 0))) (xs ++ previous :: block :: ys) ∧
      Frame D [.prevFree, .nextFree] s (heapInsertBetween s block previous (ys.headD 0)) := by
  have hp : D previous := hsub previous (by simp)
  have hnext : (freeLinks s).next previous = ys.headD 0 := h.next_eq
  have hpb : previous ≠ block := fun e => hfresh (by simp [e])
  have hDc : ys.headD 0 ≠ 0 → D (ys.headD 0) := by
    intro h0
    cases ys with
    | nil => exact absurd rfl h0
    | cons y ys => exact hsub _ (by simp)
  have hcb : block ≠ ys.headD 0 := by
    cases ys with
    | nil => exact hb0
    | cons y ys => exact fun e => hfresh (by simp [e])
  have hmem : ∀ y ∈ xs ++ previous :: block :: ys, D y := by
    intro y hy
    simp only [List.mem_append, List.mem_cons] at hy hsub
    rcases hy with hy | rfl | rfl | hy
    · exact hsub y (Or.inl hy)
    · exact hp
    · exact hb
    · exact hsub y (Or.inr (Or.inr hy))
  generalize hc : ys.headD 0 = cursor at *
  let t := s.set .prevFree block previous
  let u := t.set .nextFree block cursor
  let v := u.set .nextFree previous block
  have heq : heapInsertBetween s block previous cursor = if cursor ≠
    0 then v.set .prevFree cursor block else v := rfl
  rw [heq]
  constructor
  · refine (h.insertAfter hfresh hb0).congr (heapFreeList_set_guarded _ _ _ _) (fun y hy => ?_)
      (fun y hy => ?_)
    · change State.get _ .nextFree y = _
      rw [get_set_guarded hD v _ _ _ hDc (hmem y hy), get_set hD u _ _ _ hp (hmem y hy),
        get_set hD t _ _ _ hb (hmem y hy), get_set hD s _ _ _ hb (hmem y hy)]
      simp only [insertAfter, hnext, reduceCtorEq, false_and, if_false, true_and]
      rfl
    · change State.get _ .prevFree y = _
      rw [get_set_guarded hD v _ _ _ hDc (hmem y hy), get_set hD u _ _ _ hp (hmem y hy),
        get_set hD t _ _ _ hb (hmem y hy), get_set hD s _ _ _ hb (hmem y hy)]
      simp only [insertAfter, hnext, reduceCtorEq, false_and, if_false, true_and]
      by_cases hyb : y = block
      · subst hyb
        simp [hcb]
      · simp [hyb, freeLinks]
  · have hft : Frame D [.prevFree, .nextFree] s t := frame_set hD s _ hb (by simp)
    have hfu : Frame D [.prevFree, .nextFree] t u := frame_set hD t _ hb (by simp)
    have hfv : Frame D [.prevFree, .nextFree] u v := frame_set hD u _ hp (by simp)
    exact hft.trans (hfu.trans (hfv.trans (frame_set_guarded hD v _ hDc (by simp))))

omit hD in
theorem heapInsertFreeBlock_eq (hb0 : block ≠ 0) :
    heapInsertFreeBlock s block =
      if (insertReady s block).heapFreeList = 0 ∨ block < (insertReady s block).heapFreeList then
        some (heapInsertFront (insertReady s block) block)
      else
        match heapInsertScan (insertReady s block) block UInt32.size (insertReady s block).heapFreeList
          ((insertReady s block).get .nextFree (insertReady s block).heapFreeList) with
        | none => none
        | some (previous, cursor) =>
            some (heapInsertBetween (insertReady s block) block previous cursor) := by
  rw [heapInsertFreeBlock, if_neg hb0]
  rfl

theorem heapInsertFreeBlock_spec (hb : D block) (hb0 : block ≠ 0) {xs ys : List UInt32}
    (h : IsList 0 (freeLinks s) (xs ++ ys)) (hsub : ∀ x ∈ xs ++ ys, D x) (hfresh : block ∉ xs ++ ys)
    (hbelow : ∀ x ∈ xs, x < block) (habove : ∀ y ∈ ys, block < y) (hlen : xs.length < UInt32.size) :
    ∃ s', heapInsertFreeBlock s block = some s' ∧ IsList 0 (freeLinks s') (xs ++ block :: ys) ∧
      Frame D [.flags, .prevFree, .nextFree] s s' ∧
      ∀ a, D a → s'.get .flags a = if a = block then s.get .flags a |||
        heapBlockFlagFree else s.get .flags a := by
  obtain ⟨hf0, hflags0, hget0⟩ := insertReady_spec hD (s := s) hb
  have hprev0 : (insertReady s block).get .prevFree block = 0 := by
    unfold insertReady
    rw [get_set_field _ _ _ (by simp), get_set_self]
  have h0 : IsList 0 (freeLinks (insertReady s block)) (xs ++ ys) := by
    refine h.congr rfl (fun x hx => ?_) (fun x hx => ?_)
    · exact hget0 x (hsub x hx) (fun e => hfresh (e ▸ hx)) .nextFree
    · exact hget0 x (hsub x hx) (fun e => hfresh (e ▸ hx)) .prevFree
  rw [heapInsertFreeBlock_eq hb0]
  generalize insertReady s block = t at *
  have hhead : t.heapFreeList = (xs ++ ys).headD 0 := h0.head
  cases xs with
  | nil =>
    -- nothing below: the block becomes the first one
    have hfront : t.heapFreeList = 0 ∨ block < t.heapFreeList := by
      rw [hhead]
      cases ys with
      | nil => exact Or.inl rfl
      | cons y ys => exact Or.inr (habove y (by simp))
    obtain ⟨hlist, hframe⟩ := heapInsertFront_spec hD hb hb0 h0 hsub hfresh hprev0
    rw [if_pos hfront]
    refine ⟨_, rfl, hlist, hf0.trans (hframe.mono (fun _ h => h) (by simp)), fun a ha => ?_⟩
    rw [hframe.get a ha _ (by simp), hflags0 a ha]
  | cons x xs =>
    have hx0 : x ≠ 0 := fun e => h.nil_notMem (by simp [e])
    have hlt : x < block := hbelow x (by simp)
    have hback : ¬(t.heapFreeList = 0 ∨ block < t.heapFreeList) := by
      rw [hhead]
      rintro (e | hgt)
      · exact hx0 e
      · exact absurd (UInt32.lt_trans hlt hgt) (UInt32.lt_irrefl x)
    obtain ⟨_, hnext, hseg⟩ := h0.seg
    have hscan : heapInsertScan t block UInt32.size x (t.get .nextFree x) =
        some (xs.getLastD x, ys.headD 0) := by
      rw [show t.get .nextFree x = (xs ++ ys).headD 0 from hnext]
      refine heapInsertScan_spec ?_ xs _ x (by simp at hlen; omega) hseg ?_
      · intro y hy hyb
        exact absurd (UInt32.lt_trans (habove y (List.mem_of_head? hy)) hyb) (UInt32.lt_irrefl block)
      · intro z hz
        exact ⟨fun e => h.nil_notMem (by simp [← e, hz]), hbelow z (by simp [hz])⟩
    -- the last block below is where the new one is linked in
    obtain ⟨zs, previous, hzs⟩ : ∃ zs previous, x :: xs = zs ++ [previous] := by
      rcases List.eq_nil_or_concat' (x :: xs) with e | e
      · simp at e
      · exact e
    have hlast : xs.getLastD x = previous := by
      have hget := congrArg List.getLast? hzs
      rw [List.getLast?_concat, List.getLast?_cons, Option.some_inj] at hget
      rw [List.getLastD_eq_getLast?, hget]
    rw [if_neg hback, hhead]
    change ∃ s', (match heapInsertScan t block UInt32.size x (t.get .nextFree x) with
      | none => none
      | some (previous, cursor) => some (heapInsertBetween t block previous cursor)) = some s' ∧ _
    rw [hscan, hlast]
    have hsplit : x :: xs ++ ys = zs ++ previous :: ys := by rw [hzs]; simp
    rw [hsplit] at h0 hsub hfresh
    obtain ⟨hlist, hframe⟩ := heapInsertBetween_spec hD hb hb0 h0 hsub hfresh
    refine ⟨_, rfl, ?_, hf0.trans (hframe.mono (fun _ h => h) (by simp)), fun a ha => ?_⟩
    · rw [hzs]
      simpa using hlist
    · rw [hframe.get a ha _ (by simp), hflags0 a ha]

end insertion

end TermobKernel.Heap
