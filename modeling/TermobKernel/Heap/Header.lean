import TermobKernel.Heap.Model
import TermobKernel.Library.Dll

/-!
# Headers in memory

The proofs about the heap never look at bytes: they read and write the words of headers that lie at
least one header size apart (`Spread`), where a write changes one word of one header and nothing else
(`get_set`). Each small operation gets a lemma that says which list it leaves (through the edits of
`Dll`) and which words it does not touch (`Frame`).
-/

namespace TermobKernel.Heap
open Word Dll

variable {D : UInt32 → Prop} {fs : List Field} {s s' : State} {a b : UInt32}

/-! ### Reading back a write -/

theorem heapHeaderSize_eq : heapHeaderSize = 32 := by decide

theorem heapHeaderSize_toNat : heapHeaderSize.toNat = 32 := by decide

theorem Field.offset_le (f : Field) : f.offset.toNat ≤ 24 := by cases f <;> decide

theorem Field.offset_apart (a : UInt32) {f g : Field} (h : f ≠ g) :
    Apart 4 (a + f.offset) (a + g.offset) := by
  have hf := f.offset_le
  have hg := g.offset_le
  have hsep : f.offset.toNat + 4 ≤ g.offset.toNat ∨ g.offset.toNat + 4 ≤ f.offset.toNat := by
    revert h
    cases f <;> cases g <;> decide
  rcases hsep with hlt | hlt
  · exact apart_add_left a hlt (by omega)
  · exact (apart_add_left a hlt (by omega)).symm

theorem get_set_self (s : State) (f : Field) (a v : UInt32) : (s.set f a v).get f a = v :=
  Mem.load32_store32_self _ _ _

theorem get_set_field (s : State) {f g : Field} (a v : UInt32) (h : f ≠ g) :
    (s.set f a v).get g a = s.get g a :=
  Mem.load32_store32_apart _ _ _ _ (Field.offset_apart a h)

theorem get_set_apart (s : State) (f g : Field) (v : UInt32) (h : Apart 32 a b) :
    (s.set f a v).get g b = s.get g b := by
  have hf := f.offset_le
  have hg := g.offset_le
  exact Mem.load32_store32_apart _ _ _ _ (h.add (by omega) (by omega))

/-- Headers at different addresses of the set do not overlap. -/
def Spread (D : UInt32 → Prop) : Prop := ∀ a b, D a → D b → a = b ∨ Apart 32 a b

theorem get_set (hD : Spread D) (s : State) (f g : Field) (v : UInt32)
    (ha : D a) (hb : D b) : (s.set f a v).get g b = if g = f ∧ b = a then v else s.get g b := by
  rcases hD a b ha hb with rfl | hapart
  · by_cases hfg : g = f
    · subst hfg
      rw [get_set_self, if_pos ⟨rfl, rfl⟩]
    · rw [get_set_field s a v (Ne.symm hfg), if_neg (fun h => hfg h.1)]
  · have hne : b ≠ a := (hapart.ne (by omega)).symm
    rw [get_set_apart s f g v hapart, if_neg (fun h => hne h.2)]

theorem get_set_guarded (hD : Spread D) (s : State) (f g : Field) (v : UInt32)
    (ha : a ≠ 0 → D a) (hb : D b) :
    (if a ≠ 0 then s.set f a v else s).get g b = if g = f ∧ a ≠ 0 ∧ b = a then v else s.get g b := by
  by_cases h0 : a = 0
  · rw [if_neg (not_not.mpr h0), if_neg (fun h => h.2.1 h0)]
  · rw [if_pos h0, get_set hD s f g v (ha h0) hb]
    simp only [ne_eq, h0, not_false_eq_true, true_and]

/-! ### What an operation leaves alone -/

/-- The static variables other than the head of the free list. -/
def State.statics (s : State) : UInt32 × UInt32 × UInt32 × Bool × UInt32 × UInt32 × String × List String :=
  (s.heapStartPtr, s.heapEndPtr, s.heapFirstBlock, s.heapReady, s.heapDiagErrorCount, s.heapDiagErrorFlags,
    s.heapDiagLastErrorMessage, s.log)

@[simp] theorem statics_set (s : State) (f : Field) (a v : UInt32) :
    (s.set f a v).statics = s.statics := rfl

@[simp] theorem heapFreeList_set_guarded (s : State) (f : Field) (a v : UInt32) :
    (if a ≠ 0 then s.set f a v else s).heapFreeList = s.heapFreeList := by
  split <;> rfl

@[simp] theorem heapFreeList_set (s : State) (f : Field) (a v : UInt32) :
    (s.set f a v).heapFreeList = s.heapFreeList := rfl

/-- On the headers of `D` only the words in `fs` may change, and no static variable but the free list. -/
structure Frame (D : UInt32 → Prop) (fs : List Field) (s s' : State) : Prop where
  statics : s'.statics = s.statics
  get : ∀ a, D a → ∀ f, f ∉ fs → s'.get f a = s.get f a

theorem Frame.refl (D : UInt32 → Prop) (fs : List Field) (s : State) : Frame D fs s s :=
  ⟨rfl, fun _ _ _ _ => rfl⟩

theorem Frame.trans {s s' s'' : State} (h : Frame D fs s s') (h' : Frame D fs s' s'') : Frame D fs s s'' :=
  ⟨h'.statics.trans h.statics, fun a ha f hf => (h'.get a ha f hf).trans (h.get a ha f hf)⟩

theorem Frame.mono {D D' : UInt32 → Prop} {fs fs' : List Field} (h : Frame D fs s s')
    (hD : ∀ a, D' a → D a) (hfs : ∀ f ∈ fs, f ∈ fs') : Frame D' fs' s s' :=
  ⟨h.statics, fun a ha f hf => h.get a (hD a ha) f (fun hmem => hf (hfs f hmem))⟩

theorem frame_set (hD : Spread D) (s : State) {f : Field} {a : UInt32}
    (v : UInt32) (ha : D a) (hf : f ∈ fs) : Frame D fs s (s.set f a v) := by
  refine ⟨rfl, fun b hb g hg => ?_⟩
  rw [get_set hD s f g v ha hb, if_neg]
  rintro ⟨rfl, _⟩
  exact hg hf

theorem frame_set_guarded (hD : Spread D) (s : State) {f : Field}
    {a : UInt32} (v : UInt32) (ha : a ≠ 0 → D a) (hf : f ∈ fs) :
    Frame D fs s (if a ≠ 0 then s.set f a v else s) := by
  by_cases h0 : a = 0
  · rw [if_neg (not_not.mpr h0)]
    exact Frame.refl D fs s
  · rw [if_pos h0]
    exact frame_set hD s v (ha h0) hf

/-- No static variable but the free list changes, and on the headers of `D` the flags differ at most
in the bit of the free blocks. -/
structure Kept (D : UInt32 → Prop) (s s' : State) : Prop where
  statics : s'.statics = s.statics
  flags : ∀ a, D a → s'.get .flags a ||| heapBlockFlagFree = s.get .flags a ||| heapBlockFlagFree

theorem Kept.refl (D : UInt32 → Prop) (s : State) : Kept D s s := ⟨rfl, fun _ _ => rfl⟩

theorem Kept.trans {s s' s'' : State} (h : Kept D s s') (h' : Kept D s' s'') : Kept D s s'' :=
  ⟨h'.statics.trans h.statics, fun a ha => (h'.flags a ha).trans (h.flags a ha)⟩

theorem Kept.mono {D D' : UInt32 → Prop} (h : Kept D s s') (hD : ∀ a, D' a → D a) : Kept D' s s' :=
  ⟨h.statics, fun a ha => h.flags a (hD a ha)⟩

theorem Frame.kept (h : Frame D fs s s') (hf : .flags ∉ fs) :
    Kept D s s' :=
  ⟨h.statics, fun a ha => by rw [h.get a ha _ hf]⟩

section statics
variable {s s' : State} (h : s'.statics = s.statics)
include h

theorem statics_start : s'.heapStartPtr = s.heapStartPtr := congrArg (·.1) h
theorem statics_end : s'.heapEndPtr = s.heapEndPtr := congrArg (·.2.1) h
theorem statics_first : s'.heapFirstBlock = s.heapFirstBlock := congrArg (·.2.2.1) h
theorem statics_ready : s'.heapReady = s.heapReady := congrArg (·.2.2.2.1) h

end statics

/-! ### The links of the two lists -/

def freeLinks (s : State) : Links UInt32 := ⟨s.heapFreeList, s.get .nextFree, s.get .prevFree⟩

def physLinks (s : State) : Links UInt32 := ⟨s.heapFirstBlock, s.get .nextPhys, s.get .prevPhys⟩

theorem isList_frame_phys {xs : List UInt32}
    (h : IsList 0 (physLinks s) xs) (hframe : Frame D fs s s') (hxs : ∀ x ∈ xs, D x)
    (hnext : Field.nextPhys ∉ fs) (hprev : Field.prevPhys ∉ fs) : IsList 0 (physLinks s') xs :=
  h.congr (statics_first hframe.statics) (fun x hx => hframe.get x (hxs x hx) _ hnext)
    (fun x hx => hframe.get x (hxs x hx) _ hprev)

theorem isList_frame_free {xs : List UInt32}
    (h : IsList 0 (freeLinks s) xs) (hframe : Frame D fs s s') (hhead : s'.heapFreeList = s.heapFreeList)
    (hxs : ∀ x ∈ xs, D x) (hnext : Field.nextFree ∉ fs) (hprev : Field.prevFree ∉ fs) :
    IsList 0 (freeLinks s') xs :=
  h.congr hhead (fun x hx => hframe.get x (hxs x hx) _ hnext) (fun x hx => hframe.get x (hxs x hx) _ hprev)

end TermobKernel.Heap
