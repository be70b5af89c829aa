import Mathlib.Tactic

/-!
# Doubly linked lists

Nodes are values of an arbitrary type, links are two maps on nodes, and `nil` marks both ends. `Seg`
says that a list of nodes is a linked segment, `IsList` that it is the whole list behind a head. The
four edits a program makes (`unlink`, `pushFront`, `insertAfter`, `removeAfter`) are functions on the
links, each with the rule for the list it leaves. The links of nodes outside a list do not matter
(`IsList.congr`), so a program whose links live in a memory only has to show that it performs the edit
on the nodes it owns. `Scan` is the way of a loop along the list; a loop is specified by induction on it.
-/

namespace TermobKernel.Dll

variable {α : Type*} {next prev next' prev' : α → α} {nil p p' q q' x : α} {xs ys : List α}

/-- The nodes of the list are linked forwards up to `q` and backwards down to `p`. -/
def Seg (next prev : α → α) : α → List α → α → Prop
  | _, [], _ => True
  | p, x :: xs, q => prev x = p ∧ next x = xs.headD q ∧ Seg next prev x xs q

theorem seg_append :
    Seg next prev p (xs ++ ys) q ↔
      Seg next prev p xs (ys.headD q) ∧ Seg next prev (xs.getLastD p) ys q := by
  induction xs generalizing p with
  | nil => simp [Seg]
  | cons x xs ih =>
    have hhead : (xs ++ ys).headD q = xs.headD (ys.headD q) := by cases xs <;> rfl
    have hlast : (x :: xs).getLastD p = xs.getLastD x := by cases xs <;> rfl
    simp only [List.cons_append, Seg, ih, hhead, hlast, and_assoc]

theorem seg_middle :
    Seg next prev p (xs ++ x :: ys) q ↔
      Seg next prev p xs x ∧ prev x = xs.getLastD p ∧ next x = ys.headD q ∧ Seg next prev x ys q :=
  seg_append

theorem seg_concat :
    Seg next prev p (xs ++ [x]) q ↔ Seg next prev p xs x ∧ prev x = xs.getLastD p ∧ next x = q := by
  simp [seg_middle, Seg]

theorem Seg.congr (h : Seg next prev p xs q) (hnext : ∀ x ∈ xs, next' x = next x)
    (hprev : ∀ x ∈ xs, prev' x = prev x) : Seg next' prev' p xs q := by
  induction xs generalizing p with
  | nil => trivial
  | cons x xs ih =>
    obtain ⟨h1, h2, h3⟩ := h
    refine ⟨(hprev x (by simp)).trans h1, (hnext x (by simp)).trans h2, ?_⟩
    exact ih h3 (fun y hy => hnext y (by simp [hy])) (fun y hy => hprev y (by simp [hy]))

theorem Seg.retarget (h : Seg next prev p xs q) (hnext : ∀ x ∈ xs.dropLast, next' x = next x)
    (hlast : ∀ x, xs.getLast? = some x → next' x = q') (hprev : ∀ x ∈ xs, prev' x = prev x) :
    Seg next' prev' p xs q' := by
  rcases List.eq_nil_or_concat' xs with rfl | ⟨ys, y, rfl⟩
  · trivial
  · obtain ⟨h1, h2, _⟩ := seg_concat.mp h
    refine seg_concat.mpr ⟨h1.congr ?_ ?_, (hprev y (by simp)).trans h2, hlast y (by simp)⟩
    · intro x hx
      exact hnext x (by simpa using hx)
    · intro x hx
      exact hprev x (by simp [hx])

theorem Seg.rehead [DecidableEq α] (h : Seg next prev p xs q) (hnodup : xs.Nodup) (hnil : nil ∉ xs)
    (hprev : ∀ x ∈ xs, prev' x = if xs.headD nil ≠ nil ∧ x = xs.headD nil then p' else prev x)
    (hnext : ∀ x ∈ xs, next' x = next x) : Seg next' prev' p' xs q := by
  cases xs with
  | nil => trivial
  | cons y ys =>
    obtain ⟨_, h2, h3⟩ := h
    have hy0 : y ≠ nil := fun e => hnil (by simp [e])
    refine ⟨by simp [hprev y (by simp), hy0], (hnext y (by simp)).trans h2, h3.congr ?_ ?_⟩
    · intro x hx
      exact hnext x (by simp [hx])
    · intro x hx
      have hne : x ≠ y := by
        rintro rfl
        exact (List.nodup_cons.mp hnodup).1 hx
      simp [hprev x (by simp [hx]), hne]

/-! ### Loops along a list -/

/-- A loop along `next` that is at a node, behind the node `p`, comes to the nodes of the items,
which all are good, and then to `nil`, within the number of rounds. -/
inductive Scan {β : Type*} (next prev : α → α) (nil : α) (node : β → α) (good : β → Prop) : Nat →
    α → α → List β → Prop where
  | done {rounds : Nat} {p : α} : Scan next prev nil node good (rounds + 1) p nil []
  | visit {rounds : Nat} {p : α} {bs : List β} (b : β) (hne : node b ≠ nil)
      (hprev : prev (node b) = p) (hgood : good b)
      (hrest : Scan next prev nil node good rounds (node b) (next (node b)) bs) :
      Scan next prev nil node good (rounds + 1) p (node b) (b :: bs)

theorem Seg.scan {β : Type*} {node : β → α} {good : β → Prop} {bs : List β} {rounds : Nat}
    (h : Seg next prev p (bs.map node) nil) (hrounds : bs.length < rounds)
    (hgood : ∀ b ∈ bs, node b ≠ nil ∧ good b) :
    Scan next prev nil node good rounds p ((bs.map node).headD nil) bs := by
  obtain ⟨rounds, rfl⟩ : ∃ n, rounds = n + 1 := ⟨rounds - 1, by omega⟩
  induction bs generalizing rounds p with
  | nil => exact .done
  | cons b bs ih =>
    obtain ⟨hprev, hnext, hrest⟩ := h
    obtain ⟨hne, hb⟩ := hgood b (by simp)
    obtain ⟨rounds, rfl⟩ : ∃ n, rounds = n + 1 := ⟨rounds - 1, by simp at hrounds; omega⟩
    have hscan := ih hrest (fun c hc => hgood c (by simp [hc])) rounds (by simpa using hrounds)
    rw [← hnext] at hscan
    exact .visit b hne hprev hb hscan

/-! ### Lists behind a head -/

structure Links (α : Type*) where
  head : α
  next : α → α
  prev : α → α

variable {L L' : Links α}

/-- The nodes behind the head, in order; `nil` is no node and no node occurs twice. -/
structure IsList (nil : α) (L : Links α) (xs : List α) : Prop where
  head : L.head = xs.headD nil
  seg : Seg L.next L.prev nil xs nil
  nodup : xs.Nodup
  nil_notMem : nil ∉ xs

theorem IsList.congr (h : IsList nil L xs) (hhead : L'.head = L.head)
    (hnext : ∀ x ∈ xs, L'.next x = L.next x) (hprev : ∀ x ∈ xs, L'.prev x = L.prev x) : IsList nil L' xs :=
  ⟨hhead.trans h.head, h.seg.congr hnext hprev, h.nodup, h.nil_notMem⟩

theorem IsList.next_eq (h : IsList nil L (xs ++ x :: ys)) : L.next x = ys.headD nil :=
  (seg_middle.mp h.seg).2.2.1

theorem IsList.prev_eq (h : IsList nil L (xs ++ x :: ys)) : L.prev x = xs.getLastD nil :=
  (seg_middle.mp h.seg).2.1

theorem IsList.next_mem (h : IsList nil L xs) (hx : x ∈ xs) (hne : L.next x ≠ nil) : L.next x ∈ xs := by
  obtain ⟨us, vs, rfl⟩ := List.append_of_mem hx
  rw [h.next_eq] at hne ⊢
  cases vs with
  | nil => exact absurd rfl hne
  | cons v vs => simp

theorem IsList.prev_mem (h : IsList nil L xs) (hx : x ∈ xs) (hne : L.prev x ≠ nil) : L.prev x ∈ xs := by
  obtain ⟨us, vs, rfl⟩ := List.append_of_mem hx
  rw [h.prev_eq] at hne ⊢
  rcases List.eq_nil_or_concat' us with rfl | ⟨zs, z, rfl⟩
  · exact absurd rfl hne
  · simp

theorem IsList.head_mem (h : IsList nil L xs) (hne : L.head ≠ nil) :
    L.head ∈ xs := by
  rw [h.head] at hne ⊢
  cases xs with
  | nil => exact absurd rfl hne
  | cons x xs => exact List.mem_cons_self

theorem ne_head {y : α} (hy : y ∉ ys) : ¬(ys.headD nil ≠ nil ∧ y = ys.headD nil) := by
  rintro ⟨h0, rfl⟩
  cases ys with
  | nil => exact h0 rfl
  | cons w ws => exact hy (by simp)

section edits
variable [DecidableEq α]

def unlink (nil : α) (L : Links α) (x : α) : Links α where
  head := if L.prev x = nil ∧ L.head = x then L.next x else L.head
  next := fun y => if L.prev x ≠ nil ∧ y = L.prev x then L.next x else L.next y
  prev := fun y => if L.next x ≠ nil ∧ y = L.next x then L.prev x else L.prev y

def pushFront (nil : α) (L : Links α) (x : α) : Links α where
  head := x
  next := fun y => if y = x then L.head else L.next y
  prev := fun y => if y = x then nil else if L.head ≠ nil ∧ y = L.head then x else L.prev y

def insertAfter (nil : α) (L : Links α) (b x : α) : Links α where
  head := L.head
  next := fun y => if y = b then x else if y = x then L.next b else L.next y
  prev := fun y => if y = x then b else if L.next b ≠ nil ∧ y = L.next b then x else L.prev y

def removeAfter (nil : α) (L : Links α) (b : α) : Links α where
  head := L.head
  next := fun y => if y = b then L.next (L.next b) else L.next y
  prev := fun y => if L.next (L.next b) ≠ nil ∧ y = L.next (L.next b) then b else L.prev y

theorem IsList.unlink (h : IsList nil L (xs ++ x :: ys)) : IsList nil (unlink nil L x) (xs ++ ys) := by
  obtain ⟨hsx, hpx, hnx, hsy⟩ := seg_middle.mp h.seg
  have hnil := h.nil_notMem
  have hnodup := h.nodup
  have hhead := h.head
  simp only [List.mem_append, List.mem_cons, not_or] at hnil
  simp only [List.nodup_append, List.nodup_cons, List.mem_cons] at hnodup
  obtain ⟨hndx, ⟨hxy, hndy⟩, hdisj⟩ := hnodup
  refine ⟨?_, seg_append.mpr ⟨?_, ?_⟩, ?_, ?_⟩
  · -- the head moves only when `x` was the first node
    rcases List.eq_nil_or_concat' xs with rfl | ⟨zs, z, rfl⟩
    · simp [Dll.unlink, hpx, hnx, hhead]
    · have hz : z ≠ nil := fun e => hnil.1 (by simp [e])
      have hpz : L.prev x = z := by simp [hpx]
      cases zs <;> simp [Dll.unlink, hpz, hz, hhead]
  · refine hsx.retarget ?_ ?_ ?_
    · intro y hy
      rcases List.eq_nil_or_concat' xs with rfl | ⟨zs, z, rfl⟩
      · simp at hy
      · have hne : y ≠ z := by
          rintro rfl
          simp only [List.nodup_append, List.dropLast_concat] at hndx hy
          exact hndx.2.2 y hy y (by simp) rfl
        simp [Dll.unlink, hpx, hne]
    · intro y hy
      have hy0 : y ≠ nil := fun e => hnil.1 (e ▸ List.mem_of_getLast? hy)
      simp [Dll.unlink, hpx, hnx, hy, hy0]
    · intro y hy
      have hyy : y ∉ ys := fun hmem => hdisj y hy y (Or.inr hmem) rfl
      simp only [Dll.unlink, hnx, if_neg (ne_head hyy)]
  · refine hsy.rehead hndy hnil.2.2 ?_ ?_
    · intro y hy
      simp only [Dll.unlink, hpx, hnx]
    · intro y hy
      have hne : ¬(xs.getLastD nil ≠ nil ∧ y = xs.getLastD nil) := by
        rintro ⟨_, rfl⟩
        rcases List.eq_nil_or_concat' xs with rfl | ⟨zs, z, rfl⟩
        · exact hnil.2.2 hy
        · exact hdisj z (by simp) _ (Or.inr hy) (by simp)
      simp only [Dll.unlink, hpx, if_neg hne]
  · simp only [List.nodup_append]
    exact ⟨hndx, hndy, fun a ha b hb => hdisj a ha b (Or.inr hb)⟩
  · simp only [List.mem_append, not_or]
    exact ⟨hnil.1, hnil.2.2⟩

theorem IsList.pushFront (h : IsList nil L ys) (hx : x ∉ ys) (hx0 : x ≠ nil) :
    IsList nil (pushFront nil L x) (x :: ys) := by
  obtain ⟨hhead, hseg, hnodup, hnil⟩ := h
  refine ⟨rfl, ⟨by simp [Dll.pushFront], by simp [Dll.pushFront, hhead], ?_⟩,
    List.nodup_cons.mpr ⟨hx, hnodup⟩, ?_⟩
  · have hne : ∀ y ∈ ys, y ≠ x := fun y hy e => hx (e ▸ hy)
    refine hseg.rehead hnodup hnil ?_ ?_
    · intro y hy
      simp only [Dll.pushFront, if_neg (hne y hy), hhead]
    · intro y hy
      simp only [Dll.pushFront, if_neg (hne y hy)]
  · simp only [List.mem_cons, not_or]
    exact ⟨fun e => hx0 e.symm, hnil⟩

theorem IsList.insertAfter {b : α} (h : IsList nil L (xs ++ b :: ys)) (hx : x ∉ xs ++ b :: ys)
    (hx0 : x ≠ nil) : IsList nil (insertAfter nil L b x) (xs ++ b :: x :: ys) := by
  obtain ⟨hsx, hpb, hnb, hsy⟩ := seg_middle.mp h.seg
  have hnil := h.nil_notMem
  have hnodup := h.nodup
  have hhead := h.head
  simp only [List.mem_append, List.mem_cons, not_or] at hnil hx
  simp only [List.nodup_append, List.nodup_cons, List.mem_cons] at hnodup
  obtain ⟨hndx, ⟨hby, hndy⟩, hdisj⟩ := hnodup
  obtain ⟨hxx, hxb, hxy⟩ := hx
  have hxs : ∀ y ∈ xs, y ∉ ys := fun y hy hmem => hdisj y hy y (Or.inr hmem) rfl
  refine ⟨?_, seg_middle.mpr ⟨?_, ?_, ?_, ?_, ?_, ?_⟩, ?_, ?_⟩
  · cases xs <;> simpa [Dll.insertAfter] using hhead
  · refine hsx.congr ?_ ?_
    · intro y hy
      have hyb : y ≠ b := fun e => hdisj y hy b (Or.inl rfl) e
      have hyx : y ≠ x := fun e => hxx (e ▸ hy)
      simp [Dll.insertAfter, hyb, hyx]
    · intro y hy
      have hyx : y ≠ x := fun e => hxx (e ▸ hy)
      simp only [Dll.insertAfter, if_neg hyx, hnb, if_neg (ne_head (hxs y hy))]
  · simp only [Dll.insertAfter, if_neg (Ne.symm hxb), hnb, if_neg (ne_head hby), hpb]
  · simp [Dll.insertAfter]
  · simp [Dll.insertAfter]
  · simp [Dll.insertAfter, hxb, hnb]
  · refine hsy.rehead hndy hnil.2.2 ?_ ?_
    · intro y hy
      have hyx : y ≠ x := fun e => hxy (e ▸ hy)
      simp only [Dll.insertAfter, if_neg hyx, hnb]
    · intro y hy
      have hyx : y ≠ x := fun e => hxy (e ▸ hy)
      have hyb : y ≠ b := fun e => hby (e ▸ hy)
      simp [Dll.insertAfter, hyx, hyb]
  · simp only [List.nodup_append, List.nodup_cons, List.mem_cons, not_or]
    refine ⟨hndx, ⟨⟨Ne.symm hxb, hby⟩, hxy, hndy⟩, ?_⟩
    rintro a ha c (rfl | rfl | hc)
    · exact hdisj a ha _ (Or.inl rfl)
    · exact fun e => hxx (e ▸ ha)
    · exact hdisj a ha c (Or.inr hc)
  · simp only [List.mem_append, List.mem_cons, not_or]
    exact ⟨hnil.1, hnil.2.1, fun e => hx0 e.symm, hnil.2.2⟩

theorem IsList.removeAfter {b n : α} (h : IsList nil L (xs ++ b :: n :: ys)) :
    IsList nil (removeAfter nil L b) (xs ++ b :: ys) := by
  obtain ⟨hsx, hpb, hnb, hpn, hnn, hsy⟩ := seg_middle.mp h.seg
  have hnil := h.nil_notMem
  have hnodup := h.nodup
  have hhead := h.head
  simp only [List.mem_append, List.mem_cons, not_or] at hnil
  simp only [List.nodup_append, List.nodup_cons, List.mem_cons, not_or] at hnodup
  obtain ⟨hndx, ⟨⟨hbn, hby⟩, hny, hndy⟩, hdisj⟩ := hnodup
  have hnext : L.next (L.next b) = ys.headD nil := by rw [hnb]; exact hnn
  have hxs : ∀ y ∈ xs, y ∉ ys := fun y hy hmem => hdisj y hy y (Or.inr (Or.inr hmem)) rfl
  refine ⟨?_, seg_middle.mpr ⟨?_, ?_, ?_, ?_⟩, ?_, ?_⟩
  · cases xs <;> simpa [Dll.removeAfter] using hhead
  · refine hsx.congr ?_ ?_
    · intro y hy
      have hyb : y ≠ b := fun e => hdisj y hy b (Or.inl rfl) e
      simp [Dll.removeAfter, hyb]
    · intro y hy
      simp only [Dll.removeAfter, hnext, if_neg (ne_head (hxs y hy))]
  · simp only [Dll.removeAfter, hnext, if_neg (ne_head hby), hpb]
  · simp [Dll.removeAfter, hnext]
  · refine hsy.rehead hndy hnil.2.2.2 ?_ ?_
    · intro y hy
      simp only [Dll.removeAfter, hnext]
    · intro y hy
      have hyb : y ≠ b := fun e => hby (e ▸ hy)
      simp [Dll.removeAfter, hyb]
  · simp only [List.nodup_append, List.nodup_cons, List.mem_cons]
    refine ⟨hndx, ⟨hby, hndy⟩, ?_⟩
    rintro a ha c (rfl | hc)
    · exact hdisj a ha _ (Or.inl rfl)
    · exact hdisj a ha c (Or.inr (Or.inr hc))
  · simp only [List.mem_append, List.mem_cons, not_or]
    exact ⟨hnil.1, hnil.2.1, hnil.2.2.2⟩

end edits

end TermobKernel.Dll
