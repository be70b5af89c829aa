import Mathlib.Tactic

/-!
# Singly linked lists

A list of nodes as a `next` pointer sees it: `Linked next start l` says that the nodes reached from
`start` are those of `l`, in order, and that the last of them has no successor. With `l.Nodup` the
chain has no cycle.

A list read as a ring goes on with its first node behind the last one (`ringNext`). `Before step a b
x` says that the way from `x` along `step` comes to `b` before it comes to `a`.
-/

namespace TermobKernel.Links

variable {α : Type*}
variable {next : α → Option α} {start : Option α} {l : List α} {head : Option α}

/-- The chain from `start` along `next` visits `l` and ends. -/
def Linked (next : α → Option α) : Option α → List α → Prop
  | start, [] => start = none
  | start, a :: l => start = some a ∧ Linked next (next a) l

theorem Linked.congr {next next' : α → Option α} (h : Linked next start l)
    (heq : ∀ a ∈ l, next' a = next a) : Linked next' start l := by
  induction l generalizing start with
  | nil => exact h
  | cons a l ih =>
    refine ⟨h.1, ?_⟩
    rw [heq a (by simp)]
    exact ih h.2 fun b hb => heq b (by simp [hb])

theorem Linked.next_mem (h : Linked next start l) {a b : α}
    (ha : a ∈ l) (hb : next a = some b) : b ∈ l := by
  induction l generalizing start with
  | nil => cases ha
  | cons c l ih =>
    rcases List.mem_cons.mp ha with rfl | ha
    · cases l with
      | nil =>
        have hnone : next a = none := h.2
        rw [hb] at hnone
        cases hnone
      | cons d l =>
        have hd : next a = some d := h.2.1
        rw [hb] at hd
        obtain rfl := Option.some.inj hd
        simp
    · exact List.mem_cons_of_mem c (ih h.2 ha)

theorem Linked.append_node {next next' : α → Option α} {z a : α}
    (h : Linked next start (l ++ [z])) (hz : z ∉ l) (hlast : next' z = some a) (hnew : next' a = none)
    (heq : ∀ b ∈ l, next' b = next b) : Linked next' start (l ++ [z] ++ [a]) := by
  induction l generalizing start with
  | nil => exact ⟨h.1, hlast, hnew⟩
  | cons b l ih =>
    refine ⟨h.1, ?_⟩
    rw [heq b (by simp)]
    exact ih h.2 (fun hmem => hz (by simp [hmem])) fun c hc => heq c (by simp [hc])

theorem Linked.next_last {z : α} (h : Linked next start (l ++ [z])) : next z = none := by
  induction l generalizing start with
  | nil => exact h.2
  | cons b l ih => exact ih h.2

/-! ### Rings -/

/-- The next node around the ring. -/
def ringNext (next : α → Option α) (head : Option α) (a : α) : Option α := (next a).or head

/-- The way along `step` from `start` begins with the nodes of `l`. -/
def Trail (step : α → Option α) : Option α → List α → Prop
  | _, [] => True
  | start, a :: l => start = some a ∧ Trail step (step a) l

theorem Linked.ringNext_mem (h : Linked next head l) {a b : α}
    (ha : a ∈ l) (hb : ringNext next head a = some b) : b ∈ l := by
  cases hnext : next a with
  | some c =>
    rw [ringNext, hnext] at hb
    exact h.next_mem ha (hnext.trans hb)
  | none =>
    rw [ringNext, hnext, Option.none_or] at hb
    cases l with
    | nil => cases ha
    | cons c l =>
      obtain rfl := Option.some.inj (hb.symm.trans h.1)
      exact List.mem_cons_self ..

theorem Linked.trail {l l' : List α} (h : Linked next start (l ++ l'))
    (head : Option α) : Trail (ringNext next head) start l := by
  induction l generalizing start with
  | nil => trivial
  | cons a l ih =>
    refine ⟨h.1, ?_⟩
    cases l with
    | nil => trivial
    | cons b l =>
      have hab : next a = some b := h.2.1
      have hring : ringNext next head a = next a := by
        rw [ringNext, hab]
        rfl
      rw [hring]
      exact ih h.2

theorem Linked.trail_around {xs ys : List α} {a : α} (h : Linked next head (xs ++ a :: ys)) :
    Trail (ringNext next head) (ringNext next head a) (ys ++ (xs ++ [a])) := by
  have hhead : Trail (ringNext next head) head (xs ++ [a]) := by
    rw [List.append_cons] at h
    exact h.trail head
  have hrest : ∀ {start : Option α} {l : List α}, Linked next start l →
      Trail (ringNext next head) (start.or head) (l ++ (xs ++ [a])) := by
    intro start l hl
    induction l generalizing start with
    | nil =>
      rw [show start = none from hl, Option.none_or]
      exact hhead
    | cons b l ih =>
      obtain ⟨rfl, hl⟩ := hl
      exact ⟨rfl, ih hl⟩
  have htail : Linked next (next a) ys := by
    clear hhead hrest
    generalize head = start at h
    induction xs generalizing start with
    | nil => exact h.2
    | cons b xs ih => exact ih _ h.2
  exact hrest htail

/-- From `x` on, `b` comes before `a`. -/
inductive Before (step : α → Option α) (a b : α) : α → Prop where
  | here {x : α} (h : step x = some b) : Before step a b x
  | next {x y : α} (h : step x = some y) (hne : y ≠ a) (hy : Before step a b y) : Before step a b x

theorem Trail.before {step : α → Option α} {a b x : α} {l l' : List α}
    (h : Trail step (step x) (l ++ b :: l')) (ha : a ∉ l) : Before step a b x := by
  induction l generalizing x with
  | nil => exact .here h.1
  | cons y l ih =>
    refine .next h.1 (fun hya => ha (by simp [hya])) (ih h.2 fun hmem => ha (by simp [hmem]))

theorem Before.append_node {next next' : α → Option α} {z a b c x : α}
    (h : Before (ringNext next head) a b x) (hl : Linked next head (l ++ [z])) (hx : x ∈ l ++ [z])
    (hca : c ≠ a) (hlast : next' z = some c) (hnew : next' c = none)
    (heq : ∀ y ∈ l, next' y = next y) :
    Before (ringNext next' head) a b x := by
  -- where the old ring went from a node, the new one goes too, perhaps over the new node
  have hstep : ∀ {x y : α}, x ∈ l ++ [z] → ringNext next head x = some y →
      ringNext next' head x = some y ∨ ringNext next' head x = some c ∧ ringNext next' head c = some y := by
    intro x y hx hy
    by_cases hxl : x ∈ l
    · rw [ringNext, heq x hxl]
      exact Or.inl hy
    · obtain rfl : x = z := by simpa [hxl] using hx
      rw [ringNext, hl.next_last, Option.none_or] at hy
      exact Or.inr ⟨by rw [ringNext, hlast]; rfl, by rw [ringNext, hnew, Option.none_or, hy]⟩
  induction h with
  | here h =>
    rcases hstep hx h with hy | ⟨hc, hy⟩
    · exact .here hy
    · exact .next hc hca (.here hy)
  | next h hne _ ih =>
    have ih := ih (hl.ringNext_mem hx h)
    rcases hstep hx h with hy | ⟨hc, hy⟩
    · exact .next hy hne ih
    · exact .next hc hca (.next hy hne ih)

end TermobKernel.Links
