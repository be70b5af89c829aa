import Mathlib.Tactic

/-!
# Runs of a deterministic system

A step takes a state and an input to the next state, or to `none` when the step does not end. A run
feeds a list of inputs to the system. `Allowed` restricts a run to inputs that are admissible in the
state they meet, and `run_invariant` is the induction behind every safety result: an invariant that
admissible steps keep, and in which they end, holds after every admissible run.
-/

namespace TermobKernel.Runs

variable {σ ι : Type*}
variable {step : σ → ι → Option σ} {ok : σ → ι → Prop} {is : List ι} {s s' : σ}
variable {k : Nat}

def run (step : σ → ι → Option σ) : σ → List ι → Option σ
  | s, [] => some s
  | s, i :: is => (step s i).bind fun s' => run step s' is

def Allowed (step : σ → ι → Option σ) (ok : σ → ι → Prop) : σ → List ι → Prop
  | _, [] => True
  | s, i :: is => ok s i ∧ ∀ s', step s i = some s' → Allowed step ok s' is

theorem Allowed.of_forall (h : ∀ s i, ok s i) {s : σ} :
    Allowed step ok s is := by
  induction is generalizing s with
  | nil => trivial
  | cons i is ih => exact ⟨h s i, fun _ _ => ih⟩

theorem run_append (step : σ → ι → Option σ) (s : σ) (is js : List ι) :
    run step s (is ++ js) = (run step s is).bind fun s' => run step s' js := by
  induction is generalizing s with
  | nil => rfl
  | cons i is ih =>
    simp only [List.cons_append, run, Option.bind_assoc]
    congr 1
    funext s'
    exact ih s'

theorem Allowed.append {s : σ} {is js : List ι}
    (h : Allowed step ok s is) (h' : ∀ s', run step s is = some s' → Allowed step ok s' js) :
    Allowed step ok s (is ++ js) := by
  induction is generalizing s with
  | nil => exact h' s rfl
  | cons i is ih =>
    refine ⟨h.1, fun s₁ hs₁ => ih (h.2 s₁ hs₁) fun s' hs' => h' s' ?_⟩
    rw [run, hs₁, Option.bind_some, hs']

theorem Allowed.take {s : σ} (ha : Allowed step ok s is) (k : Nat) : Allowed step ok s (is.take k) := by
  induction k generalizing s is with
  | zero => trivial
  | succ k ih =>
    cases is with
    | nil => trivial
    | cons i is => exact ⟨ha.1, fun s' hs => ih (ha.2 s' hs)⟩

theorem Allowed.drop (ha : Allowed step ok s is) (h : run step s (is.take k) = some s') :
    Allowed step ok s' (is.drop k) := by
  induction k generalizing s is with
  | zero =>
    cases h
    exact ha
  | succ k ih =>
    cases is with
    | nil => trivial
    | cons i is =>
      rw [List.take_succ_cons, run, Option.bind_eq_some_iff] at h
      obtain ⟨s₁, hs₁, h⟩ := h
      exact ih (ha.2 s₁ hs₁) h

theorem run_take_add (step : σ → ι → Option σ) (h : run step s (is.take k) = some s') (n : Nat) :
    run step s (is.take (k + n)) = run step s' ((is.drop k).take n) := by
  rw [List.take_add, run_append, h, Option.bind_some]

theorem run_take_succ (step : σ → ι → Option σ) {i : ι} (h : run step s (is.take k) = some s')
    (hi : is[k]? = some i) : run step s (is.take (k + 1)) = step s' i := by
  have hdrop : (is.drop k).take 1 = [i] := by
    rw [List.take_one, List.head?_drop, hi]
    rfl
  rw [run_take_add step h, hdrop, run]
  cases step s' i with
  | none => rfl
  | some s'' => rfl

/-- An invariant kept by every admissible step holds after every admissible run, and the run ends. -/
theorem run_invariant {P : σ → Prop} (hstep : ∀ s i, P s → ok s i → ∃ s', step s i = some s' ∧ P s')
    {s : σ} (hs : P s) (ha : Allowed step ok s is) : ∃ s', run step s is = some s' ∧ P s' := by
  induction is generalizing s with
  | nil => exact ⟨s, rfl, hs⟩
  | cons i is ih =>
    obtain ⟨s', hs', hP⟩ := hstep s i hs ha.1
    obtain ⟨s'', hrun, hP'⟩ := ih hP (ha.2 s' hs')
    exact ⟨s'', by rw [run, hs', Option.bind_some, hrun], hP'⟩

/-- An invariant kept by every admissible step that ends holds wherever an admissible run has led. -/
theorem run_keeps {P : σ → Prop} (hstep : ∀ s i s', P s → ok s i → step s i = some s' → P s')
    (hs : P s) (ha : Allowed step ok s is) (hrun : run step s is = some s') : P s' := by
  induction is generalizing s with
  | nil =>
    obtain rfl := Option.some.inj hrun
    exact hs
  | cons i is ih =>
    rw [run, Option.bind_eq_some_iff] at hrun
    obtain ⟨s₁, hs₁, hrun⟩ := hrun
    exact ih (hstep s i s₁ hs ha.1 hs₁) (ha.2 s₁ hs₁) hrun

section lockstep
variable {τ : Type*} {R : σ → τ → Prop}

theorem rel_some_left {s : σ} {o : Option τ} (h : Option.Rel R (some s) o) : ∃ t, o = some t ∧ R s t := by
  cases h with
  | some h => exact ⟨_, rfl, h⟩

theorem rel_some_right {o : Option σ} {t : τ} (h : Option.Rel R o (some t)) : ∃ s, o = some s ∧ R s t := by
  cases h with
  | some h => exact ⟨_, rfl, h⟩

theorem rel_none_iff {o : Option σ} {o' : Option τ} (h : Option.Rel R o o') : o = none ↔ o' = none := by
  cases h with
  | some h => simp
  | none => simp

/-- Two systems in lockstep: if related states go to related states, or both do not go on, then so
do whole runs. -/
theorem run_rel {step : σ → ι → Option σ} {step' : τ → ι → Option τ}
    (hstep : ∀ s t i, R s t → Option.Rel R (step s i) (step' t i)) {s : σ} {t : τ} (h : R s t)
    (is : List ι) :
    Option.Rel R (run step s is) (run step' t is) := by
  induction is generalizing s t with
  | nil => exact .some h
  | cons i is ih =>
    have hrel := hstep s t i h
    rw [run, run]
    cases hs : step s i with
    | none =>
      rw [(rel_none_iff hrel).mp hs]
      exact .none
    | some s' =>
      rw [hs] at hrel
      obtain ⟨t', ht', hrel'⟩ := rel_some_left hrel
      rw [ht']
      exact ih hrel'

end lockstep

end TermobKernel.Runs
