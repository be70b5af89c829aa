import TermobKernel.Library.Memory

/-!
# Programs that load words

A program that only reads memory is a tree: each node loads the word at an address and goes on with what it
found there. The result of a program and the addresses it loads come from the same tree, so that a program
that loads nothing else than words on which two memories agree has the same result in both (`run_congr`).
-/

namespace TermobKernel

inductive Loads (α : Type) where
  | done (value : α)
  | load (address : UInt32) (next : UInt32 → Loads α)

namespace Loads

variable {α β : Type}

def bind : Loads α → (α → Loads β) → Loads β
  | done value, f => f value
  | load address next, f => load address fun word => (next word).bind f

instance : Monad Loads where
  pure := done
  bind := bind

def load32 (address : UInt32) : Loads UInt32 := load address done

def run (mem : Mem) : Loads α → α
  | done value => value
  | load address next => (next (mem.load32 address)).run mem

/-- The addresses of the words that the program loads, in order. -/
def reads (mem : Mem) : Loads α → List UInt32
  | done _ => []
  | load address next => address :: (next (mem.load32 address)).reads mem

variable {mem : Mem}

@[simp] theorem run_pure (value : α) : (pure value : Loads α).run mem = value := rfl

@[simp] theorem run_load32 (address : UInt32) : (load32 address).run mem = mem.load32 address := rfl

@[simp] theorem run_bind (p : Loads α) (f : α → Loads β) : (p >>= f).run mem = (f (p.run mem)).run mem := by
  change (p.bind f).run mem = _
  induction p with
  | done value => rfl
  | load address next ih => exact ih (mem.load32 address)

theorem reads_bind (p : Loads α) (f : α → Loads β) :
    (p >>= f).reads mem = p.reads mem ++ (f (p.run mem)).reads mem := by
  change (p.bind f).reads mem = _
  induction p with
  | done value => rfl
  | load address next ih => exact congrArg (address :: ·) (ih (mem.load32 address))

/-- Every word that the program loads satisfies `P`. -/
def ReadsIn (P : UInt32 → Prop) (mem : Mem) (p : Loads α) : Prop := ∀ a ∈ p.reads mem, P a

section
variable {P : UInt32 → Prop}

@[simp] theorem readsIn_pure (value : α) : (pure value : Loads α).ReadsIn P mem := by
  intro a ha
  cases ha

@[simp] theorem readsIn_load32 (address : UInt32) : (load32 address).ReadsIn P mem ↔ P address := by
  simp [ReadsIn, load32, reads]

@[simp] theorem readsIn_bind (p : Loads α) (f : α → Loads β) :
    (p >>= f).ReadsIn P mem ↔ p.ReadsIn P mem ∧ (f (p.run mem)).ReadsIn P mem := by
  simp only [ReadsIn, reads_bind, List.mem_append, or_imp, forall_and]

theorem readsIn_ite {c : Prop} [Decidable c] {p q : Loads α} :
    (if c then p else q).ReadsIn P mem ↔ (c → p.ReadsIn P mem) ∧ (¬c → q.ReadsIn P mem) := by
  by_cases hc : c
  · simp [hc]
  · simp [hc]

end

theorem run_congr {mem' : Mem} {p : Loads α} (h : p.ReadsIn (fun a => mem'.load32 a = mem.load32 a) mem) :
    p.run mem' = p.run mem := by
  induction p with
  | done value => rfl
  | load address next ih =>
    have hword : mem'.load32 address = mem.load32 address := h address List.mem_cons_self
    rw [run, run, hword]
    apply ih
    intro a ha
    exact h a (List.mem_cons_of_mem _ ha)

end Loads

end TermobKernel
