import Mathlib.Tactic

/-!
# A cascaded pair of 8259 interrupt controllers

The part of the 8259 that a kernel in 8086 mode uses: the initialisation words, the mask register,
the non-specific end of interrupt, fully nested priorities and edge-triggered inputs that stay
latched until they are acknowledged. A write that selects anything else (level triggering, rotating
priorities, automatic end of interrupt) is outside of this model and has no result.

`Latches` is what such a pair is for: one latch for each line, and the first enabled line with a set
latch is served next.
-/

namespace TermobKernel.Pic

/-! ### Latched requests -/

section latches
variable {ι : Type*}

/-- One latch for each line. A request that finds its latch set is absorbed by the one before it; `accepted`
counts the others. -/
structure Latches (ι : Type*) where
  pending : ι → Bool
  accepted : ι → Nat
  served : List ι

namespace Latches

variable {enabled pending : ι → Bool} {order : List ι} {l : Latches ι} {n : ι}

def empty : Latches ι := ⟨fun _ => false, fun _ => 0, []⟩

def next (order : List ι) (enabled : ι → Bool) (pending : ι → Bool) : Option ι :=
  order.find? fun n => pending n && enabled n

theorem next_spec (h : next order enabled pending = some n) :
    n ∈ order ∧ pending n = true ∧ enabled n = true := by
  have hn := List.find?_some h
  rw [Bool.and_eq_true] at hn
  exact ⟨List.mem_of_find?_eq_some h, hn⟩

def waiting (order : List ι) (enabled pending : ι → Bool) : Nat :=
  order.countP fun n => pending n && enabled n

theorem waiting_eq_zero :
    waiting order enabled pending = 0 ↔ next order enabled pending = none := by
  rw [waiting, next, List.countP_eq_zero, List.find?_eq_none]

variable [DecidableEq ι]

def raise (l : Latches ι) (n : ι) : Latches ι :=
  if l.pending n then l
  else { l with
    pending := Function.update l.pending n true
    accepted := Function.update l.accepted n (l.accepted n + 1) }

def serve (l : Latches ι) (n : ι) : Latches ι :=
  { l with pending := Function.update l.pending n false, served := l.served ++ [n] }

/-- `l` comes about when the lines of the list are raised in this order, with services in between. -/
inductive Serves (order : List ι) (enabled : ι → Bool) : List ι → Latches ι → Prop
  | start : Serves order enabled [] empty
  | raise {raised : List ι} {l : Latches ι} (n : ι) :
      Serves order enabled raised l → Serves order enabled (raised ++ [n]) (l.raise n)
  | serve {raised : List ι} {l : Latches ι} {n : ι} :
      Serves order enabled raised l → next order enabled l.pending = some n →
      Serves order enabled raised (l.serve n)

theorem raise_pending (l : Latches ι) (n : ι) : (l.raise n).pending = Function.update l.pending n true := by
  unfold raise
  split
  · next h => rw [← h, Function.update_eq_self]
  · rfl

theorem raise_served (l : Latches ι) (n : ι) : (l.raise n).served = l.served := by
  unfold raise
  split
  · rfl
  · rfl

/-- No request is lost and none is served twice. -/
def Balanced (l : Latches ι) : Prop := ∀ n, l.accepted n = l.served.count n + (l.pending n).toNat

theorem Balanced.raise (h : l.Balanced) (n : ι) : (l.raise n).Balanced := by
  intro m
  unfold Latches.raise
  split
  · exact h m
  · next hn =>
    by_cases hm : m = n
    · subst hm
      have hm := h m
      rw [Bool.not_eq_true] at hn
      rw [hn, Bool.toNat_false] at hm
      simp only [Function.update_self, Bool.toNat_true]
      omega
    · simp only [Function.update_of_ne hm]
      exact h m

theorem Balanced.serve (h : l.Balanced) (hn : l.pending n = true) : (l.serve n).Balanced := by
  intro m
  have hm := h m
  rw [Latches.serve, List.count_append]
  by_cases hmn : m = n
  · subst hmn
    rw [hn, Bool.toNat_true] at hm
    simp only [Function.update_self, List.count_singleton_self, Bool.toNat_false]
    omega
  · have hcount : [n].count m = 0 := List.count_eq_zero.mpr (by simpa using hmn)
    simp only [Function.update_of_ne hmn, hcount]
    omega

theorem Serves.balanced {enabled : ι → Bool} {raised : List ι}
    (h : Serves order enabled raised l) : l.Balanced := by
  induction h with
  | start => intro n; rfl
  | raise n _ ih => exact ih.raise n
  | serve _ hn ih => exact ih.serve (next_spec hn).2.1

theorem waiting_serve (h : next order enabled pending = some n) :
    waiting order enabled (Function.update pending n false) < waiting order enabled pending := by
  obtain ⟨hmem, hp, he⟩ := next_spec h
  obtain ⟨front, back, rfl⟩ := List.append_of_mem hmem
  have hle : ∀ ns : List ι, waiting ns enabled (Function.update pending n false) ≤
      waiting ns enabled pending := by
    intro ns
    refine List.countP_mono_left fun m _ hm => ?_
    by_cases hmn : m = n
    · simp [hmn] at hm
    · rwa [Function.update_of_ne hmn] at hm
  have hfront := hle front
  have hback := hle back
  simp only [waiting, List.countP_append, List.countP_cons, Function.update_self, Bool.false_and, hp, he,
    Bool.and_self, if_true, Bool.false_eq_true, if_false] at hfront hback ⊢
  omega

end Latches
end latches

/-! ### One controller -/

/-- What the data port takes next. -/
inductive Expects where
  | icw2
  | icw3
  | icw4
  | mask
  deriving DecidableEq, Repr

structure Settings where
  imr : UInt8
  /-- Vector of line 0. -/
  base : UInt8
  cascade : UInt8
  icw4 : UInt8
  single : Bool
  needsIcw4 : Bool
  expects : Expects
  deriving DecidableEq, Repr

def Settings.masked (s : Settings) (i : Fin 8) : Bool := s.imr.toBitVec.getLsbD i

structure Chip extends Settings where
  /-- Latched requests. -/
  irr : Fin 8 → Bool
  /-- Requests in service. -/
  isr : Fin 8 → Bool

def lines : List (Fin 8) := [0, 1, 2, 3, 4, 5, 6, 7]

def first (p : Fin 8 → Bool) : Option (Fin 8) := lines.find? p

namespace Chip

def endOfInterrupt (c : Chip) : Chip :=
  { c with isr := (first c.isr).elim c.isr fun i => Function.update c.isr i false }

/-- The controller puts a request into service. -/
def take (c : Chip) (i : Fin 8) : Chip :=
  { c with irr := Function.update c.irr i false, isr := Function.update c.isr i true }

def writeCommand (c : Chip) (value : UInt8) : Option Chip :=
  if value &&& 0x10 ≠ 0 then
    if value &&& 0x08 ≠ 0 then none
    else some { c with
      irr := fun _ => false
      isr := fun _ => false
      imr := 0
      icw4 := 0
      single := decide (value &&& 0x02 ≠ 0)
      needsIcw4 := decide (value &&& 0x01 ≠ 0)
      expects := .icw2 }
  else if value &&& 0xF8 = 0x20 then some c.endOfInterrupt
  else none

/-- What the data port takes after `ICW3`. -/
def afterIcw3 (c : Chip) : Expects := if c.needsIcw4 then .icw4 else .mask

def writeData (c : Chip) (value : UInt8) : Chip :=
  match c.expects with
  | .icw2 => { c with base := value &&& 0xF8, expects := if c.single then c.afterIcw3 else .icw3 }
  | .icw3 => { c with cascade := value, expects := c.afterIcw3 }
  | .icw4 => { c with icw4 := value, expects := .mask }
  | .mask => { c with imr := value }

/-- The request that the controller asks to be served, given its inputs: the first unmasked one, unless a
request of the same or of a higher priority is in service. -/
def request (c : Chip) (inputs : Fin 8 → Bool) : Option (Fin 8) :=
  (first fun i => inputs i && !c.masked i).filter fun i => lines.all fun j => !(decide (j ≤ i) && c.isr j)

end Chip

def only (n : Option (Fin 8)) : Fin 8 → Bool := fun i => decide (n = some i)

theorem first_only (n : Option (Fin 8)) : first (only n) = n := by
  revert n
  decide

theorem set_only (i : Fin 8) : Function.update (only none) i true = only (some i) := by
  revert i
  decide

theorem clear_only (i : Fin 8) : Function.update (only (some i)) i false = only none := by
  revert i
  decide

namespace Chip
variable {c : Chip} {i : Fin 8}

theorem endOfInterrupt_isr (h : c.isr = only (some i)) : c.endOfInterrupt.isr = only none := by
  simp only [endOfInterrupt, h, first_only, Option.elim_some, clear_only]

theorem request_quiet (h : c.isr = only none) (inputs : Fin 8 → Bool) :
    c.request inputs = first fun i => inputs i && !c.masked i := by
  have hall : ∀ i : Fin 8, (lines.all fun j => !(decide (j ≤ i) && only none j)) = true := by decide
  simp only [request, h, hall]
  cases first fun i => inputs i && !c.masked i with
  | none => rfl
  | some i => rfl

end Chip

/-! ### The pair -/

/-- A line of the pair. Line 2 of the master is the slave. -/
inductive Line where
  | master (i : Fin 8) (h : i ≠ 2)
  | slave (i : Fin 8)
  deriving DecidableEq

namespace Line

def front : List Line := [.master 0 (by decide), .master 1 (by decide)]

def back : List Line :=
  [.master 3 (by decide), .master 4 (by decide), .master 5 (by decide), .master 6 (by decide),
    .master 7 (by decide)]

/-- Lines in the order of their priority: those of the slave stand in the place of line 2. -/
def order : List Line := front ++ (lines.map .slave ++ back)

/-- Lines by their number on a PC. -/
def irq0 : Line := .master 0 (by decide)
def irq1 : Line := .master 1 (by decide)
def irq12 : Line := .slave 4

/-- The input of the master that a line reaches. -/
def input : Line → Fin 8
  | master i _ => i
  | slave _ => 2

end Line

structure Setup where
  master : Settings
  slave : Settings
  deriving DecidableEq, Repr

namespace Setup

def enabled (s : Setup) : Line → Bool
  | .master i _ => !s.master.masked i
  | .slave i => !s.master.masked 2 && !s.slave.masked i

def vector (s : Setup) : Line → UInt8
  | .master i _ => s.master.base + UInt8.ofNat i
  | .slave i => s.slave.base + UInt8.ofNat i

/-- Both controllers are initialised as this model has them: 8086 mode, the slave on line 2. -/
def Cascaded (s : Setup) : Prop :=
  (s.master.expects = .mask ∧ s.master.icw4 = 1 ∧ s.master.single = false ∧ s.master.cascade = 4) ∧
    s.slave.expects = .mask ∧ s.slave.icw4 = 1 ∧ s.slave.single = false ∧ s.slave.cascade = 2

instance (s : Setup) : Decidable s.Cascaded := inferInstanceAs (Decidable (_ ∧ _))

end Setup

structure Pair where
  master : Chip
  slave : Chip

namespace Pair

def setup (p : Pair) : Setup := ⟨p.master.toSettings, p.slave.toSettings⟩

def latched (p : Pair) : Line → Bool
  | .master i _ => p.master.irr i
  | .slave i => p.slave.irr i

def raise (p : Pair) : Line → Pair
  | .master i _ => { p with master := { p.master with irr := Function.update p.master.irr i true } }
  | .slave i => { p with slave := { p.slave with irr := Function.update p.slave.irr i true } }

def inputs (p : Pair) (i : Fin 8) : Bool :=
  if i = 2 then (p.slave.request p.slave.irr).isSome else p.master.irr i

/-- The master's output to the processor, with the input that asks. -/
def request (p : Pair) : Option (Fin 8) := p.master.request p.inputs

/-- The processor acknowledges the request: the controller puts it into service and answers with its
vector. -/
def acknowledge (p : Pair) : Option (Pair × UInt8) :=
  if p.setup.Cascaded then
    p.request.bind fun i =>
      if i = 2 then
        (p.slave.request p.slave.irr).map fun k =>
          ({ master := p.master.take 2, slave := p.slave.take k }, p.slave.base + UInt8.ofNat k)
      else some ({ p with master := p.master.take i }, p.master.base + UInt8.ofNat i)
  else none

/-- The pair with a line in service. -/
def taking (p : Pair) : Line → Pair
  | .master i _ => { p with master := p.master.take i }
  | .slave i => { master := p.master.take 2, slave := p.slave.take i }

/-- Requests in service at the master and at the slave. -/
def InService (p : Pair) (m s : Option (Fin 8)) : Prop := p.master.isr = only m ∧ p.slave.isr = only s

def next (p : Pair) : Option Line := Latches.next Line.order p.setup.enabled p.latched

variable {p : Pair}

theorem slaves_find (hs : p.slave.isr = only none) (h2 : p.master.masked 2 = false) :
    ((lines.map Line.slave).find? fun n => p.latched n && p.setup.enabled n) =
      (p.slave.request p.slave.irr).map Line.slave := by
  rw [Chip.request_quiet hs, List.find?_map, first]
  simp only [Function.comp_def, latched, Setup.enabled, setup, h2, Bool.not_false, Bool.true_and]

theorem slaves_masked (h2 : p.master.masked 2 = true) :
    ((lines.map Line.slave).find? fun n => p.latched n && p.setup.enabled n) = none := by
  rw [List.find?_map, Option.map_eq_none_iff, List.find?_eq_none]
  intro i _
  simp only [Function.comp_apply, Setup.enabled, setup, h2, Bool.not_true, Bool.false_and,
    Bool.and_false, Bool.false_eq_true, not_false_eq_true]

theorem request_eq (h : p.InService none none) : p.request = p.next.map Line.input := by
  have hfront : ([0, 1].find? fun i => p.inputs i && !p.master.masked i) =
      (Line.front.find? fun n => p.latched n && p.setup.enabled n).map Line.input := by
    rw [show ([0, 1] : List (Fin 8)) = Line.front.map Line.input from rfl, List.find?_map]
    rfl
  have hback : ([3, 4, 5, 6, 7].find? fun i => p.inputs i && !p.master.masked i) =
      (Line.back.find? fun n => p.latched n && p.setup.enabled n).map Line.input := by
    rw [show ([3, 4, 5, 6, 7] : List (Fin 8)) = Line.back.map Line.input from rfl, List.find?_map]
    rfl
  have hslave : ([2].find? fun i => p.inputs i && !p.master.masked i) =
      ((lines.map Line.slave).find? fun n => p.latched n && p.setup.enabled n).map Line.input := by
    cases h2 : p.master.masked 2 with
    | true =>
      rw [slaves_masked h2]
      simp only [List.find?_cons, h2, Bool.not_true, Bool.and_false, List.find?_nil, Option.map_none]
    | false =>
      rw [slaves_find h.2 h2]
      simp only [List.find?_cons, h2, Bool.not_false, Bool.and_true, List.find?_nil, inputs, if_true]
      cases p.slave.request p.slave.irr with
      | none => rfl
      | some k => rfl
  rw [request, Chip.request_quiet h.1, next, Latches.next, Line.order, List.find?_append, List.find?_append,
    Option.map_or, Option.map_or, ← hfront, ← hslave, ← hback, ← List.find?_append, ← List.find?_append]
  rfl

theorem slave_request (h : p.InService none none) {k : Fin 8} (hn : p.next = some (.slave k)) :
    p.slave.request p.slave.irr = some k := by
  have h2 : p.master.masked 2 = false := by
    have he := (Latches.next_spec hn).2.2
    simp only [Setup.enabled, setup, Bool.and_eq_true, Bool.not_eq_true'] at he
    exact he.1
  have hnot : ∀ ls : List Line, (∀ n ∈ ls, n.input ≠ 2) →
      (ls.find? fun n => p.latched n && p.setup.enabled n) ≠ some (.slave k) :=
    fun ls hls he => hls _ (List.mem_of_find?_eq_some he) rfl
  rw [next, Latches.next, Line.order, List.find?_append, List.find?_append] at hn
  rcases Option.or_eq_some_iff.mp hn with hf | ⟨-, hn⟩
  · exact absurd hf (hnot _ (by decide))
  · rcases Option.or_eq_some_iff.mp hn with hsl | ⟨-, hb⟩
    · rw [slaves_find h.2 h2, Option.map_eq_some_iff] at hsl
      obtain ⟨k', hk, he⟩ := hsl
      rw [hk, Line.slave.inj he]
    · exact absurd hb (hnot _ (by decide))

theorem acknowledge_eq (hc : p.setup.Cascaded) (h : p.InService none none) {n : Line}
    (hn : p.next = some n) :
    p.acknowledge = some (p.taking n, p.setup.vector n) := by
  rw [acknowledge, if_pos hc, request_eq h, hn, Option.map_some, Option.bind_some]
  cases n with
  | master i hi => rw [Line.input, if_neg hi]; rfl
  | slave k => rw [Line.input, if_pos rfl, slave_request h hn]; rfl

/-! ### What the operations keep -/

theorem latched_raise (n : Line) : (p.raise n).latched = Function.update p.latched n true := by
  funext m
  cases n <;> cases m <;> simp [raise, latched, Function.update_apply]

theorem latched_taking (n : Line) : (p.taking n).latched = Function.update p.latched n false := by
  funext m
  cases n with
  | master i hi => cases m <;> simp [taking, latched, Chip.take, Function.update_apply]
  | slave i =>
    cases m with
    | master j hj => simp [taking, latched, Chip.take, hj]
    | slave j => simp [taking, latched, Chip.take, Function.update_apply]

theorem setup_raise (n : Line) : (p.raise n).setup = p.setup := by
  cases n with
  | master i hi => rfl
  | slave i => rfl

theorem setup_taking (n : Line) : (p.taking n).setup = p.setup := by
  cases n with
  | master i hi => rfl
  | slave i => rfl

variable {m s : Option (Fin 8)}

theorem InService.raise (h : p.InService m s) (n : Line) : (p.raise n).InService m s := by
  cases n with
  | master i hi => exact h
  | slave i => exact h

def serving : Line → Option (Fin 8) × Option (Fin 8)
  | .master i _ => (some i, none)
  | .slave i => (some 2, some i)

theorem InService.taking (h : p.InService none none) (n : Line) :
    (p.taking n).InService (serving n).1 (serving n).2 := by
  cases n with
  | master i hi => exact ⟨by simp only [Pair.taking, Chip.take, h.1, set_only, serving], h.2⟩
  | slave i =>
    exact ⟨by simp only [Pair.taking, Chip.take, h.1, set_only, serving],
      by simp only [Pair.taking, Chip.take, h.2, set_only, serving]⟩

end Pair

end TermobKernel.Pic
