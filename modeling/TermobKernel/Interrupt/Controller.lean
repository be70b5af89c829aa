import TermobKernel.Library.Pic
import TermobKernel.Library.Runs
import TermobKernel.Library.Word
import TermobKernel.Input.Model

/-!
# The way of an interrupt from the device to its handler

`core/pic.c`, `core/idt.c`, `core/irq.c` and the part of `kernel_main` that sets them up, on the
controllers of `Library.Pic` and with the queues of `Input.Model`. From the end of `pic_init` on a
device may raise its line at any time, also before interrupts are enabled and between the port
writes of a handler. The processor accepts a request when no handler runs: every gate is an
interrupt gate, so that it is entered with interrupts disabled, and its stub ends with `iretd`.
-/

namespace TermobKernel.Interrupt
open Pic Runs

variable {stubs : StubTable}

/-! ### `core/pic.c` -/

def pic1Command : UInt16 := 0x20
def pic1Data : UInt16 := 0x21
def pic2Command : UInt16 := 0xA0
def pic2Data : UInt16 := 0xA1
def picEoi : UInt8 := 0x20

/-- `pic_outb`. Port `0x80` belongs to neither controller. -/
def picOutb (p : Pair) (port : UInt16) (value : UInt8) : Option Pair :=
  if port = pic1Command then (p.master.writeCommand value).map fun c => { p with master := c }
  else if port = pic1Data then some { p with master := p.master.writeData value }
  else if port = pic2Command then (p.slave.writeCommand value).map fun c => { p with slave := c }
  else if port = pic2Data then some { p with slave := p.slave.writeData value }
  else if port = 0x80 then some p
  else none

/-- `pic_inb`; only the data ports are read. -/
def picInb (p : Pair) (port : UInt16) : Option UInt8 :=
  if port = pic1Data then some p.master.imr
  else if port = pic2Data then some p.slave.imr
  else none

def picIoWait (p : Pair) : Option Pair := picOutb p 0x80 0

def picDataPortForIrq (irq : UInt8) : UInt16 := if irq < 8 then pic1Data else pic2Data

def picInit (p : Pair) : Option Pair := do
  let _masterMask ← picInb p pic1Data
  let _slaveMask ← picInb p pic2Data
  let p ← picOutb p pic1Command 0x11
  let p ← picIoWait p
  let p ← picOutb p pic2Command 0x11
  let p ← picIoWait p
  let p ← picOutb p pic1Data 0x20
  let p ← picIoWait p
  let p ← picOutb p pic2Data 0x28
  let p ← picIoWait p
  let p ← picOutb p pic1Data 0x04
  let p ← picIoWait p
  let p ← picOutb p pic2Data 0x02
  let p ← picIoWait p
  let p ← picOutb p pic1Data 0x01
  let p ← picIoWait p
  let p ← picOutb p pic2Data 0x01
  let p ← picIoWait p
  let p ← picOutb p pic1Data 0xFC
  picOutb p pic2Data 0xFF

def picClearIrqMask (p : Pair) (irq : UInt8) : Option Pair := do
  let port := picDataPortForIrq irq
  let bit : UInt8 := 1 <<< (irq &&& 7)
  let mask ← picInb p port
  picOutb p port (mask &&& ~~~bit)

/-! ### `core/irq.c` -/

/-- What a handler does for its device. -/
inductive Service where
  | timerHandleTick
  /-- `if (keyboard_has_pending_scancode()) keyboard_enqueue_scancode(keyboard_read_scancode())`. -/
  | keyboardPendingScancode
  | mouseHandleIrq
  deriving DecidableEq, Repr

/-- What is done with interrupts disabled. -/
inductive Action where
  | call (service : Service)
  | outb (port : UInt16) (value : UInt8)
  | clearMask (irq : UInt8)
  deriving DecidableEq, Repr

def picSendEoi (irq : UInt8) : List Action :=
  (if irq ≥ 8 then [.outb pic2Command picEoi] else []) ++ [.outb pic1Command picEoi]

def irq0HandlerC : List Action := .call .timerHandleTick :: picSendEoi 0

def irq1HandlerC : List Action := .call .keyboardPendingScancode :: picSendEoi 1

def irq12HandlerC : List Action := .call .mouseHandleIrq :: picSendEoi 12

/-! ### `core/idt.c` -/

structure IdtEntry where
  offsetLow : UInt16
  selector : UInt16
  zero : UInt8
  typeAttr : UInt8
  offsetHigh : UInt16
  deriving DecidableEq, Repr

abbrev Idt := UInt8 → IdtEntry

/-- Addresses of the stubs; `isr` is the table `idt_fault_handlers`. -/
structure StubTable where
  isr : Fin 32 → UInt32
  irq0Stub : UInt32
  irq1Stub : UInt32
  irq12Stub : UInt32

def gate (cs : UInt16) (handler : UInt32) : IdtEntry where
  offsetLow := (handler &&& 0xFFFF).toUInt16
  selector := cs
  zero := 0
  typeAttr := 0x8E
  offsetHigh := ((handler >>> 16) &&& 0xFFFF).toUInt16

/-- `idt_set_gate`; its assertion fails for the null address. -/
def idtSetGate (cs : UInt16) (idt : Idt) (vector : UInt8) (handler : UInt32) : Option Idt :=
  if handler = 0 then none else some (Function.update idt vector (gate cs handler))

def idtInit (cs : UInt16) (stubs : StubTable) (idt : Idt) : Option Idt :=
  let cleared := (List.range 256).foldl
    (fun idt i => Function.update idt (UInt8.ofNat i) ⟨0, 0, 0, 0, 0⟩) idt
  (List.finRange 32).foldlM
    (fun idt (vector : Fin 32) => idtSetGate cs idt (UInt8.ofNat vector) (stubs.isr vector)) cleared

/-- Where the processor goes on at an interrupt gate that is present. Any other entry is a fault, or not an
interrupt gate. -/
def IdtEntry.target (e : IdtEntry) (cs : UInt16) : Option UInt32 :=
  if e.typeAttr = 0x8E ∧ e.selector = cs then some (e.offsetHigh.toUInt32 <<< 16 ||| e.offsetLow.toUInt32)
  else none

theorem gate_target (cs : UInt16) (handler : UInt32) : (gate cs handler).target cs = some handler := by
  rw [IdtEntry.target, if_pos ⟨rfl, rfl⟩, gate, Word.join_halves]

theorem idtSetGate_of_ne {handler : UInt32} (h : handler ≠ 0) (cs : UInt16) (idt : Idt) (vector : UInt8) :
    idtSetGate cs idt vector handler = some (Function.update idt vector (gate cs handler)) := if_neg h

/-! ### The interrupts of the running kernel -/

/-- Interrupts are disabled as long as `todo` has steps: those of the setup that are left, or of a
handler. `status` and `data` are what the keyboard controller answers at its two ports. -/
structure Irqs (κ : Type) where
  pics : Pair
  idt : Idt
  todo : Option (List Action)
  status : UInt8
  data : UInt8
  keyboard : Input.System κ
  mouse : Input.System Input.Mouse
  /-- The calls of the handlers so far. -/
  log : List Service

inductive Event where
  | raise (n : Line)
  /-- The keyboard controller answers something else from now on. -/
  | answer (status data : UInt8)
  /-- The next step of the setup or of a handler, or the processor looks for a request. -/
  | advance
  /-- The next statement of `keyboard_drain_pending` or of `mouse_drain_pending`, unless a handler
  is running. -/
  | drainKeyboard
  | drainMouse

/-- The handler behind a stub. The fault stubs do not return. -/
def StubTable.handler (stubs : StubTable) (address : UInt32) : Option (List Action) :=
  if address = stubs.irq0Stub then some irq0HandlerC
  else if address = stubs.irq1Stub then some irq1HandlerC
  else if address = stubs.irq12Stub then some irq12HandlerC
  else none

section kernel
variable {κ : Type} (cs : UInt16) (stubs : StubTable) (process : κ → UInt8 → κ)

def accept (s : Irqs κ) : Option (Irqs κ) := do
  let (pics, vector) ← s.pics.acknowledge
  let address ← (s.idt vector).target cs
  let actions ← stubs.handler address
  return { s with pics := pics, todo := some actions }

/-- The call for a device. The handlers of the keyboard and of the mouse leave the queue alone when
the controller has no byte for them; the count of the ticks is left out. -/
def Irqs.serve (s : Irqs κ) : Service → Irqs κ
  | .timerHandleTick => s
  | .keyboardPendingScancode =>
    { s with keyboard := Input.interrupt (Input.keyboardDevice process) s.keyboard s.status s.data }
  | .mouseHandleIrq => { s with mouse := Input.interrupt Input.mouseDevice s.mouse s.status s.data }

def step (s : Irqs κ) : Event → Option (Irqs κ)
  | .raise n => some { s with pics := s.pics.raise n }
  | .answer status data => some { s with status, data }
  | .advance =>
    match s.todo with
    | none => if s.pics.request.isSome then accept cs stubs s else some s
    | some [] => some { s with todo := none }
    | some (.call service :: rest) =>
      some { s.serve process service with todo := some rest, log := s.log ++ [service] }
    | some (.outb port value :: rest) =>
      (picOutb s.pics port value).map fun pics => { s with pics := pics, todo := some rest }
    | some (.clearMask irq :: rest) =>
      (picClearIrqMask s.pics irq).map fun pics => { s with pics := pics, todo := some rest }
  | .drainKeyboard =>
    some (if s.todo = none then
      { s with keyboard := Input.statement (Input.keyboardDevice process) s.keyboard } else s)
  | .drainMouse =>
    some (if s.todo = none then { s with mouse := Input.statement Input.mouseDevice s.mouse } else s)

/-- `mouse_init` as far as it concerns the controllers. -/
def mouseInit (mouseReady : Bool) : List Action := if mouseReady then [.clearMask 2, .clearMask 12] else []

/-- The setup in `kernel_main` to the end of `pic_init`; what follows up to `sti` is left to do. -/
def kernelMain (mouseReady : Bool) (before : Irqs κ) : Option (Irqs κ) := do
  let idt ← idtInit cs stubs before.idt
  let idt ← idtSetGate cs idt 32 stubs.irq0Stub
  let idt ← idtSetGate cs idt 33 stubs.irq1Stub
  let idt ← idtSetGate cs idt 44 stubs.irq12Stub
  let pics ← picInit before.pics
  return { before with pics := pics, idt := idt, todo := some (mouseInit mouseReady), log := [] }

end kernel

/-! ### What the setup leaves -/

/-- Settings of the controllers after the setup. -/
def bootSetup (mouseReady : Bool) : Setup where
  master := ⟨if mouseReady then 0xF8 else 0xFC, 0x20, 4, 1, false, true, .mask⟩
  slave := ⟨if mouseReady then 0xEF else 0xFF, 0x28, 2, 1, false, true, .mask⟩

/-- Settings between the two writes of `mouse_init`. -/
def halfSetup : Setup := ⟨(bootSetup true).master, (bootSetup false).slave⟩

def timerLine : Line := Line.irq0
def keyboardLine : Line := Line.irq1
def mouseLine : Line := Line.irq12

def listening (mouseReady : Bool) (n : Line) : Bool :=
  n = timerLine || n = keyboardLine || (mouseReady && n = mouseLine)

theorem bootSetup_enabled (mouseReady : Bool) : (bootSetup mouseReady).enabled = listening mouseReady := by
  funext n
  cases n with
  | master i hi => revert i mouseReady; decide
  | slave i => revert i mouseReady; decide

def blank (s : Setup) : Pair :=
  ⟨⟨s.master, fun _ => false, fun _ => false⟩, ⟨s.slave, fun _ => false, fun _ => false⟩⟩

theorem picInit_eq (pics : Pair) : picInit pics = some (blank (bootSetup false)) := rfl

/-- The linker gives every stub an address of its own. -/
structure StubTable.Linked (stubs : StubTable) : Prop where
  isr : ∀ vector, stubs.isr vector ≠ 0
  irq0 : stubs.irq0Stub ≠ 0
  irq1 : stubs.irq1Stub ≠ 0
  irq12 : stubs.irq12Stub ≠ 0
  distinct : [stubs.irq0Stub, stubs.irq1Stub, stubs.irq12Stub].Nodup

section fold
variable {α β γ : Type*} [DecidableEq α] {key : γ → α} {val : γ → β} {is : List γ}

theorem foldl_update_of_forall_ne {v : α} (h : ∀ i ∈ is, key i ≠ v) (f : α → β) :
    is.foldl (fun f i => Function.update f (key i) (val i)) f v = f v := by
  induction is generalizing f with
  | nil => rfl
  | cons i is ih =>
    rw [List.foldl_cons, ih fun j hj => h j (List.mem_cons_of_mem i hj),
      Function.update_of_ne (h i List.mem_cons_self).symm]

theorem foldl_update_of_mem {v : α} {b : β} (hmem : ∃ i ∈ is, key i = v)
    (hval : ∀ i ∈ is, key i = v → val i = b) (f : α → β) :
    is.foldl (fun f i => Function.update f (key i) (val i)) f v = b := by
  induction is generalizing f with
  | nil => obtain ⟨i, hi, -⟩ := hmem; cases hi
  | cons i is ih =>
    rw [List.foldl_cons]
    by_cases hlater : ∃ j ∈ is, key j = v
    · exact ih hlater (fun j hj => hval j (List.mem_cons_of_mem i hj)) _
    · have hne : ∀ j ∈ is, key j ≠ v := fun j hj he => hlater ⟨j, hj, he⟩
      obtain ⟨j, hj, hjv⟩ := hmem
      rcases List.mem_cons.mp hj with rfl | hj
      · rw [foldl_update_of_forall_ne hne, ← hjv, Function.update_self]
        exact hval j List.mem_cons_self hjv
      · exact absurd hjv (hne j hj)

end fold

theorem foldlM_idtSetGate (h : stubs.Linked) (cs : UInt16) (vs : List (Fin 32)) (idt : Idt) :
    vs.foldlM (fun idt (vector : Fin 32) => idtSetGate cs idt (UInt8.ofNat vector) (stubs.isr vector)) idt =
      some (vs.foldl (fun idt (vector : Fin 32) =>
        Function.update idt (UInt8.ofNat vector) (gate cs (stubs.isr vector))) idt) := by
  induction vs generalizing idt with
  | nil => rfl
  | cons v vs ih =>
    rw [List.foldlM_cons, idtSetGate_of_ne (h.isr v)]
    exact ih _

theorem ofNat_fault_inj {v w : Fin 32} (h : UInt8.ofNat v = UInt8.ofNat w) : v = w := by
  have := congrArg UInt8.toNat h
  rw [UInt8.toNat_ofNat', UInt8.toNat_ofNat'] at this
  omega

theorem idtInit_eq (h : stubs.Linked) (cs : UInt16) (idt : Idt) :
    ∃ idt', idtInit cs stubs idt = some idt' ∧
      (∀ v : Fin 32, idt' (UInt8.ofNat v) = gate cs (stubs.isr v)) ∧
      ∀ v : UInt8, 32 ≤ v.toNat → idt' v = ⟨0, 0, 0, 0, 0⟩ := by
  refine ⟨_, foldlM_idtSetGate h cs _ _, fun v => ?_, fun v hv => ?_⟩
  · refine foldl_update_of_mem ⟨v, List.mem_finRange v, rfl⟩ (fun w _ hw => ?_) _
    rw [ofNat_fault_inj hw]
  · rw [foldl_update_of_forall_ne]
    · exact foldl_update_of_mem ⟨v.toNat, List.mem_range.mpr v.toNat_lt,
        UInt8.ofNat_toNat⟩ (fun _ _ _ => rfl) _
    · intro w _ hw
      have := congrArg UInt8.toNat hw
      rw [UInt8.toNat_ofNat'] at this
      omega

def StubTable.target (stubs : StubTable) (vector : UInt8) : Option UInt32 :=
  if h : vector.toNat < 32 then some (stubs.isr ⟨vector.toNat, h⟩)
  else if vector = 32 then some stubs.irq0Stub
  else if vector = 33 then some stubs.irq1Stub
  else if vector = 44 then some stubs.irq12Stub
  else none

def Installed (cs : UInt16) (stubs : StubTable) (idt : Idt) : Prop :=
  ∀ vector, (idt vector).target cs = stubs.target vector

theorem empty_target (cs : UInt16) : (IdtEntry.mk 0 0 0 0 0).target cs = none :=
  if_neg fun h => absurd h.1 (show (0 : UInt8) ≠ 0x8E by decide)

theorem installed_of_init {cs : UInt16} {idt : Idt}
    (hfault : ∀ v : Fin 32, idt (UInt8.ofNat v) = gate cs (stubs.isr v))
    (hrest : ∀ v : UInt8, 32 ≤ v.toNat → idt v = ⟨0, 0, 0, 0, 0⟩) :
    Installed cs stubs
      (Function.update (Function.update (Function.update idt 32 (gate cs stubs.irq0Stub)) 33
        (gate cs stubs.irq1Stub)) 44 (gate cs stubs.irq12Stub)) := by
  intro vector
  simp only [StubTable.target, Function.update_apply]
  by_cases hv : vector.toNat < 32
  · have hne : ∀ w : UInt8, 32 ≤ w.toNat → vector ≠ w := by
      rintro w hw rfl
      omega
    have hgate := hfault ⟨vector.toNat, hv⟩
    rw [UInt8.ofNat_toNat] at hgate
    rw [dif_pos hv, if_neg (hne 44 (by decide)), if_neg (hne 33 (by decide)),
      if_neg (hne 32 (by decide)), hgate, gate_target]
  · rw [dif_neg hv, hrest vector (by omega)]
    by_cases h32 : vector = 32
    · subst h32
      exact gate_target cs stubs.irq0Stub
    · by_cases h33 : vector = 33
      · subst h33
        exact gate_target cs stubs.irq1Stub
      · simp only [h32, h33, if_false]
        by_cases h44 : vector = 44
        · rw [if_pos h44, if_pos h44, gate_target]
        · rw [if_neg h44, if_neg h44, empty_target]

theorem kernelMain_eq {κ : Type} (h : stubs.Linked) (cs : UInt16) (mouseReady : Bool)
    (before : Irqs κ) :
    ∃ idt', kernelMain cs stubs mouseReady before = some { before with
        pics := blank (bootSetup false), idt := idt', todo := some (mouseInit mouseReady), log := [] } ∧
      Installed cs stubs idt' := by
  obtain ⟨idt', hinit, hfault, hrest⟩ := idtInit_eq h cs before.idt
  refine ⟨_, ?_, installed_of_init hfault hrest⟩
  simp only [kernelMain, hinit, idtSetGate_of_ne h.irq0, idtSetGate_of_ne h.irq1, idtSetGate_of_ne h.irq12,
    picInit_eq, Option.bind_eq_bind, Option.bind_some, pure]

/-- After the setup each fault vector leads to its own stub, 32, 33 and 44 lead to the stubs of the
devices, and the processor finds no gate for any other vector. -/
theorem gates_reach_stubs {κ : Type} (cs : UInt16) {stubs : StubTable} (hl : stubs.Linked)
    (mouseReady : Bool) (before : Irqs κ) :
    ∃ s, kernelMain cs stubs mouseReady before = some s ∧
      ∀ vector, (s.idt vector).target cs = stubs.target vector := by
  obtain ⟨idt', hmain, hinst⟩ := kernelMain_eq hl cs mouseReady before
  exact ⟨_, hmain, hinst⟩

def placedStubs : StubTable where
  isr vector := 0x100000 + 16 * UInt32.ofNat vector
  irq0Stub := 0x100200
  irq1Stub := 0x100220
  irq12Stub := 0x100240

theorem placedStubs_linked : placedStubs.Linked :=
  ⟨by decide, by decide, by decide, by decide, by decide⟩

/-- Controllers as firmware might leave them: other vectors, and a request of line 4 still in service. -/
def firmwarePics : Pair :=
  ⟨⟨⟨0xB8, 0x08, 4, 1, false, true, .mask⟩, only lines[1]?, only lines[4]?⟩,
    ⟨⟨0x8E, 0x70, 2, 1, false, true, .mask⟩, only lines[0]?, only none⟩⟩

/-- The machine before the setup, with an interrupt table that holds anything. -/
def firmwareMachine : Irqs Unit where
  pics := firmwarePics
  idt _ := ⟨1, 2, 3, 4, 5⟩
  todo := none
  status := 0x1C
  data := 0xFA
  keyboard := Input.System.initial (fun _ => 0) ()
  mouse := Input.System.initial (fun _ => 0) ⟨fun _ => 0, 0, 3, false, 0, 0, 0, 0, 0, 0, 0, []⟩
  log := []

theorem gates_reach_stubs_placed :
    placedStubs.Linked ∧ ∃ s, kernelMain 8 placedStubs true firmwareMachine = some s ∧
      ∀ vector, (s.idt vector).target 8 = placedStubs.target vector :=
  ⟨placedStubs_linked, gates_reach_stubs 8 placedStubs_linked true firmwareMachine⟩

/-! ### Runs -/

def service (n : Line) : Option Service :=
  if n = timerLine then some .timerHandleTick
  else if n = keyboardLine then some .keyboardPendingScancode
  else if n = mouseLine then some .mouseHandleIrq
  else none

def Action.service : Action → Option Service
  | .call service => some service
  | .outb _ _ => none
  | .clearMask _ => none

def due (todo : Option (List Action)) : List Service := (todo.getD []).filterMap Action.service

/-- Steps that are left after a handler's call, with the requests in service at the master and at
the slave. -/
inductive Ending : List Action → Option (Fin 8) → Option (Fin 8) → Prop
  | returning : Ending [] none none
  | master (i : Fin 8) : Ending [.outb pic1Command picEoi] (some i) none
  | slave (i k : Fin 8) : Ending [.outb pic2Command picEoi, .outb pic1Command picEoi] (some i) (some k)

theorem Ending.length_le {rest : List Action} {m k : Option (Fin 8)} (h : Ending rest m k) :
    rest.length ≤ 2 := by
  cases h <;> decide

theorem Ending.calls {rest : List Action} {m k : Option (Fin 8)} (h : Ending rest m k) :
    rest.filterMap Action.service = [] := by
  cases h <;> rfl

/-- Where the kernel stands, with the settings of the controllers and the requests in service. -/
inductive Progress (mouseReady : Bool) : Option (List Action) → Setup → Option (Fin 8) →
    Option (Fin 8) → Prop
  | cascade : mouseReady = true →
      Progress mouseReady (some [.clearMask 2, .clearMask 12]) (bootSetup false) none none
  | line : mouseReady = true → Progress mouseReady (some [.clearMask 12]) halfSetup none none
  | idle : Progress mouseReady none (bootSetup mouseReady) none none
  | entered {rest : List Action} {m k : Option (Fin 8)} (service : Service) :
      Ending rest m k → Progress mouseReady (some (.call service :: rest)) (bootSetup mouseReady) m k
  | ending {rest : List Action} {m k : Option (Fin 8)} :
      Ending rest m k → Progress mouseReady (some rest) (bootSetup mouseReady) m k

/-- The kernel in a state that serves the requests of `l`. -/
structure Matches {κ : Type} (cs : UInt16) (stubs : StubTable) (mouseReady : Bool) (s : Irqs κ)
    (l : Latches Line) : Prop where
  installed : Installed cs stubs s.idt
  latched : s.pics.latched = l.pending
  progress : ∃ m k, Progress mouseReady s.todo s.pics.setup m k ∧ s.pics.InService m k
  log : (s.log ++ due s.todo).map some = l.served.map service

section run
variable {κ : Type} {cs : UInt16} {stubs : StubTable} {process : κ → UInt8 → κ} {mouseReady : Bool}
  {s : Irqs κ} {l : Latches Line}
variable {rest : List Action} {sv : Service} {n : Line}

theorem handler_stubs (hl : stubs.Linked) :
    stubs.handler stubs.irq0Stub = some irq0HandlerC ∧ stubs.handler stubs.irq1Stub = some irq1HandlerC ∧
      stubs.handler stubs.irq12Stub = some irq12HandlerC := by
  have hd := hl.distinct
  simp only [List.nodup_cons, List.mem_cons, List.not_mem_nil, or_false, not_or] at hd
  obtain ⟨⟨h01, h02⟩, h12, -⟩ := hd
  simp only [StubTable.handler, if_true, Ne.symm h01, Ne.symm h02, Ne.symm h12, if_false, and_self]

/-- The vector of a line leads to a handler that serves the line and ends the interrupt at each
controller that has it in service. -/
theorem handler_of_listening (hl : stubs.Linked) (hn : listening mouseReady n = true) :
    ∃ address sv eoi, stubs.target ((bootSetup mouseReady).vector n) = some address ∧
      stubs.handler address = some (.call sv :: eoi) ∧ service n = some sv ∧
      Ending eoi (Pair.serving n).1 (Pair.serving n).2 := by
  obtain ⟨h0, h1, h12⟩ := handler_stubs hl
  simp only [listening, Bool.or_eq_true, Bool.and_eq_true, decide_eq_true_eq] at hn
  rcases hn with (rfl | rfl) | ⟨-, rfl⟩
  · exact ⟨_, _, picSendEoi 0, rfl, h0, rfl, .master 0⟩
  · exact ⟨_, _, picSendEoi 1, rfl, h1, rfl, .master 1⟩
  · exact ⟨_, _, picSendEoi 12, rfl, h12, rfl, .slave 2 4⟩

theorem bootSetup_cascaded (mouseReady : Bool) : (bootSetup mouseReady).Cascaded := by
  revert mouseReady
  decide

/-- Steps of the setup or of the running handler, with `sti` or the return. -/
def remaining (s : Irqs κ) : Nat := s.todo.elim 0 fun actions => actions.length + 1

/-- Steps until the kernel is idle with nothing to serve. -/
def work (mouseReady : Bool) (s : Irqs κ) : Nat :=
  5 * Latches.waiting Line.order (listening mouseReady) s.pics.latched + remaining s

theorem picOutb_eoi_master (p : Pair) :
    picOutb p pic1Command picEoi = some { p with master := p.master.endOfInterrupt } := rfl

theorem picOutb_eoi_slave (p : Pair) :
    picOutb p pic2Command picEoi = some { p with slave := p.slave.endOfInterrupt } := rfl

/-- A write to the mask register, which changes nothing else. -/
def withMask (c : Chip) (imr : UInt8) : Chip := { c with imr := imr }

theorem writeData_mask {c : Chip} (h : c.expects = .mask) (value : UInt8) :
    c.writeData value = withMask c value := by
  simp only [Chip.writeData, withMask]
  split
  all_goals simp_all

theorem picClearIrqMask_cascade {p : Pair} (h : p.setup = bootSetup false) :
    picClearIrqMask p 2 = some { p with master := withMask p.master 0xF8 } := by
  have hmaster : p.master.toSettings = (bootSetup false).master := congrArg Setup.master h
  have himr : p.master.imr = 0xFC := congrArg Settings.imr hmaster
  have hwrite := writeData_mask (congrArg Settings.expects hmaster) 0xF8
  simp only [picClearIrqMask, picInb, himr]
  exact congrArg (fun c => some { p with master := c }) hwrite

theorem picClearIrqMask_line {p : Pair} (h : p.setup = halfSetup) :
    picClearIrqMask p 12 = some { p with slave := withMask p.slave 0xEF } := by
  have hslave : p.slave.toSettings = (bootSetup false).slave := congrArg Setup.slave h
  have himr : p.slave.imr = 0xFF := congrArg Settings.imr hslave
  have hwrite := writeData_mask (congrArg Settings.expects hslave) 0xEF
  simp only [picClearIrqMask, picInb, himr]
  exact congrArg (fun c => some { p with slave := c }) hwrite

@[simp] theorem serve_pics (sv : Service) : (s.serve process sv).pics = s.pics := by
  cases sv <;> rfl

@[simp] theorem serve_idt (sv : Service) : (s.serve process sv).idt = s.idt := by
  cases sv <;> rfl

def Event.line : Event → Option Line
  | .raise n => some n
  | _ => none

def raised (es : List Event) : List Line := es.filterMap Event.line

section matched
variable (h : Matches cs stubs mouseReady s l)
include h

theorem Matches.raise (n : Line) :
    Matches cs stubs mouseReady { s with pics := s.pics.raise n } (l.raise n) where
  installed := h.installed
  latched := by rw [Pair.latched_raise, h.latched, Latches.raise_pending]
  progress := by
    obtain ⟨m, k, hp, hs⟩ := h.progress
    exact ⟨m, k, (Pair.setup_raise n).symm ▸ hp, hs.raise n⟩
  log := by rw [Latches.raise_served]; exact h.log

/-- The queues and the ports of the keyboard controller do not matter to the controllers. -/
theorem Matches.input (status data : UInt8) (keyboard : Input.System κ)
    (mouse : Input.System Input.Mouse) :
    Matches cs stubs mouseReady { s with status, data, keyboard, mouse } l :=
  ⟨h.installed, h.latched, h.progress, h.log⟩

theorem Matches.at_idle (hidle : s.todo = none) :
    s.pics.setup = bootSetup mouseReady ∧ s.pics.InService none none := by
  obtain ⟨m, k, hp, hs⟩ := h.progress
  rw [hidle] at hp
  generalize hsetup : s.pics.setup = setup at hp ⊢
  cases hp
  exact ⟨rfl, hs⟩

theorem Matches.next (hidle : s.todo = none) :
    s.pics.next = Latches.next Line.order (listening mouseReady) l.pending := by
  rw [Pair.next, (h.at_idle hidle).1, bootSetup_enabled, h.latched]

theorem Matches.accept (hl : stubs.Linked) (hidle : s.todo = none)
    (hn : Latches.next Line.order (listening mouseReady) l.pending = some n) :
    ∃ s', accept cs stubs s = some s' ∧ Matches cs stubs mouseReady s' (l.serve n) := by
  obtain ⟨hsetup, hs⟩ := h.at_idle hidle
  obtain ⟨address, sv, eoi, htarget, hhandler, hsv, hend⟩ :=
    handler_of_listening hl (Latches.next_spec hn).2.2
  have hack := Pair.acknowledge_eq (hsetup ▸ bootSetup_cascaded mouseReady) hs ((h.next hidle).trans hn)
  refine ⟨{ s with pics := s.pics.taking n, todo := some (.call sv :: eoi) }, ?_, ?_⟩
  · simp only [Interrupt.accept, hack, Option.bind_eq_bind, Option.bind_some, h.installed _, hsetup,
      htarget, hhandler, pure]
  · refine ⟨h.installed, ?_, ⟨_, _, ?_, hs.taking n⟩, ?_⟩
    · rw [Pair.latched_taking, h.latched, Latches.serve]
    · rw [Pair.setup_taking, hsetup]
      exact .entered sv hend
    · have hlog := h.log
      rw [hidle, due, Option.getD_none, List.filterMap_nil, List.append_nil] at hlog
      rw [due, Option.getD_some, List.filterMap_cons_some (by rfl), hend.calls, List.map_append,
        hlog, Latches.serve, List.map_append, List.map_singleton, List.map_singleton, hsv]

theorem Matches.remaining_le : remaining s ≤ 4 := by
  obtain ⟨m, k, hp, -⟩ := h.progress
  unfold remaining
  cases htodo : s.todo with
  | none => exact Nat.zero_le 4
  | some actions =>
    rw [htodo] at hp
    rw [Option.elim_some]
    generalize s.pics.setup = setup at hp
    cases hp with
    | cascade _ => decide
    | line _ => decide
    | entered service hend => exact Nat.succ_le_succ (Nat.succ_le_succ hend.length_le)
    | ending hend => exact (Nat.succ_le_succ hend.length_le).trans (by decide)

theorem Matches.outb {port : UInt16} {value : UInt8}
    (htodo : s.todo = some (.outb port value :: rest)) :
    ∃ pics, picOutb s.pics port value = some pics ∧ pics.latched = s.pics.latched ∧
      Matches cs stubs mouseReady { s with pics := pics, todo := some rest } l := by
  have hlog := h.log
  rw [htodo] at hlog
  obtain ⟨m, k, hp, hs⟩ := h.progress
  rw [htodo] at hp
  generalize hsetup : s.pics.setup = setup at hp
  cases hp with
  | ending hend =>
    cases hend with
    | master i =>
      refine ⟨_, picOutb_eoi_master _, rfl, h.installed, h.latched,
        ⟨_, _, ?_, Chip.endOfInterrupt_isr hs.1, hs.2⟩, hlog⟩
      exact hsetup ▸ .ending .returning
    | slave i k =>
      refine ⟨_, picOutb_eoi_slave _, rfl, h.installed, h.latched,
        ⟨_, _, ?_, hs.1, Chip.endOfInterrupt_isr hs.2⟩, hlog⟩
      exact hsetup ▸ .ending (.master i)

theorem Matches.clearMask {irq : UInt8} (htodo : s.todo = some (.clearMask irq :: rest)) :
    ∃ pics, picClearIrqMask s.pics irq = some pics ∧ pics.latched = s.pics.latched ∧
      Matches cs stubs mouseReady { s with pics := pics, todo := some rest } l := by
  have hlog := h.log
  rw [htodo] at hlog
  obtain ⟨m, k, hp, hs⟩ := h.progress
  rw [htodo] at hp
  generalize hsetup : s.pics.setup = setup at hp
  cases hp with
  | cascade hready =>
    refine ⟨_, picClearIrqMask_cascade hsetup, rfl, h.installed, h.latched, ⟨none, none, ?_, hs⟩, hlog⟩
    have hhalf : Pair.setup { s.pics with master := withMask s.pics.master 0xF8 } = halfSetup := by
      have hmaster : s.pics.master.toSettings = (bootSetup false).master := congrArg Setup.master hsetup
      have hslave : s.pics.slave.toSettings = (bootSetup false).slave := congrArg Setup.slave hsetup
      simp only [Pair.setup, withMask, hmaster, hslave]
      rfl
    exact hhalf ▸ .line hready
  | line hready =>
    refine ⟨_, picClearIrqMask_line hsetup, rfl, h.installed, h.latched, ⟨none, none, ?_, hs⟩, hlog⟩
    have hboot : Pair.setup { s.pics with slave := withMask s.pics.slave 0xEF } = bootSetup mouseReady := by
      have hmaster : s.pics.master.toSettings = (bootSetup true).master := congrArg Setup.master hsetup
      have hslave : s.pics.slave.toSettings = (bootSetup false).slave := congrArg Setup.slave hsetup
      simp only [Pair.setup, withMask, hmaster, hslave, hready]
      rfl
    exact hboot ▸ .ending .returning
  | ending hend => cases hend

theorem Matches.resume (htodo : s.todo = some []) :
    Matches cs stubs mouseReady { s with todo := none } l := by
  obtain ⟨m, k, hp, hs⟩ := h.progress
  have hlog := h.log
  rw [htodo] at hp hlog
  generalize hsetup : s.pics.setup = setup at hp
  cases hp with
  | ending hend =>
    cases hend
    exact ⟨h.installed, h.latched, ⟨_, _, hsetup ▸ .idle, hs⟩, hlog⟩

theorem Matches.call (process : κ → UInt8 → κ) (htodo : s.todo = some (.call sv :: rest)) :
    Matches cs stubs mouseReady { s.serve process sv with todo := some rest, log := s.log ++ [sv] } l := by
  obtain ⟨m, k, hp, hs⟩ := h.progress
  have hlog := h.log
  rw [htodo] at hp hlog
  generalize hsetup : s.pics.setup = setup at hp
  refine ⟨by rw [serve_idt]; exact h.installed, by rw [serve_pics]; exact h.latched, ⟨m, k, ?_, ?_⟩, ?_⟩
  · rw [serve_pics, hsetup]
    cases hp with
    | entered _ hend => exact .ending hend
    | ending hend => cases hend
  · rw [serve_pics]
    exact hs
  · rw [List.append_assoc]
    exact hlog

/-- One step of the kernel is a service, or none that the devices could tell; and it gets closer to
being done. -/
theorem Matches.advance (process : κ → UInt8 → κ) (hl : stubs.Linked) :
    ∃ s' l', step cs stubs process s .advance = some s' ∧ Matches cs stubs mouseReady s' l' ∧
      (l' = l ∨ ∃ n, Latches.next Line.order (listening mouseReady) l.pending = some n ∧ l' = l.serve n) ∧
      work mouseReady s' ≤ work mouseReady s - 1 := by
  simp only [step]
  rcases htodo : s.todo with _ | (_ | ⟨_ | _ | _, rest⟩)
  · -- idle: accept a request, or wait for one
    simp only [Pair.request_eq (h.at_idle htodo).2, h.next htodo, Option.isSome_map]
    cases hn : Latches.next Line.order (listening mouseReady) l.pending with
    | none =>
      refine ⟨s, l, rfl, h, .inl rfl, ?_⟩
      have hzero := Latches.waiting_eq_zero.mpr hn
      simp only [work, remaining, h.latched, hzero, htodo, Option.elim_none]
      omega
    | some n =>
      obtain ⟨s', haccept, hm⟩ := h.accept hl htodo hn
      refine ⟨s', _, haccept, hm, .inr ⟨n, rfl, rfl⟩, ?_⟩
      have hless := Latches.waiting_serve hn
      have hle := hm.remaining_le
      simp only [work, hm.latched, h.latched, Latches.serve]
      omega
  · refine ⟨_, l, rfl, h.resume htodo, .inl rfl, ?_⟩
    simp only [work, remaining, htodo, Option.elim_none, Option.elim_some]
    omega
  · refine ⟨_, l, rfl, h.call process htodo, .inl rfl, ?_⟩
    simp only [work, remaining, serve_pics, htodo, Option.elim_some, List.length_cons]
    omega
  · obtain ⟨pics, hout, hlatched, hm⟩ := h.outb htodo
    simp only [hout, Option.map_some]
    refine ⟨_, l, rfl, hm, .inl rfl, ?_⟩
    simp only [work, remaining, hlatched, htodo, Option.elim_some, List.length_cons]
    omega
  · obtain ⟨pics, hclear, hlatched, hm⟩ := h.clearMask htodo
    simp only [hclear, Option.map_some]
    refine ⟨_, l, rfl, hm, .inl rfl, ?_⟩
    simp only [work, remaining, hlatched, htodo, Option.elim_some, List.length_cons]
    omega

theorem Matches.other (process : κ → UInt8 → κ) {e : Event} (he : e ≠ .advance) :
    ∃ s', step cs stubs process s e = some s' ∧
      Matches cs stubs mouseReady s' (e.line.elim l l.raise) := by
  cases e with
  | raise n => exact ⟨_, rfl, h.raise n⟩
  | answer status data => exact ⟨_, rfl, h.input status data s.keyboard s.mouse⟩
  | advance => exact absurd rfl he
  | drainKeyboard =>
    refine ⟨_, rfl, ?_⟩
    split
    · exact h.input s.status s.data _ s.mouse
    · exact h
  | drainMouse =>
    refine ⟨_, rfl, ?_⟩
    split
    · exact h.input s.status s.data s.keyboard _
    · exact h

end matched

end run

/-! ### What reaches the queues -/

def isInterrupt : Input.Event → Bool
  | .interrupt _ _ => true
  | .statement => false

/-- A driver has come from `before` to `after` with this number of interrupts. -/
def Interrupted {σ : Type} (d : Input.Device σ) (before after : Input.System σ) (calls : Nat) : Prop :=
  ∃ es, after = Input.run d before es ∧ es.countP isInterrupt = calls

section queues
variable {σ : Type} {d : Input.Device σ} {before after : Input.System σ} {calls : Nat}

theorem Interrupted.refl (d : Input.Device σ) (before : Input.System σ) :
    Interrupted d before before 0 := ⟨[], rfl, rfl⟩

theorem Interrupted.interrupt (h : Interrupted d before after calls) (status data : UInt8) :
    Interrupted d before (Input.interrupt d after status data) (calls + 1) := by
  obtain ⟨es, rfl, rfl⟩ := h
  refine ⟨es ++ [.interrupt status data], ?_, ?_⟩
  · rw [Input.run, Input.run, List.foldl_concat]
    rfl
  · rw [List.countP_append]
    rfl

theorem Interrupted.statement (h : Interrupted d before after calls) :
    Interrupted d before (Input.statement d after) calls := by
  obtain ⟨es, rfl, rfl⟩ := h
  refine ⟨es ++ [.statement], ?_, ?_⟩
  · rw [Input.run, Input.run, List.foldl_concat]
    rfl
  · rw [List.countP_append]
    rfl

end queues

/-- Each of the two drivers has had one interrupt for each call of its handler in the log, and
nothing else but the statements of its loop. -/
structure Fed {κ : Type} (process : κ → UInt8 → κ) (s₀ s : Irqs κ) : Prop where
  keyboard : Interrupted (Input.keyboardDevice process) s₀.keyboard s.keyboard
    (s.log.count .keyboardPendingScancode)
  mouse : Interrupted Input.mouseDevice s₀.mouse s.mouse (s.log.count .mouseHandleIrq)

section fed
variable {κ : Type} {cs : UInt16} {stubs : StubTable} {process : κ → UInt8 → κ} {s₀ s s' : Irqs κ}

theorem Fed.congr (h : Fed process s₀ s) (hkeyboard : s'.keyboard = s.keyboard)
    (hmouse : s'.mouse = s.mouse) (hlog : s'.log = s.log) : Fed process s₀ s' := by
  refine ⟨?_, ?_⟩
  · rw [hkeyboard, hlog]
    exact h.keyboard
  · rw [hmouse, hlog]
    exact h.mouse

theorem Fed.call (h : Fed process s₀ s) (todo : Option (List Action)) (sv : Service) :
    Fed process s₀ { s.serve process sv with todo := todo, log := s.log ++ [sv] } := by
  obtain ⟨hkeyboard, hmouse⟩ := h
  cases sv with
  | timerHandleTick => exact ⟨by simpa [Irqs.serve] using hkeyboard, by simpa [Irqs.serve] using hmouse⟩
  | keyboardPendingScancode =>
    exact ⟨by simpa [Irqs.serve] using hkeyboard.interrupt s.status s.data,
      by simpa [Irqs.serve] using hmouse⟩
  | mouseHandleIrq =>
    exact ⟨by simpa [Irqs.serve] using hkeyboard,
      by simpa [Irqs.serve] using hmouse.interrupt s.status s.data⟩

theorem accept_keeps (h : accept cs stubs s = some s') :
    s'.keyboard = s.keyboard ∧ s'.mouse = s.mouse ∧ s'.log = s.log := by
  simp only [accept, Option.bind_eq_bind, Option.bind_eq_some_iff, pure, Option.some.injEq] at h
  obtain ⟨_, -, _, -, _, -, rfl⟩ := h
  exact ⟨rfl, rfl, rfl⟩

theorem Fed.step (h : Fed process s₀ s) {e : Event} (hstep : step cs stubs process s e = some s') :
    Fed process s₀ s' := by
  cases e with
  | raise n =>
    obtain rfl := Option.some.inj hstep
    exact h.congr rfl rfl rfl
  | answer status data =>
    obtain rfl := Option.some.inj hstep
    exact h.congr rfl rfl rfl
  | drainKeyboard =>
    obtain rfl := Option.some.inj hstep
    split
    · exact ⟨h.keyboard.statement, h.mouse⟩
    · exact h
  | drainMouse =>
    obtain rfl := Option.some.inj hstep
    split
    · exact ⟨h.keyboard, h.mouse.statement⟩
    · exact h
  | advance =>
    simp only [Interrupt.step] at hstep
    split at hstep
    · split at hstep
      · obtain ⟨hkeyboard, hmouse, hlog⟩ := accept_keeps hstep
        exact h.congr hkeyboard hmouse hlog
      · obtain rfl := Option.some.inj hstep
        exact h
    · obtain rfl := Option.some.inj hstep
      exact h.congr rfl rfl rfl
    · obtain rfl := Option.some.inj hstep
      exact h.call _ _
    · obtain ⟨pics, -, rfl⟩ := Option.map_eq_some_iff.mp hstep
      exact h.congr rfl rfl rfl
    · obtain ⟨pics, -, rfl⟩ := Option.map_eq_some_iff.mp hstep
      exact h.congr rfl rfl rfl

end fed

end TermobKernel.Interrupt
