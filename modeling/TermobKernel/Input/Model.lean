import TermobKernel.Library.Memory

/-!
# The interrupt queues of the keyboard and the mouse

`drivers/keyboard.c`, `drivers/mouse.c` and `core/irq.c`: an interrupt reads a byte from the
controller and puts it into a ring of 128 slots; the main loop of the kernel takes the bytes out
again. The two drivers have the same queue and the same loop and differ in the status bits that the
interrupt looks at and in what is done with a byte. An interrupt runs to completion, and it can come
between any two statements of the loop.
-/

namespace TermobKernel.Input

structure ByteQueue where
  slots : UInt32 → UInt8
  head : UInt32
  tail : UInt32
  dropped : UInt32

/-- `keyboard_enqueue_scancode` and `mouse_enqueue_byte`. -/
def enqueue (size : UInt32) (q : ByteQueue) (value : UInt8) : ByteQueue :=
  let nextHead := (q.head + 1) % size
  if nextHead = q.tail then { q with dropped := q.dropped + 1 }
  else { q with slots := Function.update q.slots q.head value, head := nextHead }

/-- What distinguishes the two drivers. `σ` holds the statics of the driver outside the queue. -/
structure Device (σ : Type) where
  size : UInt32
  /-- The status byte says that the controller has a byte for this driver. -/
  offers : UInt8 → Bool
  /-- What the interrupt counts when it finds a byte. -/
  counted : σ → σ
  /-- The statements of the loop that handle the byte, after the tail was moved. A statement that answers
  `false` leaves the others out. -/
  statements : List (σ → UInt8 → σ × Bool)

/-! ### The keyboard -/

def keyboardScancodeQueueSize : UInt32 := 128

/-- The keyboard driver; `keyboard_process_scancode` is whatever the shell does with a scancode. -/
def keyboardDevice {σ : Type} (keyboardProcessScancode : σ → UInt8 → σ) : Device σ where
  size := keyboardScancodeQueueSize
  offers status := status &&& 0x01 ≠ 0
  counted s := s
  statements := [fun s scancode => (keyboardProcessScancode s scancode, true)]

/-! ### The mouse -/

def mouseQueueSize : UInt32 := 128
def mouseStatusOutputFull : UInt8 := 0x01
def mouseStatusAuxData : UInt8 := 0x20

inductive ScrollCall where
  | lineUp
  | lineDown
  deriving DecidableEq, Repr

structure Mouse where
  packet : UInt8 → UInt8
  packetIndex : UInt8
  packetSize : UInt8
  wheelReady : Bool
  buttons : UInt8
  lastWheelDelta : Int8
  irqEvents : UInt32
  packetsSeen : UInt32
  scrollUpEvents : UInt32
  scrollDownEvents : UInt32
  syncLosses : UInt32
  /-- The calls of `terminal_scrollback_line_up` and `terminal_scrollback_line_down`, in order. -/
  scrollCalls : List ScrollCall

def mouseProcessPacket (m : Mouse) : Mouse :=
  let m := { m with packetsSeen := m.packetsSeen + 1, buttons := m.packet 0 &&& 0x07 }
  if ¬m.wheelReady ∨ m.packetSize < 4 then m
  else
    let wheelDelta := (m.packet 3).toInt8
    if wheelDelta > 0 then
      { m with
        scrollUpEvents := m.scrollUpEvents + wheelDelta.toInt32.toUInt32
        scrollCalls := m.scrollCalls ++ List.replicate wheelDelta.toInt.toNat .lineUp
        lastWheelDelta := wheelDelta }
    else if wheelDelta < 0 then
      let steps := -wheelDelta
      { m with
        scrollDownEvents := m.scrollDownEvents + steps.toInt32.toUInt32
        scrollCalls := m.scrollCalls ++ List.replicate steps.toInt.toNat .lineDown
        lastWheelDelta := wheelDelta }
    else { m with lastWheelDelta := 0 }

/-- The three statements that `mouse_drain_pending` runs on a byte. -/
def mouseCheckSync (m : Mouse) (value : UInt8) : Mouse × Bool :=
  if m.packetIndex = 0 ∧ value &&& 0x08 = 0 then ({ m with syncLosses := m.syncLosses + 1 }, false)
  else (m, true)

def mouseStoreByte (m : Mouse) (value : UInt8) : Mouse × Bool :=
  ({ m with
    packet := Function.update m.packet m.packetIndex value, packetIndex := m.packetIndex + 1 }, true)

def mouseCompletePacket (m : Mouse) (_value : UInt8) : Mouse × Bool :=
  if m.packetIndex ≥ m.packetSize then (mouseProcessPacket { m with packetIndex := 0 }, true) else (m, true)

def mouseDevice : Device Mouse where
  size := mouseQueueSize
  offers status := ¬(status &&& mouseStatusOutputFull = 0 ∨ status &&& mouseStatusAuxData = 0)
  counted m := { m with irqEvents := m.irqEvents + 1 }
  statements := [mouseCheckSync, mouseStoreByte, mouseCompletePacket]

/-! ### The system -/

/-- Where the main loop of the kernel stands in `keyboard_drain_pending` or `mouse_drain_pending`. -/
inductive Place where
  | outside
  /-- Before the condition of the loop. -/
  | test
  /-- Before the slot at the tail is read. -/
  | read
  /-- The byte was read, and the tail has not moved yet. -/
  | release (value : UInt8)
  /-- Before the statement with this number. -/
  | handle (value : UInt8) (statement : Nat)
  deriving DecidableEq, Repr

/-- The driver and the history of its bytes: what the interrupts offered, what the queue accepted, what was
handed to the statements of the loop, and how often the tail has moved. -/
structure System (σ : Type) where
  queue : ByteQueue
  place : Place
  driver : σ
  offered : List UInt8
  accepted : List UInt8
  handed : List UInt8
  released : Nat

/-- The indices and the counter start at zero, the slots with any bytes. -/
def System.initial {σ : Type} (slots : UInt32 → UInt8) (driver : σ) : System σ :=
  ⟨⟨slots, 0, 0, 0⟩, .outside, driver, [], [], [], 0⟩

section
variable {σ : Type} (d : Device σ)

/-- `irq1_handler_c` and `irq12_handler_c`, with what the controller answers. The queue has accepted
the byte when its head has moved. -/
def interrupt (s : System σ) (status data : UInt8) : System σ :=
  if d.offers status then
    let queue := enqueue d.size s.queue data
    { s with
      queue
      driver := d.counted s.driver
      offered := s.offered ++ [data]
      accepted := if queue.head = s.queue.head then s.accepted else s.accepted ++ [data] }
  else s

/-- The next statement of `keyboard_drain_pending` or `mouse_drain_pending`. -/
def statement (s : System σ) : System σ :=
  match s.place with
  | .outside => { s with place := .test }
  | .test => { s with place := if s.queue.tail ≠ s.queue.head then .read else .outside }
  | .read => { s with place := .release (s.queue.slots s.queue.tail) }
  | .release value =>
    { s with
      queue := { s.queue with tail := (s.queue.tail + 1) % d.size }
      place := .handle value 0
      released := s.released + 1 }
  | .handle value k =>
    let handed := if k = 0 then s.handed ++ [value] else s.handed
    match d.statements[k]? with
    | none => { s with handed, place := .test }
    | some f =>
      let (driver, more) := f s.driver value
      { s with handed, driver, place := if more then .handle value (k + 1) else .test }

inductive Event where
  | interrupt (status data : UInt8)
  | statement
  deriving DecidableEq, Repr

def step (s : System σ) : Event → System σ
  | .interrupt status data => interrupt d s status data
  | .statement => statement d s

def run (s : System σ) (events : List Event) : System σ := events.foldl (step d) s

end

end TermobKernel.Input
