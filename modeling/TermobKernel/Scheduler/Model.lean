import TermobKernel.Heap.Model

/-!
# The scheduler

`core/scheduler.c`: cooperative kernel threads over one kernel loop. A task is named by where its record is:
the static idle task, or the address that the heap gave a created one. The records are kept in a map, the
stacks in the memory of the heap, where the guard word of a stack can be overwritten.

A function that switches context is cut at the switch. The part before it ends with the task that gets the
processor; the part behind it runs when somebody switches back. `Scheduler.System` puts the parts together.
-/

namespace TermobKernel.Scheduler

def defaultTimesliceTicks : UInt32 := 5
def defaultStackBytes : UInt32 := 4096
def minStackBytes : UInt32 := 2048
def stackAlignment : UInt32 := 16
def stackGuardMagic : UInt32 := 0x54424B54

def sizeofSchedulerTask : UInt32 := 88

/-- The place of a task record. -/
inductive Ref where
  | idle
  | thread (address : UInt32)
  deriving DecidableEq, Repr

inductive TaskState where
  | idle
  | ready
  | running
  | exited
  deriving DecidableEq, Repr

/-- Where a task goes on when it is switched to: at its first instruction, or behind the switch inside
`scheduler_yield`. -/
inductive Resume where
  | bootstrap
  | switched
  deriving DecidableEq, Repr

/-- `scheduler_task_t`. Of the saved registers it has the stack pointer that the task starts with
and the place where it goes on. -/
structure Task where
  taskId : UInt32
  name : UInt32
  entry : UInt32
  context : UInt32
  state : TaskState
  timesliceTicks : UInt32
  sliceTicks : UInt32
  totalTicks : UInt32
  dispatchCount : UInt32
  yieldCount : UInt32
  exitCount : UInt32
  stackSizeBytes : UInt32
  stackBase : UInt32
  esp : UInt32
  eip : Resume
  isIdle : Bool
  next : Option Ref
  deriving DecidableEq, Repr

/-- The static variables of the file, with the records of the tasks and the lines sent to the log. -/
structure State where
  task : Ref → Task
  taskListHead : Option Ref
  taskListTail : Option Ref
  currentTaskPtr : Option Ref
  lastTaskPtr : Option Ref
  nextTaskId : UInt32
  totalTasks : UInt32
  tickCounter : UInt32
  totalDispatches : UInt32
  totalYields : UInt32
  ready : Bool
  reschedulePending : Bool
  inThreadContext : Bool
  log : List String

def State.modify (s : State) (r : Ref) (f : Task → Task) : State :=
  { s with task := fun q => if q = r then f (s.task q) else s.task q }

def schedulerLogEvent (s : State) (message : String) : State := { s with log := s.log ++ [message] }

def schedulerAlignUp (value alignment : UInt32) : UInt32 :=
  if alignment = 0 then value else (value + alignment - 1) &&& ~~~(alignment - 1)

def schedulerAlignDown (value alignment : UInt32) : UInt32 :=
  if alignment = 0 then value else value &&& ~~~(alignment - 1)

/-! ## The list of tasks -/

def schedulerLinkTask (s : State) (r : Ref) : State :=
  if s.taskListHead = none then
    { s with taskListHead := some r, taskListTail := some r }.modify r fun t => { t with next := none }
  else
    let s :=
      match s.taskListTail with
      | none => s
      | some tail => s.modify tail fun t => { t with next := some r }
    { s with taskListTail := some r }.modify r fun t => { t with next := none }

def schedulerNextTaskAfter (s : State) : Option Ref → Option Ref
  | none => s.taskListHead
  | some r =>
    match (s.task r).next with
    | none => s.taskListHead
    | some n => some n

/-- The loop of `scheduler_has_ready_non_idle_task`; the number counts the tasks that are left. -/
def schedulerHasReadyLoop (s : State) : Nat → Option Ref → Bool
  | 0, _ => false
  | _ + 1, none => false
  | count + 1, some r =>
    if (s.task r).isIdle = false ∧ (s.task r).state = .ready then true
    else schedulerHasReadyLoop s count (s.task r).next

def schedulerHasReadyNonIdleTask (s : State) : Bool :=
  schedulerHasReadyLoop s s.totalTasks.toNat s.taskListHead

/-- The loop of `scheduler_pick_next_task`, around the list. -/
def schedulerPickLoop (s : State) (preferNonIdle : Bool) : Nat → Option Ref → Ref
  | 0, _ => .idle
  | _ + 1, none => .idle
  | count + 1, some r =>
    if (s.task r).state = .ready ∧ (preferNonIdle = false ∨ (s.task r).isIdle = false) then r
    else schedulerPickLoop s preferNonIdle count (schedulerNextTaskAfter s (some r))

def schedulerPickNextTask (s : State) : Ref :=
  if s.taskListHead = none then .idle
  else
    schedulerPickLoop s (schedulerHasReadyNonIdleTask s) s.totalTasks.toNat
      (schedulerNextTaskAfter s s.lastTaskPtr)

/-! ## Stack guards -/

def schedulerStackGuardOk (heap : Heap.State) (t : Task) : Bool :=
  if t.isIdle = true then true
  else if t.stackBase = 0 ∨ t.stackSizeBytes < 4 then false
  else decide (heap.mem.load32 t.stackBase = stackGuardMagic)

def schedulerMarkTaskCorrupt (s : State) (r : Ref) (message : String) : State :=
  if (s.task r).state = .exited then s
  else
    schedulerLogEvent { s.modify r fun t => { t with state := .exited } with
      reschedulePending := true } message

/-! ## Initialisation and creation -/

def schedulerPrepareTaskContext (t : Task) : Task :=
  { t with esp := schedulerAlignDown (t.stackBase + t.stackSizeBytes) stackAlignment, eip := .bootstrap }

def idleTask (idleName : UInt32) : Task where
  taskId := 0
  name := idleName
  entry := 0
  context := 0
  state := .ready
  timesliceTicks := defaultTimesliceTicks
  sliceTicks := 0
  totalTicks := 0
  dispatchCount := 0
  yieldCount := 0
  exitCount := 0
  stackSizeBytes := 0
  stackBase := 0
  esp := 0
  eip := .bootstrap
  isIdle := true
  next := none

def schedulerInit (idleName : UInt32) (s : State) : State :=
  let s :=
    { s with
      taskListHead := none
      taskListTail := none
      currentTaskPtr := none
      lastTaskPtr := none
      nextTaskId := 1
      totalTasks := 0
      tickCounter := 0
      totalDispatches := 0
      totalYields := 0
      ready := false
      reschedulePending := false
      inThreadContext := false }
  let s := s.modify .idle fun _ => idleTask idleName
  let s := schedulerLinkTask s .idle
  let s :=
    { s with
      totalTasks := 1
      currentTaskPtr := some .idle
      lastTaskPtr := some .idle
      ready := true
      reschedulePending := true }
  schedulerLogEvent s "TERMOB: scheduler foundation online"

def schedulerStackSize (stackSizeBytes : UInt32) : UInt32 :=
  let stackSizeBytes := if stackSizeBytes = 0 then defaultStackBytes else stackSizeBytes
  let allocSize := schedulerAlignUp stackSizeBytes stackAlignment
  if allocSize < minStackBytes then minStackBytes else allocSize

def newTask (s : State) (name entry context stackBase allocSize : UInt32) : Task :=
  schedulerPrepareTaskContext
    { idleTask name with
      taskId := s.nextTaskId, entry, context, stackSizeBytes := allocSize, stackBase, isIdle := false }

/-- The record is filled in and hung behind the last one. -/
def schedulerRegister (s : State) (address : UInt32) (t : Task) : State :=
  let s := { s.modify (.thread address) fun _ => t with nextTaskId := s.nextTaskId + 1 }
  let s := schedulerLinkTask s (.thread address)
  let s := { s with totalTasks := s.totalTasks + 1, reschedulePending := true }
  schedulerLogEvent s "TERMOB: scheduler task registered"

/-- The address of the new task or `0`, with the new states. `none` is a call of the heap that does
not end. -/
def schedulerCreateKernelThread (s : State) (heap : Heap.State)
    (name entry context stackSizeBytes : UInt32) : Option (UInt32 × State × Heap.State) :=
  if s.ready = false ∨ name = 0 ∨ entry = 0 then some (0, s, heap)
  else
    let allocSize := schedulerStackSize stackSizeBytes
    match Heap.kcalloc heap 1 sizeofSchedulerTask with
    | none => none
    | some (task, heap) =>
      if task = 0 then some (0, schedulerLogEvent s "TERMOB: scheduler task allocation failed", heap)
      else
        match Heap.kcalloc heap 1 allocSize with
        | none => none
        | some (stackBase, heap) =>
          if stackBase = 0 then
            (Heap.kfree heap task).map fun heap =>
              (0, schedulerLogEvent s "TERMOB: scheduler task stack allocation failed", heap)
          else
            let heap := { heap with mem := heap.mem.store32 stackBase stackGuardMagic }
            some (task, schedulerRegister s task (newTask s name entry context stackBase allocSize), heap)

/-! ## Ticks -/

def schedulerHandleTick (s : State) : State :=
  match s.ready, s.currentTaskPtr with
  | true, some r =>
    let s := { s with tickCounter := s.tickCounter + 1 }
    let s := s.modify r fun t => { t with totalTicks := t.totalTicks + 1, sliceTicks := t.sliceTicks + 1 }
    if (s.task r).timesliceTicks ≠ 0 ∧ (s.task r).sliceTicks ≥ (s.task r).timesliceTicks then
      { s.modify r fun t => { t with sliceTicks := 0 } with reschedulePending := true }
    else s
  | _, _ => s

/-! ## Dispatch, yield and exit -/

/-- What a function does at its switch: it returns without one, or gives the processor to a task or to the
kernel context. -/
inductive Outcome where
  | returns
  | switchTo (r : Ref)
  | switchToKernel
  | halts
  deriving DecidableEq, Repr

/-- `scheduler_dispatch` up to the switch. -/
def schedulerDispatchBegin (heap : Heap.State) (s : State) : Outcome × State :=
  if s.ready = false ∨ s.inThreadContext = true ∨ s.reschedulePending = false then (.returns, s)
  else
    let nextTask := schedulerPickNextTask s
    if (s.task nextTask).isIdle = true then
      (.returns, { s with currentTaskPtr := some .idle, reschedulePending := false })
    else if schedulerStackGuardOk heap (s.task nextTask) = false then
      (.returns, schedulerMarkTaskCorrupt s nextTask "TERMOB: scheduler stack guard corrupted")
    else
      let s := { s with lastTaskPtr := some nextTask, currentTaskPtr := some nextTask }
      let s := s.modify nextTask fun t =>
        { t with state := .running, sliceTicks := 0, dispatchCount := t.dispatchCount + 1 }
      (.switchTo nextTask,
        { s with
          totalDispatches := s.totalDispatches + 1
          reschedulePending := false
          inThreadContext := true })

def schedulerDispatchEnd (s : State) : State :=
  let s := { s with inThreadContext := false, currentTaskPtr := some .idle }
  if schedulerHasReadyNonIdleTask s = true then { s with reschedulePending := true } else s

/-- `scheduler_exit_current_task`; it never returns to its caller. -/
def schedulerExitCurrentTask (s : State) : Outcome × State :=
  match s.currentTaskPtr with
  | none => (.halts, s)
  | some r =>
    if (s.task r).isIdle = true then (.halts, s)
    else
      -- the switch saves where the task stands
      let s := s.modify r fun t =>
        { t with state := .exited, sliceTicks := 0, exitCount := t.exitCount + 1, eip := .switched }
      (.switchToKernel,
        { s with
          reschedulePending := true
          inThreadContext := false
          currentTaskPtr := some .idle })

/-- `scheduler_yield` up to the switch. -/
def schedulerYieldBegin (heap : Heap.State) (s : State) : Outcome × State :=
  if s.ready = false ∨ s.inThreadContext = false then (.returns, s)
  else
    match s.currentTaskPtr with
    | none => (.returns, s)
    | some r =>
      if (s.task r).isIdle = true then (.returns, s)
      else if schedulerStackGuardOk heap (s.task r) = false then
        schedulerExitCurrentTask (schedulerMarkTaskCorrupt s r "TERMOB: scheduler stack guard corrupted")
      else
        let s := s.modify r fun t =>
          { t with yieldCount := t.yieldCount + 1, state := .ready, sliceTicks := 0, eip := .switched }
        (.switchToKernel,
          { s with
            totalYields := s.totalYields + 1
            reschedulePending := true
            inThreadContext := false
            currentTaskPtr := some .idle })

/-- `scheduler_yield` behind the switch. -/
def schedulerYieldEnd (s : State) (r : Ref) : State :=
  let s := { s with inThreadContext := true, currentTaskPtr := some r }
  if (s.task r).state ≠ .exited then s.modify r fun t => { t with state := .running } else s

/-- `scheduler_task_bootstrap` up to the call of the entry function, if there is one. -/
def schedulerTaskBootstrap (s : State) : Outcome × State :=
  match s.currentTaskPtr with
  | none => schedulerExitCurrentTask (schedulerLogEvent s "TERMOB: scheduler bootstrap missing task entry")
  | some r =>
    if (s.task r).entry = 0 then
      schedulerExitCurrentTask (schedulerLogEvent s "TERMOB: scheduler bootstrap missing task entry")
    else (.returns, s)

end TermobKernel.Scheduler
