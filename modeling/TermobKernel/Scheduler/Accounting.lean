import TermobKernel.Scheduler.Rotation

/-!
# Accounting

The counters of the scheduler are raised in several functions, on either side of the context
switches. What a call comes to for the books is one of seven moves (`Move`), each of which changes
the record of one task: `Inv.performs` reduces every step to a move that is legal where it is made.
The balance of the books is a fact about moves.
-/

namespace TermobKernel.Scheduler
open Links Runs

variable {m : Move}

/-! ### Moves -/

/-- The state of a task and its counters. -/
@[ext] structure Book where
  state : TaskState
  dispatches : UInt32
  yields : UInt32
  exits : UInt32
  ticks : UInt32

def Task.book (t : Task) : Book := ⟨t.state, t.dispatchCount, t.yieldCount, t.exitCount, t.totalTicks⟩

/-- What a call comes to: nothing, a task gets the processor, is retired for its guard, gives the
processor back, leaves for good, or is created, or a tick is charged. -/
inductive Move where
  | rest
  | dispatch (a : UInt32)
  | retire (a : UInt32)
  | yield (a : UInt32)
  | exit (a : UInt32)
  | tick (r : Ref)
  | create (a : UInt32)

namespace Move

@[simp] def dispatchOf : Move → Option Ref
  | dispatch a => some (.thread a)
  | _ => none

@[simp] def yieldOf : Move → Option Ref
  | yield a => some (.thread a)
  | _ => none

@[simp] def exitOf : Move → Option Ref
  | exit a => some (.thread a)
  | _ => none

@[simp] def tickOf : Move → Option Ref
  | tick r => some r
  | _ => none

@[simp] def createOf : Move → List UInt32
  | create a => [a]
  | _ => []

/-- The task that gets a new state, with the state. -/
@[simp] def stateOf : Move → Option (UInt32 × TaskState)
  | dispatch a => some (a, .running)
  | retire a => some (a, .exited)
  | yield a => some (a, .ready)
  | exit a => some (a, .exited)
  | _ => none

def Legal (t : System) : Move → Prop
  | rest => True
  | dispatch a => a ∈ t.created ∧ (t.sched.task (.thread a)).state = .ready
  | retire a => a ∈ t.created ∧ (t.sched.task (.thread a)).state = .ready
  | yield a => a ∈ t.created ∧ (t.sched.task (.thread a)).state = .running
  | exit a => a ∈ t.created ∧ (t.sched.task (.thread a)).state = .running
  | tick r => r ∈ tasks t.created
  | create a => a ∉ t.created

end Move

def one (counted : Option Ref) (r : Ref) : UInt32 := if counted = some r then 1 else 0

def anyOne (counted : Option Ref) : UInt32 := if counted = none then 0 else 1

def newState (changed : Option (UInt32 × TaskState)) (r : Ref) (old : TaskState) : TaskState :=
  match changed with
  | none => old
  | some (a, state) => if r = .thread a then state else old

/-- The book of task `r` after the move. -/
def Move.record (m : Move) (r : Ref) (b : Book) : Book where
  state := newState m.stateOf r b.state
  dispatches := b.dispatches + one m.dispatchOf r
  yields := b.yields + one m.yieldOf r
  exits := b.exits + one m.exitOf r
  ticks := b.ticks + one m.tickOf r

/-- The change of the records and of the totals is that of the move. -/
structure Acts (m : Move) (s s' : State) : Prop where
  books : ∀ r, (s'.task r).book = m.record r (s.task r).book
  stackFields : ∀ r, (s'.task r).stackBase = (s.task r).stackBase ∧
    (s'.task r).stackSizeBytes = (s.task r).stackSizeBytes
  dispatches : s'.totalDispatches = s.totalDispatches + anyOne m.dispatchOf
  yields : s'.totalYields = s.totalYields + anyOne m.yieldOf
  ticks : s'.tickCounter = s.tickCounter + anyOne m.tickOf

theorem Move.rest_record (r : Ref) (b : Book) : Move.rest.record r b = b := by
  simp [Move.record, newState, one]

theorem Acts.trans_rest {s s' s'' : State} (h : Acts m s s') (h' : Acts .rest s' s'') : Acts m s s'' := by
  refine ⟨fun r => ?_, fun r => ?_, ?_, ?_, ?_⟩
  · rw [h'.books, Move.rest_record, h.books]
  · exact ⟨(h'.stackFields r).1.trans (h.stackFields r).1, (h'.stackFields r).2.trans (h.stackFields r).2⟩
  · rw [h'.dispatches, h.dispatches]
    exact UInt32.add_zero _
  · rw [h'.yields, h.yields]
    exact UInt32.add_zero _
  · rw [h'.ticks, h.ticks]
    exact UInt32.add_zero _

/-! ### The functions -/

theorem acts_rest {s s' : State} (htask : s'.task = s.task)
    (hdispatches : s'.totalDispatches = s.totalDispatches)
    (hyields : s'.totalYields = s.totalYields) (hticks : s'.tickCounter = s.tickCounter) :
    Acts .rest s s' := by
  refine ⟨fun r => ?_, fun r => ?_, ?_, ?_, ?_⟩
  · rw [htask, Move.rest_record]
  · rw [htask]
    exact ⟨rfl, rfl⟩
  · rw [hdispatches]
    exact (UInt32.add_zero _).symm
  · rw [hyields]
    exact (UInt32.add_zero _).symm
  · rw [hticks]
    exact (UInt32.add_zero _).symm

theorem acts_one {s s' : State} {x : Ref} (hothers : ∀ q, q ≠ x → s'.task q = s.task q)
    (hbook : (s'.task x).book = m.record x (s.task x).book)
    (hstack : (s'.task x).stackBase = (s.task x).stackBase ∧
      (s'.task x).stackSizeBytes = (s.task x).stackSizeBytes)
    (hspared : ∀ q, q ≠ x → ∀ b, m.record q b = b)
    (htotals : s'.totalDispatches = s.totalDispatches + anyOne m.dispatchOf ∧
      s'.totalYields = s.totalYields + anyOne m.yieldOf ∧ s'.tickCounter = s.tickCounter +
        anyOne m.tickOf) :
    Acts m s s' := by
  refine ⟨fun r => ?_, fun r => ?_, htotals.1, htotals.2.1, htotals.2.2⟩
  · by_cases hr : r = x
    · rw [hr, hbook]
    · rw [hothers r hr, hspared r hr]
  · by_cases hr : r = x
    · rw [hr]
      exact hstack
    · rw [hothers r hr]
      exact ⟨rfl, rfl⟩

theorem acts_dispatchEnd (s : State) : Acts .rest s (schedulerDispatchEnd s) := by
  unfold schedulerDispatchEnd
  dsimp only
  split
  · exact acts_rest rfl rfl rfl rfl
  · exact acts_rest rfl rfl rfl rfl

section thread
variable {s : State} {a : UInt32}

theorem acts_yieldEnd (hrun : (s.task (.thread a)).state = .running) :
    Acts .rest s (schedulerYieldEnd s (.thread a)) := by
  unfold schedulerYieldEnd
  dsimp only
  rw [if_pos (by simp [hrun])]
  refine acts_one (x := .thread a) (fun q hq => if_neg hq) ?_ (by simp) (fun q _ => Move.rest_record q) ?_
  · rw [Move.rest_record]
    simp [Task.book, hrun]
  · exact ⟨(UInt32.add_zero _).symm, (UInt32.add_zero _).symm, (UInt32.add_zero _).symm⟩

theorem acts_modify {m : Move} {s' : State} {f : Task → Task}
    (htask : s'.task = (s.modify (.thread a) f).task)
    (hbook : (f (s.task (.thread a))).book = m.record (.thread a) (s.task (.thread a)).book)
    (hstack : (f (s.task (.thread a))).stackBase = (s.task (.thread a)).stackBase ∧
      (f (s.task (.thread a))).stackSizeBytes = (s.task (.thread a)).stackSizeBytes)
    (hspared : ∀ q, q ≠ .thread a → ∀ b, m.record q b = b)
    (htotals : s'.totalDispatches = s.totalDispatches + anyOne m.dispatchOf ∧
      s'.totalYields = s.totalYields + anyOne m.yieldOf ∧ s'.tickCounter = s.tickCounter +
        anyOne m.tickOf) :
    Acts m s s' := by
  have hown : s'.task (.thread a) = f (s.task (.thread a)) := by
    rw [htask]
    exact if_pos rfl
  refine acts_one (x := .thread a) (fun q hq => ?_)
    (by rw [hown, hbook]) (by rw [hown]; exact hstack) hspared htotals
  rw [htask]
  exact if_neg hq

theorem acts_dispatched : Acts (.dispatch a) s (dispatched s (.thread a)) := by
  refine acts_modify (f := fun t => { t with
    state := .running, sliceTicks := 0, dispatchCount := t.dispatchCount + 1 })
    rfl ?_ ⟨rfl, rfl⟩ (fun q hq b => ?_) ⟨rfl, ?_, ?_⟩
  · simp [Task.book, Move.record, newState, one]
  · simp [Move.record, newState, one, hq, Ne.symm hq]
  · exact (UInt32.add_zero _).symm
  · exact (UInt32.add_zero _).symm

theorem markTaskCorrupt_own (s : State) (r : Ref) (message : String) :
    (schedulerMarkTaskCorrupt s r message).task r = { s.task r with state := .exited } := by
  unfold schedulerMarkTaskCorrupt
  split
  · rename_i hexited
    rw [← hexited]
  · simp

theorem markTaskCorrupt_totals (s : State) (r : Ref) (message : String) :
    (schedulerMarkTaskCorrupt s r message).totalDispatches = s.totalDispatches ∧
      (schedulerMarkTaskCorrupt s r message).totalYields = s.totalYields ∧
      (schedulerMarkTaskCorrupt s r message).tickCounter = s.tickCounter ∧
      (schedulerMarkTaskCorrupt s r message).currentTaskPtr = s.currentTaskPtr := by
  unfold schedulerMarkTaskCorrupt
  split
  · exact ⟨rfl, rfl, rfl, rfl⟩
  · exact ⟨rfl, rfl, rfl, rfl⟩

theorem acts_retire (message : String) :
    Acts (.retire a) s (schedulerMarkTaskCorrupt s (.thread a) message) := by
  obtain ⟨hdispatches, hyields, hticks, _⟩ := markTaskCorrupt_totals s (.thread a) message
  have hown := markTaskCorrupt_own s (.thread a) message
  refine acts_one (x := .thread a) (markTaskCorrupt_task s (.thread a) message).1 ?_ ?_
    (fun q hq b => ?_) ⟨?_, ?_, ?_⟩
  · rw [hown]
    simp [Task.book, Move.record, newState, one]
  · rw [hown]
    exact ⟨rfl, rfl⟩
  · simp [Move.record, newState, one, hq]
  · exact hdispatches.trans (UInt32.add_zero _).symm
  · exact hyields.trans (UInt32.add_zero _).symm
  · exact hticks.trans (UInt32.add_zero _).symm

theorem acts_exit (hcurrent : s.currentTaskPtr = some (.thread a))
    (hidle : (s.task (.thread a)).isIdle = false) :
    Acts (.exit a) s (schedulerExitCurrentTask s).2 := by
  unfold schedulerExitCurrentTask
  rw [hcurrent]
  dsimp only
  rw [if_neg (by simp [hidle])]
  refine acts_modify (f := fun t =>
    { t with state := .exited, sliceTicks := 0, exitCount := t.exitCount + 1, eip := .switched })
    rfl ?_ ⟨rfl, rfl⟩ (fun q hq b => ?_) ⟨?_, ?_, ?_⟩
  · simp [Task.book, Move.record, newState, one]
  · simp [Move.record, newState, one, hq, Ne.symm hq]
  · exact (UInt32.add_zero _).symm
  · exact (UInt32.add_zero _).symm
  · exact (UInt32.add_zero _).symm

/-- A thread that yields with its guard overwritten leaves for good; the state that it is given
before does not show. -/
theorem acts_corruptExit (message : String) (hcurrent : s.currentTaskPtr = some (.thread a))
    (hidle : (s.task (.thread a)).isIdle = false) :
    Acts (.exit a) s (schedulerExitCurrentTask (schedulerMarkTaskCorrupt s (.thread a) message)).2 := by
  obtain ⟨hdispatches, hyields, hticks, hptr⟩ := markTaskCorrupt_totals s (.thread a) message
  obtain ⟨hothers, _, hflag, _⟩ := markTaskCorrupt_task s (.thread a) message
  have hown := markTaskCorrupt_own s (.thread a) message
  have hexit := acts_exit (hptr.trans hcurrent) (hflag.trans hidle)
  have hleaves := exitCurrentTask_leaves (hptr.trans hcurrent) (hflag.trans hidle)
  refine acts_one (x := .thread a) (fun q hq => (hleaves.others q hq).trans (hothers q hq)) ?_ ?_
    (fun q hq b => ?_)
    ⟨?_, ?_, ?_⟩
  · rw [hexit.books, hown]
    simp [Task.book, Move.record, newState, one]
  · have hstack := hexit.stackFields (.thread a)
    rwa [hown] at hstack
  · simp [Move.record, newState, one, hq, Ne.symm hq]
  · rw [hexit.dispatches, hdispatches]
  · rw [hexit.yields, hyields]
  · rw [hexit.ticks, hticks]

theorem acts_yieldBegin (hready : s.ready = true) (hthread : s.inThreadContext = true)
    (hcurrent : s.currentTaskPtr = some (.thread a)) (hidle : (s.task (.thread a)).isIdle = false)
    (heap : Heap.State) :
    Acts (.exit a) s (schedulerYieldBegin heap s).2 ∨ Acts (.yield a) s (schedulerYieldBegin heap s).2 := by
  unfold schedulerYieldBegin
  rw [if_neg (by simp [hready, hthread]), hcurrent]
  dsimp only
  rw [if_neg (by simp [hidle])]
  split
  · exact Or.inl (acts_corruptExit _ hcurrent hidle)
  · refine Or.inr (acts_modify (f := fun t =>
      { t with yieldCount := t.yieldCount + 1, state := .ready, sliceTicks := 0, eip := .switched })
      rfl ?_ ⟨rfl, rfl⟩ (fun q hq b => ?_) ⟨?_, rfl, ?_⟩)
    · simp [Task.book, Move.record, newState, one]
    · simp [Move.record, newState, one, hq, Ne.symm hq]
    · exact (UInt32.add_zero _).symm
    · exact (UInt32.add_zero _).symm

end thread

theorem acts_tick {s : State} {r : Ref} (hready : s.ready = true) (hcurrent : s.currentTaskPtr = some r) :
    Acts (.tick r) s (schedulerHandleTick s) := by
  have hspared : ∀ q, q ≠ r → ∀ b, (Move.tick r).record q b = b := by
    intro q hq b
    simp [Move.record, newState, one, Ne.symm hq]
  unfold schedulerHandleTick
  rw [hready, hcurrent]
  dsimp only
  split
  · refine acts_one (x := r) (fun q hq => (if_neg hq).trans (if_neg hq)) ?_ (by simp) hspared ⟨?_, ?_, rfl⟩
    · simp [Task.book, Move.record, newState, one]
    · exact (UInt32.add_zero _).symm
    · exact (UInt32.add_zero _).symm
  · refine acts_one (x := r) (fun q hq => if_neg hq) ?_ (by simp) hspared ⟨?_, ?_, rfl⟩
    · simp [Task.book, Move.record, newState, one]
    · exact (UInt32.add_zero _).symm
    · exact (UInt32.add_zero _).symm

/-! ### The steps -/

/-- A step of the system comes to a legal move. -/
structure Performs (m : Move) (t t' : System) : Prop where
  legal : m.Legal t
  created : t'.created = t.created ++ m.createOf
  books : ∀ r ∈ tasks t.created, (t'.sched.task r).book = m.record r (t.sched.task r).book
  stackFields : ∀ r ∈ tasks t.created, (t'.sched.task r).stackBase = (t.sched.task r).stackBase ∧
    (t'.sched.task r).stackSizeBytes = (t.sched.task r).stackSizeBytes
  fresh : ∀ a ∈ m.createOf, (t'.sched.task (.thread a)).book = ⟨.ready, 0, 0, 0, 0⟩
  dispatches : t'.sched.totalDispatches = t.sched.totalDispatches + anyOne m.dispatchOf
  yields : t'.sched.totalYields = t.sched.totalYields + anyOne m.yieldOf
  ticks : t'.sched.tickCounter = t.sched.tickCounter + anyOne m.tickOf

section performs
variable {start : UInt32} {t t' : System}

theorem Acts.performs {m : Move} (h : Acts m t.sched t'.sched) (hlegal : m.Legal t)
    (hnone : m.createOf = []) (hcreated : t'.created = t.created) : Performs m t t' := by
  refine ⟨hlegal, ?_, fun r _ => h.books r, fun r _ => h.stackFields r, fun a ha => ?_,
    h.dispatches, h.yields, h.ticks⟩
  · rw [hnone, List.append_nil, hcreated]
  · rw [hnone] at ha
    cases ha

theorem performs_rest (htask : t'.sched.task = t.sched.task)
    (hdispatches : t'.sched.totalDispatches = t.sched.totalDispatches)
    (hyields : t'.sched.totalYields = t.sched.totalYields)
    (hticks : t'.sched.tickCounter = t.sched.tickCounter) (hcreated : t'.created = t.created) :
    ∃ m, Performs m t t' :=
  ⟨.rest, (acts_rest htask hdispatches hyields hticks).performs trivial rfl hcreated⟩

theorem Inv.dispatch_performs (h : Inv start t) (hs : Scheduler.step t .dispatch = some t') :
    ∃ m, Performs m t t' := by
  unfold Scheduler.step at hs
  rcases h.control with ⟨_, hk⟩ | ⟨a, _, ht⟩
  · rcases h.shape.dispatch_cases hk t.heap with
      ⟨_, heq⟩ | ⟨_, _, heq⟩ | ⟨a, ha, _, _, hready, ⟨_, heq⟩ | ⟨_, heq⟩⟩
    · rw [heq] at hs
      cases hs
      exact performs_rest rfl rfl rfl rfl rfl
    · rw [heq] at hs
      cases hs
      exact performs_rest rfl rfl rfl rfl rfl
    · rw [heq] at hs
      cases hs
      exact ⟨.retire a, (acts_retire _).performs ⟨ha, hready⟩ rfl rfl⟩
    · -- the thread goes on behind its switch or starts
      rcases h.shape.dispatchBegin hk t.heap with ⟨s, hback, _⟩ | ⟨b, s, hswitch, hev, ht, _⟩
      · rw [heq] at hback
        cases hback
      rw [heq] at hswitch
      cases hswitch
      rw [heq, System.settle] at hs
      obtain ⟨hcreated, hsame | hbehind⟩ := toTask_cases hev.shape ht hs
      · refine ⟨.dispatch a, Acts.performs ?_ ⟨ha, hready⟩ rfl hcreated⟩
        rw [hsame]
        exact acts_dispatched
      · refine ⟨.dispatch a, Acts.performs ?_ ⟨ha, hready⟩ rfl hcreated⟩
        rw [hbehind]
        exact acts_dispatched.trans_rest (acts_yieldEnd ((ht.only a ha).mpr rfl))
  · rw [schedulerDispatchBegin, if_pos (Or.inr (Or.inl ht.flag)), System.settle] at hs
    cases hs
    exact performs_rest rfl rfl rfl rfl rfl

theorem Inv.yield_performs (h : Inv start t) (hs : Scheduler.step t .yield = some t') :
    ∃ m, Performs m t t' := by
  unfold Scheduler.step at hs
  rcases h.control with ⟨_, hk⟩ | ⟨a, _, ht⟩
  · rw [schedulerYieldBegin, if_pos (Or.inr hk.flag), System.settle] at hs
    cases hs
    exact performs_rest rfl rfl rfl rfl rfl
  · obtain ⟨s, heq, _⟩ := h.shape.yieldBegin ht t.heap
    have hacts := acts_yieldBegin h.shape.ready ht.flag ht.current (h.shape.threads a ht.mem).1 t.heap
    have hrun := (ht.only a ht.mem).mpr rfl
    rw [heq] at hs hacts
    cases hs
    rcases hacts with hacts | hacts
    · exact ⟨.exit a, (hacts.trans_rest (acts_dispatchEnd s)).performs ⟨ht.mem, hrun⟩ rfl rfl⟩
    · exact ⟨.yield a, (hacts.trans_rest (acts_dispatchEnd s)).performs ⟨ht.mem, hrun⟩ rfl rfl⟩

theorem Inv.exit_performs (h : Inv start t) (hcaller : t.running ≠ none)
    (hs : Scheduler.step t .exit = some t') :
    ∃ m, Performs m t t' := by
  unfold Scheduler.step at hs
  rcases h.control with ⟨hrunning, _⟩ | ⟨a, _, ht⟩
  · exact absurd hrunning hcaller
  · obtain ⟨s, heq, _⟩ := h.shape.exitCurrent ht.mem ht.current fun b hb => (ht.only b hb).mp
    have hacts := acts_exit ht.current (h.shape.threads a ht.mem).1
    rw [heq] at hs hacts
    cases hs
    exact ⟨.exit a, (hacts.trans_rest (acts_dispatchEnd s)).performs
      ⟨ht.mem, (ht.only a ht.mem).mpr rfl⟩ rfl rfl⟩

theorem Inv.tick_performs (h : Inv start t) (hs : Scheduler.step t .tick = some t') :
    ∃ m, Performs m t t' := by
  cases hs
  rcases h.control with ⟨_, hk⟩ | ⟨a, _, ht⟩
  · exact ⟨.tick .idle, (acts_tick h.shape.ready hk.current).performs (idle_mem_tasks _) rfl rfl⟩
  · exact ⟨.tick (.thread a),
      (acts_tick h.shape.ready ht.current).performs (thread_mem_tasks.mpr ht.mem) rfl rfl⟩

theorem schedulerRegister_totals (s : State) (a : UInt32) (task : Task) :
    (schedulerRegister s a task).totalDispatches = s.totalDispatches ∧
      (schedulerRegister s a task).totalYields = s.totalYields ∧
      (schedulerRegister s a task).tickCounter = s.tickCounter := by
  unfold schedulerRegister schedulerLinkTask
  dsimp only
  split
  · exact ⟨rfl, rfl, rfl⟩
  · split
    · exact ⟨rfl, rfl, rfl⟩
    · exact ⟨rfl, rfl, rfl⟩

theorem Inv.create_performs (h : Inv start t) {name entry context stackSizeBytes : UInt32}
    (hs : Scheduler.step t (.create name entry context stackSizeBytes) = some t') :
    ∃ m, Performs m t t' := by
  obtain ⟨address, s, heap, heq, _, _, _, hend⟩ :=
    create_spec h.shape h.heap name entry context stackSizeBytes
  simp only [Scheduler.step, heq, Option.map_some, Option.some.injEq] at hs
  subst hs
  rcases create_outcomes heq with ⟨haddress, log, rfl⟩ | ⟨haddress, _, stackBase, _, _, _, _, _, rfl, _⟩
  · exact performs_rest rfl rfl rfl rfl (if_pos haddress)
  · obtain ⟨_, hnew, _⟩ := hend.resolve_left fun hnull => haddress hnull.1
    have htask := schedulerRegister_task h.shape hnew (show (newTask t.sched name entry context stackBase
      (schedulerStackSize stackSizeBytes)).next = none from rfl)
    have hold : ∀ r ∈ tasks t.created, r ≠ .thread address := by
      rintro r hr rfl
      exact hnew (thread_mem_tasks.mp hr)
    obtain ⟨hdispatches, hyields, hticks⟩ := schedulerRegister_totals t.sched address
      (newTask t.sched name entry context stackBase (schedulerStackSize stackSizeBytes))
    refine ⟨.create address, hnew, ?_, fun r hr => ?_, fun r hr => ?_, fun a ha => ?_, ?_, ?_, ?_⟩
    · exact if_neg haddress
    · have hsame : (Move.create address).record r (t.sched.task r).book = (t.sched.task r).book := by
        simp [Move.record, newState, one]
      rw [hsame, htask, if_neg (hold r hr)]
      split
      · rfl
      · rfl
    · rw [htask, if_neg (hold r hr)]
      split
      · exact ⟨rfl, rfl⟩
      · exact ⟨rfl, rfl⟩
    · obtain rfl : a = address := by simpa using ha
      rw [htask, if_pos rfl]
      rfl
    · exact hdispatches.trans (UInt32.add_zero _).symm
    · exact hyields.trans (UInt32.add_zero _).symm
    · exact hticks.trans (UInt32.add_zero _).symm

theorem Inv.performs (h : Inv start t) {op : Op} (hok : CallerOk t op)
    (hs : Scheduler.step t op = some t') :
    ∃ m, Performs m t t' := by
  cases op with
  | dispatch => exact h.dispatch_performs hs
  | yield => exact h.yield_performs hs
  | exit => exact h.exit_performs hok hs
  | tick => exact h.tick_performs hs
  | create name entry context stackSizeBytes => exact h.create_performs hs
  | scribble address value =>
    cases hs
    exact performs_rest rfl rfl rfl rfl rfl

end performs

/-! ### The balance -/

def sumOver (created : List UInt32) (count : Ref → UInt32) : Nat :=
  ((tasks created).map fun r => (count r).toNat).sum

theorem sum_one {l : List Ref} (hnodup : l.Nodup) {count count' : Ref → UInt32} {counted : Option Ref}
    (hmem : ∀ r, counted = some r → r ∈ l) (hcount : ∀ r ∈ l, count' r = count r + one counted r) :
    (l.map fun r => (count' r).toNat).sum % 2 ^ 32 =
      ((l.map fun r => (count r).toNat).sum + (anyOne counted).toNat) % 2 ^ 32 := by
  induction l generalizing counted with
  | nil =>
    cases counted with
    | none => rfl
    | some r => cases hmem r rfl
  | cons x l ih =>
    obtain ⟨hx, hnodup⟩ := List.nodup_cons.mp hnodup
    have hhead := congrArg UInt32.toNat (hcount x List.mem_cons_self)
    rw [UInt32.toNat_add] at hhead
    rw [List.map_cons, List.sum_cons, List.map_cons, List.sum_cons]
    by_cases hcounted : counted = some x
    · -- the rest of the list is not counted
      have hnowhere : ∀ r, none = some r → r ∈ l := fun r hr => by cases hr
      have hsame : ∀ r ∈ l, count' r = count r + one none r := by
        intro r hr
        have hne : counted ≠ some r := by
          rw [hcounted]
          intro heq
          exact hx (Option.some.inj heq ▸ hr)
        rw [hcount r (List.mem_cons_of_mem _ hr), one, if_neg hne]
        rfl
      have hrest := ih hnodup hnowhere hsame
      have hone : (one counted x).toNat = 1 := by
        rw [one, if_pos hcounted]
        rfl
      have hany : (anyOne counted).toNat = 1 := by
        rw [anyOne, if_neg (by rw [hcounted]; exact Option.some_ne_none x)]
        rfl
      have hnone : (anyOne none).toNat = 0 := rfl
      omega
    · have hbehind : ∀ r, counted = some r → r ∈ l := by
        intro r hr
        rcases List.mem_cons.mp (hmem r hr) with rfl | hin
        · exact absurd hr hcounted
        · exact hin
      have hrest := ih hnodup hbehind fun r hr => hcount r (List.mem_cons_of_mem _ hr)
      have hone : (one counted x).toNat = 0 := by
        rw [one, if_neg hcounted]
        rfl
      omega

/-- The book of a thread is in order: it was dispatched as often as it gave the processor back, but
for the time that it is running, and it has left at most once. -/
structure Book.InOrder (b : Book) : Prop where
  ledger : b.dispatches = b.yields + b.exits + (if b.state = .running then 1 else 0)
  once : b.exits = 0 ∨ (b.exits = 1 ∧ b.state = .exited)

theorem Book.InOrder.unspent {b : Book} (h : b.InOrder) (hstate : b.state ≠ .exited) : b.exits = 0 :=
  h.once.resolve_right fun hspent => hstate hspent.2

theorem Book.InOrder.move {t : System} {a : UInt32} (h : (t.sched.task (.thread a)).book.InOrder)
    (hlegal : m.Legal t) : (m.record (.thread a) (t.sched.task (.thread a)).book).InOrder := by
  -- a move that is about another task leaves the three counters and the state
  have hkeep : ∀ m : Move, newState m.stateOf (.thread a) (t.sched.task (.thread a)).book.state =
      (t.sched.task (.thread a)).book.state → one m.dispatchOf (.thread a) = 0 →
      one m.yieldOf (.thread a) = 0 →
      one m.exitOf (.thread a) = 0 → (m.record (.thread a) (t.sched.task (.thread a)).book).InOrder := by
    intro m hstate hdispatch hyield hexit
    refine ⟨?_, ?_⟩
    · simpa only [Move.record, hstate, hdispatch, hyield, hexit, UInt32.add_zero] using h.ledger
    · simpa only [Move.record, hstate, hexit, UInt32.add_zero] using h.once
  have hledger := h.ledger
  have hunspent := h.unspent
  generalize hb : (t.sched.task (.thread a)).book = b at hkeep hledger hunspent ⊢
  have hstate : (t.sched.task (.thread a)).state = b.state := congrArg Book.state hb
  cases m with
  | rest => exact hkeep _ rfl rfl rfl rfl
  | tick r => exact hkeep _ rfl rfl rfl rfl
  | create c => exact hkeep _ rfl rfl rfl rfl
  | dispatch c =>
    by_cases hc : c = a
    · subst hc
      have hready := hstate.symm.trans hlegal.2
      have hexits := hunspent (by rw [hready]; decide)
      refine ⟨?_, Or.inl ?_⟩
      · simp [Move.record, newState, one, hledger, hready, hexits]
      · simp [Move.record, one, hexits]
    · exact hkeep _ (by simp [newState, Ne.symm hc]) (by simp [one, hc]) rfl rfl
  | retire c =>
    by_cases hc : c = a
    · subst hc
      have hready := hstate.symm.trans hlegal.2
      have hexits := hunspent (by rw [hready]; decide)
      refine ⟨?_, Or.inl ?_⟩
      · simp [Move.record, newState, one, hledger, hready]
      · simp [Move.record, one, hexits]
    · exact hkeep _ (by simp [newState, Ne.symm hc]) rfl rfl rfl
  | yield c =>
    by_cases hc : c = a
    · subst hc
      have hrunning := hstate.symm.trans hlegal.2
      have hexits := hunspent (by rw [hrunning]; decide)
      refine ⟨?_, Or.inl ?_⟩
      · simp [Move.record, newState, one, hledger, hrunning, hexits]
      · simp [Move.record, one, hexits]
    · exact hkeep _ (by simp [newState, Ne.symm hc]) rfl (by simp [one, hc]) rfl
  | exit c =>
    by_cases hc : c = a
    · subst hc
      have hrunning := hstate.symm.trans hlegal.2
      have hexits := hunspent (by rw [hrunning]; decide)
      refine ⟨?_, Or.inr ⟨?_, ?_⟩⟩
      · simp [Move.record, newState, one, hledger, hrunning, hexits]
      · simp [Move.record, one, hexits]
      · simp [Move.record, newState]
    · exact hkeep _ (by simp [newState, Ne.symm hc]) rfl rfl (by simp [one, hc])

/-- The totals are the sums of the counters of the tasks, and the counters of every thread agree
with its state. -/
structure Balanced (t : System) : Prop where
  dispatches : t.sched.totalDispatches.toNat =
    sumOver t.created (fun r => (t.sched.task r).dispatchCount) % 2 ^ 32
  yields : t.sched.totalYields.toNat = sumOver t.created (fun r => (t.sched.task r).yieldCount) % 2 ^ 32
  ticks : t.sched.tickCounter.toNat = sumOver t.created (fun r => (t.sched.task r).totalTicks) % 2 ^ 32
  ledger : ∀ a ∈ t.created, (t.sched.task (.thread a)).dispatchCount =
    (t.sched.task (.thread a)).yieldCount +
    (t.sched.task (.thread a)).exitCount + (if (t.sched.task (.thread a)).state = .running then 1 else 0)
  once : ∀ a ∈ t.created, (t.sched.task (.thread a)).exitCount ≤ 1

/-- The invariant behind the balance. -/
structure Audited (t : System) : Prop where
  dispatches : t.sched.totalDispatches.toNat =
    sumOver t.created (fun r => (t.sched.task r).book.dispatches) % 2 ^ 32
  yields : t.sched.totalYields.toNat = sumOver t.created (fun r => (t.sched.task r).book.yields) % 2 ^ 32
  ticks : t.sched.tickCounter.toNat = sumOver t.created (fun r => (t.sched.task r).book.ticks) % 2 ^ 32
  threads : ∀ a ∈ t.created, (t.sched.task (.thread a)).book.InOrder

theorem Audited.balanced {t : System} (h : Audited t) : Balanced t := by
  refine ⟨h.dispatches, h.yields, h.ticks, fun a ha => (h.threads a ha).ledger, fun a ha => ?_⟩
  rcases (h.threads a ha).once with hzero | ⟨hone, _⟩
  · exact hzero.trans_le (by decide)
  · exact hone.trans_le (by decide)

theorem total_moves {created new : List UInt32} (hnodup : (tasks created).Nodup)
    {total total' : UInt32} {count count' : Ref → UInt32} {counted : Option Ref}
    (htotal : total.toNat = sumOver created count % 2 ^ 32)
    (hmem : ∀ r, counted = some r → r ∈ tasks created)
    (hcount : ∀ r ∈ tasks created, count' r = count r + one counted r)
    (hnew : ∀ a ∈ new, count' (.thread a) = 0) (hmoved : total' = total + anyOne counted) :
    total'.toNat = sumOver (created ++ new) count' % 2 ^ 32 := by
  have hsum := sum_one hnodup hmem hcount
  have hzero : ((new.map Ref.thread).map fun r => (count' r).toNat).sum = 0 := by
    rw [List.map_map]
    refine List.sum_eq_zero fun x hx => ?_
    obtain ⟨a, ha, rfl⟩ := List.mem_map.mp hx
    simp [hnew a ha]
  have happend : tasks (created ++ new) = tasks created ++ new.map .thread := by
    rw [tasks, tasks, List.map_append, List.cons_append]
  have hsplit : sumOver (created ++ new) count' = ((tasks created).map fun r => (count' r).toNat).sum := by
    rw [sumOver, happend, List.map_append, List.sum_append, hzero, Nat.add_zero]
  rw [hsplit, hsum, hmoved, UInt32.toNat_add, htotal, sumOver]
  exact Nat.mod_add_mod _ _ _

theorem Audited.move {t t' : System} (h : Audited t) (hnodup : (tasks t.created).Nodup)
    (hm : Performs m t t') : Audited t' := by
  have hlegal := hm.legal
  have hthread : ∀ a ∈ t.created, Ref.thread a ∈ tasks t.created := fun a ha => thread_mem_tasks.mpr ha
  have hcounted : ∀ r, m.dispatchOf = some r ∨ m.yieldOf = some r ∨ m.tickOf = some r →
      r ∈ tasks t.created := by
    intro r hr
    cases m with
    | rest => simp at hr
    | retire a => simp at hr
    | exit a => simp at hr
    | create a => simp at hr
    | dispatch a =>
      obtain rfl : Ref.thread a = r := by simpa using hr
      exact hthread a hlegal.1
    | yield a =>
      obtain rfl : Ref.thread a = r := by simpa using hr
      exact hthread a hlegal.1
    | tick q =>
      obtain rfl : q = r := by simpa using hr
      exact hlegal
  refine ⟨?_, ?_, ?_, fun a ha => ?_⟩
  · rw [hm.created]
    exact total_moves hnodup h.dispatches (fun r hr => hcounted r (Or.inl hr))
      (fun r hr => congrArg Book.dispatches (hm.books r hr))
        (fun a ha => congrArg Book.dispatches (hm.fresh a ha))
      hm.dispatches
  · rw [hm.created]
    exact total_moves hnodup h.yields (fun r hr => hcounted r (Or.inr (Or.inl hr)))
      (fun r hr => congrArg Book.yields (hm.books r hr))
        (fun a ha => congrArg Book.yields (hm.fresh a ha)) hm.yields
  · rw [hm.created]
    exact total_moves hnodup h.ticks (fun r hr => hcounted r (Or.inr (Or.inr hr)))
      (fun r hr => congrArg Book.ticks (hm.books r hr))
        (fun a ha => congrArg Book.ticks (hm.fresh a ha)) hm.ticks
  · rw [hm.created] at ha
    rcases List.mem_append.mp ha with hold | hnew
    · rw [hm.books _ (hthread a hold)]
      exact (h.threads a hold).move hlegal
    · rw [hm.fresh a hnew]
      exact ⟨rfl, Or.inl rfl⟩

/-- In every state that the calls after `scheduler_init` reach, the counters balance. -/
theorem accounting_balances {kernelEnd : UInt32} (hfits : Heap.HeapFits kernelEnd) {heap : Heap.State}
    (hheap : Heap.Reachable kernelEnd heap) (idleName : UInt32) (s : State) (ops : List Op)
    (hcaller : Allowed step CallerOk (System.boot idleName s heap) ops) :
    ∃ t, run step (System.boot idleName s heap) ops = some t ∧ Balanced t := by
  obtain ⟨start, hboot⟩ := inv_boot hfits hheap idleName s
  have hzero : Audited (System.boot idleName s heap) := ⟨rfl, rfl, rfl, fun a ha => by cases ha⟩
  have hrun : ∃ t, run step (System.boot idleName s heap) ops = some t ∧ Inv start t ∧ Audited t := by
    apply run_invariant (P := fun t => Inv start t ∧ Audited t) _ ⟨hboot, hzero⟩ hcaller
    intro t op ht hok
    obtain ⟨t', hs, hinv, _⟩ := ht.1.step op hok
    obtain ⟨m, hm⟩ := ht.1.performs hok hs
    exact ⟨t', hs, hinv, ht.2.move (tasks_nodup ht.1.shape.nodup) hm⟩
  obtain ⟨t, ht, _, haudited⟩ := hrun
  exact ⟨t, ht, haudited.balanced⟩

theorem accounting_balances_one_thread :
    ∃ t, run step (System.boot 0x00101000 bootState (Heap.heapInit 0x00200000 Heap.bootState))
      [.create 0x00101010 0x00100000 0 0, .tick, .dispatch, .tick, .yield] = some t ∧ Balanced t :=
  have hallowed := ⟨trivial, fun _ _ => ⟨trivial, fun _ _ => ⟨trivial, fun _ _ => ⟨trivial, fun _ _ =>
    ⟨trivial, fun _ _ => trivial⟩⟩⟩⟩⟩
  accounting_balances (by decide) Heap.reachable_init 0x00101000 bootState _ hallowed

end TermobKernel.Scheduler
