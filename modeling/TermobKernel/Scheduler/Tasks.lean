import TermobKernel.Scheduler.Model
import TermobKernel.Library.Links
import TermobKernel.Library.Word

/-!
# The task list and the running task

What each function of the scheduler does to the list of tasks and to the states of the tasks. The
list is the idle task followed by the created ones; between two calls the processor is either in the
kernel loop, with no task running, or in the one task that is running.
-/

namespace TermobKernel.Scheduler
open Links Word

variable {created : List UInt32}

/-- The idle task and the created tasks, in the order of the list. -/
def tasks (created : List UInt32) : List Ref := .idle :: created.map .thread

theorem idle_mem_tasks (created : List UInt32) : Ref.idle ∈ tasks created := List.mem_cons_self ..

theorem thread_mem_tasks {a : UInt32} : Ref.thread a ∈ tasks created ↔ a ∈ created := by
  simp [tasks]

theorem tasks_nodup (h : created.Nodup) : (tasks created).Nodup := by
  refine List.nodup_cons.mpr ⟨by simp, h.map fun x y hxy => ?_⟩
  injection hxy

/-! ### What stays -/

/-- The fields that say which tasks there are. -/
def skeleton (s : State) :
    Option Ref × Option Ref × UInt32 × Bool × (Ref → Option Ref × Bool × UInt32 × UInt32) :=
  (s.taskListHead, s.taskListTail, s.totalTasks, s.ready,
    fun r => ((s.task r).next, (s.task r).isIdle, (s.task r).entry, (s.task r).stackBase))

/-- The list of tasks is well formed and holds exactly the created ones. -/
structure Shape (created : List UInt32) (s : State) : Prop where
  linked : Linked (fun r => (s.task r).next) s.taskListHead (tasks created)
  tail : s.taskListTail = (tasks created).getLast?
  nodup : created.Nodup
  total : s.totalTasks.toNat = created.length + 1
  ready : s.ready = true
  last : ∃ r ∈ tasks created, s.lastTaskPtr = some r
  idleFlag : (s.task .idle).isIdle = true
  idleState : (s.task .idle).state = .ready
  threads : ∀ a ∈ created, (s.task (.thread a)).isIdle = false ∧ (s.task (.thread a)).entry ≠ 0

@[simp] theorem modify_task (s : State) (r q : Ref) (f : Task → Task) :
    (s.modify r f).task q = if q = r then f (s.task q) else s.task q := rfl

@[simp] theorem schedulerLogEvent_task (s : State) (message : String) :
    (schedulerLogEvent s message).task = s.task :=
  rfl

theorem skeleton_eq {s s' : State} (r : Ref)
    (hstatics : s'.taskListHead = s.taskListHead ∧ s'.taskListTail = s.taskListTail ∧
      s'.totalTasks = s.totalTasks ∧ s'.ready = s.ready)
    (hother : ∀ q, q ≠ r → s'.task q = s.task q)
    (hsame : (s'.task r).next = (s.task r).next ∧ (s'.task r).isIdle = (s.task r).isIdle ∧
      (s'.task r).entry = (s.task r).entry ∧ (s'.task r).stackBase = (s.task r).stackBase) :
    skeleton s' = skeleton s := by
  obtain ⟨h1, h2, h3, h4⟩ := hstatics
  obtain ⟨h5, h6, h7, h8⟩ := hsame
  simp only [skeleton, Prod.mk.injEq]
  refine ⟨h1, h2, h3, h4, ?_⟩
  funext q
  by_cases hq : q = r
  · rw [hq, h5, h6, h7, h8]
  · rw [hother q hq]

section shape
variable {created : List UInt32} {s s' : State}

theorem Shape.keep (h : Shape created s) (hskel : skeleton s' = skeleton s)
    (hlast : ∃ r ∈ tasks created, s'.lastTaskPtr = some r) (hidle : (s'.task .idle).state = .ready) :
    Shape created s' := by
  simp only [skeleton, Prod.mk.injEq] at hskel
  obtain ⟨hhead, htail, htotal, hready, hfields⟩ := hskel
  have hfield : ∀ r, (s'.task r).next = (s.task r).next ∧ (s'.task r).isIdle = (s.task r).isIdle ∧
      (s'.task r).entry = (s.task r).entry := by
    intro r
    have := congrFun hfields r
    simp only [Prod.mk.injEq] at this
    exact ⟨this.1, this.2.1, this.2.2.1⟩
  refine ⟨?_, htail.trans h.tail, h.nodup, by rw [htotal, h.total], hready.trans h.ready, hlast,
    (hfield .idle).2.1.trans h.idleFlag, hidle, fun a ha => ?_⟩
  · rw [hhead]
    exact h.linked.congr fun r _ => (hfield r).1
  · obtain ⟨_, hflag, hentry⟩ := hfield (.thread a)
    rw [hflag, hentry]
    exact h.threads a ha

theorem Shape.head (h : Shape created s) : s.taskListHead = some .idle := h.linked.1

theorem Shape.nextAfter_mem (h : Shape created s) {r : Ref} (hr : r ∈ tasks created) :
    ∃ q ∈ tasks created, schedulerNextTaskAfter s (some r) = some q := by
  cases hnext : (s.task r).next with
  | none => exact ⟨.idle, idle_mem_tasks created, by simp only [schedulerNextTaskAfter, hnext, h.head]⟩
  | some q => exact ⟨q, h.linked.next_mem hr hnext, by simp only [schedulerNextTaskAfter, hnext]⟩

theorem Shape.pickLoop_cases (h : Shape created s) (preferNonIdle : Bool) :
    ∀ (count : Nat) {r : Ref}, r ∈ tasks created →
      schedulerPickLoop s preferNonIdle count (some r) = .idle ∨
        ∃ a ∈ created, schedulerPickLoop s preferNonIdle count (some r) = .thread a ∧
          (s.task (.thread a)).state = .ready := by
  intro count
  induction count with
  | zero =>
    intro r _
    exact Or.inl rfl
  | succ count ih =>
    intro r hr
    rw [schedulerPickLoop]
    split
    · rename_i hready
      cases r with
      | idle => exact Or.inl rfl
      | thread a => exact Or.inr ⟨a, thread_mem_tasks.mp hr, rfl, hready.1⟩
    · obtain ⟨q, hq, hnext⟩ := h.nextAfter_mem hr
      rw [hnext]
      exact ih hq

theorem Shape.pick_cases (h : Shape created s) :
    schedulerPickNextTask s = .idle ∨
      ∃ a ∈ created, schedulerPickNextTask s = .thread a ∧ (s.task (.thread a)).state = .ready := by
  obtain ⟨r, hr, hlast⟩ := h.last
  obtain ⟨q, hq, hnext⟩ := h.nextAfter_mem hr
  rw [schedulerPickNextTask, if_neg (by simp [h.head]), hlast, hnext]
  exact h.pickLoop_cases _ _ hq

end shape

/-! ### Kernel loop and threads -/

structure InKernel (created : List UInt32) (s : State) : Prop where
  flag : s.inThreadContext = false
  current : s.currentTaskPtr = some .idle
  still : ∀ a ∈ created, (s.task (.thread a)).state ≠ .running

structure InThread (created : List UInt32) (a : UInt32) (s : State) : Prop where
  mem : a ∈ created
  flag : s.inThreadContext = true
  current : s.currentTaskPtr = some (.thread a)
  only : ∀ b ∈ created, (s.task (.thread b)).state = .running ↔ b = a

def KeepsExited (created : List UInt32) (s s' : State) : Prop :=
  ∀ a ∈ created, (s.task (.thread a)).state = .exited → (s'.task (.thread a)).state = .exited

/-- What a call that creates no task leaves: the list, and the exited tasks. -/
structure Evolves (created : List UInt32) (s s' : State) : Prop where
  shape : Shape created s'
  skeleton : skeleton s' = skeleton s
  exited : KeepsExited created s s'

theorem Evolves.trans {s s' s'' : State} (h : Evolves created s s')
    (h' : Evolves created s' s'') : Evolves created s s'' :=
  ⟨h'.shape, h'.skeleton.trans h.skeleton, fun a ha hs => h'.exited a ha (h.exited a ha hs)⟩

section steps
variable {created : List UInt32} {s : State} (hshape : Shape created s)
variable {a : UInt32}
include hshape

theorem Shape.evolves {s' : State} (hskel : skeleton s' = skeleton s)
    (hlast : ∃ r ∈ tasks created, s'.lastTaskPtr = some r) (hidle : (s'.task .idle).state = .ready)
    (hexit : KeepsExited created s s') : Evolves created s s' :=
  ⟨hshape.keep hskel hlast hidle, hskel, hexit⟩

theorem Shape.evolves_of_task_eq {s' : State} (hskel : skeleton s' = skeleton s) (htask : s'.task = s.task)
    (hlast : s'.lastTaskPtr = s.lastTaskPtr) : Evolves created s s' := by
  apply hshape.evolves hskel
  · rw [hlast]
    exact hshape.last
  · rw [htask]
    exact hshape.idleState
  · intro a _ hexit
    rw [htask]
    exact hexit

theorem Shape.dispatchEnd (hstill : ∀ a ∈ created, (s.task (.thread a)).state ≠ .running) :
    Evolves created s (schedulerDispatchEnd s) ∧ InKernel created (schedulerDispatchEnd s) := by
  unfold schedulerDispatchEnd
  dsimp only
  split
  · exact ⟨hshape.evolves_of_task_eq rfl rfl rfl, ⟨rfl, rfl, hstill⟩⟩
  · exact ⟨hshape.evolves_of_task_eq rfl rfl rfl, ⟨rfl, rfl, hstill⟩⟩

theorem Shape.exitCurrent (ha : a ∈ created) (hcurrent : s.currentTaskPtr = some (.thread a))
    (hothers : ∀ b ∈ created, (s.task (.thread b)).state = .running → b = a) :
    ∃ s', schedulerExitCurrentTask s = (.switchToKernel, s') ∧ Evolves created s s' ∧
      ∀ b ∈ created, (s'.task (.thread b)).state ≠ .running := by
  unfold schedulerExitCurrentTask
  rw [hcurrent]
  dsimp only
  rw [if_neg (by simp [(hshape.threads a ha).1])]
  refine ⟨_, rfl, hshape.evolves ?_ hshape.last ?_ fun b hb hexit => ?_, fun b hb hrun => ?_⟩
  · exact skeleton_eq (.thread a) ⟨rfl, rfl, rfl, rfl⟩ (fun q hq => if_neg hq) (by simp)
  · simpa using hshape.idleState
  · by_cases hba : b = a
    · simp [hba]
    · simpa [hba] using hexit
  · by_cases hba : b = a
    · subst hba
      simp at hrun
    · have hkeep : (s.task (.thread b)).state = .running := by simpa [hba] using hrun
      exact hba (hothers b hb hkeep)

theorem Shape.markCorrupt (message : String) :
    Evolves created s (schedulerMarkTaskCorrupt s (.thread a) message) ∧
      (schedulerMarkTaskCorrupt s (.thread a) message).currentTaskPtr = s.currentTaskPtr ∧
      (schedulerMarkTaskCorrupt s (.thread a) message).inThreadContext = s.inThreadContext ∧
      ∀ b ∈ created, ((schedulerMarkTaskCorrupt s (.thread a) message).task (.thread b)).state = .running →
        (s.task (.thread b)).state = .running := by
  unfold schedulerMarkTaskCorrupt
  split
  · exact ⟨hshape.evolves_of_task_eq rfl rfl rfl, rfl, rfl, fun _ _ h => h⟩
  · refine ⟨hshape.evolves ?_ hshape.last ?_ fun b _ hexit => ?_, rfl, rfl, fun b _ hrun => ?_⟩
    · exact skeleton_eq (.thread a) ⟨rfl, rfl, rfl, rfl⟩ (fun q hq => if_neg hq) (by simp)
    · simpa using hshape.idleState
    · by_cases hba : b = a
      · simp [hba]
      · simpa [hba] using hexit
    · by_cases hba : b = a
      · subst hba
        simp at hrun
      · simpa [hba] using hrun

theorem Shape.dispatchBegin (hk : InKernel created s) (heap : Heap.State) :
    (∃ s', schedulerDispatchBegin heap s = (.returns, s') ∧ Evolves created s s' ∧ InKernel created s') ∨
      ∃ a s', schedulerDispatchBegin heap s = (.switchTo (.thread a), s') ∧ Evolves created s s' ∧
        InThread created a s' ∧ (s.task (.thread a)).state = .ready := by
  unfold schedulerDispatchBegin
  by_cases hskip : s.ready = false ∨ s.inThreadContext = true ∨ s.reschedulePending = false
  · rw [if_pos hskip]
    exact Or.inl ⟨s, rfl, hshape.evolves_of_task_eq rfl rfl rfl, hk⟩
  rw [if_neg hskip]
  rcases hshape.pick_cases with hidle | ⟨a, ha, hpick, hready⟩
  · simp only [hidle, if_pos hshape.idleFlag]
    exact Or.inl ⟨_, rfl, hshape.evolves_of_task_eq rfl rfl rfl, ⟨hk.flag, rfl, hk.still⟩⟩
  · obtain ⟨hflag, _⟩ := hshape.threads a ha
    simp only [hpick]
    rw [if_neg (by simp [hflag])]
    by_cases hguard : schedulerStackGuardOk heap (s.task (.thread a)) = false
    · rw [if_pos hguard]
      obtain ⟨hev, hcur, hin, hrun⟩ := hshape.markCorrupt "TERMOB: scheduler stack guard corrupted" (a := a)
      exact Or.inl ⟨_, rfl, hev, ⟨hin.trans hk.flag, hcur.trans hk.current,
        fun b hb h => hk.still b hb (hrun b hb h)⟩⟩
    · rw [if_neg hguard]
      refine Or.inr ⟨a, _, rfl, hshape.evolves ?_ ⟨.thread a, thread_mem_tasks.mpr ha,
        rfl⟩ ?_ fun b hb hexit => ?_, ⟨ha, rfl, rfl, fun b hb => ?_⟩, hready⟩
      · exact skeleton_eq (.thread a) ⟨rfl, rfl, rfl, rfl⟩ (fun q hq => if_neg hq) (by simp)
      · simpa using hshape.idleState
      · have hne : b ≠ a := by
          rintro rfl
          rw [hready] at hexit
          cases hexit
        simpa [hne] using hexit
      · by_cases hba : b = a
        · simp [hba]
        · have := hk.still b hb
          simpa [hba] using this

theorem Shape.yieldEnd (ht : InThread created a s) :
    Evolves created s (schedulerYieldEnd s (.thread a)) ∧
        InThread created a (schedulerYieldEnd s (.thread a)) := by
  have hrun : (s.task (.thread a)).state = .running := (ht.only a ht.mem).mpr rfl
  unfold schedulerYieldEnd
  dsimp only
  rw [if_pos (by simp [hrun])]
  refine ⟨hshape.evolves ?_ hshape.last ?_ fun b hb hexit => ?_, ⟨ht.mem, rfl, rfl, fun b hb => ?_⟩⟩
  · exact skeleton_eq (.thread a) ⟨rfl, rfl, rfl, rfl⟩ (fun q hq => if_neg hq) (by simp)
  · simpa using hshape.idleState
  · have hne : b ≠ a := by
      rintro rfl
      rw [hrun] at hexit
      cases hexit
    simpa [hne] using hexit
  · by_cases hba : b = a
    · simp [hba]
    · simpa [hba] using ht.only b hb

theorem Shape.bootstrap (ht : InThread created a s) : schedulerTaskBootstrap s = (.returns, s) := by
  unfold schedulerTaskBootstrap
  rw [ht.current]
  exact if_neg (hshape.threads a ht.mem).2

theorem Shape.yieldBegin (ht : InThread created a s) (heap : Heap.State) :
    ∃ s', schedulerYieldBegin heap s = (.switchToKernel, s') ∧ Evolves created s s' ∧
      ∀ b ∈ created, (s'.task (.thread b)).state ≠ .running := by
  have hrun : (s.task (.thread a)).state = .running := (ht.only a ht.mem).mpr rfl
  unfold schedulerYieldBegin
  rw [if_neg (by simp [hshape.ready, ht.flag]), ht.current]
  dsimp only
  rw [if_neg (by simp [(hshape.threads a ht.mem).1])]
  by_cases hguard : schedulerStackGuardOk heap (s.task (.thread a)) = false
  · rw [if_pos hguard]
    obtain ⟨hev, hcur, _, hrun'⟩ := hshape.markCorrupt "TERMOB: scheduler stack guard corrupted" (a := a)
    obtain ⟨s', hs', hev', hstill⟩ := hev.shape.exitCurrent ht.mem (hcur.trans ht.current)
      fun b hb h => (ht.only b hb).mp (hrun' b hb h)
    exact ⟨s', hs', hev.trans hev', hstill⟩
  · rw [if_neg hguard]
    refine ⟨_, rfl, hshape.evolves ?_ hshape.last ?_ fun b hb hexit => ?_, fun b hb h => ?_⟩
    · exact skeleton_eq (.thread a) ⟨rfl, rfl, rfl, rfl⟩ (fun q hq => if_neg hq) (by simp)
    · simpa using hshape.idleState
    · have hne : b ≠ a := by
        rintro rfl
        rw [hrun] at hexit
        cases hexit
      simpa [hne] using hexit
    · by_cases hba : b = a
      · subst hba
        simp at h
      · have hkeep : (s.task (.thread b)).state = .running := by simpa [hba] using h
        exact hba ((ht.only b hb).mp hkeep)

end steps

/-! ### Ticks -/

theorem schedulerHandleTick_keeps (s : State) :
    skeleton (schedulerHandleTick s) = skeleton s ∧ (schedulerHandleTick s).lastTaskPtr = s.lastTaskPtr ∧
      (schedulerHandleTick s).currentTaskPtr = s.currentTaskPtr ∧
      (schedulerHandleTick s).inThreadContext = s.inThreadContext ∧
      ∀ r, ((schedulerHandleTick s).task r).state = (s.task r).state := by
  unfold schedulerHandleTick
  split
  · dsimp only
    split
    · refine ⟨?_, rfl, rfl, rfl, fun r => ?_⟩
      · exact skeleton_eq _ ⟨rfl, rfl, rfl, rfl⟩ (fun q hq => (if_neg hq).trans (if_neg hq)) (by simp)
      · simp only [modify_task]
        split
        · rfl
        · rfl
    · refine ⟨skeleton_eq _ ⟨rfl, rfl, rfl, rfl⟩ (fun q hq => if_neg hq) (by simp), rfl, rfl,
        rfl, fun r => ?_⟩
      simp only [modify_task]
      split
      · rfl
      · rfl
  · exact ⟨rfl, rfl, rfl, rfl, fun _ => rfl⟩

/-! ### A new task -/

section register
variable {created : List UInt32} {s : State} {a : UInt32} {t : Task}

theorem schedulerRegister_task (h : Shape created s) (ha : a ∉ created) (ht : t.next = none) (r : Ref) :
    (schedulerRegister s a t).task r =
      if r = .thread a then t
      else if some r = (tasks created).getLast? then { s.task r with
          next := some (.thread a) } else s.task r := by
  obtain ⟨z, hz⟩ : ∃ z, (tasks created).getLast? = some z :=
    ⟨(tasks created).getLast (by simp [tasks]), List.getLast?_eq_some_getLast _⟩
  have hza : z ≠ .thread a := by
    rintro rfl
    exact ha (thread_mem_tasks.mp (List.mem_of_getLast? hz))
  have htnext : { t with next := none } = t := by rw [← ht]
  unfold schedulerRegister schedulerLinkTask
  simp only [State.modify, schedulerLogEvent, h.head, h.tail, hz, Option.some.injEq]
  rw [if_neg (by simp)]
  dsimp only
  by_cases hra : r = .thread a
  · simp only [hra, if_true, if_neg hza.symm, htnext]
  · simp only [if_neg hra]

theorem schedulerRegister_statics (h : Shape created s) (a : UInt32) (t : Task) :
    (schedulerRegister s a t).taskListHead = s.taskListHead ∧
      (schedulerRegister s a t).taskListTail = some (.thread a) ∧
      (schedulerRegister s a t).totalTasks = s.totalTasks + 1 ∧ (schedulerRegister s a t).ready = s.ready ∧
      (schedulerRegister s a t).lastTaskPtr = s.lastTaskPtr ∧
      (schedulerRegister s a t).currentTaskPtr = s.currentTaskPtr ∧
      (schedulerRegister s a t).inThreadContext = s.inThreadContext ∧
      (schedulerRegister s a t).reschedulePending = true := by
  unfold schedulerRegister schedulerLinkTask
  simp only [State.modify, schedulerLogEvent, h.head]
  rw [if_neg (by simp)]
  cases s.taskListTail <;> simp

theorem Shape.register (h : Shape created s) (ha : a ∉ created) (hroom : created.length + 2 < 2 ^ 32)
    (ht : t.next = none ∧ t.isIdle = false ∧ t.entry ≠ 0) :
    Shape (created ++ [a]) (schedulerRegister s a t) := by
  have htask := schedulerRegister_task h ha ht.1
  obtain ⟨hhead, htail, htotal, hready, hlast, _⟩ := schedulerRegister_statics h a t
  have hsnoc : tasks (created ++ [a]) = tasks created ++ [.thread a] := by simp [tasks]
  have hnodup := tasks_nodup h.nodup
  -- the old list ends with `z`
  obtain ⟨l, z, hlz⟩ : ∃ l z, tasks created = l ++ [z] :=
    ⟨_, _, (List.dropLast_append_getLast (show tasks created ≠ [] by simp [tasks])).symm⟩
  have hz : (tasks created).getLast? = some z := by rw [hlz, List.getLast?_append]; rfl
  have hzl : z ∉ l := by
    rw [hlz, List.nodup_append] at hnodup
    exact fun hmem => hnodup.2.2 z hmem z (by simp) rfl
  have hza : z ≠ .thread a := by
    rintro rfl
    exact ha (thread_mem_tasks.mp (List.mem_of_getLast? hz))
  have hother : ∀ r ∈ tasks created, r ≠ .thread a := by
    rintro r hr rfl
    exact ha (thread_mem_tasks.mp hr)
  have hflags : ∀ r ∈ tasks created, ((schedulerRegister s a t).task r).isIdle = (s.task r).isIdle ∧
      ((schedulerRegister s a t).task r).entry = (s.task r).entry ∧
      ((schedulerRegister s a t).task r).state = (s.task r).state := by
    intro r hr
    rw [htask, if_neg (hother r hr)]
    split
    · exact ⟨rfl, rfl, rfl⟩
    · exact ⟨rfl, rfl, rfl⟩
  refine ⟨?_, ?_, ?_, ?_, hready.trans h.ready, ?_, ?_, ?_, fun b hb => ?_⟩
  · rw [hhead, hsnoc, hlz]
    refine (hlz ▸ h.linked).append_node hzl ?_ ?_ fun r hr => ?_
    · rw [htask, if_neg hza, if_pos hz.symm]
    · rw [htask, if_pos rfl]
      exact ht.1
    · have hrz : r ≠ z := fun e => hzl (e ▸ hr)
      rw [htask, if_neg (hother r (by rw [hlz]; simp [hr])), if_neg (by rw [hz]; simpa using hrz)]
  · rw [htail, hsnoc, List.getLast?_append]
    rfl
  · exact List.nodup_append.mpr ⟨h.nodup, List.nodup_singleton a, fun x hx y hy hxy => by
      rw [List.mem_singleton] at hy
      subst hy hxy
      exact ha hx⟩
  · have hsum := h.total
    rw [htotal, toNat_add_of_lt (by rw [UInt32.toNat_one]; omega), UInt32.toNat_one, List.length_append,
      List.length_singleton, hsum]
  · obtain ⟨r, hr, hptr⟩ := h.last
    exact ⟨r, by rw [hsnoc]; simp [hr], hlast.trans hptr⟩
  · exact (hflags _ (idle_mem_tasks created)).1.trans h.idleFlag
  · exact (hflags _ (idle_mem_tasks created)).2.2.trans h.idleState
  · rcases List.mem_append.mp hb with hold | hnew
    · obtain ⟨hflag, hentry, _⟩ := hflags _ (thread_mem_tasks.mpr hold)
      rw [hflag, hentry]
      exact h.threads b hold
    · rw [List.mem_singleton] at hnew
      rw [hnew, htask, if_pos rfl]
      exact ht.2

end register

end TermobKernel.Scheduler
