import TermobKernel.Scheduler.Rotation

/-!
# Wake-ups

While a task is ready in the kernel loop, a dispatch is pending, and it does not fall back to the
idle task. The flag is set by threads, by the kernel loop and by the timer; it is cleared when a
task gets the processor and when nobody is ready.
-/

namespace TermobKernel.Scheduler
open Links Runs

variable {s : State}

/-! ### No lost wake-up -/

/-- In the kernel loop a dispatch is pending while a task is ready. -/
def Awake (t : System) : Prop :=
  t.sched.inThreadContext = false → (∃ a ∈ t.created, (t.sched.task (.thread a)).state = .ready) →
    t.sched.reschedulePending = true

theorem Shape.dispatchEnd_awake {created : List UInt32} (h : Shape created s)
    (hready : ∃ a ∈ created, ((schedulerDispatchEnd s).task (.thread a)).state = .ready) :
    (schedulerDispatchEnd s).reschedulePending = true := by
  rw [(dispatchEnd_keeps s).1] at hready
  have hshape : Shape created { s with inThreadContext := false, currentTaskPtr := some .idle } :=
    h.keep rfl h.last h.idleState
  unfold schedulerDispatchEnd
  dsimp only
  rw [if_pos (hshape.hasReady_iff.mpr hready)]

theorem schedulerHandleTick_pending (h : s.reschedulePending = true) :
    (schedulerHandleTick s).reschedulePending = true := by
  unfold schedulerHandleTick
  split
  · dsimp only
    split
    · rfl
    · exact h
  · exact h

theorem markTaskCorrupt_pending {r : Ref} (message : String) (h : (s.task r).state ≠ .exited) :
    (schedulerMarkTaskCorrupt s r message).reschedulePending = true := by
  unfold schedulerMarkTaskCorrupt
  rw [if_neg h]
  rfl

section awake
variable {start : UInt32} {t t' : System}

theorem Awake.dispatch (hawake : Awake t) (h : Inv start t)
    (hs : Scheduler.step t .dispatch = some t') : Awake t' := by
  intro hkernel hready
  obtain ⟨t'', hstep, hinv, _⟩ := h.dispatch
  obtain rfl := Option.some.inj (hs.symm.trans hstep)
  have heffect := h.dispatch_effect hs
  unfold Scheduler.step at hs
  rcases h.control with ⟨_, hk⟩ | ⟨a, _, ht⟩
  · rcases h.shape.dispatch_cases hk t.heap with
      ⟨_, heq⟩ | ⟨_, hidle, heq⟩ | ⟨a, ha, _, _, hstate, ⟨_, heq⟩ | ⟨_, heq⟩⟩
    · rw [heq] at hs
      cases hs
      exact hawake hkernel hready
    · -- the idle task is chosen when nobody is ready
      rw [heq] at hs
      cases hs
      obtain ⟨a, _, hpick, _⟩ := h.shape.pick_ready hready
      rw [hidle] at hpick
      cases hpick
    · rw [heq] at hs
      cases hs
      apply markTaskCorrupt_pending
      rw [hstate]
      exact TaskState.noConfusion
    · rcases heffect with ⟨_, hreturns⟩ | ⟨b, hchooses⟩
      · rw [heq] at hreturns
        cases hreturns
      rcases hchooses.outcome with ⟨_, _, _, hreturns⟩ | ⟨_, hrunning, _⟩
      · rw [heq] at hreturns
        cases hreturns
      have hmem : b ∈ t'.created := by
        rw [hchooses.created]
        exact hchooses.mem
      rcases hinv.control with ⟨_, hk'⟩ | ⟨c, _, ht'⟩
      · exact absurd hrunning (hk'.still b hmem)
      · rw [ht'.flag] at hkernel
        cases hkernel
  · rw [schedulerDispatchBegin, if_pos (Or.inr (Or.inl ht.flag)), System.settle] at hs
    cases hs
    exact hawake hkernel hready

theorem Awake.yield (hawake : Awake t) (h : Inv start t) (hs : Scheduler.step t .yield = some t') :
    Awake t' := by
  unfold Scheduler.step at hs
  rcases h.control with ⟨_, hk⟩ | ⟨a, _, ht⟩
  · rw [schedulerYieldBegin, if_pos (Or.inr hk.flag), System.settle] at hs
    cases hs
    exact hawake
  · obtain ⟨s, heq, hev, _⟩ := h.shape.yieldBegin ht t.heap
    rw [heq] at hs
    cases hs
    exact fun _ hready => hev.shape.dispatchEnd_awake hready

theorem awake_exit (h : Inv start t) (hcaller : t.running ≠ none)
    (hs : Scheduler.step t .exit = some t') : Awake t' := by
  unfold Scheduler.step at hs
  rcases h.control with ⟨hrunning, _⟩ | ⟨a, _, ht⟩
  · exact absurd hrunning hcaller
  · obtain ⟨s, heq, hev, _⟩ := h.shape.exitCurrent ht.mem ht.current fun b hb => (ht.only b hb).mp
    rw [heq] at hs
    cases hs
    exact fun _ hready => hev.shape.dispatchEnd_awake hready

theorem Awake.tick (hawake : Awake t) (hs : Scheduler.step t .tick = some t') : Awake t' := by
  cases hs
  intro hkernel hready
  obtain ⟨_, _, _, hflag, hstate⟩ := schedulerHandleTick_keeps t.sched
  apply schedulerHandleTick_pending
  apply hawake (hflag.symm.trans hkernel)
  obtain ⟨a, ha, hready⟩ := hready
  exact ⟨a, ha, (hstate _).symm.trans hready⟩

theorem Awake.create (hawake : Awake t) (h : Inv start t) {name entry context stackSizeBytes : UInt32}
    (hs : Scheduler.step t (.create name entry context stackSizeBytes) = some t') : Awake t' := by
  simp only [Scheduler.step, Option.map_eq_some_iff] at hs
  obtain ⟨⟨address, s, heap⟩, heq, rfl⟩ := hs
  rcases create_cases heq with ⟨haddress, log, rfl⟩ | ⟨_, task, _, rfl⟩
  · dsimp only
    rw [if_pos haddress]
    exact hawake
  · obtain ⟨_, _, _, _, _, _, _, hpending⟩ := schedulerRegister_statics h.shape address task
    exact fun _ _ => hpending

theorem Awake.step (hawake : Awake t) (h : Inv start t) {op : Op} (hok : CallerOk t op)
    (hs : Scheduler.step t op = some t') : Awake t' := by
  cases op with
  | dispatch => exact hawake.dispatch h hs
  | yield => exact hawake.yield h hs
  | exit => exact awake_exit h hok hs
  | tick => exact hawake.tick hs
  | create name entry context stackSizeBytes => exact hawake.create h hs
  | scribble address value =>
    cases hs
    exact hawake

end awake

/-- In the kernel loop with a ready task: a dispatch is pending, and it gives the processor to a
ready task whose guard is intact or retires one whose guard is not. -/
def NoLostWakeup (t : System) : Prop :=
  t.sched.inThreadContext = false →
    (∃ r ∈ tasks t.created, (t.sched.task r).isIdle = false ∧ (t.sched.task r).state = .ready) →
    t.sched.reschedulePending = true ∧
      ∃ r ∈ tasks t.created, (t.sched.task r).isIdle = false ∧ (t.sched.task r).state = .ready ∧
        ((schedulerStackGuardOk t.heap (t.sched.task r) = true ∧
            (schedulerDispatchBegin t.heap t.sched).1 = .switchTo r) ∨
          (schedulerStackGuardOk t.heap (t.sched.task r) = false ∧
            (schedulerDispatchBegin t.heap t.sched).1 = .returns ∧
            ((schedulerDispatchBegin t.heap t.sched).2.task r).state = .exited ∧
            (schedulerDispatchBegin t.heap t.sched).2.reschedulePending = true))

theorem Awake.noLostWakeup {start : UInt32} {t : System} (hawake : Awake t) (h : Inv start t) :
    NoLostWakeup t := by
  intro hkernel hready
  obtain ⟨a, ha, hstate⟩ : ∃ a ∈ t.created, (t.sched.task (.thread a)).state = .ready := by
    obtain ⟨r, hr, hidle, hstate⟩ := hready
    obtain ⟨a, ha, rfl, hstate⟩ := (h.shape.eligible_iff hr).mp ⟨hstate, Or.inr hidle⟩
    exact ⟨a, ha, hstate⟩
  have hpending := hawake hkernel ⟨a, ha, hstate⟩
  refine ⟨hpending, ?_⟩
  rcases h.control with ⟨_, hk⟩ | ⟨c, _, ht⟩
  · rcases h.shape.dispatch_cases hk t.heap with
      ⟨hno, _⟩ | ⟨_, hidle, _⟩ | ⟨b, hb, _, _, hready, ⟨hguard, heq⟩ | ⟨hguard, heq⟩⟩
    · rw [hpending] at hno
      cases hno
    · obtain ⟨b, _, hpick, _⟩ := h.shape.pick_ready ⟨a, ha, hstate⟩
      rw [hidle] at hpick
      cases hpick
    · obtain ⟨_, _, _, hexited⟩ :=
        markTaskCorrupt_task t.sched (.thread b) "TERMOB: scheduler stack guard corrupted"
      refine ⟨.thread b, thread_mem_tasks.mpr hb, (h.shape.threads b hb).1, hready, Or.inr ⟨hguard, ?_⟩⟩
      rw [heq]
      refine ⟨rfl, hexited, markTaskCorrupt_pending _ ?_⟩
      rw [hready]
      exact TaskState.noConfusion
    · refine ⟨.thread b, thread_mem_tasks.mpr hb, (h.shape.threads b hb).1, hready, Or.inl ⟨hguard, ?_⟩⟩
      rw [heq]
  · rw [ht.flag] at hkernel
    cases hkernel

/-- In every state that the calls after `scheduler_init` reach, no ready task is forgotten. -/
theorem no_lost_wakeup {kernelEnd : UInt32} (hfits : Heap.HeapFits kernelEnd) {heap : Heap.State}
    (hheap : Heap.Reachable kernelEnd heap) (idleName : UInt32) (s : State) (ops : List Op)
    (hcaller : Allowed step CallerOk (System.boot idleName s heap) ops) :
    ∃ t, run step (System.boot idleName s heap) ops = some t ∧ NoLostWakeup t := by
  obtain ⟨start, hboot⟩ := inv_boot hfits hheap idleName s
  have hrun : ∃ t, run step (System.boot idleName s heap) ops = some t ∧ Inv start t ∧ Awake t := by
    apply run_invariant (P := fun t => Inv start t ∧ Awake t) _ ⟨hboot, fun _ _ => rfl⟩ hcaller
    intro t op ht hok
    obtain ⟨t', hs, hinv, _⟩ := ht.1.step op hok
    exact ⟨t', hs, hinv, ht.2.step ht.1 hok hs⟩
  obtain ⟨t, ht, hinv, hawake⟩ := hrun
  exact ⟨t, ht, hawake.noLostWakeup hinv⟩

theorem no_lost_wakeup_one_thread :
    ∃ t, run step (System.boot 0x00101000 bootState (Heap.heapInit 0x00200000 Heap.bootState))
      [.create 0x00101010 0x00100000 0 0, .tick, .dispatch, .yield] = some t ∧ NoLostWakeup t :=
  have hallowed :=
    ⟨trivial, fun _ _ => ⟨trivial, fun _ _ => ⟨trivial, fun _ _ => ⟨trivial, fun _ _ => trivial⟩⟩⟩⟩
  no_lost_wakeup (by decide) Heap.reachable_init 0x00101000 bootState _ hallowed

end TermobKernel.Scheduler
