import TermobKernel.Scheduler.System

/-!
# Rotation

The choice of `scheduler_pick_next_task` goes around the ring of tasks from the one that was
dispatched last. A ready task keeps its place in the order until it is dispatched, so that no other
task is dispatched twice before it.
-/

namespace TermobKernel.Scheduler
open Links Runs

variable {s : State}

/-! ### The choice -/

def ring (s : State) : Ref → Option Ref := ringNext (fun r => (s.task r).next) s.taskListHead

theorem schedulerNextTaskAfter_some (s : State) (r : Ref) :
    schedulerNextTaskAfter s (some r) = ring s r := by
  unfold schedulerNextTaskAfter ring ringNext
  dsimp only
  cases (s.task r).next with
  | none => rfl
  | some q => rfl

def Eligible (s : State) (preferNonIdle : Bool) (r : Ref) : Prop :=
  (s.task r).state = .ready ∧ (preferNonIdle = false ∨ (s.task r).isIdle = false)

instance (s : State) (preferNonIdle : Bool) (r : Ref) : Decidable (Eligible s preferNonIdle r) :=
  inferInstanceAs (Decidable (_ ∧ _))

theorem schedulerPickLoop_trail (s : State) (preferNonIdle : Bool) {start : Option Ref} {l : List Ref}
    (h : Trail (ring s) start l) :
    schedulerPickLoop s preferNonIdle l.length start =
      (l.find? fun r => decide (Eligible s preferNonIdle r)).getD .idle := by
  induction l generalizing start with
  | nil => rfl
  | cons r l ih =>
    obtain ⟨rfl, hl⟩ := h
    rw [List.length_cons, schedulerPickLoop, schedulerNextTaskAfter_some, List.find?_cons, ih hl]
    by_cases hr : Eligible s preferNonIdle r
    · rw [if_pos (show _ ∧ _ from hr), decide_eq_true hr]
      rfl
    · rw [if_neg (show ¬(_ ∧ _) from hr), decide_eq_false hr]

theorem schedulerHasReadyLoop_linked (s : State) {start : Option Ref} {l : List Ref}
    (h : Linked (fun r => (s.task r).next) start l) :
    schedulerHasReadyLoop s l.length start = l.any fun r => decide (Eligible s true r) := by
  induction l generalizing start with
  | nil => rfl
  | cons r l ih =>
    obtain ⟨rfl, hl⟩ := h
    rw [List.length_cons, schedulerHasReadyLoop, List.any_cons, ih hl]
    by_cases hr : Eligible s true r
    · have hr' : (s.task r).isIdle = false ∧ (s.task r).state = .ready :=
        ⟨hr.2.resolve_left (by simp), hr.1⟩
      rw [if_pos hr', decide_eq_true hr, Bool.true_or]
    · have hr' : ¬((s.task r).isIdle = false ∧ (s.task r).state = .ready) := fun h => hr ⟨h.2, Or.inr h.1⟩
      rw [if_neg hr', decide_eq_false hr, Bool.false_or]

section shape
variable {created : List UInt32} {s : State}

theorem Shape.total_eq (h : Shape created s) : s.totalTasks.toNat = (tasks created).length := by
  rw [h.total, tasks, List.length_cons, List.length_map]

theorem Shape.eligible_iff (h : Shape created s) {r : Ref} (hr : r ∈ tasks created) :
    Eligible s true r ↔ ∃ a ∈ created, r = .thread a ∧ (s.task (.thread a)).state = .ready := by
  cases r with
  | idle =>
    constructor
    · intro he
      have hidle := he.2.resolve_left (by simp)
      rw [h.idleFlag] at hidle
      cases hidle
    · intro ⟨a, _, ha, _⟩
      cases ha
  | thread a =>
    have ha := thread_mem_tasks.mp hr
    constructor
    · intro he
      exact ⟨a, ha, rfl, he.1⟩
    · intro ⟨b, hb, hab, hready⟩
      cases hab
      exact ⟨hready, Or.inr (h.threads a hb).1⟩

theorem Shape.hasReady_iff (h : Shape created s) :
    schedulerHasReadyNonIdleTask s = true ↔ ∃ a ∈ created, (s.task (.thread a)).state = .ready := by
  rw [schedulerHasReadyNonIdleTask, h.total_eq, schedulerHasReadyLoop_linked s h.linked, List.any_eq_true]
  constructor
  · intro ⟨r, hr, he⟩
    obtain ⟨a, ha, _, hready⟩ := (h.eligible_iff hr).mp (of_decide_eq_true he)
    exact ⟨a, ha, hready⟩
  · intro ⟨a, ha, hready⟩
    have hr := thread_mem_tasks.mpr ha
    exact ⟨.thread a, hr, decide_eq_true ((h.eligible_iff hr).mpr ⟨a, ha, rfl, hready⟩)⟩

theorem Shape.pick_eq (h : Shape created s) {xs ys : List Ref} {r : Ref} (hlast : s.lastTaskPtr = some r)
    (hsplit : tasks created = xs ++ r :: ys) :
    schedulerPickNextTask s = ((ys ++ (xs ++ [r])).find? fun q =>
      decide (Eligible s (schedulerHasReadyNonIdleTask s) q)).getD .idle := by
  have hlen : s.totalTasks.toNat = (ys ++ (xs ++ [r])).length := by
    rw [h.total_eq, hsplit]
    simp only [List.length_append, List.length_cons, List.length_nil]
    omega
  have hlinked := h.linked
  rw [hsplit] at hlinked
  rw [schedulerPickNextTask, if_neg (by simp [h.head]), hlast, schedulerNextTaskAfter_some, hlen]
  exact schedulerPickLoop_trail s _ hlinked.trail_around

theorem Shape.pick_ready (h : Shape created s)
    (hready : ∃ a ∈ created, (s.task (.thread a)).state = .ready) :
    ∃ a ∈ created, schedulerPickNextTask s = .thread a ∧ (s.task (.thread a)).state = .ready := by
  obtain ⟨r, hr, hlast⟩ := h.last
  obtain ⟨xs, ys, hsplit⟩ := List.append_of_mem hr
  have hperm : ∀ q, q ∈ ys ++ (xs ++ [r]) ↔ q ∈ tasks created := by
    intro q
    rw [hsplit]
    simp only [List.mem_append, List.mem_cons, List.not_mem_nil, or_false]
    tauto
  obtain ⟨a, ha, hstate⟩ := hready
  rw [h.pick_eq hlast hsplit, h.hasReady_iff.mpr ⟨a, ha, hstate⟩]
  have hmem := thread_mem_tasks.mpr ha
  obtain ⟨q, hq⟩ : ∃ q, ((ys ++ (xs ++ [r])).find? fun q => decide (Eligible s true q)) = some q := by
    rw [← Option.isSome_iff_exists, List.find?_isSome]
    exact ⟨.thread a, (hperm _).mpr hmem, decide_eq_true ((h.eligible_iff hmem).mpr ⟨a, ha, rfl, hstate⟩)⟩
  have hin := (hperm q).mp (List.mem_of_find?_eq_some hq)
  have hfound := List.find?_some hq
  obtain ⟨b, hb, rfl, hready⟩ := (h.eligible_iff hin).mp (of_decide_eq_true hfound)
  exact ⟨b, hb, by rw [hq]; rfl, hready⟩

theorem pickLoop_before {a b x : Ref} (h : Before (ring s) a b x) (hb : Eligible s true b) (count : Nat) :
    schedulerPickLoop s true count (ring s x) = .idle ∨ schedulerPickLoop s true count (ring s x) = b ∨
      (schedulerPickLoop s true count (ring s x) ≠ a ∧
        Before (ring s) a b (schedulerPickLoop s true count (ring s x))) := by
  induction h generalizing count with
  | here h =>
    cases count with
    | zero => exact Or.inl rfl
    | succ count =>
      rw [h, schedulerPickLoop, if_pos (show _ ∧ _ from hb)]
      exact Or.inr (Or.inl rfl)
  | @next x y h hne hy ih =>
    cases count with
    | zero => exact Or.inl rfl
    | succ count =>
      rw [h, schedulerPickLoop, schedulerNextTaskAfter_some]
      by_cases he : Eligible s true y
      · rw [if_pos (show _ ∧ _ from he)]
        exact Or.inr (Or.inr ⟨hne, hy⟩)
      · rw [if_neg (show ¬(_ ∧ _) from he)]
        exact ih count

theorem Shape.pick_before (h : Shape created s) {a x : Ref} {b : UInt32} (hb : b ∈ created)
    (hready : (s.task (.thread b)).state = .ready) (hlast : s.lastTaskPtr = some x)
    (hbefore : Before (ring s) a (.thread b) x) :
    schedulerPickNextTask s = .thread b ∨
      (schedulerPickNextTask s ≠ a ∧ Before (ring s) a (.thread b) (schedulerPickNextTask s)) := by
  obtain ⟨c, _, hpick, _⟩ := h.pick_ready ⟨b, hb, hready⟩
  have heligible := (h.eligible_iff (thread_mem_tasks.mpr hb)).mpr ⟨b, hb, rfl, hready⟩
  have hloop := pickLoop_before hbefore heligible s.totalTasks.toNat
  have heq : schedulerPickNextTask s = schedulerPickLoop s true s.totalTasks.toNat (ring s x) := by
    rw [schedulerPickNextTask, if_neg (by simp [h.head]), h.hasReady_iff.mpr ⟨b, hb, hready⟩, hlast,
      schedulerNextTaskAfter_some]
  rw [← heq] at hloop
  refine hloop.resolve_left fun hidle => ?_
  rw [hpick] at hidle
  cases hidle

theorem Shape.before_self (h : Shape created s) {a b : Ref} (ha : a ∈ tasks created)
    (hb : b ∈ tasks created) (hne : b ≠ a) : Before (ring s) a b a := by
  obtain ⟨xs, ys, hsplit⟩ := List.append_of_mem ha
  have hlinked := h.linked
  rw [hsplit] at hlinked
  have hnodup := tasks_nodup h.nodup
  rw [hsplit, List.nodup_middle, List.nodup_cons] at hnodup
  have hmem : b ∈ ys ++ xs := by
    rw [hsplit] at hb
    simp only [List.mem_append, List.mem_cons, hne, false_or] at hb ⊢
    exact hb.symm
  obtain ⟨us, vs, huv⟩ := List.append_of_mem hmem
  have htrail := hlinked.trail_around
  rw [← List.append_assoc, huv, List.append_assoc, List.cons_append] at htrail
  apply htrail.before
  intro hau
  have hin : a ∈ ys ++ xs := by
    rw [huv]
    exact List.mem_append_left _ hau
  exact hnodup.1 (by simpa [or_comm] using hin)

end shape

/-! ### What a step does to the tasks -/

def dispatched (s : State) (r : Ref) : State :=
  let s := { s with lastTaskPtr := some r, currentTaskPtr := some r }
  let s := s.modify r fun t =>
    { t with state := .running, sliceTicks := 0, dispatchCount := t.dispatchCount + 1 }
  { s with totalDispatches := s.totalDispatches + 1, reschedulePending := false, inThreadContext := true }

theorem Shape.dispatch_cases {created : List UInt32} (h : Shape created s) (hk : InKernel created s)
    (heap : Heap.State) :
    (s.reschedulePending = false ∧ schedulerDispatchBegin heap s = (.returns, s)) ∨
      (s.reschedulePending = true ∧ schedulerPickNextTask s = .idle ∧
        schedulerDispatchBegin heap s =
          (.returns, { s with currentTaskPtr := some .idle, reschedulePending := false })) ∨
      ∃ a ∈ created, s.reschedulePending = true ∧ schedulerPickNextTask s = .thread a ∧
        (s.task (.thread a)).state = .ready ∧
        ((schedulerStackGuardOk heap (s.task (.thread a)) = false ∧
            schedulerDispatchBegin heap s =
              (.returns,
                schedulerMarkTaskCorrupt s (.thread a) "TERMOB: scheduler stack guard corrupted")) ∨
          (schedulerStackGuardOk heap (s.task (.thread a)) = true ∧
            schedulerDispatchBegin heap s = (.switchTo (.thread a), dispatched s (.thread a)))) := by
  unfold schedulerDispatchBegin
  by_cases hpending : s.reschedulePending = false
  · exact Or.inl ⟨hpending, if_pos (Or.inr (Or.inr hpending))⟩
  have hpending' : s.reschedulePending = true := by simpa using hpending
  rw [if_neg (by simp [h.ready, hk.flag, hpending'])]
  refine Or.inr ?_
  rcases h.pick_cases with hidle | ⟨a, ha, hpick, hready⟩
  · refine Or.inl ⟨hpending', hidle, ?_⟩
    simp only [hidle, if_pos h.idleFlag]
  · refine Or.inr ⟨a, ha, hpending', hpick, hready, ?_⟩
    simp only [hpick]
    rw [if_neg (by simp [(h.threads a ha).1])]
    by_cases hguard : schedulerStackGuardOk heap (s.task (.thread a)) = false
    · rw [if_pos hguard]
      exact Or.inl ⟨hguard, rfl⟩
    · rw [if_neg hguard]
      exact Or.inr ⟨by simpa using hguard, rfl⟩

/-- Leaving the processor touches the record of the task that leaves, and not the order of the tasks. -/
structure Leaves (r : Ref) (s s' : State) : Prop where
  others : ∀ q, q ≠ r → s'.task q = s.task q
  own : (s'.task r).state = .ready ∨ (s'.task r).state = .exited
  last : s'.lastTaskPtr = s.lastTaskPtr

theorem exitCurrentTask_leaves {r : Ref} (hcurrent : s.currentTaskPtr = some r)
    (hidle : (s.task r).isIdle = false) : Leaves r s (schedulerExitCurrentTask s).2 := by
  unfold schedulerExitCurrentTask
  rw [hcurrent]
  dsimp only
  rw [if_neg (by simp [hidle])]
  exact ⟨fun q hq => if_neg hq, Or.inr (by simp), rfl⟩

theorem markTaskCorrupt_task (s : State) (r : Ref) (message : String) :
    (∀ q, q ≠ r → (schedulerMarkTaskCorrupt s r message).task q = s.task q) ∧
      (schedulerMarkTaskCorrupt s r message).lastTaskPtr = s.lastTaskPtr ∧
      ((schedulerMarkTaskCorrupt s r message).task r).isIdle = (s.task r).isIdle ∧
      ((schedulerMarkTaskCorrupt s r message).task r).state = .exited := by
  unfold schedulerMarkTaskCorrupt
  split
  · rename_i hexited
    exact ⟨fun _ _ => rfl, rfl, rfl, hexited⟩
  · exact ⟨fun q hq => if_neg hq, rfl, by simp, by simp⟩

theorem yieldBegin_leaves {r : Ref} (hready : s.ready = true) (hthread : s.inThreadContext = true)
    (hcurrent : s.currentTaskPtr = some r) (hidle : (s.task r).isIdle = false) (heap : Heap.State) :
    Leaves r s (schedulerYieldBegin heap s).2 := by
  unfold schedulerYieldBegin
  rw [if_neg (by simp [hready, hthread]), hcurrent]
  dsimp only
  rw [if_neg (by simp [hidle])]
  split
  · obtain ⟨hothers, hlast, hflag, _⟩ := markTaskCorrupt_task s r "TERMOB: scheduler stack guard corrupted"
    have hcurrent' : (schedulerMarkTaskCorrupt s r
        "TERMOB: scheduler stack guard corrupted").currentTaskPtr = some r := by
      unfold schedulerMarkTaskCorrupt
      split
      · exact hcurrent
      · exact hcurrent
    obtain ⟨h1, h2, h3⟩ := exitCurrentTask_leaves hcurrent' (hflag.trans hidle)
    exact ⟨fun q hq => (h1 q hq).trans (hothers q hq), h2, h3.trans hlast⟩
  · exact ⟨fun q hq => if_neg hq, Or.inl (by simp), rfl⟩

theorem dispatchEnd_keeps (s : State) :
    (schedulerDispatchEnd s).task = s.task ∧ (schedulerDispatchEnd s).lastTaskPtr = s.lastTaskPtr := by
  unfold schedulerDispatchEnd
  dsimp only
  split
  · exact ⟨rfl, rfl⟩
  · exact ⟨rfl, rfl⟩

theorem toTask_cases {t t' : System} {a : UInt32} (hshape : Shape t.created s)
    (ht : InThread t.created a s) (h : t.toTask (.thread a) s = some t') :
    t'.created = t.created ∧ (t'.sched = s ∨ t'.sched = schedulerYieldEnd s (.thread a)) := by
  unfold System.toTask at h
  dsimp only at h
  cases heip : (s.task (.thread a)).eip with
  | switched =>
    rw [heip] at h
    cases h
    exact ⟨rfl, Or.inr rfl⟩
  | bootstrap =>
    rw [heip, hshape.bootstrap ht] at h
    cases h
    exact ⟨rfl, Or.inl rfl⟩

theorem yieldEnd_keeps (s : State) (r : Ref) :
    (∀ q, q ≠ r → (schedulerYieldEnd s r).task q = s.task q) ∧
      (schedulerYieldEnd s r).lastTaskPtr = s.lastTaskPtr := by
  unfold schedulerYieldEnd
  dsimp only
  split
  · exact ⟨fun q hq => if_neg hq, rfl⟩
  · exact ⟨fun _ _ => rfl, rfl⟩

theorem ring_of_skeleton {s s' : State} (h : skeleton s' = skeleton s) : ring s' = ring s := by
  simp only [skeleton, Prod.mk.injEq] at h
  obtain ⟨hhead, _, _, _, hfields⟩ := h
  have hnext : (fun r => (s'.task r).next) = fun r => (s.task r).next := by
    funext r
    exact congrArg (·.1) (congrFun hfields r)
  rw [ring, ring, hhead, hnext]

theorem create_cases {s s' : State} {heap heap' : Heap.State}
    {name entry context stackSizeBytes address : UInt32}
    (h : schedulerCreateKernelThread s heap name entry context stackSizeBytes = some (address, s', heap')) :
    (address = 0 ∧ ∃ log, s' = { s with log }) ∨
      (address ≠ 0 ∧ ∃ t : Task, t.next = none ∧ s' = schedulerRegister s address t) := by
  rcases create_outcomes h with hlog | ⟨hne, _, _, _, _, _, _, _, hs', _⟩
  · exact Or.inl hlog
  · exact Or.inr ⟨hne, _, rfl, hs'⟩

/-- A step that leaves alone whoever waits: the list, the order and the tasks that are ready. -/
structure Calm (t t' : System) : Prop where
  created : t'.created = t.created
  ring : ring t'.sched = ring t.sched
  last : t'.sched.lastTaskPtr = t.sched.lastTaskPtr
  waiting : ∀ a ∈ t.created, (t.sched.task (.thread a)).state = .ready →
    (t'.sched.task (.thread a)).state = .ready
  known : ∀ a ∈ t.created, (t.sched.task (.thread a)).state ≠ .idle →
    (t'.sched.task (.thread a)).state ≠ .idle

/-- A step that hangs a new task behind the last one. -/
structure Joins (c : UInt32) (t t' : System) : Prop where
  created : t'.created = t.created ++ [c]
  fresh : c ∉ t.created
  order : ∀ a b x, x ∈ tasks t.created → .thread c ≠ a → Before (ring t.sched) a b x →
    Before (ring t'.sched) a b x
  last : t'.sched.lastTaskPtr = t.sched.lastTaskPtr
  states : ∀ a ∈ t.created, (t'.sched.task (.thread a)).state = (t.sched.task (.thread a)).state
  ready : (t'.sched.task (.thread c)).state = .ready

/-- A dispatch that chose task `a`, and what it did with it. -/
structure Chooses (a : UInt32) (t t' : System) : Prop where
  mem : a ∈ t.created
  pick : schedulerPickNextTask t.sched = .thread a
  created : t'.created = t.created
  ring : ring t'.sched = ring t.sched
  states : ∀ b ∈ t.created, b ≠ a → (t'.sched.task (.thread b)).state = (t.sched.task (.thread b)).state
  outcome :
    (schedulerStackGuardOk t.heap (t.sched.task (.thread a)) = false ∧
        (t'.sched.task (.thread a)).state = .exited ∧
        t'.sched.lastTaskPtr = t.sched.lastTaskPtr ∧ (schedulerDispatchBegin t.heap t.sched).1 = .returns) ∨
      (schedulerStackGuardOk t.heap (t.sched.task (.thread a)) = true ∧
        (t'.sched.task (.thread a)).state = .running ∧ t'.sched.lastTaskPtr = some (.thread a) ∧
        (schedulerDispatchBegin t.heap t.sched).1 = .switchTo (.thread a))

section effects
variable {start : UInt32} {t t' : System}

theorem Calm.refl (t : System) : Calm t t := ⟨rfl, rfl, rfl, fun _ _ h => h, fun _ _ h => h⟩

theorem calm_toKernel {a : UInt32} {s : State} (hev : Evolves t.created t.sched s)
    (hrunning : (t.sched.task (.thread a)).state = .running) (hleaves : Leaves (.thread a) t.sched s) :
    Calm t (t.toKernel s) := by
  obtain ⟨htask, hlast⟩ := dispatchEnd_keeps s
  have hstill : ∀ b ∈ t.created, (s.task (.thread b)).state = (t.sched.task (.thread b)).state ∨ b = a := by
    intro b _
    by_cases hba : b = a
    · exact Or.inr hba
    · exact Or.inl (by rw [hleaves.others _ (by simpa using hba)])
  have hown : (s.task (.thread a)).state ≠ .idle := by
    rcases hleaves.own with hs | hs
    · rw [hs]
      exact TaskState.noConfusion
    · rw [hs]
      exact TaskState.noConfusion
  refine ⟨rfl, ?_, hlast.trans hleaves.last, fun b hb hready => ?_, fun b hb hknown => ?_⟩
  · have hend : ring (schedulerDispatchEnd s) = ring s := by
      apply ring_of_skeleton
      unfold schedulerDispatchEnd
      dsimp only
      split
      · rfl
      · rfl
    exact hend.trans (ring_of_skeleton hev.skeleton)
  · change ((schedulerDispatchEnd s).task _).state = _
    rw [htask]
    rcases hstill b hb with hs | rfl
    · rw [hs, hready]
    · rw [hrunning] at hready
      cases hready
  · change ((schedulerDispatchEnd s).task _).state ≠ _
    rw [htask]
    rcases hstill b hb with hs | rfl
    · rw [hs]
      exact hknown
    · exact hown

theorem Inv.calm_yield (h : Inv start t) (hs : Scheduler.step t .yield = some t') : Calm t t' := by
  unfold Scheduler.step at hs
  rcases h.control with ⟨_, hk⟩ | ⟨a, _, ht⟩
  · rw [schedulerYieldBegin, if_pos (Or.inr hk.flag), System.settle] at hs
    cases hs
    exact Calm.refl t
  · obtain ⟨s, heq, hev, _⟩ := h.shape.yieldBegin ht t.heap
    have hleaves := yieldBegin_leaves h.shape.ready ht.flag ht.current (h.shape.threads a ht.mem).1 t.heap
    rw [heq] at hs hleaves
    cases hs
    exact calm_toKernel hev ((ht.only a ht.mem).mpr rfl) hleaves

theorem Inv.calm_exit (h : Inv start t) (hcaller : t.running ≠ none)
    (hs : Scheduler.step t .exit = some t') :
    Calm t t' := by
  unfold Scheduler.step at hs
  rcases h.control with ⟨hrunning, _⟩ | ⟨a, _, ht⟩
  · exact absurd hrunning hcaller
  · obtain ⟨s, heq, hev, _⟩ := h.shape.exitCurrent ht.mem ht.current fun b hb => (ht.only b hb).mp
    have hleaves := exitCurrentTask_leaves ht.current (h.shape.threads a ht.mem).1
    rw [heq] at hs hleaves
    cases hs
    exact calm_toKernel hev ((ht.only a ht.mem).mpr rfl) hleaves

theorem calm_tick (hs : Scheduler.step t .tick = some t') : Calm t t' := by
  cases hs
  obtain ⟨hskel, hlast, _, _, hstate⟩ := schedulerHandleTick_keeps t.sched
  refine ⟨rfl, ring_of_skeleton hskel, hlast, fun a _ hready => ?_, fun a _ hknown => ?_⟩
  · exact (hstate _).trans hready
  · rw [hstate]
    exact hknown

theorem Inv.create_effect (h : Inv start t) {name entry context stackSizeBytes : UInt32}
    (hs : Scheduler.step t (.create name entry context stackSizeBytes) = some t') :
    Calm t t' ∨ ∃ c, Joins c t t' := by
  obtain ⟨address, s, heap, heq, _, _, hstate, hend⟩ :=
    create_spec h.shape h.heap name entry context stackSizeBytes
  simp only [Scheduler.step, heq, Option.map_some] at hs
  cases hs
  rcases create_cases heq with ⟨haddress, log, rfl⟩ | ⟨haddress, task, hnext, rfl⟩
  · rw [if_pos haddress]
    exact Or.inl ⟨rfl, rfl, rfl, fun _ _ h => h, fun _ _ h => h⟩
  rcases hend with ⟨hzero, _⟩ | ⟨_, hfresh, _, _, hnew⟩
  · exact absurd hzero haddress
  rw [if_neg haddress]
  have htask := schedulerRegister_task h.shape hfresh hnext
  obtain ⟨hhead, _, _, _, hlast, _⟩ := schedulerRegister_statics h.shape address task
  refine Or.inr ⟨address, rfl, hfresh, fun a b x hx hne hbefore => ?_, hlast, hstate, hnew⟩
  -- the old list ends with `z`
  obtain ⟨l, z, hlz⟩ : ∃ l z, tasks t.created = l ++ [z] :=
    ⟨_, _, (List.dropLast_append_getLast (show tasks t.created ≠ [] by simp [tasks])).symm⟩
  have hz : (tasks t.created).getLast? = some z := by rw [hlz, List.getLast?_append]; rfl
  have hold : ∀ r ∈ tasks t.created, r ≠ .thread address := by
    intro r hr hra
    rw [hra] at hr
    exact hfresh (thread_mem_tasks.mp hr)
  have hnodup := tasks_nodup h.shape.nodup
  rw [hlz, List.nodup_append] at hnodup
  have hlinked := h.shape.linked
  rw [hlz] at hlinked hx
  rw [ring, hhead]
  refine hbefore.append_node hlinked hx hne ?_ ?_ fun y hy => ?_
  · rw [htask, if_neg (hold z (by simp [hlz])), if_pos hz.symm]
  · rw [htask, if_pos rfl]
    exact hnext
  · have hyz : y ≠ z := hnodup.2.2 y hy z (by simp)
    rw [htask, if_neg (hold y (by simp [hlz, hy])), if_neg (by simpa [hz] using hyz)]

theorem Inv.dispatch_effect (h : Inv start t) (hs : Scheduler.step t .dispatch = some t') :
    (Calm t t' ∧ (schedulerDispatchBegin t.heap t.sched).1 = .returns) ∨ ∃ a, Chooses a t t' := by
  unfold Scheduler.step at hs
  rcases h.control with ⟨hrunning, hk⟩ | ⟨a, _, ht⟩
  · rcases h.shape.dispatch_cases hk t.heap with
      ⟨_, heq⟩ | ⟨_, _, heq⟩ | ⟨a, ha, _, hpick, hready, ⟨hguard, heq⟩ | ⟨hguard, heq⟩⟩
    · rw [heq] at hs
      cases hs
      exact Or.inl ⟨Calm.refl t, by rw [heq]⟩
    · rw [heq] at hs
      cases hs
      exact Or.inl ⟨⟨rfl, rfl, rfl, fun _ _ h => h, fun _ _ h => h⟩, by rw [heq]⟩
    · -- the task is retired
      obtain ⟨hothers, hlast, _, hexited⟩ :=
        markTaskCorrupt_task t.sched (.thread a) "TERMOB: scheduler stack guard corrupted"
      obtain ⟨hev, _⟩ := h.shape.markCorrupt "TERMOB: scheduler stack guard corrupted" (a := a)
      rw [heq] at hs
      cases hs
      refine Or.inr ⟨a, ha, hpick, rfl, ring_of_skeleton hev.skeleton, fun b _ hba => ?_,
        Or.inl ⟨hguard, hexited, hlast, by rw [heq]⟩⟩
      rw [hothers _ (by simpa using hba)]
    · -- the task gets the processor
      obtain ⟨hev, ht⟩ : Evolves t.created t.sched (dispatched t.sched (.thread a)) ∧
          InThread t.created a (dispatched t.sched (.thread a)) := by
        rcases h.shape.dispatchBegin hk t.heap with ⟨s, hs', _⟩ | ⟨b, s, hs', hev, ht, _⟩
        · rw [heq] at hs'
          cases hs'
        · rw [heq] at hs'
          cases hs'
          exact ⟨hev, ht⟩
      have hothers : ∀ q, q ≠ .thread a → (dispatched t.sched (.thread a)).task q = t.sched.task q :=
        fun q hq => if_neg hq
      rw [heq] at hs
      obtain ⟨hcreated, hsched⟩ := toTask_cases hev.shape ht hs
      obtain ⟨hev', ht', hothers', hlast⟩ : Evolves t.created t.sched t'.sched ∧
          InThread t.created a t'.sched ∧
          (∀ q, q ≠ .thread a → t'.sched.task q = t.sched.task q) ∧
          t'.sched.lastTaskPtr = some (.thread a) := by
        rcases hsched with hsched | hsched
        · rw [hsched]
          exact ⟨hev, ht, hothers, rfl⟩
        · obtain ⟨hend, htend⟩ := hev.shape.yieldEnd ht
          obtain ⟨hkeep, hlast⟩ := yieldEnd_keeps (dispatched t.sched (.thread a)) (.thread a)
          rw [hsched]
          exact ⟨hev.trans hend, htend, fun q hq => (hkeep q hq).trans (hothers q hq), hlast⟩
      refine Or.inr ⟨a, ha, hpick, hcreated, ring_of_skeleton hev'.skeleton, fun b _ hba => ?_,
        Or.inr ⟨hguard, (ht'.only a ha).mpr rfl, hlast, by rw [heq]⟩⟩
      rw [hothers' _ (by simpa using hba)]
  · have heq : schedulerDispatchBegin t.heap t.sched = (.returns, t.sched) :=
      if_pos (Or.inr (Or.inl ht.flag))
    rw [heq] at hs
    cases hs
    exact Or.inl ⟨Calm.refl t, by rw [heq]⟩

theorem Inv.effect (h : Inv start t) {op : Op} (hok : CallerOk t op) (hs : Scheduler.step t op = some t') :
    Calm t t' ∨ (∃ c, Joins c t t') ∨ op = .dispatch ∧ ∃ a, Chooses a t t' := by
  cases op with
  | dispatch =>
    rcases h.dispatch_effect hs with ⟨hcalm, _⟩ | hchooses
    · exact Or.inl hcalm
    · exact Or.inr (Or.inr ⟨rfl, hchooses⟩)
  | yield => exact Or.inl (h.calm_yield hs)
  | exit => exact Or.inl (h.calm_exit hok hs)
  | tick => exact Or.inl (calm_tick hs)
  | create name entry context stackSizeBytes =>
    rcases h.create_effect hs with hcalm | hjoins
    · exact Or.inl hcalm
    · exact Or.inr (Or.inl hjoins)
  | scribble address value =>
    cases hs
    exact Or.inl ⟨rfl, rfl, rfl, fun _ _ h => h, fun _ _ h => h⟩

end effects

/-! ### No overtaking -/

/-- Task `b` waits: it is ready, and around the ring it comes before `a`. -/
structure Waits (a : Ref) (b : UInt32) (t : System) : Prop where
  mem : b ∈ t.created
  ready : (t.sched.task (.thread b)).state = .ready
  place : ∃ x ∈ tasks t.created, t.sched.lastTaskPtr = some x ∧ Before (ring t.sched) a (.thread b) x

section waits
variable {start : UInt32} {t t' : System} {a : Ref} {b : UInt32}

theorem Waits.step (hw : Waits a b t) (h : Inv start t) (ha : a ∈ tasks t.created) {op : Op}
    (hok : CallerOk t op) (hs : Scheduler.step t op = some t') :
    Waits a b t' ∨ op = .dispatch ∧ Chooses b t t' := by
  obtain ⟨x, hx, hlast, hbefore⟩ := hw.place
  rcases h.effect hok hs with hcalm | ⟨c, hjoins⟩ | ⟨hop, c, hchooses⟩
  · refine Or.inl ⟨?_, hcalm.waiting b hw.mem hw.ready, x, ?_, hcalm.last.trans hlast, ?_⟩
    · rw [hcalm.created]
      exact hw.mem
    · rw [hcalm.created]
      exact hx
    · rw [hcalm.ring]
      exact hbefore
  · refine Or.inl ⟨?_, (hjoins.states b hw.mem).trans hw.ready, x, ?_, hjoins.last.trans hlast, ?_⟩
    · rw [hjoins.created]
      exact List.mem_append_left _ hw.mem
    · rw [hjoins.created]
      simp only [tasks, List.map_append, List.mem_cons, List.mem_append] at hx ⊢
      tauto
    · apply hjoins.order _ _ _ hx _ hbefore
      intro hca
      rw [← hca] at ha
      exact hjoins.fresh (thread_mem_tasks.mp ha)
  · by_cases hcb : c = b
    · subst hcb
      exact Or.inr ⟨hop, hchooses⟩
    -- another task was chosen, and it comes before `b` too
    refine Or.inl ⟨?_, (hchooses.states b hw.mem (Ne.symm hcb)).trans hw.ready, ?_⟩
    · rw [hchooses.created]
      exact hw.mem
    rw [hchooses.created, hchooses.ring]
    rcases hchooses.outcome with ⟨_, _, hlast', _⟩ | ⟨_, _, hlast', _⟩
    · exact ⟨x, hx, hlast'.trans hlast, hbefore⟩
    · refine ⟨.thread c, thread_mem_tasks.mpr hchooses.mem, hlast', ?_⟩
      have hpick := h.shape.pick_before hw.mem hw.ready hlast hbefore
      rw [hchooses.pick] at hpick
      rcases hpick with hpick | ⟨_, hpick⟩
      · exact absurd (by injection hpick) hcb
      · exact hpick

theorem Waits.not_switched (hw : Waits a b t) (h : Inv start t) (hne : .thread b ≠ a) :
    (schedulerDispatchBegin t.heap t.sched).1 ≠ .switchTo a := by
  intro hswitch
  obtain ⟨x, _, hlast, hbefore⟩ := hw.place
  have hpick := h.shape.pick_before hw.mem hw.ready hlast hbefore
  rcases h.control with ⟨_, hk⟩ | ⟨c, _, ht⟩
  · rcases h.shape.dispatch_cases hk t.heap with
      ⟨_, heq⟩ | ⟨_, _, heq⟩ | ⟨c, _, _, hc, _, ⟨_, heq⟩ | ⟨_, heq⟩⟩
    · rw [heq] at hswitch
      cases hswitch
    · rw [heq] at hswitch
      cases hswitch
    · rw [heq] at hswitch
      cases hswitch
    · rw [heq] at hswitch
      cases hswitch
      rcases hpick with hpick | ⟨hpick, _⟩
      · exact hne (hpick.symm.trans hc)
      · exact hpick hc
  · rw [schedulerDispatchBegin, if_pos (Or.inr (Or.inl ht.flag))] at hswitch
    cases hswitch

end waits

/-! ### Runs -/

/-- The state before call `k` of a run. -/
def stateAt (t₀ : System) (ops : List Op) (k : Nat) : Option System := run step t₀ (ops.take k)

/-- Call `k` of a run is a dispatch that switches to task `r`. -/
def SwitchesAt (t₀ : System) (ops : List Op) (k : Nat) (r : Ref) : Prop :=
  ops[k]? = some .dispatch ∧ ∃ t, stateAt t₀ ops k = some t ∧
    (schedulerDispatchBegin t.heap t.sched).1 = .switchTo r

/-- Call `k` of a run is a dispatch that chooses task `b`. -/
def ChoosesAt (t₀ : System) (ops : List Op) (k : Nat) (b : UInt32) : Prop :=
  ∃ t t', stateAt t₀ ops k = some t ∧ stateAt t₀ ops (k + 1) = some t' ∧ ops[k]? = some .dispatch ∧
    Chooses b t t'

/-- No created task is in the state of a record that was never filled in. -/
def Known (t : System) : Prop := ∀ a ∈ t.created, (t.sched.task (.thread a)).state ≠ .idle

theorem Known.step {start : UInt32} {t t' : System} (hknown : Known t) (h : Inv start t) {op : Op}
    (hok : CallerOk t op) (hs : Scheduler.step t op = some t') : Known t' := by
  intro a ha
  rcases h.effect hok hs with hcalm | ⟨c, hjoins⟩ | ⟨_, c, hchooses⟩
  · rw [hcalm.created] at ha
    exact hcalm.known a ha (hknown a ha)
  · rw [hjoins.created, List.mem_append, List.mem_singleton] at ha
    rcases ha with ha | rfl
    · rw [hjoins.states a ha]
      exact hknown a ha
    · rw [hjoins.ready]
      exact TaskState.noConfusion
  · rw [hchooses.created] at ha
    by_cases hac : a = c
    · subst hac
      rcases hchooses.outcome with ⟨_, hs, _⟩ | ⟨_, hs, _⟩
      · rw [hs]
        exact TaskState.noConfusion
      · rw [hs]
        exact TaskState.noConfusion
    · rw [hchooses.states a ha hac]
      exact hknown a ha

section runs
variable {start : UInt32} {t₀ : System} {ops : List Op} (h₀ : Inv start t₀) (hknown : Known t₀)
  (hallowed : Allowed Scheduler.step CallerOk t₀ ops)
variable {t : System} {k : Nat}
include h₀ hallowed

theorem Inv.stateAt_inv (ht : stateAt t₀ ops k = some t) : Inv start t := by
  obtain ⟨t', ht', hinv, _⟩ := h₀.run (hallowed.take k)
  rw [stateAt, ht'] at ht
  cases ht
  exact hinv

theorem Inv.stateAt_follows {k m : Nat} {t t' : System} (hkm : k ≤ m) (ht : stateAt t₀ ops k = some t)
    (ht' : stateAt t₀ ops m = some t') : Follows t t' := by
  obtain ⟨n, rfl⟩ := Nat.exists_eq_add_of_le hkm
  rw [stateAt, run_take_add Scheduler.step ht] at ht'
  obtain ⟨t'', ht'', _, hfollows⟩ := (h₀.stateAt_inv hallowed ht).run ((hallowed.drop ht).take n)
  rw [ht''] at ht'
  cases ht'
  exact hfollows

theorem Inv.stateAt_step {op : Op} (ht : stateAt t₀ ops k = some t) (hop : ops[k]? = some op) :
    CallerOk t op ∧ ∃ t', Scheduler.step t op = some t' ∧ stateAt t₀ ops (k + 1) = some t' := by
  have hrest := hallowed.drop ht
  have hcons : ops.drop k = op :: ops.drop (k + 1) := by
    obtain ⟨hk, hget⟩ := List.getElem?_eq_some_iff.mp hop
    rw [List.drop_eq_getElem_cons hk, hget]
  rw [hcons] at hrest
  obtain ⟨t', ht', _⟩ := (h₀.stateAt_inv hallowed ht).step op hrest.1
  exact ⟨hrest.1, t', ht', by rw [stateAt, run_take_succ Scheduler.step ht hop, ht']⟩

include hknown in
theorem Inv.stateAt_known (ht : stateAt t₀ ops k = some t) : Known t := by
  have hrun : ∃ t', Runs.run Scheduler.step t₀ (ops.take k) = some t' ∧ Inv start t' ∧ Known t' := by
    apply run_invariant (P := fun t' => Inv start t' ∧ Known t') _ ⟨h₀, hknown⟩ (hallowed.take k)
    intro s op hs hok
    obtain ⟨s', hs', hinv, _⟩ := hs.1.step op hok
    exact ⟨s', hs', hinv, hs.2.step hs.1 hok hs'⟩
  obtain ⟨t', ht', _, hknown'⟩ := hrun
  rw [stateAt, ht'] at ht
  cases ht
  exact hknown'

theorem Inv.switchesAt_cases {r : Ref} (hs : SwitchesAt t₀ ops k r) :
    ∃ t t' a, stateAt t₀ ops k = some t ∧ stateAt t₀ ops (k + 1) = some t' ∧ Inv start t ∧ Inv start t' ∧
      r = .thread a ∧ a ∈ t.created ∧ (t.sched.task r).state = .ready ∧
      t'.sched.lastTaskPtr = some r ∧ Chooses a t t' ∧
      ∀ b ∈ t.created, (t.sched.task (.thread b)).state ≠ .running := by
  obtain ⟨hop, t, ht, hswitch⟩ := hs
  have hinv := h₀.stateAt_inv hallowed ht
  obtain ⟨hok, t', hstep, ht'⟩ := h₀.stateAt_step hallowed ht hop
  have hinv' := h₀.stateAt_inv hallowed ht'
  rcases hinv.dispatch_effect hstep with ⟨_, heq⟩ | ⟨a, hchooses⟩
  · rw [heq] at hswitch
    cases hswitch
  rcases hchooses.outcome with ⟨_, _, _, heq⟩ | ⟨_, _, hlast, heq⟩
  · rw [heq] at hswitch
    cases hswitch
  rw [heq] at hswitch
  cases hswitch
  refine ⟨t, t', a, ht, ht', hinv, hinv', rfl, hchooses.mem, hinv.switches_to_ready heq, hlast,
    hchooses, ?_⟩
  rcases hinv.control with ⟨_, hk⟩ | ⟨c, _, hthread⟩
  · exact hk.still
  · rw [schedulerDispatchBegin, if_pos (Or.inr (Or.inl hthread.flag))] at heq
    cases heq

/-- A task that is ready when `a` is dispatched is chosen before `a` is dispatched again. -/
theorem Inv.chosen_between {i j : Nat} (hij : i < j) {a : Ref} {b : UInt32} (hi : SwitchesAt t₀ ops i a)
    (hj : SwitchesAt t₀ ops j a) (hne : .thread b ≠ a)
    (hready : ∀ t, stateAt t₀ ops i = some t → b ∈ t.created ∧ (t.sched.task (.thread b)).state = .ready) :
    ∃ k, i < k ∧ k < j ∧ ChoosesAt t₀ ops k b := by
  by_contra hnone
  -- so long as `b` is not chosen, it waits
  have hwaits : ∀ k, i + 1 ≤ k → k ≤ j → ∃ t, stateAt t₀ ops k = some t ∧ Waits a b t ∧
      a ∈ tasks t.created := by
    intro k hk
    induction k, hk using Nat.le_induction with
    | base =>
      intro _
      obtain ⟨t, t', c, ht, ht', _, hinv', rfl, hc, _, hlast, hchooses, _⟩ :=
        h₀.switchesAt_cases hallowed hi
      obtain ⟨hb, hstate⟩ := hready t ht
      have hbc : b ≠ c := fun h => hne (by rw [h])
      have hb' : b ∈ t'.created := by
        rw [hchooses.created]
        exact hb
      have hc' : .thread c ∈ tasks t'.created := by
        rw [hchooses.created]
        exact thread_mem_tasks.mpr hc
      refine ⟨t', ht', ⟨hb', (hchooses.states b hb hbc).trans hstate, .thread c, hc', hlast, ?_⟩, hc'⟩
      exact hinv'.shape.before_self hc' (thread_mem_tasks.mpr hb') hne
    | succ k hk ih =>
      intro hkj
      obtain ⟨t, ht, hw, ha⟩ := ih (by omega)
      have hlen : k < ops.length := by
        obtain ⟨hj, _⟩ := List.getElem?_eq_some_iff.mp hj.1
        omega
      obtain ⟨hok, t', hstep, ht'⟩ := h₀.stateAt_step hallowed ht (List.getElem?_eq_getElem hlen)
      have hfollows := h₀.stateAt_follows hallowed (Nat.le_succ k) ht ht'
      rcases hw.step (h₀.stateAt_inv hallowed ht) ha hok hstep with hw' | ⟨hop, hchooses⟩
      · refine ⟨t', ht', hw', ?_⟩
        cases a with
        | idle => exact idle_mem_tasks _
        | thread c => exact thread_mem_tasks.mpr (hfollows.1 c (thread_mem_tasks.mp ha))
      · refine absurd ⟨k, by omega, by omega, t, t', ht, ht', ?_, hchooses⟩ hnone
        rw [List.getElem?_eq_getElem hlen, hop]
  obtain ⟨t, ht, hw, _⟩ := hwaits j (by omega) (Nat.le_refl j)
  obtain ⟨_, t', ht', hswitch⟩ := hj
  rw [ht] at ht'
  cases ht'
  exact hw.not_switched (h₀.stateAt_inv hallowed ht) hne hswitch

include hknown in
theorem Inv.ready_between {i k j : Nat} (hik : i < k) (hkj : k < j) {a : Ref} {b : UInt32}
    (hi : SwitchesAt t₀ ops i (.thread b)) (hj : SwitchesAt t₀ ops j (.thread b))
    (hk : SwitchesAt t₀ ops k a) (ht : stateAt t₀ ops k = some t) :
    b ∈ t.created ∧ (t.sched.task (.thread b)).state = .ready := by
  obtain ⟨ti, _, b', hti, _, _, _, hb', hmem, _⟩ := h₀.switchesAt_cases hallowed hi
  cases hb'
  obtain ⟨tj, _, _, htj, _, _, _, _, _, hreadyj, _⟩ := h₀.switchesAt_cases hallowed hj
  obtain ⟨tk, _, _, htk, _, _, _, _, _, _, _, _, hstill⟩ := h₀.switchesAt_cases hallowed hk
  rw [ht] at htk
  cases htk
  have hb : b ∈ t.created := (h₀.stateAt_follows hallowed hik.le hti ht).1 b hmem
  refine ⟨hb, ?_⟩
  cases hstate : (t.sched.task (.thread b)).state with
  | ready => rfl
  | running => exact absurd hstate (hstill b hb)
  | idle => exact absurd hstate (h₀.stateAt_known hknown hallowed ht b hb)
  | exited =>
    have hexited := (h₀.stateAt_follows hallowed hkj.le ht htj).2 b hb hstate
    rw [hreadyj] at hexited
    cases hexited

end runs

/-- No task is dispatched twice while another one waits. -/
structure NoOvertaking (t₀ : System) (ops : List Op) : Prop where
  between : ∀ i j a b, i < j → SwitchesAt t₀ ops i a → SwitchesAt t₀ ops j a → b ≠ a →
    (∀ t, stateAt t₀ ops i = some t →
      b ∈ tasks t.created ∧ (t.sched.task b).isIdle = false ∧ (t.sched.task b).state = .ready) →
    (∀ k t, i ≤ k → k ≤ j → stateAt t₀ ops k = some t →
      schedulerStackGuardOk t.heap (t.sched.task b) = true) →
    ∃ k, i < k ∧ k < j ∧ SwitchesAt t₀ ops k b
  notTwice : ∀ i j b, SwitchesAt t₀ ops i b → SwitchesAt t₀ ops j b →
    (∀ k, i < k → k < j → ¬SwitchesAt t₀ ops k b) →
    ∀ a k l, a ≠ b → i < k → k < l → l < j → SwitchesAt t₀ ops k a → ¬SwitchesAt t₀ ops l a

theorem Inv.noOvertaking {start : UInt32} {t₀ : System} {ops : List Op} (h₀ : Inv start t₀)
    (hknown : Known t₀) (hallowed : Allowed Scheduler.step CallerOk t₀ ops) : NoOvertaking t₀ ops := by
  constructor
  · intro i j a b hij hi hj hne hready hguard
    obtain ⟨t, _, _, ht, _, hinv, _⟩ := h₀.switchesAt_cases hallowed hi
    obtain ⟨c, rfl⟩ : ∃ c, b = .thread c := by
      obtain ⟨_, hidle, _⟩ := hready t ht
      cases b with
      | idle =>
        rw [hinv.shape.idleFlag] at hidle
        cases hidle
      | thread c => exact ⟨c, rfl⟩
    obtain ⟨k, hik, hkj, tk, tk', htk, _, hop, hchooses⟩ :=
        h₀.chosen_between hallowed hij hi hj hne fun t ht =>
      ⟨thread_mem_tasks.mp (hready t ht).1, (hready t ht).2.2⟩
    refine ⟨k, hik, hkj, hop, tk, htk, ?_⟩
    rcases hchooses.outcome with ⟨hbad, _⟩ | ⟨_, _, _, hswitch⟩
    · rw [hguard k tk hik.le hkj.le htk] at hbad
      cases hbad
    · exact hswitch
  · intro i j b hi hj hconsecutive a k l hne hik hkl hlj hk hl
    obtain ⟨_, _, c, _, _, _, _, rfl, _⟩ := h₀.switchesAt_cases hallowed hi
    obtain ⟨m, hkm, hml, tm, tm', htm, htm', hop, hchooses⟩ :=
      h₀.chosen_between hallowed hkl hk hl (Ne.symm hne)
      fun t ht => h₀.ready_between hknown hallowed hik (by omega) hi hj hk ht
    rcases hchooses.outcome with ⟨_, hexited, _⟩ | ⟨_, _, _, hswitch⟩
    · -- a task that was retired is not dispatched again
      obtain ⟨tj, _, _, htj, _, _, _, _, _, hready, _⟩ := h₀.switchesAt_cases hallowed hj
      have hmem : c ∈ tm'.created := by
        rw [hchooses.created]
        exact hchooses.mem
      have hexited' := (h₀.stateAt_follows hallowed (show m + 1 ≤ j by omega) htm' htj).2 c hmem hexited
      rw [hready] at hexited'
      cases hexited'
    · exact hconsecutive m (by omega) (by omega) ⟨hop, tm, htm, hswitch⟩

/-- Round-robin: in every interleaving of calls after `scheduler_init`, over every heap and with the stacks
overwritten in any way, no task overtakes another one that waits. -/
theorem round_robin {kernelEnd : UInt32} (hfits : Heap.HeapFits kernelEnd) {heap : Heap.State}
    (hheap : Heap.Reachable kernelEnd heap) (idleName : UInt32) (s : State) (ops : List Op)
    (hcaller : Allowed step CallerOk (System.boot idleName s heap) ops) :
    NoOvertaking (System.boot idleName s heap) ops := by
  obtain ⟨start, hboot⟩ := inv_boot hfits hheap idleName s
  apply hboot.noOvertaking _ hcaller
  intro a ha
  cases ha

theorem round_robin_two_threads :
    NoOvertaking (System.boot 0x00101000 bootState (Heap.heapInit 0x00200000 Heap.bootState))
      [.create 0x00101010 0x00100000 0 0, .create 0x00101020 0x00100000 0 0, .dispatch, .yield,
        .dispatch, .yield, .dispatch] :=
  have hallowed : Allowed step CallerOk
    (System.boot 0x00101000 bootState (Heap.heapInit 0x00200000 Heap.bootState))
      [.create 0x00101010 0x00100000 0 0, .create 0x00101020 0x00100000 0 0, .dispatch, .yield,
        .dispatch, .yield, .dispatch] :=
    ⟨trivial, fun _ _ => ⟨trivial, fun _ _ => ⟨trivial, fun _ _ => ⟨trivial, fun _ _ => ⟨trivial, fun _ _ =>
      ⟨trivial, fun _ _ => ⟨trivial, fun _ _ => trivial⟩⟩⟩⟩⟩⟩⟩
  round_robin (by decide) Heap.reachable_init 0x00101000 bootState _ hallowed

end TermobKernel.Scheduler
