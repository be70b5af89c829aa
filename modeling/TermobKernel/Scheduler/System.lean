import TermobKernel.Scheduler.Tasks
import TermobKernel.Library.Runs
import TermobKernel.Heap.LiveMap

/-!
# The scheduler, its threads and the heap

The functions of the scheduler put together at their context switches. The processor is in the
kernel loop or in a task; a step is one call to its end, up to the next instruction of whoever has
the processor then. Tasks and stacks come from the heap, and a task may write anything into the
blocks of the stacks, guard words included.
-/

namespace TermobKernel.Scheduler
open Links Runs Word

variable {heap : Heap.State} {start : UInt32}

/-- The scheduler and the heap, who has the processor (`none` is the kernel loop), who goes on when
the kernel context is switched to, and the addresses of the created tasks in the order of their
creation. -/
structure System where
  sched : State
  heap : Heap.State
  running : Option Ref
  kernelContext : Option Ref
  created : List UInt32

/-- A switch to the kernel context: its owner goes on behind the switch in `scheduler_dispatch`. -/
def System.toKernel (t : System) (s : State) : System :=
  { t with sched := schedulerDispatchEnd s, running := t.kernelContext }

/-- A switch to a task: it goes on behind its own switch or starts. -/
def System.toTask (t : System) (r : Ref) (s : State) : Option System :=
  let t := { t with kernelContext := t.running, running := some r }
  match (s.task r).eip with
  | .switched => some { t with sched := schedulerYieldEnd s r }
  | .bootstrap =>
    match schedulerTaskBootstrap s with
    | (.switchToKernel, s) => some (t.toKernel s)
    | (.halts, _) => none
    | (_, s) => some { t with sched := s }

/-- The rest of a call after its first part. A task that halts never gives the processor back. -/
def System.settle (t : System) : Outcome × State → Option System
  | (.returns, s) => some { t with sched := s }
  | (.switchTo r, s) => t.toTask r s
  | (.switchToKernel, s) => some (t.toKernel s)
  | (.halts, _) => none

inductive Op where
  | dispatch
  | yield
  | exit
  | tick
  | create (name entry context stackSizeBytes : UInt32)
  | scribble (address : UInt32) (value : UInt8)
  deriving DecidableEq, Repr

def step (t : System) : Op → Option System
  | .dispatch => t.settle (schedulerDispatchBegin t.heap t.sched)
  | .yield => t.settle (schedulerYieldBegin t.heap t.sched)
  | .exit => t.settle (schedulerExitCurrentTask t.sched)
  | .tick => some { t with sched := schedulerHandleTick t.sched }
  | .create name entry context stackSizeBytes =>
    (schedulerCreateKernelThread t.sched t.heap name entry context stackSizeBytes).map fun (address,
        sched, heap) =>
      { t with sched, heap, created := if address = 0 then t.created else t.created ++ [address] }
  | .scribble address value =>
      some { t with heap := { t.heap with mem := t.heap.mem.store8 address value } }

/-- A task exits, not the kernel loop; and only the blocks of the stacks are written to. -/
def CallerOk (t : System) : Op → Prop
  | .exit => t.running ≠ none
  | .scribble address _ =>
    ∃ a ∈ t.created, ∃ n, ((t.sched.task (.thread a)).stackBase, n) ∈ Heap.liveMap t.heap ∧
      (t.sched.task (.thread a)).stackBase.toNat ≤ address.toNat ∧
      address.toNat < (t.sched.task (.thread a)).stackBase.toNat + n.toNat
  | _ => True

/-- Right after `scheduler_init`, called by the boot code. -/
def System.boot (idleName : UInt32) (s : State) (heap : Heap.State) : System :=
  ⟨schedulerInit idleName s, heap, none, none, []⟩

/-- The zeroed variables that the boot code finds. -/
def bootState : State where
  task := fun _ => { idleTask 0 with state := .idle, timesliceTicks := 0, isIdle := false }
  taskListHead := none
  taskListTail := none
  currentTaskPtr := none
  lastTaskPtr := none
  nextTaskId := 0
  totalTasks := 0
  tickCounter := 0
  totalDispatches := 0
  totalYields := 0
  ready := false
  reschedulePending := false
  inThreadContext := false
  log := []

/-! ### Tasks in the heap -/

/-- The records and the stacks of the created tasks are live blocks of the heap. A heap whose
headers are gone has never served a task. -/
def HeapHolds (start : UInt32) (created : List UInt32) (s : State) (heap : Heap.State) : Prop :=
  (Heap.Sound start heap ∧ ∀ a ∈ created, (∃ n, (a, n) ∈ Heap.liveMap heap) ∧
      ∃ n, ((s.task (.thread a)).stackBase, n) ∈ Heap.liveMap heap) ∨
    (Heap.Lost heap ∧ created = [])

theorem HeapHolds.keep {created : List UInt32} {s s' : State} (h : HeapHolds start created s heap)
    (hbase : ∀ a ∈ created, (s'.task (.thread a)).stackBase = (s.task (.thread a)).stackBase) :
    HeapHolds start created s' heap := by
  rcases h with ⟨hsound, hlive⟩ | hlost
  · refine Or.inl ⟨hsound, fun a ha => ?_⟩
    rw [hbase a ha]
    exact hlive a ha
  · exact Or.inr hlost

theorem skeleton_stackBase {s s' : State} (h : skeleton s' = skeleton s) (r : Ref) :
    (s'.task r).stackBase = (s.task r).stackBase := congrArg (·.2.2.2) (congrFun (congrArg (·.2.2.2.2) h) r)

theorem live_bounds {bs : List Heap.Block} (h : Heap.Rep heap bs) {p n : UInt32}
    (hp : (p, n) ∈ Heap.liveMap heap) :
    heap.heapStartPtr.toNat ≤ p.toNat ∧ p.toNat ≤ heap.heapStartPtr.toNat + 2 ^ 20 := by
  obtain ⟨b, hb, _, rfl, rfl⟩ := h.entry_mem.mp hp
  obtain ⟨hlo, hhi, _⟩ := Heap.tiles_bounds h.phys.tiles hb
  have hspan := h.phys.region.span
  rw [h.phys.payload_toNat hb]
  simp only [Heap.Block.stop] at hhi
  omega

theorem created_length {bs : List Heap.Block} (h : Heap.Rep heap bs) {created : List UInt32}
    (hnodup : created.Nodup) (hlive : ∀ a ∈ created, ∃ n, (a, n) ∈ Heap.liveMap heap) :
    created.length ≤ 2 ^ 20 + 1 := by
  have hmap : (created.map UInt32.toNat).Nodup := hnodup.map fun _ _ hxy => UInt32.toNat_inj.mp hxy
  have hsub : (created.map UInt32.toNat).toFinset ⊆
      Finset.Icc heap.heapStartPtr.toNat (heap.heapStartPtr.toNat + 2 ^ 20) := by
    intro x hx
    obtain ⟨a, ha, rfl⟩ := List.mem_map.mp (List.mem_toFinset.mp hx)
    obtain ⟨n, hn⟩ := hlive a ha
    exact Finset.mem_Icc.mpr (live_bounds h hn)
  have hcard := Finset.card_le_card hsub
  rw [List.toFinset_card_of_nodup hmap, List.length_map, Nat.card_Icc] at hcard
  omega

theorem schedulerAlignUp_toNat (value : UInt32) :
    (schedulerAlignUp value stackAlignment).toNat = (value.toNat + 15) % 2 ^ 32 / 16 * 16 := by
  have hadd : value + stackAlignment - 1 = value + 15 := by
    rw [UInt32.sub_eq_add_neg, UInt32.add_assoc]
    rfl
  rw [schedulerAlignUp, if_neg (by decide), show stackAlignment - 1 = UInt32.ofNat (2 ^ 4 - 1) from rfl,
    toNat_and_not_mask _ 4 (by omega), hadd, UInt32.toNat_add]
  rfl

theorem schedulerStackSize_bounds (request : UInt32) :
    2048 ≤ (schedulerStackSize request).toNat ∧ (schedulerStackSize request).toNat ≤ 2 ^ 32 - 16 := by
  have hmin : minStackBytes.toNat = 2048 := rfl
  have hround : ∀ x : UInt32, (schedulerAlignUp x stackAlignment).toNat ≤ 2 ^ 32 - 16 := by
    intro x
    rw [schedulerAlignUp_toNat]
    omega
  have hclamp : ∀ x : UInt32, x.toNat ≤ 2 ^ 32 - 16 →
      2048 ≤ (if x < minStackBytes then minStackBytes else x).toNat ∧
        (if x < minStackBytes then minStackBytes else x).toNat ≤ 2 ^ 32 - 16 := by
    intro x hx
    by_cases hsmall : x < minStackBytes
    · rw [if_pos hsmall, hmin]
      omega
    · rw [if_neg hsmall]
      rw [UInt32.lt_iff_toNat_lt, hmin] at hsmall
      omega
  exact hclamp _ (hround _)

section create
variable {start : UInt32} {created : List UInt32} {s : State} {heap : Heap.State}

/-- The two allocations of `scheduler_create_kernel_thread`: nothing is taken from the heap for good, or a
record and a stack that were not live before. -/
theorem kcalloc_twice (hsound : Heap.Sound start heap) (allocSize : UInt32) (hmin : 2048 ≤ allocSize.toNat)
    (hmax : allocSize.toNat ≤ 2 ^ 32 - 16) :
    ∃ task heap₁, Heap.kcalloc heap 1 sizeofSchedulerTask = some (task, heap₁) ∧
      ((task = 0 ∧ heap₁ = heap) ∨
        task ≠ 0 ∧ (∀ m, (task, m) ∉ Heap.liveMap heap) ∧
          ∃ stackBase heap₂, Heap.kcalloc heap₁ 1 allocSize = some (stackBase, heap₂) ∧
            ((stackBase = 0 ∧ ∃ heap₃, Heap.kfree heap₂ task = some heap₃ ∧ Heap.Sound start heap₃ ∧
                ∀ e ∈ Heap.liveMap heap, e ∈ Heap.liveMap heap₃) ∨
              stackBase ≠ 0 ∧
                Heap.Sound start { heap₂ with mem := heap₂.mem.store32 stackBase stackGuardMagic } ∧
                (∀ m, (stackBase, m) ∉ Heap.liveMap heap₁) ∧
                ∃ n m : UInt32, sizeofSchedulerTask.toNat ≤ n.toNat ∧ allocSize.toNat ≤ m.toNat ∧
                  (task, n) ∈ Heap.liveMap heap₁ ∧ (∀ e ∈ Heap.liveMap heap, e ∈ Heap.liveMap heap₁) ∧
                  ∀ e, e ∈ Heap.liveMap { heap₂ with mem := heap₂.mem.store32 stackBase stackGuardMagic } ↔
                    e = (stackBase, m) ∨ e = (task, n) ∨ e ∈ Heap.liveMap heap)) := by
  obtain ⟨hstart, bs, hrep⟩ := hsound
  have hreq : Heap.requested 1 allocSize = allocSize.toNat := by rw [Heap.requested,
    UInt32.toNat_one, Nat.one_mul]
  obtain ⟨task, heap₁, bs₁, hk₁, hrep₁, hst₁, hend₁⟩ :=
    hrep.kcalloc_spec (show Heap.requested 1 sizeofSchedulerTask ≤ 2 ^ 32 - 16 by decide)
  refine ⟨task, heap₁, hk₁, ?_⟩
  rcases hend₁ with ⟨rfl, rfl, _⟩ | ⟨htask, n, hrecord, _, _, hfresh, hlive₁⟩
  · exact Or.inl ⟨rfl, rfl⟩
  obtain ⟨stackBase, heap₂, bs₂, hk₂, hrep₂, hst₂, hend₂⟩ :=
    hrep₁.kcalloc_spec (show Heap.requested 1 allocSize ≤ 2 ^ 32 - 16 by omega)
  refine Or.inr ⟨htask, hfresh, stackBase, heap₂, hk₂, ?_⟩
  rcases hend₂ with ⟨rfl, rfl, _⟩ | ⟨hbase, m, hcover, hlo, hhi, hfresh₂, hlive₂⟩
  · -- the record goes back, everything else stays
    have hin : (task, n) ∈ Heap.liveMap heap₂ := (hlive₁ _).mpr (Or.inl rfl)
    obtain ⟨heap₃, us, vs, hfree, hbefore, hafter⟩ := hrep₂.kfree_removes hin
    obtain ⟨heap₃', hfree', hsound₃⟩ := Heap.sound_kfree
      ⟨(Heap.statics_start hst₁).trans hstart, bs₁, hrep₁⟩ task
    obtain rfl : heap₃ = heap₃' := Option.some.inj (hfree.symm.trans hfree')
    refine Or.inl ⟨rfl, heap₃, hfree, hsound₃, fun e he => ?_⟩
    have hmem : e ∈ us ++ (task, n) :: vs := hbefore ▸ (hlive₁ e).mpr (Or.inr he)
    have hne : e ≠ (task, n) := by
      rintro rfl
      exact hfresh n he
    rw [hafter]
    simp only [List.mem_append, List.mem_cons] at hmem ⊢
    tauto
  · -- the guard is written into the new stack
    rw [hreq] at hcover
    have hin : (stackBase, m) ∈ Heap.liveMap heap₂ := (hlive₂ _).mpr (Or.inl rfl)
    have hend := heap₁.heapEndPtr.toNat_lt
    have hrep₃ : Heap.Rep { heap₂ with mem := heap₂.mem.store32 stackBase stackGuardMagic } bs₂ := by
      apply hrep₂.fill hin
      intro a ha
      have hnear : (a - stackBase).toNat < 4 := by
        by_contra hfar
        exact ha (Mem.store32_far _ _ _ _ (by omega))
      have := a.toNat_lt
      rw [UInt32.toNat_sub] at hnear
      omega
    have hsame : Heap.liveMap { heap₂ with mem := heap₂.mem.store32 stackBase stackGuardMagic } =
        Heap.liveMap heap₂ := by rw [hrep₃.liveMap_eq, hrep₂.liveMap_eq]
    refine Or.inr ⟨hbase, ⟨?_, bs₂, hrep₃⟩, hfresh₂, n, m, hrecord, hcover, (hlive₁ _).mpr (Or.inl rfl),
      fun e he => (hlive₁ e).mpr (Or.inr he), fun e => ?_⟩
    · exact (Heap.statics_start hst₂).trans ((Heap.statics_start hst₁).trans hstart)
    · rw [hsame, hlive₂, hlive₁]

theorem create_spec (hshape : Shape created s) (hheap : HeapHolds start created s heap)
    (name entry context stackSizeBytes : UInt32) :
    ∃ address s' heap', schedulerCreateKernelThread s heap name entry context stackSizeBytes =
      some (address, s', heap') ∧
      s'.currentTaskPtr = s.currentTaskPtr ∧ s'.inThreadContext = s.inThreadContext ∧
      (∀ a ∈ created, (s'.task (.thread a)).state = (s.task (.thread a)).state) ∧
      ((address = 0 ∧ Shape created s' ∧ HeapHolds start created s' heap') ∨
        (address ≠ 0 ∧ address ∉ created ∧ Shape (created ++ [address]) s' ∧
          HeapHolds start (created ++ [address]) s' heap' ∧ (s'.task (.thread address)).state =
            .ready)) := by
  unfold schedulerCreateKernelThread
  by_cases hskip : s.ready = false ∨ name = 0 ∨ entry = 0
  · rw [if_pos hskip]
    exact ⟨0, s, heap, rfl, rfl, rfl, fun _ _ => rfl, Or.inl ⟨rfl, hshape, hheap⟩⟩
  rw [if_neg hskip]
  have hentry : entry ≠ 0 := fun h => hskip (Or.inr (Or.inr h))
  have hlogged : ∀ message, Shape created (schedulerLogEvent s message) := fun message =>
    hshape.keep rfl hshape.last hshape.idleState
  obtain ⟨hmin, hmax⟩ := schedulerStackSize_bounds stackSizeBytes
  dsimp only
  generalize schedulerStackSize stackSizeBytes = allocSize at hmin hmax ⊢
  rcases hheap with ⟨hsound, hlive⟩ | ⟨hlost, hnone⟩
  · obtain ⟨task, heap₁, hk₁, hend₁⟩ := kcalloc_twice hsound allocSize hmin hmax
    rw [hk₁]
    dsimp only
    rcases hend₁ with ⟨rfl, rfl⟩ | ⟨htask, hfresh, stackBase, heap₂, hk₂, hend₂⟩
    · rw [if_pos rfl]
      exact ⟨0, _, heap₁, rfl, rfl, rfl, fun _ _ => rfl, Or.inl ⟨rfl, hlogged _, Or.inl ⟨hsound, hlive⟩⟩⟩
    rw [if_neg htask, hk₂]
    dsimp only
    rcases hend₂ with ⟨rfl, heap₃, hfree, hsound₃, hkept⟩ | ⟨hbase, hsound₃, _, n, m, _, _, _, _, hlive₃⟩
    · rw [if_pos rfl, hfree]
      refine ⟨0, _, heap₃, rfl, rfl, rfl, fun _ _ => rfl,
        Or.inl ⟨rfl, hlogged _, Or.inl ⟨hsound₃, fun a ha => ?_⟩⟩⟩
      obtain ⟨⟨k, hk⟩, ⟨j, hj⟩⟩ := hlive a ha
      exact ⟨⟨k, hkept _ hk⟩, ⟨j, hkept _ hj⟩⟩
    · rw [if_neg hbase]
      have hnew : task ∉ created := fun hmem => by
        obtain ⟨⟨k, hk⟩, _⟩ := hlive task hmem
        exact hfresh k hk
      have hroom : created.length + 2 < 2 ^ 32 := by
        obtain ⟨_, bs, hrep⟩ := hsound
        have := created_length hrep hshape.nodup fun a ha => (hlive a ha).1
        omega
      have hnext : (newTask s name entry context stackBase allocSize).next = none := rfl
      have htask' := schedulerRegister_task hshape hnew hnext
      have hold : ∀ a ∈ created,
          ((schedulerRegister s task (newTask s name entry context stackBase allocSize)).task
          (.thread a)).state = (s.task (.thread a)).state ∧
          ((schedulerRegister s task (newTask s name entry context stackBase allocSize)).task
          (.thread a)).stackBase = (s.task (.thread a)).stackBase := by
        intro a ha
        rw [htask', if_neg (fun h => hnew (by injection h with h; exact h ▸ ha))]
        split
        · exact ⟨rfl, rfl⟩
        · exact ⟨rfl, rfl⟩
      obtain ⟨_, _, _, _, _, hcurrent, hthread, _⟩ :=
        schedulerRegister_statics hshape task (newTask s name entry context stackBase allocSize)
      refine ⟨task, _, _, rfl, hcurrent, hthread, fun a ha => (hold a ha).1, Or.inr ⟨htask, hnew,
        hshape.register hnew hroom ⟨hnext, rfl, hentry⟩, Or.inl ⟨hsound₃, fun a ha => ?_⟩, ?_⟩⟩
      · rcases List.mem_append.mp ha with hmem | hmem
        · obtain ⟨⟨k, hk⟩, ⟨j, hj⟩⟩ := hlive a hmem
          rw [(hold a hmem).2]
          exact ⟨⟨k, (hlive₃ _).mpr (Or.inr (Or.inr hk))⟩, ⟨j, (hlive₃ _).mpr (Or.inr (Or.inr hj))⟩⟩
        · rw [List.mem_singleton] at hmem
          subst hmem
          refine ⟨⟨n, (hlive₃ _).mpr (Or.inr (Or.inl rfl))⟩, ⟨m, ?_⟩⟩
          rw [htask', if_pos rfl]
          exact (hlive₃ _).mpr (Or.inl rfl)
      · rw [htask', if_pos rfl]
        rfl
  · obtain ⟨heap₁, hk, hlost₁⟩ : ∃ heap₁, Heap.kcalloc heap 1 sizeofSchedulerTask = some (0, heap₁) ∧
        Heap.Lost heap₁ := by
      rcases hlost.1.kcalloc_null 1 sizeofSchedulerTask with hk | hk
      · exact ⟨heap, hk, hlost⟩
      · exact ⟨_, hk, hlost.1, hlost.2⟩
    rw [hk]
    dsimp only
    rw [if_pos rfl]
    exact ⟨0, _, heap₁, rfl, rfl, rfl, fun _ _ => rfl, Or.inl ⟨rfl, hlogged _, Or.inr ⟨hlost₁, hnone⟩⟩⟩

theorem create_outcomes {s' : State} {heap' : Heap.State}
    {name entry context stackSizeBytes address : UInt32}
    (h : schedulerCreateKernelThread s heap name entry context stackSizeBytes = some (address, s', heap')) :
    (address = 0 ∧ ∃ log, s' = { s with log }) ∨
      (address ≠ 0 ∧ entry ≠ 0 ∧ ∃ stackBase heap₁ heap₂, Heap.kcalloc heap 1 sizeofSchedulerTask =
        some (address, heap₁) ∧
        Heap.kcalloc heap₁ 1 (schedulerStackSize stackSizeBytes) = some (stackBase, heap₂) ∧ stackBase ≠ 0 ∧
        s' = schedulerRegister s address
          (newTask s name entry context stackBase (schedulerStackSize stackSizeBytes)) ∧
        heap' = { heap₂ with mem := heap₂.mem.store32 stackBase stackGuardMagic }) := by
  unfold schedulerCreateKernelThread at h
  split at h
  · cases h
    exact Or.inl ⟨rfl, s.log, rfl⟩
  rename_i hskip
  dsimp only at h
  split at h
  · cases h
  rename_i htask
  split at h
  · cases h
    exact Or.inl ⟨rfl, _, rfl⟩
  rename_i hne
  split at h
  · cases h
  rename_i hstack
  split at h
  · rw [Option.map_eq_some_iff] at h
    obtain ⟨_, _, heq⟩ := h
    cases heq
    exact Or.inl ⟨rfl, _, rfl⟩
  · rename_i hbase
    cases h
    exact Or.inr ⟨hne, fun h0 => hskip (Or.inr (Or.inr h0)), _, _, _, htask, hstack, hbase, rfl, rfl⟩

end create

/-! ### The invariant -/

/-- Between two calls: the list is well formed, its blocks are live, and the processor is in the kernel loop
with no task running or in the one task that is running. -/
structure Inv (start : UInt32) (t : System) : Prop where
  shape : Shape t.created t.sched
  heap : HeapHolds start t.created t.sched t.heap
  kernelContext : t.kernelContext = none
  control : (t.running = none ∧ InKernel t.created t.sched) ∨
    ∃ a, t.running = some (.thread a) ∧ InThread t.created a t.sched

/-- What a step leaves: the tasks there were, with the exited ones still exited. -/
def Follows (t t' : System) : Prop :=
  (∀ a ∈ t.created, a ∈ t'.created) ∧ KeepsExited t.created t.sched t'.sched

theorem Follows.trans {t t' t'' : System} (h : Follows t t') (h' : Follows t' t'') : Follows t t'' :=
  ⟨fun a ha => h'.1 a (h.1 a ha), fun a ha hs => h'.2 a (h.1 a ha) (h.2 a ha hs)⟩

section invariant
variable {start : UInt32} {t : System}
variable {s : State}

section
variable (h : Inv start t)
include h

theorem Inv.after (hev : Evolves t.created t.sched s) (running : Option Ref)
    (hcontrol : (running = none ∧ InKernel t.created s) ∨ ∃ a, running = some (.thread a) ∧
      InThread t.created a s) :
    Inv start { t with sched := s, running, kernelContext := none } ∧
      Follows t { t with sched := s, running, kernelContext := none } := by
  refine ⟨⟨hev.shape, h.heap.keep fun a _ => skeleton_stackBase hev.skeleton _, rfl, hcontrol⟩,
    fun a ha => ha, hev.exited⟩

theorem Inv.toKernel (hev : Evolves t.created t.sched s)
    (hstill : ∀ a ∈ t.created, (s.task (.thread a)).state ≠ .running) :
    Inv start (t.toKernel s) ∧ Follows t (t.toKernel s) := by
  obtain ⟨hend, hkernel⟩ := hev.shape.dispatchEnd hstill
  have hafter := h.after (hev.trans hend) _ (Or.inl ⟨rfl, hkernel⟩)
  rw [System.toKernel, h.kernelContext]
  exact hafter

theorem Inv.toTask (hrunning : t.running = none) {a : UInt32}
    (hev : Evolves t.created t.sched s) (ht : InThread t.created a s) :
    ∃ t', t.toTask (.thread a) s = some t' ∧ Inv start t' ∧ Follows t t' := by
  unfold System.toTask
  dsimp only
  rw [hrunning]
  cases (s.task (.thread a)).eip with
  | switched =>
    obtain ⟨hend, ht'⟩ := hev.shape.yieldEnd ht
    exact ⟨_, rfl, h.after (hev.trans hend) _ (Or.inr ⟨a, rfl, ht'⟩)⟩
  | bootstrap =>
    simp only [hev.shape.bootstrap ht]
    exact ⟨_, rfl, h.after hev _ (Or.inr ⟨a, rfl, ht⟩)⟩

theorem Inv.dispatch : ∃ t', step t .dispatch = some t' ∧ Inv start t' ∧ Follows t t' := by
  unfold step
  rcases h.control with ⟨hrunning, hk⟩ | ⟨a, hrunning, ht⟩
  · rcases h.shape.dispatchBegin hk t.heap with ⟨s, hs, hev, hk'⟩ | ⟨a, s, hs, hev, ht, _⟩
    · have hafter := h.after hev _ (Or.inl ⟨hrunning, hk'⟩)
      rw [hs, System.settle]
      refine ⟨_, rfl, ?_⟩
      rw [← h.kernelContext] at hafter
      exact hafter
    · rw [hs, System.settle]
      exact h.toTask hrunning hev ht
  · -- a task that calls `scheduler_dispatch` gets nothing
    rw [schedulerDispatchBegin, if_pos (Or.inr (Or.inl ht.flag)), System.settle]
    exact ⟨t, rfl, h, fun _ ha => ha, fun _ _ hs => hs⟩

theorem Inv.yield : ∃ t', step t .yield = some t' ∧ Inv start t' ∧ Follows t t' := by
  unfold step
  rcases h.control with ⟨_, hk⟩ | ⟨a, _, ht⟩
  · rw [schedulerYieldBegin, if_pos (Or.inr hk.flag), System.settle]
    exact ⟨t, rfl, h, fun _ ha => ha, fun _ _ hs => hs⟩
  · obtain ⟨s, hs, hev, hstill⟩ := h.shape.yieldBegin ht t.heap
    rw [hs, System.settle]
    exact ⟨_, rfl, h.toKernel hev hstill⟩

theorem Inv.exit (hcaller : t.running ≠ none) :
    ∃ t', step t .exit = some t' ∧ Inv start t' ∧ Follows t t' := by
  unfold step
  rcases h.control with ⟨hrunning, _⟩ | ⟨a, _, ht⟩
  · exact absurd hrunning hcaller
  · obtain ⟨s, hs, hev, hstill⟩ := h.shape.exitCurrent ht.mem ht.current fun b hb => (ht.only b hb).mp
    rw [hs, System.settle]
    exact ⟨_, rfl, h.toKernel hev hstill⟩

theorem Inv.tick : ∃ t', step t .tick = some t' ∧ Inv start t' ∧ Follows t t' := by
  obtain ⟨hskel, hlast, hcurrent, hflag, hstate⟩ := schedulerHandleTick_keeps t.sched
  have hev : Evolves t.created t.sched (schedulerHandleTick t.sched) := by
    apply h.shape.evolves hskel
    · rw [hlast]
      exact h.shape.last
    · rw [hstate]
      exact h.shape.idleState
    · intro a _ hs
      rw [hstate]
      exact hs
  have hafter := h.after hev t.running ?_
  · rw [← h.kernelContext] at hafter
    exact ⟨_, rfl, hafter⟩
  · rcases h.control with ⟨hrunning, hk⟩ | ⟨a, hrunning, ht⟩
    · exact Or.inl ⟨hrunning, hflag.trans hk.flag, hcurrent.trans hk.current, fun b hb => by
        rw [hstate]
        exact hk.still b hb⟩
    · exact Or.inr ⟨a, hrunning, ht.mem, hflag.trans ht.flag, hcurrent.trans ht.current, fun b hb => by
        rw [hstate]
        exact ht.only b hb⟩

/-- A new task is ready, so that it is not running and whoever had the processor still has it. -/
theorem Inv.create (name entry context stackSizeBytes : UInt32) :
    ∃ t', step t (.create name entry context stackSizeBytes) = some t' ∧ Inv start t' ∧ Follows t t' := by
  obtain ⟨address, s, heap, hs, hcurrent, hflag, hstate, hend⟩ :=
    create_spec h.shape h.heap name entry context stackSizeBytes
  simp only [step, hs, Option.map_some]
  refine ⟨_, rfl, ?_⟩
  have hexited : KeepsExited t.created t.sched s := fun a ha hexit => (hstate a ha).trans hexit
  rcases hend with ⟨haddress, hshape, hheap⟩ | ⟨haddress, hnew, hshape, hheap, hready⟩
  · rw [if_pos haddress]
    refine ⟨⟨hshape, hheap, h.kernelContext, ?_⟩, fun a ha => ha, hexited⟩
    rcases h.control with ⟨hrunning, hk⟩ | ⟨a, hrunning, ht⟩
    · exact Or.inl ⟨hrunning, hflag.trans hk.flag, hcurrent.trans hk.current, fun b hb => by
        rw [hstate b hb]
        exact hk.still b hb⟩
    · exact Or.inr ⟨a, hrunning, ht.mem, hflag.trans ht.flag, hcurrent.trans ht.current, fun b hb => by
        rw [hstate b hb]
        exact ht.only b hb⟩
  · rw [if_neg haddress]
    refine ⟨⟨hshape, hheap, h.kernelContext, ?_⟩, fun a ha => List.mem_append_left _ ha, hexited⟩
    rcases h.control with ⟨hrunning, hk⟩ | ⟨a, hrunning, ht⟩
    · refine Or.inl ⟨hrunning, hflag.trans hk.flag, hcurrent.trans hk.current, fun b hb => ?_⟩
      rcases List.mem_append.mp hb with hold | hlast
      · rw [hstate b hold]
        exact hk.still b hold
      · rw [List.mem_singleton.mp hlast, hready]
        exact TaskState.noConfusion
    · refine Or.inr ⟨a, hrunning, List.mem_append_left _ ht.mem, hflag.trans ht.flag,
        hcurrent.trans ht.current, fun b hb => ?_⟩
      rcases List.mem_append.mp hb with hold | hlast
      · rw [hstate b hold]
        exact ht.only b hold
      · rw [List.mem_singleton.mp hlast, hready]
        refine ⟨TaskState.noConfusion, fun hba => ?_⟩
        exact absurd (hba ▸ ht.mem) hnew

theorem Inv.scribble {address : UInt32} {value : UInt8}
    (hcaller : CallerOk t (.scribble address value)) :
    ∃ t', step t (.scribble address value) = some t' ∧ Inv start t' ∧ Follows t t' := by
  refine ⟨_, rfl, ⟨h.shape, ?_, h.kernelContext, h.control⟩, fun _ ha => ha, fun _ _ hs => hs⟩
  obtain ⟨a, ha, n, hin, hlo, hhi⟩ := hcaller
  rcases h.heap with ⟨⟨hstart, bs, hrep⟩, hlive⟩ | ⟨_, hnone⟩
  · obtain ⟨hrep', hsame⟩ := hrep.fill_byte hin hlo hhi value
    refine Or.inl ⟨⟨hstart, bs, hrep'⟩, ?_⟩
    rw [hsame]
    exact hlive
  · rw [hnone] at ha
    cases ha

theorem Inv.step (op : Op) (hcaller : CallerOk t op) :
    ∃ t', step t op = some t' ∧ Inv start t' ∧ Follows t t' := by
  cases op with
  | dispatch => exact h.dispatch
  | yield => exact h.yield
  | exit => exact h.exit hcaller
  | tick => exact h.tick
  | create name entry context stackSizeBytes => exact h.create name entry context stackSizeBytes
  | scribble address value => exact h.scribble hcaller

theorem Inv.run {ops : List Op} (hcaller : Allowed Scheduler.step CallerOk t ops) :
    ∃ t', run Scheduler.step t ops = some t' ∧ Inv start t' ∧ Follows t t' := by
  apply run_invariant (P := fun t' => Inv start t' ∧ Follows t t') _ _ hcaller
  · intro s op hs hok
    obtain ⟨s', hs', hinv, hfollows⟩ := hs.1.step op hok
    exact ⟨s', hs', hinv, hs.2.trans hfollows⟩
  · exact ⟨h, fun _ ha => ha, fun _ _ hs => hs⟩

end

end invariant

theorem inv_boot_at {kernelEnd : UInt32} (hfits : Heap.HeapFits kernelEnd)
    (hheap : Heap.Reachable kernelEnd heap) (idleName : UInt32) (s : State) :
    Inv (Heap.heapAlignUp kernelEnd Heap.heapAlignment) (System.boot idleName s heap) := by
  have hholds : HeapHolds (Heap.heapAlignUp kernelEnd Heap.heapAlignment) []
      (schedulerInit idleName s) heap := by
    rcases hheap.sound_or_lost hfits with hsound | hlost
    · exact Or.inl ⟨hsound, fun a ha => by cases ha⟩
    · exact Or.inr ⟨hlost, rfl⟩
  refine ⟨⟨⟨rfl, rfl⟩, rfl, List.nodup_nil, rfl, rfl, ⟨.idle, idle_mem_tasks [], rfl⟩, rfl, rfl,
    ?_⟩, hholds, rfl, Or.inl ⟨rfl, rfl, rfl, ?_⟩⟩
  · intro a ha
    cases ha
  · intro a ha
    cases ha

theorem inv_boot {kernelEnd : UInt32} (hfits : Heap.HeapFits kernelEnd)
    (hheap : Heap.Reachable kernelEnd heap) (idleName : UInt32) (s : State) :
    ∃ start, Inv start (System.boot idleName s heap) :=
  ⟨_, inv_boot_at hfits hheap idleName s⟩

/-! ### One running task -/

/-- What a reader of the scheduler's variables can rely on between two calls. -/
structure WellScheduled (t : System) : Prop where
  atMostOne : ∀ r ∈ tasks t.created, ∀ q ∈ tasks t.created,
    (t.sched.task r).state = .running → (t.sched.task q).state = .running → r = q
  inThread : t.sched.inThreadContext = true ↔
    ∃ r ∈ tasks t.created, (t.sched.task r).state = .running ∧
      (∀ q ∈ tasks t.created, (t.sched.task q).state = .running → q = r) ∧ t.sched.currentTaskPtr = some r
  inKernel : t.sched.inThreadContext = false → t.sched.currentTaskPtr = some .idle
  idleReady : (t.sched.task .idle).state = .ready
  linked : Linked (fun r => (t.sched.task r).next) t.sched.taskListHead (tasks t.created)
  nodup : (tasks t.created).Nodup
  tail : t.sched.taskListTail = (tasks t.created).getLast?
  total : t.sched.totalTasks.toNat = (tasks t.created).length

theorem Inv.wellScheduled {t : System} (h : Inv start t) : WellScheduled t := by
  have hrunning : ∀ r ∈ tasks t.created, (t.sched.task r).state = .running →
      ∃ a ∈ t.created, r = .thread a ∧ InThread t.created a t.sched := by
    intro r hr hrun
    cases r with
    | idle => exact absurd (h.shape.idleState.symm.trans hrun) TaskState.noConfusion
    | thread b =>
      have hb := thread_mem_tasks.mp hr
      rcases h.control with ⟨_, hk⟩ | ⟨a, _, ht⟩
      · exact absurd hrun (hk.still b hb)
      · obtain rfl := (ht.only b hb).mp hrun
        exact ⟨b, hb, rfl, ht⟩
  have hunique : ∀ r ∈ tasks t.created, ∀ q ∈ tasks t.created,
      (t.sched.task r).state = .running → (t.sched.task q).state = .running → r = q := by
    intro r hr q hq hrun hrun'
    obtain ⟨a, ha, rfl, hta⟩ := hrunning r hr hrun
    obtain ⟨b, hb, rfl, _⟩ := hrunning q hq hrun'
    rw [(hta.only b hb).mp hrun']
  refine ⟨hunique, ⟨fun hflag => ?_, fun hex => ?_⟩, fun hflag => ?_, h.shape.idleState, h.shape.linked, ?_,
    h.shape.tail, ?_⟩
  · rcases h.control with ⟨_, hk⟩ | ⟨a, _, ht⟩
    · exact absurd (hk.flag.symm.trans hflag) Bool.noConfusion
    · have hrun := (ht.only a ht.mem).mpr rfl
      have hmem := thread_mem_tasks.mpr ht.mem
      exact ⟨.thread a, hmem, hrun, fun q hq hrun' => hunique q hq _ hmem hrun' hrun, ht.current⟩
  · obtain ⟨r, hr, hrun, _⟩ := hex
    obtain ⟨a, _, _, ht⟩ := hrunning r hr hrun
    exact ht.flag
  · rcases h.control with ⟨_, hk⟩ | ⟨a, _, ht⟩
    · exact hk.current
    · exact absurd (ht.flag.symm.trans hflag) Bool.noConfusion
  · exact tasks_nodup h.shape.nodup
  · rw [h.shape.total, tasks, List.length_cons, List.length_map]

theorem Inv.switches_to_ready {t : System} (h : Inv start t) {r : Ref}
    (hswitch : (schedulerDispatchBegin t.heap t.sched).1 = .switchTo r) :
    (t.sched.task r).state = .ready := by
  rcases h.control with ⟨_, hk⟩ | ⟨a, _, ht⟩
  · rcases h.shape.dispatchBegin hk t.heap with ⟨s, hs, _⟩ | ⟨a, s, hs, _, _, hready⟩
    · rw [hs] at hswitch
      cases hswitch
    · rw [hs] at hswitch
      cases hswitch
      exact hready
  · rw [schedulerDispatchBegin, if_pos (Or.inr (Or.inl ht.flag))] at hswitch
    cases hswitch

/-- Every interleaving of calls after `scheduler_init`, over every heap, with the stacks overwritten
in any way: the variables of the scheduler agree on the one task that runs and on the list of tasks,
and a task that has exited stays so and is never given the processor. -/
theorem single_running_task {kernelEnd : UInt32} (hfits : Heap.HeapFits kernelEnd) {heap : Heap.State}
    (hheap : Heap.Reachable kernelEnd heap) (idleName : UInt32) (s : State) (ops : List Op)
    (hcaller : Allowed step CallerOk (System.boot idleName s heap) ops) :
    ∃ t, run step (System.boot idleName s heap) ops = some t ∧ WellScheduled t ∧
      ∀ later, Allowed step CallerOk t later → ∃ t', run step t later = some t' ∧
        ∀ r ∈ tasks t.created, (t.sched.task r).state = .exited →
          (t'.sched.task r).state = .exited ∧ t'.running ≠ some r ∧
            (schedulerDispatchBegin t'.heap t'.sched).1 ≠ .switchTo r := by
  obtain ⟨start, hboot⟩ := inv_boot hfits hheap idleName s
  obtain ⟨t, ht, hinv, _⟩ := hboot.run hcaller
  refine ⟨t, ht, hinv.wellScheduled, fun later hlater => ?_⟩
  obtain ⟨t', ht', hinv', hcreated, hexited⟩ := hinv.run hlater
  refine ⟨t', ht', fun r hr hexit => ?_⟩
  cases r with
  | idle => exact absurd (hinv.shape.idleState.symm.trans hexit) TaskState.noConfusion
  | thread a =>
    have ha := thread_mem_tasks.mp hr
    have hexit' := hexited a ha hexit
    refine ⟨hexit', fun hrunning => ?_, fun hswitch => ?_⟩
    · rcases hinv'.control with ⟨hnone, _⟩ | ⟨b, hsome, htb⟩
      · exact absurd (hnone.symm.trans hrunning) (by simp)
      · obtain rfl : b = a := by simpa using hsome.symm.trans hrunning
        exact absurd (((htb.only b htb.mem).mpr rfl).symm.trans hexit') TaskState.noConfusion
    · exact absurd ((hinv'.switches_to_ready hswitch).symm.trans hexit') TaskState.noConfusion

theorem single_running_task_one_thread :
    Heap.HeapFits 0x00200000 ∧ Heap.Reachable 0x00200000 (Heap.heapInit 0x00200000 Heap.bootState) ∧
      ∃ t, run step (System.boot 0x00101000 bootState (Heap.heapInit 0x00200000 Heap.bootState))
          [.create 0x00101010 0x00100000 0 0, .tick, .dispatch, .yield] = some t ∧ WellScheduled t :=
  have hallowed :=
    ⟨trivial, fun _ _ => ⟨trivial, fun _ _ => ⟨trivial, fun _ _ => ⟨trivial, fun _ _ => trivial⟩⟩⟩⟩
  have ⟨t, ht, hwell, _⟩ :=
    single_running_task (by decide) Heap.reachable_init 0x00101000 bootState _ hallowed
  ⟨by decide, Heap.reachable_init, t, ht, hwell⟩

end TermobKernel.Scheduler
