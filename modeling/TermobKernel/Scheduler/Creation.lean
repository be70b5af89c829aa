import TermobKernel.Scheduler.Accounting
import TermobKernel.Heap.Undo

/-!
# Creating a thread

`scheduler_create_kernel_thread` takes two blocks from the heap. If the second is not to be had, the
first goes back, and only the log shows that there was a call. If both are had, the new task shares
no byte with the others, and its stack is as large as it was asked for, unless rounding up the
request wraps around.
-/

namespace TermobKernel.Scheduler
open Links Runs Word

/-! ### Failing -/

/-- The call ends, and if it returns null then only the log of the scheduler has changed, and both
lists of the heap are the same. -/
def FailsAtomically (s : State) (heap : Heap.State) (name entry context stackSizeBytes : UInt32) : Prop :=
  ∃ address s' heap', schedulerCreateKernelThread s heap name entry context stackSizeBytes =
    some (address, s', heap') ∧
    (address = 0 → s' = { s with log := s'.log } ∧ Heap.SameLists heap heap')

theorem failsAtomically {heap : Heap.State} (hheap : (∃ bs, Heap.Rep heap bs) ∨ Heap.Lost heap)
    (s : State) (name entry context stackSizeBytes : UInt32) :
    FailsAtomically s heap name entry context stackSizeBytes := by
  unfold FailsAtomically schedulerCreateKernelThread
  by_cases hskip : s.ready = false ∨ name = 0 ∨ entry = 0
  · rw [if_pos hskip]
    exact ⟨0, s, heap, rfl, fun _ => ⟨rfl, Heap.SameLists.refl heap⟩⟩
  rw [if_neg hskip]
  dsimp only
  rcases hheap with ⟨bs, hrep⟩ | hlost
  · rcases hrep.kcalloc_cases (show Heap.requested 1 sizeofSchedulerTask ≤ 2 ^ 32 - 16 by decide) with
      hk | ⟨xs, b, ys, rounded, heap₁, rfl, hb, hk, hrep₁, hkept⟩
    · rw [hk]
      exact ⟨0, _, heap, rfl, fun _ => ⟨rfl, Heap.SameLists.refl heap⟩⟩
    have hrecord : Heap.heapBlockPayloadAddress b.addr ≠ 0 := hrep.phys.payload_ne_zero (by simp)
    have hsmall : Heap.requested 1 (schedulerStackSize stackSizeBytes) ≤ 2 ^ 32 - 16 := by
      rw [Heap.requested, UInt32.toNat_one, Nat.one_mul]
      exact (schedulerStackSize_bounds stackSizeBytes).2
    rw [hk]
    dsimp only
    rw [if_neg hrecord]
    rcases hrep₁.kcalloc_cases hsmall with hk₁ | ⟨us, c, vs, rounded₁, heap₂, hsplit, _, hk₁, _, _⟩
    · -- the record goes back into the block that it was split off from
      obtain ⟨heap₃, hfree, hrep₃, hkept₃⟩ := hrep.kfree_taken hb hkept hrep₁ (Heap.Kept.refl _ _)
      rw [hk₁]
      dsimp only
      rw [if_pos rfl, hfree]
      exact ⟨0, _, heap₃, rfl, fun _ => ⟨rfl, hrep.sameLists hrep₃ hkept₃⟩⟩
    · have hbase : Heap.heapBlockPayloadAddress c.addr ≠ 0 :=
        hrep₁.phys.payload_ne_zero (by rw [hsplit]; simp)
      rw [hk₁]
      dsimp only
      rw [if_neg hbase]
      exact ⟨_, _, _, rfl, fun hnull => absurd hnull hrecord⟩
  · rcases hlost.1.kcalloc_null 1 sizeofSchedulerTask with hk | hk
    · rw [hk]
      exact ⟨0, _, heap, rfl, fun _ => ⟨rfl, Heap.SameLists.refl heap⟩⟩
    · rw [hk]
      exact ⟨0, _, _, rfl, fun _ => ⟨rfl, hlost.1.sameLists_note _ _⟩⟩

theorem Inv.heap_cases {start : UInt32} {t : System} (h : Inv start t) :
    (∃ bs, Heap.Rep t.heap bs) ∨ Heap.Lost t.heap :=
  h.heap.imp (fun hsound => hsound.1.2) And.left

/-- **Creating a thread fails atomically**, wherever it fails: with any state of the scheduler over
any heap that the kernel can have, and in every state that the calls after `scheduler_init` reach.
-/
theorem creation_fails_atomically {kernelEnd : UInt32} (hfits : Heap.HeapFits kernelEnd) {heap : Heap.State}
    (hheap : Heap.Reachable kernelEnd heap) :
    (∀ s name entry context stackSizeBytes, FailsAtomically s heap name entry context stackSizeBytes) ∧
      ∀ idleName s ops, Allowed step CallerOk (System.boot idleName s heap) ops →
        ∃ t, run step (System.boot idleName s heap) ops = some t ∧
          ∀ name entry context stackSizeBytes,
            FailsAtomically t.sched t.heap name entry context stackSizeBytes := by
  refine ⟨failsAtomically (hheap.cases hfits), fun idleName s ops hcaller => ?_⟩
  obtain ⟨t, ht, hinv, _⟩ := (inv_boot_at hfits hheap idleName s).run hcaller
  exact ⟨t, ht, failsAtomically hinv.heap_cases t.sched⟩

/-- A stack of two megabytes does not fit behind its record. -/
theorem creation_fails_two_megabytes :
    ∃ s' heap', schedulerCreateKernelThread (schedulerInit 0x00101000 bootState)
        (Heap.heapInit 0x00200000 Heap.bootState) 0x00101010 0x00100000 0 0x00200000 = some (0, s', heap') ∧
      s' = { schedulerInit 0x00101000 bootState with log := s'.log } ∧
      Heap.SameLists (Heap.heapInit 0x00200000 Heap.bootState) heap' := by
  obtain ⟨address, s', heap', heq, hnull⟩ :=
    (creation_fails_atomically (show Heap.HeapFits 0x00200000 by decide)
      Heap.reachable_init).1 (schedulerInit 0x00101000 bootState) 0x00101010 0x00100000 0 0x00200000
  have hfirst : (schedulerCreateKernelThread (schedulerInit 0x00101000 bootState)
      (Heap.heapInit 0x00200000 Heap.bootState) 0x00101010 0x00100000 0 0x00200000).map (·.1) = some 0 := by
    decide +kernel
  rw [heq] at hfirst
  obtain rfl : address = 0 := Option.some.inj hfirst
  exact ⟨s', heap', heq, hnull rfl⟩

/-! ### The blocks of the tasks -/

/-- The record and the stack of every created task lie in live blocks. -/
def Covered (t : System) : Prop :=
  ∀ a ∈ t.created, (∃ n, (a, n) ∈ Heap.liveMap t.heap ∧ sizeofSchedulerTask.toNat ≤ n.toNat) ∧
    ∃ m, ((t.sched.task (.thread a)).stackBase, m) ∈ Heap.liveMap t.heap ∧
      (t.sched.task (.thread a)).stackSizeBytes.toNat ≤ m.toNat

/-- What a call that creates a task takes from the heap: two blocks, neither of which was live. -/
structure TakesTwo (start : UInt32) (heap heap' : Heap.State)
    (address stackBase allocSize : UInt32) : Prop where
  sound : Heap.Sound start heap'
  guarded : heap'.mem.load32 stackBase = stackGuardMagic
  recordFresh : ∀ k, (address, k) ∉ Heap.liveMap heap
  stackFresh : ∀ k, (stackBase, k) ∉ Heap.liveMap heap
  distinct : address ≠ stackBase
  entries : ∃ n m : UInt32, sizeofSchedulerTask.toNat ≤ n.toNat ∧ allocSize.toNat ≤ m.toNat ∧
    ∀ e, e ∈ Heap.liveMap heap' ↔ e = (stackBase, m) ∨ e = (address, n) ∨ e ∈ Heap.liveMap heap

section create
variable {start : UInt32} {s s' : State} {heap heap' : Heap.State}
  {name entry context stackSizeBytes address : UInt32}

theorem create_takes {created : List UInt32} (hholds : HeapHolds start created s heap)
    (h : schedulerCreateKernelThread s heap name entry context stackSizeBytes = some (address, s', heap'))
    (haddress : address ≠ 0) :
    ∃ stackBase, s' = schedulerRegister s address
        (newTask s name entry context stackBase (schedulerStackSize stackSizeBytes)) ∧
      TakesTwo start heap heap' address stackBase (schedulerStackSize stackSizeBytes) := by
  obtain ⟨_, _, stackBase, heap₁, heap₂, hk₁, hk₂, hbase, rfl, rfl⟩ :=
    (create_outcomes h).resolve_left fun hnull => haddress hnull.1
  refine ⟨stackBase, rfl, ?_⟩
  rcases hholds with ⟨hsound, _⟩ | ⟨hlost, _⟩
  · obtain ⟨hmin, hmax⟩ := schedulerStackSize_bounds stackSizeBytes
    obtain ⟨task, heap₁', hk₁', hend₁⟩ := kcalloc_twice hsound (schedulerStackSize stackSizeBytes) hmin hmax
    rw [hk₁] at hk₁'
    cases hk₁'
    obtain ⟨_, hfresh, base, heap₂', hk₂', hend₂⟩ := hend₁.resolve_left fun hnull => haddress hnull.1
    rw [hk₂] at hk₂'
    cases hk₂'
    obtain ⟨_, hsound₂, hfresh₂, n, m, hn, hm, hrecord, hkept, hlive⟩ :=
      hend₂.resolve_left fun hnull => hbase hnull.1
    refine ⟨hsound₂, Mem.load32_store32_self _ _ _, hfresh, fun k hk => hfresh₂ k (hkept _ hk), ?_,
      n, m, hn, hm, hlive⟩
    rintro rfl
    exact hfresh₂ n hrecord
  · rcases hlost.1.kcalloc_null 1 sizeofSchedulerTask with hnull | hnull
    · rw [hnull] at hk₁
      cases hk₁
      exact absurd rfl haddress
    · rw [hnull] at hk₁
      cases hk₁
      exact absurd rfl haddress

end create

theorem System.settle_keeps {t t' : System} {r : Outcome × State} (h : t.settle r = some t') :
    t'.heap = t.heap ∧ t'.created = t.created := by
  obtain ⟨outcome, s⟩ := r
  cases outcome with
  | returns =>
    cases h
    exact ⟨rfl, rfl⟩
  | switchToKernel =>
    cases h
    exact ⟨rfl, rfl⟩
  | halts => cases h
  | switchTo r =>
    rw [System.settle, System.toTask] at h
    dsimp only at h
    split at h
    · cases h
      exact ⟨rfl, rfl⟩
    · split at h
      · cases h
        exact ⟨rfl, rfl⟩
      · cases h
      · cases h
        exact ⟨rfl, rfl⟩

section covered
variable {start : UInt32} {t t' : System}

theorem Covered.keep (h : Covered t) {m : Move} (hm : Performs m t t') (hcreated : t'.created = t.created)
    (hlive : Heap.liveMap t'.heap = Heap.liveMap t.heap) : Covered t' := by
  intro a ha
  rw [hcreated] at ha
  obtain ⟨hbase, hsize⟩ := hm.stackFields _ (thread_mem_tasks.mpr ha)
  rw [hlive, hbase, hsize]
  exact h a ha

theorem Covered.create (h : Covered t) (hinv : Inv start t) {name entry context stackSizeBytes : UInt32}
    (hs : step t (.create name entry context stackSizeBytes) = some t') : Covered t' := by
  obtain ⟨m, hm⟩ := hinv.create_performs hs
  obtain ⟨address, s', heap', heq, hnull⟩ :=
    failsAtomically hinv.heap_cases t.sched name entry context stackSizeBytes
  simp only [step, heq, Option.map_some, Option.some.injEq] at hs
  subst hs
  by_cases haddress : address = 0
  · refine h.keep hm (if_pos haddress) ?_
    rw [Heap.liveMap, Heap.liveMap, (hnull haddress).2.blocks]
  obtain ⟨stackBase, rfl, htakes⟩ := create_takes hinv.heap heq haddress
  obtain ⟨n, k, hn, hk, hlive⟩ := htakes.entries
  have hnew : address ∉ t.created := fun hold => by
    obtain ⟨⟨n, hn, _⟩, _⟩ := h address hold
    exact htakes.recordFresh n hn
  intro a ha
  rw [if_neg haddress] at ha
  rcases List.mem_append.mp ha with hold | hin
  · obtain ⟨hbase, hsize⟩ := hm.stackFields _ (thread_mem_tasks.mpr hold)
    obtain ⟨⟨n, hn, hcover⟩, ⟨k, hk, hcover'⟩⟩ := h a hold
    rw [hbase, hsize]
    exact ⟨⟨n, (hlive _).mpr (Or.inr (Or.inr hn)), hcover⟩, k, (hlive _).mpr (Or.inr (Or.inr hk)), hcover'⟩
  · obtain rfl := List.mem_singleton.mp hin
    have htask := schedulerRegister_task hinv.shape hnew (show (newTask t.sched name entry context stackBase
      (schedulerStackSize stackSizeBytes)).next = none from rfl)
    refine ⟨⟨n, (hlive _).mpr (Or.inr (Or.inl rfl)), hn⟩, ?_⟩
    rw [htask, if_pos rfl]
    exact ⟨k, (hlive _).mpr (Or.inl rfl), hk⟩

theorem Covered.step (h : Covered t) (hinv : Inv start t) {op : Op} (hok : CallerOk t op)
    (hs : Scheduler.step t op = some t') : Covered t' := by
  obtain ⟨m, hm⟩ := hinv.performs hok hs
  have hsettled : t'.heap = t.heap ∧ t'.created = t.created → Covered t' := fun hkeeps =>
    h.keep hm hkeeps.2 (congrArg Heap.liveMap hkeeps.1)
  cases op with
  | dispatch => exact hsettled (System.settle_keeps hs)
  | yield => exact hsettled (System.settle_keeps hs)
  | exit => exact hsettled (System.settle_keeps hs)
  | tick =>
    cases hs
    exact hsettled ⟨rfl, rfl⟩
  | create name entry context stackSizeBytes => exact h.create hinv hs
  | scribble address value =>
    cases hs
    obtain ⟨a, ha, n, hn, hlo, hhi⟩ := hok
    rcases hinv.heap_cases with ⟨bs, hrep⟩ | hlost
    · exact h.keep hm rfl (hrep.fill_byte hn hlo hhi value).2
    · rw [hlost.1.liveMap_eq] at hn
      cases hn

end covered

/-! ### The stack of a new task -/

/-- The record and the stack of one task share no byte with those of another. -/
def Apart (a : UInt32) (x : Task) (b : UInt32) (y : Task) : Prop :=
  Heap.Clear a.toNat sizeofSchedulerTask.toNat b.toNat sizeofSchedulerTask.toNat ∧
    Heap.Clear a.toNat sizeofSchedulerTask.toNat y.stackBase.toNat y.stackSizeBytes.toNat ∧
    Heap.Clear x.stackBase.toNat x.stackSizeBytes.toNat b.toNat sizeofSchedulerTask.toNat ∧
    Heap.Clear x.stackBase.toNat x.stackSizeBytes.toNat y.stackBase.toNat y.stackSizeBytes.toNat

/-- What the caller of `scheduler_create_kernel_thread` relies on about the task at `address`, in
the states that the call leaves. The record of the idle task is a variable of the kernel image,
below `kernelEnd`. -/
structure GetsStack (kernelEnd request : UInt32) (created : List UInt32) (s : State) (heap : Heap.State)
    (address : UInt32) : Prop where
  asked : (if request = 0 then defaultStackBytes else request) ≤ (s.task (.thread address)).stackSizeBytes
  minimum : minStackBytes ≤ (s.task (.thread address)).stackSizeBytes
  aligned : (s.task (.thread address)).esp.toNat % 16 = 0
  inside : (s.task (.thread address)).stackBase.toNat ≤ (s.task (.thread address)).esp.toNat ∧
    (s.task (.thread address)).esp.toNat ≤
      (s.task (.thread address)).stackBase.toNat + (s.task (.thread address)).stackSizeBytes.toNat
  guarded : heap.mem.load32 (s.task (.thread address)).stackBase = stackGuardMagic
  own : Heap.Clear address.toNat sizeofSchedulerTask.toNat (s.task (.thread address)).stackBase.toNat
    (s.task (.thread address)).stackSizeBytes.toNat
  others : ∀ b ∈ created, Apart address (s.task (.thread address)) b (s.task (.thread b))
  image : kernelEnd.toNat ≤ address.toNat ∧ kernelEnd.toNat ≤ (s.task (.thread address)).stackBase.toNat

theorem schedulerStackSize_asked (request : UInt32) :
    (if request = 0 then defaultStackBytes else request) ≤ schedulerStackSize request ↔
      request.toNat ≤ 0xFFFFFFF0 := by
  have hlt := request.toNat_lt
  have hmin : minStackBytes.toNat = 2048 := rfl
  by_cases hzero : request = 0
  · subst hzero
    decide
  · rw [schedulerStackSize, if_neg hzero, UInt32.le_iff_toNat_le]
    have hround := schedulerAlignUp_toNat request
    by_cases hsmall : schedulerAlignUp request stackAlignment < minStackBytes
    · rw [if_pos hsmall]
      rw [UInt32.lt_iff_toNat_lt] at hsmall
      omega
    · rw [if_neg hsmall]
      rw [UInt32.lt_iff_toNat_lt] at hsmall
      omega

theorem schedulerAlignDown_toNat (value : UInt32) :
    (schedulerAlignDown value stackAlignment).toNat = value.toNat / 16 * 16 := by
  rw [schedulerAlignDown, if_neg (by decide), show stackAlignment - 1 = UInt32.ofNat (2 ^ 4 - 1) from rfl,
    toNat_and_not_mask _ 4 (by omega)]
  rfl

theorem newTask_esp (s : State) (name entry context : UInt32) {stackBase allocSize : UInt32}
    (hend : stackBase.toNat + allocSize.toNat < 2 ^ 32) (hmin : 2048 ≤ allocSize.toNat) :
    (newTask s name entry context stackBase allocSize).esp.toNat % 16 = 0 ∧
      stackBase.toNat ≤ (newTask s name entry context stackBase allocSize).esp.toNat ∧
      (newTask s name entry context stackBase allocSize).esp.toNat ≤ stackBase.toNat + allocSize.toNat := by
  have hesp : (newTask s name entry context stackBase allocSize).esp.toNat =
      (stackBase.toNat + allocSize.toNat) / 16 * 16 := by
    rw [newTask, schedulerPrepareTaskContext]
    dsimp only
    rw [schedulerAlignDown_toNat, toNat_add_of_lt hend]
  omega

section stack
variable {kernelEnd : UInt32} {t : System} {s' : State} {heap' : Heap.State}
  {name entry context stackSizeBytes address : UInt32}

theorem Covered.getsStack_iff (h : Covered t) (hfits : Heap.HeapFits kernelEnd)
    (hinv : Inv (Heap.heapAlignUp kernelEnd Heap.heapAlignment) t)
    (heq : schedulerCreateKernelThread t.sched t.heap name entry context stackSizeBytes =
      some (address, s', heap'))
    (haddress : address ≠ 0) :
    GetsStack kernelEnd stackSizeBytes t.created s' heap' address ↔ stackSizeBytes.toNat ≤ 0xFFFFFFF0 := by
  have hstep : Scheduler.step t (.create name entry context stackSizeBytes) =
      some { t with sched := s', heap := heap', created := t.created ++ [address] } := by
    simp only [Scheduler.step, heq, Option.map_some, if_neg haddress]
  have hafter := h.create hinv hstep
  obtain ⟨m, hm⟩ := hinv.create_performs hstep
  obtain ⟨stackBase, rfl, htakes⟩ := create_takes hinv.heap heq haddress
  have hnew : address ∉ t.created := fun hold => by
    obtain ⟨⟨n, hn, _⟩, _⟩ := h address hold
    exact htakes.recordFresh n hn
  have htask : (schedulerRegister t.sched address (newTask t.sched name entry context stackBase
      (schedulerStackSize stackSizeBytes))).task (.thread address) =
      newTask t.sched name entry context stackBase (schedulerStackSize stackSizeBytes) := by
    rw [schedulerRegister_task hinv.shape hnew rfl, if_pos rfl]
  constructor
  · intro hgets
    have hasked := hgets.asked
    rw [htask] at hasked
    exact (schedulerStackSize_asked stackSizeBytes).mp hasked
  intro hsize
  obtain ⟨hmin, hmax⟩ := schedulerStackSize_bounds stackSizeBytes
  obtain ⟨hstart, bs, hrep⟩ := htakes.sound
  obtain ⟨⟨n, hn, hrecord⟩, k, hk, hstack⟩ := hafter address (List.mem_append_right _ List.mem_cons_self)
  dsimp only at hk hstack
  rw [htask] at hk hstack
  have hin := hrep.live_range hn
  have hin' := hrep.live_range hk
  have hend := heap'.heapEndPtr.toNat_lt
  have hstart' := hfits.start_toNat
  rw [← hstart] at hstart'
  have htop : stackBase.toNat + (schedulerStackSize stackSizeBytes).toNat < 2 ^ 32 := by
    have hfit : (schedulerStackSize stackSizeBytes).toNat ≤ k.toNat := hstack
    have hbelow : stackBase.toNat + k.toNat ≤ heap'.heapEndPtr.toNat := hin'.2
    omega
  obtain ⟨haligned, hinside⟩ := newTask_esp t.sched name entry context htop hmin
  refine ⟨?_, ?_, ?_, ?_, ?_, ?_, fun b hb => ?_, ?_⟩
  · rw [htask]
    exact (schedulerStackSize_asked stackSizeBytes).mpr hsize
  · rw [htask, UInt32.le_iff_toNat_le]
    exact hmin
  · rw [htask]
    exact haligned
  · rw [htask]
    exact hinside
  · rw [htask]
    exact htakes.guarded
  · rw [htask]
    exact (hrep.live_clear hn hk htakes.distinct).mono hrecord hstack
  · obtain ⟨⟨_, hlive, _⟩, _, hlive', _⟩ := h b hb
    obtain ⟨⟨i, hi, hcover⟩, j, hj, hcover'⟩ := hafter b (List.mem_append_left _ hb)
    obtain ⟨hbase, _⟩ := hm.stackFields _ (thread_mem_tasks.mpr hb)
    dsimp only at hi hj hcover' hbase
    rw [← hbase] at hlive'
    have hfresh : ∀ {p q : UInt32}, (∀ l, (p, l) ∉ Heap.liveMap t.heap) → ∀ {l},
        (q, l) ∈ Heap.liveMap t.heap → p ≠ q := by
      rintro p _ hp l hq rfl
      exact hp l hq
    rw [Apart, htask]
    exact ⟨(hrep.live_clear hn hi (hfresh htakes.recordFresh hlive)).mono hrecord hcover,
      (hrep.live_clear hn hj (hfresh htakes.recordFresh hlive')).mono hrecord hcover',
      (hrep.live_clear hk hi (hfresh htakes.stackFresh hlive)).mono hstack hcover,
      (hrep.live_clear hk hj (hfresh htakes.stackFresh hlive')).mono hstack hcover'⟩
  · rw [htask]
    have hlow : heap'.heapStartPtr.toNat ≤ address.toNat := hin.1
    have hlow' : heap'.heapStartPtr.toNat ≤ stackBase.toNat := hin'.1
    change kernelEnd.toNat ≤ address.toNat ∧ kernelEnd.toNat ≤ stackBase.toNat
    omega

end stack

/-- **Created threads get the stack they asked for**, in every state that the calls after
`scheduler_init` reach, exactly for the sizes that can be rounded up. -/
theorem created_threads_get_stack_iff {kernelEnd : UInt32} (hfits : Heap.HeapFits kernelEnd)
    {heap : Heap.State} (hheap : Heap.Reachable kernelEnd heap) (idleName : UInt32) (s : State)
    (ops : List Op) (hcaller : Allowed step CallerOk (System.boot idleName s heap) ops)
    (name entry context stackSizeBytes : UInt32) :
    ∃ t, run step (System.boot idleName s heap) ops = some t ∧
      ∃ address s' heap', schedulerCreateKernelThread t.sched t.heap name entry context stackSizeBytes =
          some (address, s', heap') ∧
        (address ≠ 0 →
          (GetsStack kernelEnd stackSizeBytes t.created s' heap' address ↔
            stackSizeBytes.toNat ≤ 0xFFFFFFF0)) := by
  have hboot := inv_boot_at hfits hheap idleName s
  have hrun : ∃ t, run step (System.boot idleName s heap) ops = some t ∧
      Inv (Heap.heapAlignUp kernelEnd Heap.heapAlignment) t ∧ Covered t := by
    apply run_invariant (P := fun t => Inv (Heap.heapAlignUp kernelEnd Heap.heapAlignment) t ∧
      Covered t) _ _ hcaller
    · intro t op ht hok
      obtain ⟨t', hs, hinv, _⟩ := ht.1.step op hok
      exact ⟨t', hs, hinv, ht.2.step ht.1 hok hs⟩
    · exact ⟨hboot, fun a ha => by cases ha⟩
  obtain ⟨t, ht, hinv, hcovered⟩ := hrun
  obtain ⟨address, s', heap', heq, _⟩ :=
    failsAtomically hinv.heap_cases t.sched name entry context stackSizeBytes
  exact ⟨t, ht, address, s', heap', heq, fun haddress => hcovered.getsStack_iff hfits hinv heq haddress⟩

/-- The default size right after `scheduler_init`. -/
theorem first_thread_gets_stack :
    ∃ s' heap', schedulerCreateKernelThread (schedulerInit 0x00101000 bootState)
        (Heap.heapInit 0x00200000 Heap.bootState) 0x00101010 0x00100000 0 0 = some (0x00200020, s', heap') ∧
      GetsStack 0x00200000 0 [] s' heap' 0x00200020 := by
  obtain ⟨t, ht, address, s', heap', heq, hgets⟩ := created_threads_get_stack_iff
    (show Heap.HeapFits 0x00200000 by decide) Heap.reachable_init 0x00101000 bootState [] trivial
    0x00101010 0x00100000 0 0
  cases ht
  have hfirst : (schedulerCreateKernelThread (schedulerInit 0x00101000 bootState)
      (Heap.heapInit 0x00200000 Heap.bootState) 0x00101010 0x00100000 0 0).map (·.1) = some 0x00200020 := by
    decide +kernel
  rw [show schedulerCreateKernelThread (schedulerInit 0x00101000 bootState)
    (Heap.heapInit 0x00200000 Heap.bootState) 0x00101010 0x00100000 0 0 =
      some (address, s', heap') from heq] at hfirst
  obtain rfl : address = 0x00200020 := Option.some.inj hfirst
  exact ⟨s', heap', heq, (hgets (by decide)).mpr (by decide)⟩

/-- A request for almost all of the address space is served with the minimum of 2048 bytes. -/
theorem largest_stack_not_given :
    ∃ s' heap', schedulerCreateKernelThread (schedulerInit 0x00101000 bootState)
        (Heap.heapInit 0x00200000 Heap.bootState) 0x00101010 0x00100000 0 0xFFFFFFFF =
          some (0x00200020, s', heap') ∧
      (s'.task (.thread 0x00200020)).stackSizeBytes = 2048 ∧
      ¬GetsStack 0x00200000 0xFFFFFFFF [] s' heap' 0x00200020 := by
  have hserved : (schedulerCreateKernelThread (schedulerInit 0x00101000 bootState)
      (Heap.heapInit 0x00200000 Heap.bootState) 0x00101010 0x00100000 0 0xFFFFFFFF).map
        (fun r => (r.1, (r.2.1.task (.thread r.1)).stackSizeBytes)) = some (0x00200020, 2048) := by
    decide +kernel
  obtain ⟨⟨address, s', heap'⟩, heq, hpair⟩ := Option.map_eq_some_iff.mp hserved
  obtain ⟨rfl, hsize⟩ := Prod.mk.inj hpair
  refine ⟨s', heap', heq, hsize, fun hgets => ?_⟩
  have hasked := hgets.asked
  rw [show (s'.task (.thread 0x00200020)).stackSizeBytes = 2048 from hsize] at hasked
  exact absurd hasked (by decide)

end TermobKernel.Scheduler
