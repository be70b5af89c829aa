import TermobKernel.Virtio.Model

/-!
# Whose completion is it

The driver has one descriptor chain, one header and one status byte for all requests, and looks at
the used index only. In a queue with room for a request, a call is safe from the completions of
earlier requests exactly when those that are still with the device are for the same sector and the
same buffer.
-/

namespace TermobKernel.Virtio
open Runs

variable {t : System} {call : Call}

/-! ### The chain in memory -/

/-- Descriptors 0, 1 and 2 form a read request. -/
structure Queue.Ready (q : Queue) (requestHeader requestStatus : UInt32) : Prop where
  headerAddress : (q.desc 0).address = requestHeader.toUInt64
  headerFlags : (q.desc 0).flags = virtqDescFNext
  headerNext : (q.desc 0).next = 1
  dataFlags : (q.desc 1).flags = virtqDescFNext ||| virtqDescFWrite
  dataNext : (q.desc 1).next = 2
  statusAddress : (q.desc 2).address = requestStatus.toUInt64
  statusFlags : (q.desc 2).flags = virtqDescFWrite

/-- The chain asks for this sector and this buffer. -/
def Queue.For (q : Queue) (lba buffer : UInt32) : Prop :=
  q.header.sector = lba.toUInt64 ∧ (q.desc 1).address = buffer.toUInt64

def Request.For (r : Request) (lba buffer : UInt32) : Prop :=
  r.sector = lba.toUInt64 ∧ r.buffer = buffer.toUInt64

theorem Queue.Ready.chain {q : Queue} {requestHeader requestStatus : UInt32}
    (h : q.Ready requestHeader requestStatus) :
    q.chain requestHeader 0 = some ⟨q.header.sector, (q.desc 1).address, requestStatus.toUInt64⟩ := by
  simp only [Queue.chain, h.headerNext, h.dataNext, h.statusAddress]
  rw [if_pos ⟨h.headerAddress, h.headerFlags, h.dataFlags, h.statusFlags⟩]

section stores
variable {b : BlkState} {lba n buffer : UInt32} {s : Store} {q : Queue} {k : UInt16}
variable {q' : Queue}

@[simp] theorem apply_availIndex : (s.apply k q).availIndex = q.availIndex := by cases s <;> rfl

def readDesc (b : BlkState) (n buffer : UInt32) (index : UInt16) : Desc :=
  if index = 0 then ⟨b.requestHeader.toUInt64, sizeofReqHeader, virtqDescFNext, 1⟩
  else if index = 1 then ⟨buffer.toUInt64, n * b.blockSizeBytes, virtqDescFNext ||| virtqDescFWrite, 2⟩
  else ⟨b.requestStatus.toUInt64, 1, virtqDescFWrite, 0⟩

/-- The store is one that a read of this sector into this buffer makes. -/
def Store.IsFor (b : BlkState) (lba n buffer : UInt32) : Store → Prop
  | .headerType _ | .headerReserved _ | .descLength _ _ => True
  | .headerSector value => value = lba.toUInt64
  | .requestStatus value => value = 0xFF
  | .descAddress index value => value = (readDesc b n buffer index).address
  | .descFlags index value => value = (readDesc b n buffer index).flags
  | .descNext index value => value = (readDesc b n buffer index).next
  | .availEntry value => value = 0

theorem stores_isFor : ∀ s ∈ blockReadStores b lba n buffer, s.IsFor b lba n buffer := by
  simp [blockReadStores, Store.IsFor, readDesc]

/-- What a store of a read can change: a field is as before, or it is as the request wants it. -/
structure Sets (b : BlkState) (lba n buffer : UInt32) (s : Store) (q q' : Queue) : Prop where
  address : ∀ i, (q'.desc i).address = (q.desc i).address ∨
    (q'.desc i).address = (readDesc b n buffer i).address
  flags : ∀ i, (q'.desc i).flags = (q.desc i).flags ∨ (q'.desc i).flags = (readDesc b n buffer i).flags
  next : ∀ i, (q'.desc i).next = (q.desc i).next ∨ (q'.desc i).next = (readDesc b n buffer i).next
  sector : q'.header.sector = q.header.sector ∨ q'.header.sector = lba.toUInt64
  ring : ∀ i, q'.availRing i = q.availRing i ∨ q'.availRing i = 0
  status : s = .requestStatus 0xFF ∨ q'.status = q.status

theorem Sets.of_desc {f : Desc → Desc} {index : UInt16}
    (haddress : ∀ d, (f d).address = d.address ∨ (f d).address = (readDesc b n buffer index).address)
    (hflags : ∀ d, (f d).flags = d.flags ∨ (f d).flags = (readDesc b n buffer index).flags)
    (hnext : ∀ d, (f d).next = d.next ∨ (f d).next = (readDesc b n buffer index).next) :
    Sets b lba n buffer s q (q.modifyDesc index f) := by
  refine ⟨fun i => ?_, fun i => ?_, fun i => ?_, Or.inl rfl, fun _ => Or.inl rfl, Or.inr rfl⟩
  all_goals
    unfold Queue.modifyDesc
    dsimp only
    by_cases hi : i = index
  · rw [if_pos hi, hi]
    exact haddress _
  · exact Or.inl (by rw [if_neg hi])
  · rw [if_pos hi, hi]
    exact hflags _
  · exact Or.inl (by rw [if_neg hi])
  · rw [if_pos hi, hi]
    exact hnext _
  · exact Or.inl (by rw [if_neg hi])

theorem Sets.of_rest (hdesc : q'.desc = q.desc)
    (hsector : q'.header.sector = q.header.sector ∨ q'.header.sector = lba.toUInt64)
    (hring : ∀ i, q'.availRing i = q.availRing i ∨ q'.availRing i = 0)
    (hstatus : s = .requestStatus 0xFF ∨ q'.status = q.status) : Sets b lba n buffer s q q' :=
  ⟨fun i => Or.inl (by rw [hdesc]), fun i => Or.inl (by rw [hdesc]),
    fun i => Or.inl (by rw [hdesc]), hsector, hring, hstatus⟩

theorem apply_sets (h : s.IsFor b lba n buffer) : Sets b lba n buffer s q (s.apply k q) := by
  cases s with
  | headerType value => exact .of_rest rfl (Or.inl rfl) (fun _ => Or.inl rfl) (Or.inr rfl)
  | headerReserved value => exact .of_rest rfl (Or.inl rfl) (fun _ => Or.inl rfl) (Or.inr rfl)
  | headerSector value => exact .of_rest rfl (Or.inr h) (fun _ => Or.inl rfl) (Or.inr rfl)
  | requestStatus value =>
    exact .of_rest rfl (Or.inl rfl) (fun _ => Or.inl rfl) (Or.inl (congrArg Store.requestStatus h))
  | descAddress index value =>
    change Sets _ _ _ _ _ _ (q.modifyDesc index fun d => { d with address := value })
    exact .of_desc (fun _ => Or.inr h) (fun _ => Or.inl rfl) fun _ => Or.inl rfl
  | descLength index value =>
    change Sets _ _ _ _ _ _ (q.modifyDesc index fun d => { d with length := value })
    exact .of_desc (fun _ => Or.inl rfl) (fun _ => Or.inl rfl) fun _ => Or.inl rfl
  | descFlags index value =>
    change Sets _ _ _ _ _ _ (q.modifyDesc index fun d => { d with flags := value })
    exact .of_desc (fun _ => Or.inl rfl) (fun _ => Or.inr h) fun _ => Or.inl rfl
  | descNext index value =>
    change Sets _ _ _ _ _ _ (q.modifyDesc index fun d => { d with next := value })
    exact .of_desc (fun _ => Or.inl rfl) (fun _ => Or.inl rfl) fun _ => Or.inr h
  | availEntry value =>
    refine .of_rest rfl (Or.inl rfl) (fun i => ?_) (Or.inr rfl)
    by_cases hi : i = q.availIndex % k
    · exact Or.inr ((if_pos hi).trans h)
    · exact Or.inl (if_neg hi)

theorem Queue.Ready.apply (h : q.Ready b.requestHeader b.requestStatus)
    (hs : s ∈ blockReadStores b lba n buffer) :
    (s.apply k q).Ready b.requestHeader b.requestStatus := by
  have hsets : Sets b lba n buffer s q (s.apply k q) := apply_sets (stores_isFor s hs)
  exact
    { headerAddress := (hsets.address 0).elim (·.trans h.headerAddress) id
      headerFlags := (hsets.flags 0).elim (·.trans h.headerFlags) id
      headerNext := (hsets.next 0).elim (·.trans h.headerNext) id
      dataFlags := (hsets.flags 1).elim (·.trans h.dataFlags) id
      dataNext := (hsets.next 1).elim (·.trans h.dataNext) id
      statusAddress := (hsets.address 2).elim (·.trans h.statusAddress) id
      statusFlags := (hsets.flags 2).elim (·.trans h.statusFlags) id }

theorem Queue.For.apply (h : q.For lba buffer) (hs : s ∈ blockReadStores b lba n buffer) :
    (s.apply k q).For lba buffer := by
  have hsets : Sets b lba n buffer s q (s.apply k q) := apply_sets (stores_isFor s hs)
  exact ⟨hsets.sector.elim (·.trans h.1) id, (hsets.address 1).elim (·.trans h.2) id⟩

theorem stores_ready (q : Queue) :
    ((blockReadStores b lba n buffer).foldl (Store.apply k) q).Ready b.requestHeader b.requestStatus := by
  constructor <;> simp [blockReadStores, Store.apply, Queue.modifyDesc]

theorem stores_for (q : Queue) :
    ((blockReadStores b lba n buffer).foldl (Store.apply k) q).For lba buffer := by
  constructor <;> simp [blockReadStores, Store.apply, Queue.modifyDesc]

theorem foldl_chain (stores : List Store) {q q' : Queue} (hdesc : q'.desc = q.desc)
    (hheader : q'.header = q.header) :
    (stores.foldl (Store.apply k) q').desc = (stores.foldl (Store.apply k) q).desc ∧
      (stores.foldl (Store.apply k) q').header = (stores.foldl (Store.apply k) q).header := by
  induction stores generalizing q q' with
  | nil => exact ⟨hdesc, hheader⟩
  | cons s stores ih =>
    apply ih
    · cases s <;> simp [Store.apply, Queue.modifyDesc, hdesc]
    · cases s <;> simp [Store.apply, Queue.modifyDesc, hheader]

theorem Queue.Ready.congr {requestHeader requestStatus : UInt32} (h : q.Ready requestHeader requestStatus)
    (hdesc : q'.desc = q.desc) : q'.Ready requestHeader requestStatus := by
  obtain ⟨h1, h2, h3, h4, h5, h6, h7⟩ := h
  constructor <;> rw [hdesc] <;> assumption

theorem Queue.For.congr (h : q.For lba buffer) (hdesc : q'.desc = q.desc)
    (hheader : q'.header = q.header) : q'.For lba buffer := by
  rw [Queue.For, hdesc, hheader]
  exact h

end stores

/-! ### Steps -/

/-- What a step does, with the condition under which it happens. -/
inductive Moves (t : System) : Op → System → Prop where
  | reject {lba n buffer : UInt32} (hphase : t.phase = .idle)
      (haccept : blockReadAccepts t.state lba n buffer ≠ true) :
    Moves t (.call lba n buffer) (t.return ⟨lba, buffer, t.completed.length⟩ false)
  | accept {lba n buffer : UInt32} (hphase : t.phase = .idle)
      (haccept : blockReadAccepts t.state lba n buffer = true) :
    Moves t (.call lba n buffer)
      { t with phase := .storing ⟨lba, buffer, t.completed.length⟩ (blockReadStores t.state lba n buffer) }
  | store {call : Call} {s : Store} {stores : List Store} (hphase : t.phase = .storing call (s :: stores)) :
    Moves t .store { t with phase := .storing call stores, queue := s.apply t.state.queueSize t.queue }
  | publish {call : Call} (hphase : t.phase = .storing call []) :
    Moves t .publish
      { t with phase := .waiting call, queue := { t.queue with availIndex := t.queue.availIndex + 1 } }
  | stay {call : Call} (hphase : t.phase = .waiting call) : Moves t .poll { t with phase := .waiting call }
  | notice {call : Call} (hphase : t.phase = .waiting call) : Moves t .poll
      { t with phase := .leaving call }
  | timeout {call : Call} (hphase : t.phase = .waiting call) : Moves t .timeout (t.return call false)
  | leave {call : Call} (hphase : t.phase = .leaving call) :
    Moves t .leave { t with
      phase := .checking call, state := { t.state with lastUsedIndex := t.queue.usedIndex } }
  | check {call : Call} (hphase : t.phase = .checking call) :
    Moves t .check (t.return call (t.queue.status == virtioBlkSOk))
  | take (hnew : t.lastAvail ≠ t.queue.availIndex) :
    Moves t .take
      { t with
        lastAvail := t.lastAvail + 1
        taken := t.taken ++ [t.queue.availRing (t.lastAvail % t.state.queueSize)] }
  | snapshot {head : UInt16} {taken : List UInt16} {request : Request} (htaken : t.taken = head :: taken)
      (hchain : t.queue.chain t.state.requestHeader head = some request) :
    Moves t .snapshot { t with taken := taken, inFlight := t.inFlight ++ [request] }
  | complete {index : Nat} {status : UInt8} {request : Request}
      (hrequest : t.inFlight[index]? = some request) :
    Moves t (.complete index status)
      { t with
        inFlight := t.inFlight.eraseIdx index
        memory := fun a => if a = request.buffer then t.disk request.sector else t.memory a
        queue :=
          { t.queue with
            usedIndex := t.queue.usedIndex + 1
            status := if request.statusAddress =
              t.state.requestStatus.toUInt64 then status else t.queue.status }
        completed := t.completed ++ [⟨request.sector, request.buffer, status⟩] }

theorem step_moves {t t' : System} {op : Op} (h : step t op = some t') : Moves t op t' := by
  cases op with
  | call lba n buffer =>
    unfold step driverStep at h
    dsimp only at h
    split at h
    · rename_i hphase
      split at h
      · obtain rfl := Option.some.inj h
        exact .accept hphase ‹_›
      · obtain rfl := Option.some.inj h
        exact .reject hphase ‹_›
    · cases h
  | store =>
    unfold step driverStep at h
    dsimp only at h
    split at h
    · obtain rfl := Option.some.inj h
      exact .store ‹_›
    · cases h
  | publish =>
    unfold step driverStep at h
    dsimp only at h
    split at h
    · obtain rfl := Option.some.inj h
      exact .publish ‹_›
    · cases h
  | poll =>
    unfold step driverStep at h
    dsimp only at h
    split at h
    · obtain rfl := Option.some.inj h
      split
      · exact .stay ‹_›
      · exact .notice ‹_›
    · cases h
  | timeout =>
    unfold step driverStep at h
    dsimp only at h
    split at h
    · obtain rfl := Option.some.inj h
      exact .timeout ‹_›
    · cases h
  | leave =>
    unfold step driverStep at h
    dsimp only at h
    split at h
    · obtain rfl := Option.some.inj h
      exact .leave ‹_›
    · cases h
  | check =>
    unfold step driverStep at h
    dsimp only at h
    split at h
    · obtain rfl := Option.some.inj h
      exact .check ‹_›
    · cases h
  | take =>
    simp only [step, deviceStep] at h
    split at h
    · cases h
    · obtain rfl := Option.some.inj h
      exact .take ‹_›
  | snapshot =>
    simp only [step, deviceStep] at h
    split at h
    · cases h
    · obtain ⟨request, hchain, rfl⟩ := Option.map_eq_some_iff.mp h
      exact .snapshot ‹_› hchain
  | complete index status =>
    simp only [step, deviceStep] at h
    obtain ⟨request, hrequest, rfl⟩ := Option.map_eq_some_iff.mp h
    exact .complete hrequest

/-! ### What holds in every run -/

/-- The device has a published request before it that it has not read yet. -/
def Unread (t : System) : Prop := t.lastAvail ≠ t.queue.availIndex ∨ t.taken ≠ []

/-- The ring holds the one chain, the chain is complete whenever the device can read it, and the
stores that are left complete it for the call that runs. -/
structure Wired (t : System) : Prop where
  ring : ∀ i, t.queue.availRing i = 0
  taken : ∀ head ∈ t.taken, head = 0
  inFlight : ∀ r ∈ t.inFlight, r.statusAddress = t.state.requestStatus.toUInt64
  ready : Unread t → t.queue.Ready t.state.requestHeader t.state.requestStatus
  storing : ∀ call stores, t.phase = .storing call stores →
    (∀ s ∈ stores, s ∈ blockReadStores t.state call.lba 1 call.buffer) ∧
      (stores.foldl (Store.apply t.state.queueSize) t.queue).Ready t.state.requestHeader
      t.state.requestStatus ∧
      (stores.foldl (Store.apply t.state.queueSize) t.queue).For call.lba call.buffer

theorem wired_boot (b : BlkState) (disk memory : UInt64 → List UInt8) :
    Wired (System.boot b disk memory) where
  ring _ := rfl
  taken _ h := by cases h
  inFlight _ h := by cases h
  ready h := by
    rcases h with h | h
    · exact absurd rfl h
    · exact absurd rfl h
  storing _ _ h := by cases h

theorem accepts_count {b : BlkState} {lba n buffer : UInt32}
    (h : blockReadAccepts b lba n buffer = true) : n = 1 := by
  simp only [blockReadAccepts, Bool.and_eq_true, beq_iff_eq] at h
  exact h.1.1.1.2

section steps
variable {t t' : System} {op : Op}

theorem Wired.return (h : Wired t) (call : Call) (value : Bool) : Wired (t.return call value) :=
  ⟨h.ring, h.taken, h.inFlight, h.ready, fun _ _ hp => by cases hp⟩

theorem Wired.snapshot_eq (h : Wired t) {head : UInt16} {taken : List UInt16} {request : Request}
    (htaken : t.taken = head :: taken) (hchain : t.queue.chain t.state.requestHeader head = some request) :
    request = ⟨t.queue.header.sector, (t.queue.desc 1).address, t.state.requestStatus.toUInt64⟩ := by
  have hready := h.ready (Or.inr (by rw [htaken]; exact List.cons_ne_nil _ _))
  have hhead : head = 0 := h.taken head (by rw [htaken]; exact List.mem_cons_self ..)
  rw [hhead, hready.chain] at hchain
  exact (Option.some.inj hchain).symm

theorem Wired.step (h : Wired t) (hmove : Moves t op t') : Wired t' := by
  cases hmove with
  | reject _ _ => exact h.return _ _
  | accept _ haccept =>
    obtain rfl := accepts_count haccept
    refine ⟨h.ring, h.taken, h.inFlight, h.ready, fun call stores hp => ?_⟩
    obtain ⟨rfl, rfl⟩ := Phase.storing.inj hp
    exact ⟨fun s hs => hs, stores_ready _, stores_for _⟩
  | @store call s stores hphase =>
    obtain ⟨hmem, hready, hfor⟩ := h.storing _ _ hphase
    have hs := hmem s (List.mem_cons_self ..)
    have hsets := apply_sets (k := t.state.queueSize) (q := t.queue) (stores_isFor s hs)
    refine ⟨fun i => (hsets.ring i).elim (·.trans (h.ring i)) id, h.taken, h.inFlight, fun hu => ?_,
      fun call' stores' hp => ?_⟩
    · refine (h.ready ?_).apply hs
      rcases hu with hu | hu
      · exact Or.inl (by simpa using hu)
      · exact Or.inr hu
    · obtain ⟨rfl, rfl⟩ := Phase.storing.inj hp
      exact ⟨fun s' hs' => hmem s' (List.mem_cons_of_mem _ hs'), hready, hfor⟩
  | publish hphase =>
    obtain ⟨_, hready, _⟩ := h.storing _ _ hphase
    exact ⟨h.ring, h.taken, h.inFlight, fun _ => hready.congr rfl, fun _ _ hp => by cases hp⟩
  | stay _ => exact ⟨h.ring, h.taken, h.inFlight, h.ready, fun _ _ hp => by cases hp⟩
  | notice _ => exact ⟨h.ring, h.taken, h.inFlight, h.ready, fun _ _ hp => by cases hp⟩
  | timeout _ => exact h.return _ _
  | leave _ => exact ⟨h.ring, h.taken, h.inFlight, h.ready, fun _ _ hp => by cases hp⟩
  | check _ => exact h.return _ _
  | take hnew =>
    refine ⟨h.ring, fun head hhead => ?_, h.inFlight, fun _ => h.ready (Or.inl hnew), h.storing⟩
    rcases List.mem_append.mp hhead with hold | hlast
    · exact h.taken head hold
    · rw [List.mem_singleton.mp hlast]
      exact h.ring _
  | snapshot htaken hchain =>
    have hrequest := h.snapshot_eq htaken hchain
    refine ⟨h.ring, fun head hhead => ?_, fun r hr => ?_, fun _ => ?_, h.storing⟩
    · exact h.taken head (by rw [htaken]; exact List.mem_cons_of_mem _ hhead)
    · rcases List.mem_append.mp hr with hold | hlast
      · exact h.inFlight r hold
      · rw [List.mem_singleton.mp hlast, hrequest]
    · exact h.ready (Or.inr (by rw [htaken]; exact List.cons_ne_nil _ _))
  | complete _ =>
    refine ⟨h.ring, h.taken, fun r hr => h.inFlight r (List.mem_of_mem_eraseIdx hr),
      fun hu => (h.ready hu).congr rfl, fun call stores hp => ?_⟩
    obtain ⟨hmem, hready, hfor⟩ := h.storing call stores hp
    refine ⟨hmem, hready.congr ?_, hfor.congr ?_ ?_⟩
    · exact (foldl_chain stores (by rfl) (by rfl)).1
    · exact (foldl_chain stores (by rfl) (by rfl)).1
    · exact (foldl_chain stores (by rfl) (by rfl)).2

end steps

/-! ### A call that meets only requests like its own -/

/-- What is still with the device, read or not, is for this sector and this buffer. -/
def OnlyFor (t : System) (lba buffer : UInt32) : Prop :=
  (∀ r ∈ t.inFlight, r.For lba buffer) ∧ (Unread t → t.queue.For lba buffer)

def Phase.call? : Phase → Option Call
  | .idle => none
  | .storing call _ => some call
  | .waiting call => some call
  | .leaving call => some call
  | .checking call => some call

/-- While the call runs: every completion since it started is its own, and the status byte is OK
only after one that was. Before the driver has set the status byte nothing is known of it. -/
structure Serves (t : System) (call : Call) : Prop where
  only : OnlyFor t call.lba call.buffer
  started : call.start ≤ t.completed.length
  own : ∀ c ∈ t.completed.drop call.start, c.sector = call.lba.toUInt64 ∧ c.buffer = call.buffer.toUInt64
  status : (∀ stores, t.phase = .storing call stores → Store.requestStatus 0xFF ∉ stores) →
    t.queue.status = virtioBlkSOk → ∃ c ∈ t.completed.drop call.start, c.status = virtioBlkSOk

/-- The calls that have ended since the first `n` belong, and the one that runs is served alone. -/
structure Guarded (n : Nat) (t : System) : Prop where
  wired : Wired t
  serves : ∀ call, t.phase.call? = some call → Serves t call
  belongs : ∀ r ∈ t.returns.drop n, r.Belongs
  count : n ≤ t.returns.length

def CallOk (t : System) : Op → Prop
  | .call lba _ buffer => OnlyFor t lba buffer
  | _ => True

section steps
variable {t t' : System} {op : Op} {n : Nat}

theorem Guarded.return (h : Guarded n t) (call : Call) {value : Bool}
    (hvalue : value = true → ∃ c ∈ t.completed.drop call.start,
      c.sector = call.lba.toUInt64 ∧ c.buffer = call.buffer.toUInt64 ∧ c.status = virtioBlkSOk) :
    Guarded n (t.return call value) := by
  refine ⟨h.wired.return call value, fun _ hcall => (by cases hcall), fun r hr => ?_, ?_⟩
  · have hsplit : (t.return call value).returns.drop n = t.returns.drop n ++
        [⟨call.lba, call.buffer, value, t.completed.drop call.start⟩] :=
        List.drop_append_of_le_length h.count
    rw [hsplit] at hr
    rcases List.mem_append.mp hr with hold | hnew
    · exact h.belongs r hold
    · rw [List.mem_singleton.mp hnew]
      exact hvalue
  · have hlength : (t.return call value).returns.length = t.returns.length + 1 := List.length_append
    have := h.count
    omega

theorem Serves.phase {call : Call} (h : Serves t call) {phase : Phase} {state : BlkState}
    (hset : ∀ stores, t.phase ≠ .storing call stores) : Serves { t with phase, state } call :=
  ⟨h.only, h.started, h.own, fun _ => h.status fun stores hp => absurd hp (hset stores)⟩

theorem Guarded.step (h : Guarded n t) (hmove : Moves t op t') (hok : CallOk t op) : Guarded n t' := by
  have hwired := h.wired.step hmove
  cases hmove with
  | reject _ _ => exact h.return _ fun hfalse => by cases hfalse
  | accept _ _ =>
    refine ⟨hwired, fun call hcall => ?_, h.belongs, h.count⟩
    obtain rfl := Option.some.inj hcall
    refine ⟨hok, le_refl _, fun c hc => ?_, fun hset => ?_⟩
    · rw [List.drop_length] at hc
      cases hc
    · exact absurd (by simp [blockReadStores]) (hset _ rfl)
  | @store call s stores hphase =>
    refine ⟨hwired, fun call' hcall => ?_, h.belongs, h.count⟩
    obtain rfl := Option.some.inj hcall
    have hserves := h.serves call (by rw [hphase]; rfl)
    obtain ⟨hmem, _, _⟩ := h.wired.storing _ _ hphase
    have hs := hmem s (List.mem_cons_self ..)
    refine ⟨⟨hserves.only.1, fun hu => ?_⟩, hserves.started, hserves.own, fun hset hstatus => ?_⟩
    · refine (hserves.only.2 ?_).apply hs
      rcases hu with hu | hu
      · exact Or.inl (by simpa using hu)
      · exact Or.inr hu
    · -- either this store is the one to the status byte, or it has been done before
      rcases (apply_sets (k := t.state.queueSize) (q := t.queue) (stores_isFor s hs)).status with
        rfl | hsame
      · exact absurd hstatus (by simp only [Store.apply]; decide)
      · refine hserves.status (fun stores' hp hin => ?_) (hsame ▸ hstatus)
        rw [hphase] at hp
        obtain ⟨_, rfl⟩ := Phase.storing.inj hp
        rcases List.mem_cons.mp hin with rfl | hin
        · exact absurd hstatus (by simp only [Store.apply]; decide)
        · exact hset stores rfl hin
  | @publish call hphase =>
    refine ⟨hwired, fun call' hcall => ?_, h.belongs, h.count⟩
    obtain rfl := Option.some.inj hcall
    have hserves := h.serves call (by rw [hphase]; rfl)
    obtain ⟨_, _, hfor⟩ := h.wired.storing _ _ hphase
    refine ⟨⟨hserves.only.1, fun _ => hfor.congr rfl rfl⟩, hserves.started,
      hserves.own, fun _ => hserves.status ?_⟩
    intro stores hp
    rw [hphase] at hp
    obtain ⟨_, rfl⟩ := Phase.storing.inj hp
    exact List.not_mem_nil
  | @stay call hphase =>
    refine ⟨hwired, fun call' hcall => ?_, h.belongs, h.count⟩
    obtain rfl := Option.some.inj hcall
    exact (h.serves call (by rw [hphase]; rfl)).phase fun stores hp => by rw [hphase] at hp; cases hp
  | @notice call hphase =>
    refine ⟨hwired, fun call' hcall => ?_, h.belongs, h.count⟩
    obtain rfl := Option.some.inj hcall
    exact (h.serves call (by rw [hphase]; rfl)).phase fun stores hp => by rw [hphase] at hp; cases hp
  | timeout _ => exact h.return _ fun hfalse => by cases hfalse
  | @leave call hphase =>
    refine ⟨hwired, fun call' hcall => ?_, h.belongs, h.count⟩
    obtain rfl := Option.some.inj hcall
    exact (h.serves call (by rw [hphase]; rfl)).phase fun stores hp => by rw [hphase] at hp; cases hp
  | @check call hphase =>
    refine h.return call fun hvalue => ?_
    have hserves := h.serves call (by rw [hphase]; rfl)
    obtain ⟨c, hc, hok⟩ := hserves.status (fun stores hp => by rw [hphase] at hp; cases hp)
      (by simpa using hvalue)
    exact ⟨c, hc, (hserves.own c hc).1, (hserves.own c hc).2, hok⟩
  | take hnew =>
    refine ⟨hwired, fun call hcall => ?_, h.belongs, h.count⟩
    have hserves := h.serves call hcall
    exact ⟨⟨hserves.only.1, fun _ => hserves.only.2 (Or.inl hnew)⟩, hserves.started, hserves.own,
      hserves.status⟩
  | snapshot htaken hchain =>
    refine ⟨hwired, fun call hcall => ?_, h.belongs, h.count⟩
    have hserves := h.serves call hcall
    have hunread : Unread t := Or.inr (by rw [htaken]; exact List.cons_ne_nil _ _)
    refine ⟨⟨fun r hr => ?_, fun _ => hserves.only.2 hunread⟩, hserves.started, hserves.own, hserves.status⟩
    rcases List.mem_append.mp hr with hold | hlast
    · exact hserves.only.1 r hold
    · rw [List.mem_singleton.mp hlast, h.wired.snapshot_eq htaken hchain]
      exact hserves.only.2 hunread
  | @complete index status request hrequest =>
    refine ⟨hwired, fun call hcall => ?_, h.belongs, h.count⟩
    have hserves := h.serves call hcall
    have hfor := hserves.only.1 request (List.mem_of_getElem? hrequest)
    have hdrop : List.drop call.start (t.completed ++
        [(⟨request.sector, request.buffer, status⟩ : Completion)]) =
          t.completed.drop call.start ++ [⟨request.sector, request.buffer, status⟩] :=
      List.drop_append_of_le_length hserves.started
    refine ⟨⟨fun r hr => hserves.only.1 r (List.mem_of_mem_eraseIdx hr),
      fun hu => (hserves.only.2 hu).congr rfl rfl⟩, ?_, fun c hc => ?_, fun hset hstatus => ?_⟩
    · have := hserves.started
      simp only [List.length_append]
      omega
    · rw [hdrop] at hc
      rcases List.mem_append.mp hc with hold | hlast
      · exact hserves.own c hold
      · rw [List.mem_singleton.mp hlast]
        exact hfor
    · rw [hdrop]
      simp only [h.wired.inFlight request (List.mem_of_getElem? hrequest), if_true] at hstatus
      exact ⟨⟨request.sector, request.buffer, status⟩,
        List.mem_append_right _ (List.mem_singleton.mpr rfl), hstatus⟩

theorem Guarded.run {t t' : System} (h : Guarded n t) {ops : List Op}
    (hok : Allowed Virtio.step CallOk t ops) (hrun : run Virtio.step t ops = some t') : Guarded n t' :=
  run_keeps (fun _ _ _ hguarded hcall hstep => hguarded.step (step_moves hstep) hcall) h hok hrun

theorem Wired.run {t t' : System} (h : Wired t) {ops : List Op} (hrun : run Virtio.step t ops = some t') :
    Wired t' := by
  have hall : Allowed Virtio.step (fun _ _ => True) t ops := .of_forall fun _ _ => trivial
  exact run_keeps (fun _ _ _ hwired _ hstep => hwired.step (step_moves hstep)) h hall hrun

end steps

/-! ### A call that meets another request -/

section forward
variable {t : System} {call : Call}

theorem step_call {lba n buffer : UInt32} (hidle : t.phase = .idle)
    (haccept : blockReadAccepts t.state lba n buffer = true) :
    step t (.call lba n buffer) =
      some { t with
        phase := .storing ⟨lba, buffer, t.completed.length⟩ (blockReadStores t.state lba n buffer) } := by
  unfold step driverStep
  dsimp only
  rw [hidle]
  exact if_pos haccept

theorem step_store {s : Store} {stores : List Store} (hphase : t.phase = .storing call (s :: stores)) :
    step t .store = some { t with
        phase := .storing call stores, queue := s.apply t.state.queueSize t.queue } := by
  unfold step driverStep
  dsimp only
  rw [hphase]

theorem step_poll (hphase : t.phase = .waiting call) :
    step t .poll =
      some { t with
        phase := if t.queue.usedIndex - t.state.lastUsedIndex =
            0 then .waiting call else .leaving call } := by
  unfold step driverStep
  dsimp only
  rw [hphase]

theorem step_leave (hphase : t.phase = .leaving call) :
    step t .leave =
      some { t with
        phase := .checking call, state := { t.state with lastUsedIndex := t.queue.usedIndex } } := by
  unfold step driverStep
  dsimp only
  rw [hphase]

theorem step_check (hphase : t.phase = .checking call) :
    step t .check = some (t.return call (t.queue.status == virtioBlkSOk)) := by
  unfold step driverStep
  dsimp only
  rw [hphase]

theorem step_complete {index : Nat} {status : UInt8} {request : Request}
    (hrequest : t.inFlight[index]? = some request) :
    step t (.complete index status) =
      some { t with
        inFlight := t.inFlight.eraseIdx index
        memory := fun a => if a = request.buffer then t.disk request.sector else t.memory a
        queue :=
          { t.queue with
            usedIndex := t.queue.usedIndex + 1
            status := if request.statusAddress =
              t.state.requestStatus.toUInt64 then status else t.queue.status }
        completed := t.completed ++ [⟨request.sector, request.buffer, status⟩] } := by
  unfold step deviceStep
  dsimp only
  rw [hrequest, Option.map_some]

end forward

theorem run_stores : ∀ {stores : List Store}, t.phase = .storing call stores →
    run step t (List.replicate stores.length .store) =
      some { t with
        phase := .storing call []
        queue := stores.foldl (Store.apply t.state.queueSize) t.queue } := by
  intro stores hphase
  induction stores generalizing t with
  | nil =>
    rw [← hphase]
    rfl
  | cons s stores ih =>
    rw [List.length_cons, List.replicate_succ, run, step_store hphase, Option.bind_some, ih rfl]
    rfl

def SameCall (ops : List Op) : Prop := ∀ lba n buffer, Op.call lba n buffer ∉ ops

/-- A request that the device holds can end the wait of a call that has published its own. -/
theorem stale_completion (hphase : t.phase = .waiting call)
    (hstart : call.start = t.completed.length) {index : Nat} {r : Request}
    (hr : t.inFlight[index]? = some r)
    (hstatus : r.statusAddress = t.state.requestStatus.toUInt64) :
    ∃ ops, SameCall ops ∧ (run step t ops).map System.returns =
      some (t.returns ++ [⟨call.lba, call.buffer, true, [⟨r.sector, r.buffer, virtioBlkSOk⟩]⟩]) := by
  by_cases hused : t.queue.usedIndex - t.state.lastUsedIndex = 0
  · -- the late completion is what ends the loop
    have hnext : t.queue.usedIndex + 1 - t.state.lastUsedIndex ≠ 0 := by
      rw [UInt16.sub_eq_iff_eq_add, UInt16.zero_add] at hused
      rw [hused, UInt16.add_comm, UInt16.add_sub_cancel]
      decide
    refine ⟨[.complete index virtioBlkSOk, .poll, .leave, .check], fun _ _ _ h => by simp at h, ?_⟩
    simp [run, step_complete hr, step_poll, step_leave, step_check, System.return, hphase, hstatus,
      hstart, hnext]
  · -- an earlier one ends the loop, and the late one comes before the status byte is read
    refine ⟨[.poll, .leave, .complete index virtioBlkSOk, .check], fun _ _ _ h => by simp at h, ?_⟩
    simp [run, step_complete, step_poll hphase, step_leave, step_check, System.return, hr, hstatus,
      hstart, hused]

theorem SameCall.append {ops ops' : List Op} (h : SameCall ops) (h' : SameCall ops') :
    SameCall (ops ++ ops') := by
  intro lba n buffer hmem
  rcases List.mem_append.mp hmem with hmem | hmem
  · exact h lba n buffer hmem
  · exact h' lba n buffer hmem

theorem stale_completion_of_storing {stores : List Store} (hphase : t.phase = .storing call stores)
    (hstart : call.start = t.completed.length) {index : Nat} {r : Request}
    (hr : t.inFlight[index]? = some r)
    (hstatus : r.statusAddress = t.state.requestStatus.toUInt64) :
    ∃ ops, SameCall ops ∧ (run step t ops).map System.returns =
      some (t.returns ++ [⟨call.lba, call.buffer, true, [⟨r.sector, r.buffer, virtioBlkSOk⟩]⟩]) := by
  obtain ⟨q, hq⟩ : ∃ q, run step t (List.replicate stores.length .store ++ [.publish]) =
      some { t with phase := .waiting call, queue := q } := by
    rw [run_append, run_stores hphase]
    exact ⟨_, rfl⟩
  obtain ⟨ops, hsame, hrun⟩ := stale_completion (t := { t with phase := .waiting call, queue := q })
    rfl hstart hr hstatus
  refine ⟨(List.replicate stores.length .store ++ [.publish]) ++ ops,
    SameCall.append (fun _ _ _ h => by simp at h) hsame, ?_⟩
  rw [run_append, hq]
  exact hrun

theorem run_snapshot (h : Wired t) (hunread : Unread t) :
    ∃ ops lastAvail taken, SameCall ops ∧ run step t ops =
      some { t with
        lastAvail := lastAvail
        taken := taken
        inFlight := t.inFlight ++
          [⟨t.queue.header.sector, (t.queue.desc 1).address, t.state.requestStatus.toUInt64⟩] } := by
  have hchain := (h.ready hunread).chain
  cases htaken : t.taken with
  | nil =>
    have hnew : t.lastAvail ≠ t.queue.availIndex := by
      rcases hunread with hnew | hsome
      · exact hnew
      · exact absurd htaken hsome
    refine ⟨[.take, .snapshot], t.lastAvail + 1, [], fun _ _ _ hm => by simp at hm, ?_⟩
    simp [run, step, deviceStep, hnew, htaken, h.ring, hchain]
  | cons head taken =>
    have hhead : head = 0 := h.taken head (by rw [htaken]; exact List.mem_cons_self ..)
    refine ⟨[.snapshot], t.lastAvail, taken, fun _ _ _ hm => by simp at hm, ?_⟩
    simp [run, step, deviceStep, htaken, hhead, hchain]

theorem stale_return (h : Wired t) {lba buffer : UInt32} (hidle : t.phase = .idle)
    (haccept : blockReadAccepts t.state lba 1 buffer = true) (hother : ¬OnlyFor t lba buffer) :
    ∃ ops t', SameCall ops ∧ run step t (.call lba 1 buffer :: ops) = some t' ∧
      ∃ r ∈ t'.returns.drop t.returns.length, ¬r.Belongs := by
  -- the call starts, and some request of the device is for something else
  obtain ⟨u, hu, hphase, hsame⟩ : ∃ u, step t (.call lba 1 buffer) = some u ∧
      u.phase = .storing ⟨lba, buffer, t.completed.length⟩ (blockReadStores t.state lba 1 buffer) ∧
      u = { t with phase := u.phase } := by
    refine ⟨{ t with
      phase := .storing ⟨lba, buffer, t.completed.length⟩ (blockReadStores t.state lba 1 buffer) },
      ?_, rfl, rfl⟩
    exact step_call hidle haccept
  have hwired : Wired u := h.step (step_moves hu)
  obtain ⟨first, w, index, r, hfirst, hw, hwphase, hcompleted, hreturns, hr, hstatus, hfor⟩ :
      ∃ (first : List Op) (w : System) (index : Nat) (r : Request), SameCall first ∧
        run step u first = some w ∧ w.phase = u.phase ∧
        w.completed = t.completed ∧ w.returns = t.returns ∧ w.inFlight[index]? = some r ∧
        r.statusAddress = w.state.requestStatus.toUInt64 ∧ ¬r.For lba buffer := by
    rw [OnlyFor, Classical.not_and_iff_not_or_not] at hother
    rcases hother with hflight | hread
    · obtain ⟨r, hr, hfor⟩ : ∃ r ∈ t.inFlight, ¬r.For lba buffer := by simpa using hflight
      obtain ⟨index, hindex⟩ := List.mem_iff_getElem?.mp hr
      refine ⟨[], u, index, r, fun _ _ _ hm => (by cases hm), rfl, rfl, ?_, ?_, ?_, ?_, hfor⟩
      · rw [hsame]
      · rw [hsame]
      · rw [hsame]
        exact hindex
      · rw [hsame]
        exact h.inFlight r hr
    · obtain ⟨hunread, hfor⟩ : Unread t ∧ ¬t.queue.For lba buffer := by simpa using hread
      obtain ⟨ops, lastAvail, taken, hops, hrun⟩ := run_snapshot hwired (by rw [hsame]; exact hunread)
      refine ⟨ops, _, t.inFlight.length, ⟨u.queue.header.sector, (u.queue.desc 1).address,
        u.state.requestStatus.toUInt64⟩, hops, hrun, rfl, ?_, ?_, ?_, rfl, ?_⟩
      · rw [hsame]
      · rw [hsame]
      · rw [hsame]
        exact List.getElem?_concat_length
      · rw [hsame]
        exact hfor
  obtain ⟨ops, hops, hrun⟩ := stale_completion_of_storing (hwphase.trans hphase) (by rw [hcompleted]) hr
    hstatus
  obtain ⟨t', ht', hreturns'⟩ := Option.map_eq_some_iff.mp hrun
  refine ⟨first ++ ops, t', hfirst.append hops, ?_,
    ⟨lba, buffer, true, [⟨r.sector, r.buffer, virtioBlkSOk⟩]⟩, ?_, ?_⟩
  · rw [run, hu, Option.bind_some, run_append, hw, Option.bind_some, ht']
  · rw [hreturns', hreturns, List.drop_left]
    exact List.mem_singleton.mpr rfl
  · intro hbelongs
    obtain ⟨c, hc, hsector, hbuffer, _⟩ := hbelongs rfl
    rw [List.mem_singleton.mp hc] at hsector hbuffer
    exact hfor ⟨hsector, hbuffer⟩

/-! ### The result -/

theorem SameCall.allowed {ops : List Op} (h : SameCall ops) : Allowed step CallOk t ops := by
  induction ops generalizing t with
  | nil => trivial
  | cons op ops ih =>
    refine ⟨?_, fun t' _ => ih fun lba n buffer hmem => h lba n buffer (List.mem_cons_of_mem _ hmem)⟩
    cases op with
    | call lba n buffer => exact absurd (List.mem_cons_self ..) (h lba n buffer)
    | _ => trivial

/-- For every queue with room for a request: in every interleaving in which each call starts with
nothing at the device but requests for its own sector and buffer, every call that returns 1 has seen
its own request completed. In any state, no interleaving can break this for the next call exactly
when that condition holds. -/
theorem completions_belong_iff (b : BlkState) (disk memory : UInt64 → List UInt8) :
    (∀ ops t, Allowed step CallOk (System.boot b disk memory) ops →
        run step (System.boot b disk memory) ops = some t → ∀ r ∈ t.returns, r.Belongs) ∧
      ∀ ops t lba buffer, run step (System.boot b disk memory) ops = some t → t.phase = .idle →
        blockReadAccepts t.state lba 1 buffer = true →
        ((∀ more t', SameCall more → run step t (.call lba 1 buffer :: more) = some t' →
            ∀ r ∈ t'.returns.drop t.returns.length, r.Belongs) ↔ OnlyFor t lba buffer) := by
  refine ⟨fun ops t hok hrun => ?_, fun ops t lba buffer hrun hidle haccept => ?_⟩
  · have hboot : Guarded 0 (System.boot b disk memory) :=
      ⟨wired_boot b disk memory, fun _ hcall => (by cases hcall), fun r hr => (by cases hr), le_refl _⟩
    exact (hboot.run hok hrun).belongs
  · have hwired := (wired_boot b disk memory).run hrun
    refine ⟨fun hall => ?_, fun honly more t' hsame hrun' => ?_⟩
    · by_contra hother
      obtain ⟨more, t', hsame, hrun', r, hr, hnot⟩ := stale_return hwired hidle haccept hother
      exact hnot (hall more t' hsame hrun' r hr)
    · have hstart : Guarded t.returns.length t := by
        refine ⟨hwired, fun call hcall => ?_, fun r hr => ?_, le_refl _⟩
        · rw [hidle] at hcall
          cases hcall
        · rw [List.drop_length] at hr
          cases hr
      have hok : Allowed step CallOk t (.call lba 1 buffer :: more) := ⟨honly, fun _ _ => hsame.allowed⟩
      exact (hstart.run hok hrun').belongs

def smallDisk : BlkState where
  capacitySectors := 64
  blockSizeBytes := 512
  queueSize := 8
  room := by decide
  lastUsedIndex := 0
  requestHeader := 0x00300000
  requestStatus := 0x00300010
  legacyTransport := true
  ready := true

def prepare : List Op := List.replicate 17 .store ++ [.publish]

theorem completions_belong_one_read :
    ∃ t, run step (System.boot smallDisk (fun _ => []) fun _ => [])
        (.call 5 1 0x00400000 :: prepare ++ [.take, .snapshot, .complete 0 virtioBlkSOk, .poll,
          .leave, .check]) = some t ∧
      t.returns = [⟨5, 0x00400000, true, [⟨5, 0x00400000, virtioBlkSOk⟩]⟩] ∧
      ∀ r ∈ t.returns, r.Belongs := by
  have honly : OnlyFor (System.boot smallDisk (fun _ => []) fun _ => []) 5 0x00400000 := by
    refine ⟨fun r hr => (by cases hr), fun hunread => ?_⟩
    rcases hunread with h | h
    · exact absurd rfl h
    · exact absurd rfl h
  have hsame : SameCall (prepare ++ [.take, .snapshot, .complete 0 virtioBlkSOk, .poll, .leave,
      .check]) := by
    intro _ _ _ h
    simp [prepare] at h
  have hok : Allowed step CallOk (System.boot smallDisk (fun _ => []) fun _ => []) (.call 5 1 0x00400000 ::
      (prepare ++ [.take, .snapshot, .complete 0 virtioBlkSOk, .poll, .leave, .check])) :=
    ⟨honly, fun _ _ => hsame.allowed⟩
  exact ⟨_, rfl, rfl, (completions_belong_iff smallDisk (fun _ => []) fun _ => []).1 _ _ hok rfl⟩

/-- A read of sector 5 times out after the device has read its chain, and its completion is taken
for that of the next read, of sector 7 into another buffer. -/
theorem late_completion_misread :
    ∃ t, run step (System.boot smallDisk (fun _ => []) fun _ => [])
        (.call 5 1 0x00400000 :: prepare ++ [.take, .snapshot, .timeout] ++
          .call 7 1 0x00500000 :: prepare ++ [.complete 0 virtioBlkSOk, .poll, .leave, .check]) = some t ∧
      ∃ r ∈ t.returns, r.lba = 7 ∧ r.buffer = 0x00500000 ∧ r.value = true ∧
        r.between = [⟨5, 0x00400000, virtioBlkSOk⟩] ∧ ¬r.Belongs := by
  refine ⟨_, rfl, ⟨7, 0x00500000, true, [⟨5, 0x00400000, virtioBlkSOk⟩]⟩, by decide, rfl, rfl, rfl, rfl, ?_⟩
  intro h
  obtain ⟨c, hc, hsector, _⟩ := h rfl
  rw [List.mem_singleton.mp hc] at hsector
  exact absurd hsector (by decide)

end TermobKernel.Virtio
