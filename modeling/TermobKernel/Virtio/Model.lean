import TermobKernel.Library.Runs

/-!
# The virtio block driver and its device

`virtio_blk_block_read` of `drivers/virtio.c` and the device on the other side of the virtqueue. The
two share the descriptor table, the rings, the request header and the status byte. The driver is cut
into its stores and loads, so that the device can act between any two of them. The device takes the
entries of the available ring in order, reads a descriptor chain at some step and completes what it
has read at some later one, in any order.
-/

namespace TermobKernel.Virtio

def virtqDescFNext : UInt16 := 1
def virtqDescFWrite : UInt16 := 2
def virtioBlkTIn : UInt32 := 0
def virtioBlkSOk : UInt8 := 0

def sizeofReqHeader : UInt32 := 16

structure ReqHeader where
  type : UInt32
  reserved : UInt32
  sector : UInt64
  deriving DecidableEq, Repr

structure Desc where
  address : UInt64
  length : UInt32
  flags : UInt16
  next : UInt16
  deriving DecidableEq, Repr

/-- The fields of `virtio_blk_state_t` that a read uses. The queue has room for the three
descriptors of a request; smaller ones, which the set-up accepts and in which they lie on the
available ring, are not modelled. -/
structure BlkState where
  capacitySectors : UInt32
  blockSizeBytes : UInt32
  queueSize : UInt16
  room : 3 ≤ queueSize
  lastUsedIndex : UInt16
  requestHeader : UInt32
  requestStatus : UInt32
  legacyTransport : Bool
  ready : Bool
  deriving DecidableEq, Repr

/-- The memory that both parties see: the virtqueue, and the header and the status byte of the
driver. The descriptors of a request and the rings share no byte, because the queue has room for
them. -/
structure Queue where
  desc : UInt16 → Desc
  availIndex : UInt16
  availRing : UInt16 → UInt16
  usedIndex : UInt16
  header : ReqHeader
  status : UInt8

/-! ## The driver -/

/-- One store of the driver into shared memory. -/
inductive Store where
  | headerType (value : UInt32)
  | headerReserved (value : UInt32)
  | headerSector (value : UInt64)
  | requestStatus (value : UInt8)
  | descAddress (index : UInt16) (value : UInt64)
  | descLength (index : UInt16) (value : UInt32)
  | descFlags (index : UInt16) (value : UInt16)
  | descNext (index : UInt16) (value : UInt16)
  | availEntry (value : UInt16)
  deriving DecidableEq, Repr

def Queue.modifyDesc (q : Queue) (index : UInt16) (f : Desc → Desc) : Queue :=
  { q with desc := fun i => if i = index then f (q.desc i) else q.desc i }

def Store.apply (queueSize : UInt16) (q : Queue) : Store → Queue
  | .headerType value => { q with header := { q.header with type := value } }
  | .headerReserved value => { q with header := { q.header with reserved := value } }
  | .headerSector value => { q with header := { q.header with sector := value } }
  | .requestStatus value => { q with status := value }
  | .descAddress index value => q.modifyDesc index fun d => { d with address := value }
  | .descLength index value => q.modifyDesc index fun d => { d with length := value }
  | .descFlags index value => q.modifyDesc index fun d => { d with flags := value }
  | .descNext index value => q.modifyDesc index fun d => { d with next := value }
  | .availEntry value =>
    { q with availRing := fun i => if i = q.availIndex % queueSize then value else q.availRing i }

/-- The stores before `avail->index++`, in the order of the source. -/
def blockReadStores (b : BlkState) (lba sectorCount buffer : UInt32) : List Store :=
  [.headerType virtioBlkTIn, .headerReserved 0, .headerSector lba.toUInt64, .requestStatus 0xFF,
    .descAddress 0 b.requestHeader.toUInt64, .descLength 0 sizeofReqHeader,
    .descFlags 0 virtqDescFNext, .descNext 0 1,
    .descAddress 1 buffer.toUInt64, .descLength 1 (sectorCount * b.blockSizeBytes),
    .descFlags 1 (virtqDescFNext ||| virtqDescFWrite), .descNext 1 2,
    .descAddress 2 b.requestStatus.toUInt64, .descLength 2 1, .descFlags 2 virtqDescFWrite, .descNext 2 0,
    .availEntry 0]

/-- The tests at the start of `virtio_blk_block_read`. -/
def blockReadAccepts (b : BlkState) (lba sectorCount buffer : UInt32) : Bool :=
  b.ready && b.legacyTransport && buffer != 0 && sectorCount == 1 &&
    !(b.capacitySectors != 0 && decide (lba ≥ b.capacitySectors)) && b.requestHeader != 0 &&
      b.requestStatus != 0

/-- A call, with the number of requests that were complete when it started. -/
structure Call where
  lba : UInt32
  buffer : UInt32
  start : Nat
  deriving DecidableEq, Repr

/-- Where the driver stands in `virtio_blk_block_read`. -/
inductive Phase where
  | idle
  /-- The stores that are left before `avail->index++`. -/
  | storing (call : Call) (stores : List Store)
  /-- In the loop on the used index. -/
  | waiting (call : Call)
  /-- Behind the loop, before `last_used_index` is set. -/
  | leaving (call : Call)
  /-- Before the status byte is read. -/
  | checking (call : Call)
  deriving DecidableEq, Repr

/-! ## The device -/

/-- A descriptor chain as the device has read it. -/
structure Request where
  sector : UInt64
  buffer : UInt64
  statusAddress : UInt64
  deriving DecidableEq, Repr

/-- A request that the device has finished. -/
structure Completion where
  sector : UInt64
  buffer : UInt64
  status : UInt8
  deriving DecidableEq, Repr

/-- Read the chain that starts at `head`: header, buffer, status byte. A chain of another form is
not taken for a read request. -/
def Queue.chain (q : Queue) (requestHeader : UInt32) (head : UInt16) : Option Request :=
  let d₀ := q.desc head
  let d₁ := q.desc d₀.next
  let d₂ := q.desc d₁.next
  if d₀.address = requestHeader.toUInt64 ∧ d₀.flags = virtqDescFNext ∧
      d₁.flags = virtqDescFNext ||| virtqDescFWrite ∧ d₂.flags = virtqDescFWrite then
    some ⟨q.header.sector, d₁.address, d₂.address⟩
  else none

/-! ## The two together -/

/-- The end of a call: what it was for, what it returned, and the requests that completed while it ran. -/
structure Return where
  lba : UInt32
  buffer : UInt32
  value : Bool
  between : List Completion
  deriving DecidableEq, Repr

/-- The driver, the shared memory and the device: how many entries of the available ring it has
taken, the heads taken but not read yet, the requests it has read, and those it has completed. -/
structure System where
  state : BlkState
  phase : Phase
  queue : Queue
  lastAvail : UInt16
  taken : List UInt16
  inFlight : List Request
  completed : List Completion
  disk : UInt64 → List UInt8
  memory : UInt64 → List UInt8
  returns : List Return

inductive Op where
  | call (lba sectorCount buffer : UInt32)
  | store
  | publish
  | poll
  | timeout
  | leave
  | check
  | take
  | snapshot
  | complete (index : Nat) (status : UInt8)
  deriving DecidableEq, Repr

def System.return (t : System) (call : Call) (value : Bool) : System :=
  { t with
    phase := .idle
    returns := t.returns ++ [⟨call.lba, call.buffer, value, t.completed.drop call.start⟩] }

/-- The driver's steps; `none` when it stands elsewhere. -/
def driverStep (t : System) : Op → Option System
  | .call lba sectorCount buffer =>
    match t.phase with
    | .idle =>
      let call : Call := ⟨lba, buffer, t.completed.length⟩
      if blockReadAccepts t.state lba sectorCount buffer = true then
        some { t with phase := .storing call (blockReadStores t.state lba sectorCount buffer) }
      else some (t.return call false)
    | _ => none
  | .store =>
    match t.phase with
    | .storing call (s :: stores) =>
      some { t with phase := .storing call stores, queue := s.apply t.state.queueSize t.queue }
    | _ => none
  | .publish =>
    match t.phase with
    | .storing call [] =>
      some { t with phase := .waiting call, queue := { t.queue with availIndex := t.queue.availIndex + 1 } }
    | _ => none
  | .poll =>
    match t.phase with
    | .waiting call =>
      some { t with
        phase := if t.queue.usedIndex - t.state.lastUsedIndex = 0 then .waiting call else .leaving call }
    | _ => none
  | .timeout =>
    match t.phase with
    | .waiting call => some (t.return call false)
    | _ => none
  | .leave =>
    match t.phase with
    | .leaving call =>
      some { t with phase := .checking call, state := { t.state with lastUsedIndex := t.queue.usedIndex } }
    | _ => none
  | .check =>
    match t.phase with
    | .checking call => some (t.return call (t.queue.status == virtioBlkSOk))
    | _ => none
  | _ => none

def deviceStep (t : System) : Op → Option System
  | .take =>
    if t.lastAvail = t.queue.availIndex then none
    else
      some { t with
        lastAvail := t.lastAvail + 1
        taken := t.taken ++ [t.queue.availRing (t.lastAvail % t.state.queueSize)] }
  | .snapshot =>
    match t.taken with
    | [] => none
    | head :: taken =>
      (t.queue.chain t.state.requestHeader head).map fun request =>
        { t with taken := taken, inFlight := t.inFlight ++ [request] }
  | .complete index status =>
    (t.inFlight[index]?).map fun request =>
      { t with
        inFlight := t.inFlight.eraseIdx index
        memory := fun a => if a = request.buffer then t.disk request.sector else t.memory a
        queue :=
          { t.queue with
            usedIndex := t.queue.usedIndex + 1
            status := if request.statusAddress =
              t.state.requestStatus.toUInt64 then status else t.queue.status }
        completed := t.completed ++ [⟨request.sector, request.buffer, status⟩] }
  | _ => none

def step (t : System) : Op → Option System
  | .take => deviceStep t .take
  | .snapshot => deviceStep t .snapshot
  | .complete index status => deviceStep t (.complete index status)
  | op => driverStep t op

def Queue.zero : Queue where
  desc := fun _ => ⟨0, 0, 0, 0⟩
  availIndex := 0
  availRing := fun _ => 0
  usedIndex := 0
  header := ⟨0, 0, 0⟩
  status := 0

def System.boot (b : BlkState) (disk memory : UInt64 → List UInt8) : System where
  state := { b with lastUsedIndex := 0 }
  phase := .idle
  queue := Queue.zero
  lastAvail := 0
  taken := []
  inFlight := []
  completed := []
  disk := disk
  memory := memory
  returns := []

/-- A call that returns 1 has seen its own request completed. -/
def Return.Belongs (r : Return) : Prop :=
  r.value = true → ∃ c ∈ r.between, c.sector = r.lba.toUInt64 ∧ c.buffer = r.buffer.toUInt64 ∧
    c.status = virtioBlkSOk

end TermobKernel.Virtio
