import TermobKernel.Input.Model
import TermobKernel.Library.Ring

/-!
# The interrupt queues lose nothing

Whatever the interleaving of interrupts and loop statements, the accepted bytes are those already
handed over, then the byte that the loop holds, then the contents of the ring (`Inv`). The moment in
which a byte has been read but its slot is not free yet is part of the invariant: the slot at the
tail still holds the byte, because an interrupt only writes at the head.
-/

namespace TermobKernel.Input

section
variable {σ : Type}
variable {d : Device σ} {s : System σ}

/-! ### The ring -/

def ByteQueue.queuedCount (q : ByteQueue) (size : UInt32) : Nat :=
  Ring.count size.toNat q.tail.toNat q.head.toNat

def ByteQueue.queued (q : ByteQueue) (size : UInt32) : List UInt8 :=
  Ring.contents (fun i => q.slots (UInt32.ofNat i)) size.toNat q.tail.toNat (q.queuedCount size)

structure ByteQueue.InRange (q : ByteQueue) (size : UInt32) : Prop where
  head : q.head.toNat < size.toNat
  tail : q.tail.toNat < size.toNat

variable {q : ByteQueue} {size : UInt32}

theorem next_toNat {i : UInt32} (h : i.toNat < size.toNat) :
    ((i + 1) % size).toNat = (i.toNat + 1) % size.toNat := by
  have hs := size.toNat_lt
  have hone : (1 : UInt32).toNat = 1 := rfl
  rw [UInt32.toNat_mod, UInt32.toNat_add, hone, Nat.mod_eq_of_lt (a := i.toNat + 1) (by omega)]

theorem ByteQueue.queued_length : (q.queued size).length = q.queuedCount size := Ring.contents_length ..

theorem enqueue_full (h : q.InRange size) (hfull : q.queuedCount size = size.toNat - 1) (value : UInt8) :
    enqueue size q value = { q with dropped := q.dropped + 1 } := by
  have hnext : (q.head + 1) % size = q.tail := by
    rw [← UInt32.toNat_inj, next_toNat h.head]
    exact (Ring.next_head_eq_tail h.tail h.head).mpr hfull
  exact if_pos hnext

/-- What `enqueue` does to a ring with room. -/
structure Accepts (size : UInt32) (q q' : ByteQueue) (value : UInt8) : Prop where
  inRange : q'.InRange size
  moved : q'.head ≠ q.head
  tail : q'.tail = q.tail
  oldest : q.tail ≠ q.head → q'.slots q.tail = q.slots q.tail
  dropped : q'.dropped = q.dropped
  queued : q'.queued size = q.queued size ++ [value]

theorem enqueue_room (hsize : 1 < size.toNat) (h : q.InRange size)
    (hroom : q.queuedCount size ≠ size.toNat - 1) (value : UInt8) :
    Accepts size q (enqueue size q value) value := by
  have hnext : ((q.head + 1) % size).toNat ≠ q.tail.toNat := by
    rw [next_toNat h.head]
    exact fun heq => hroom ((Ring.next_head_eq_tail h.tail h.head).mp heq)
  have heq : enqueue size q value =
      { q with slots := Function.update q.slots q.head value, head := (q.head + 1) % size } :=
    if_neg fun heq => hnext (UInt32.toNat_inj.mpr heq)
  have hnat := next_toNat h.head
  rw [heq]
  refine ⟨⟨?_, h.tail⟩, ?_, rfl, ?_, rfl, ?_⟩
  · rw [hnat]
    exact Nat.mod_lt _ (by omega)
  · intro hsame
    rw [← UInt32.toNat_inj] at hsame
    dsimp only at hsame
    rw [hnat] at hsame
    rcases Ring.next_cases h.head with ⟨_, hn⟩ | ⟨_, hn⟩ <;> omega
  · intro hne
    exact Function.update_of_ne hne _ _
  · rw [ByteQueue.queued, ByteQueue.queued, ByteQueue.queuedCount, ByteQueue.queuedCount]
    dsimp only
    rw [hnat] at hnext ⊢
    rw [Ring.count_push h.tail h.head hnext]
    apply Ring.contents_push h.tail h.head
    · rw [UInt32.ofNat_toNat, Function.update_self]
    · intro i hi hne
      apply Function.update_of_ne
      intro heq
      apply hne
      rw [← heq, UInt32.toNat_ofNat_of_lt' (Nat.lt_trans hi size.toNat_lt)]

theorem release_queued (h : q.InRange size) (hne : q.tail ≠ q.head) :
    q.queued size = q.slots q.tail :: ByteQueue.queued { q with tail := (q.tail + 1) % size } size := by
  rw [ByteQueue.queued, ByteQueue.queued, ByteQueue.queuedCount, ByteQueue.queuedCount]
  dsimp only
  rw [next_toNat h.tail, Ring.count_pop h.tail h.head (fun heq => hne (UInt32.toNat_inj.mp heq)),
    Ring.contents_pop _ h.tail, UInt32.ofNat_toNat]

/-! ### The invariant -/

/-- The byte that the loop has taken out of the ring and not handed over yet. -/
def Place.inHand : Place → List UInt8
  | .handle value 0 => [value]
  | _ => []

/-- The accepted bytes that were not handed over yet. -/
def System.pending (size : UInt32) (s : System σ) : List UInt8 := s.place.inHand ++ s.queue.queued size

/-- What the loop knows of the queue at the place where it stands. -/
def Knows (q : ByteQueue) : Place → Prop
  | .read => q.tail ≠ q.head
  | .release value => q.tail ≠ q.head ∧ q.slots q.tail = value
  | _ => True

structure Inv (size : UInt32) (s : System σ) : Prop where
  inRange : s.queue.InRange size
  fifo : s.handed ++ s.pending size = s.accepted
  knows : Knows s.queue s.place
  unreleased : s.accepted.length = s.released + s.queue.queuedCount size
  sublist : s.accepted.Sublist s.offered
  balance : UInt32.ofNat s.offered.length = UInt32.ofNat s.accepted.length + s.queue.dropped

theorem Inv.initial (hsize : 1 < size.toNat) (slots : UInt32 → UInt8) (driver : σ) :
    Inv size (System.initial slots driver) := by
  have hrange : (System.initial slots driver).queue.InRange size :=
    ⟨Nat.lt_trans Nat.zero_lt_one hsize, Nat.lt_trans Nat.zero_lt_one hsize⟩
  have hcount : (System.initial slots driver).queue.queuedCount size = 0 :=
    (Ring.count_eq_zero hrange.tail hrange.head).mpr rfl
  refine ⟨hrange, ?_, trivial, ?_, List.Sublist.refl _, rfl⟩
  · rw [System.pending, ByteQueue.queued, hcount]
    rfl
  · rw [hcount]
    rfl

/-- An interrupt does not disturb what the loop knows: it never writes the slot at the tail of a
ring that has bytes. -/
theorem Accepts.knows {q' : ByteQueue} {value : UInt8} (h : Accepts size q q' value) {p : Place}
    (hp : Knows q p) : Knows q' p := by
  have hne : q'.tail ≠ q'.head := by
    intro heq
    have hzero : q'.queuedCount size = 0 :=
      (Ring.count_eq_zero h.inRange.tail h.inRange.head).mpr (UInt32.toNat_inj.mpr heq)
    have hlen := congrArg List.length h.queued
    rw [ByteQueue.queued_length, hzero, List.length_append, List.length_singleton] at hlen
    omega
  match p, hp with
  | .outside, _ => trivial
  | .test, _ => trivial
  | .handle _ _, _ => trivial
  | .read, _ => exact hne
  | .release v, ⟨hold, hslot⟩ =>
    refine ⟨hne, ?_⟩
    rw [h.tail, h.oldest hold]
    exact hslot

theorem ofNat_succ_length (l : List UInt8) (value : UInt8) :
    UInt32.ofNat (l ++ [value]).length = UInt32.ofNat l.length + 1 := by
  rw [List.length_append, List.length_singleton, UInt32.ofNat_add]
  rfl

/-- The refusal of a byte and what it says about the ring. -/
structure Refuses (size : UInt32) (s s' : System σ) : Prop where
  accepted : s'.accepted = s.accepted
  full : s.queue.queuedCount size = size.toNat - 1

theorem Inv.interrupt (hsize : 1 < d.size.toNat) (h : Inv d.size s) (status data : UInt8) :
    Inv d.size (interrupt d s status data) ∧ (d.offers status →
      (Refuses d.size s (interrupt d s status data) ∨
        (interrupt d s status data).accepted = s.accepted ++ [data])) := by
  rw [Input.interrupt]
  by_cases hoffers : d.offers status
  swap
  · rw [if_neg hoffers]
    exact ⟨h, fun hyes => absurd hyes hoffers⟩
  rw [if_pos hoffers]
  dsimp only
  by_cases hfull : s.queue.queuedCount d.size = d.size.toNat - 1
  · rw [enqueue_full h.inRange hfull]
    rw [if_pos rfl]
    refine ⟨⟨⟨h.inRange.head, h.inRange.tail⟩, h.fifo, ?_, h.unreleased,
      h.sublist.trans (List.sublist_append_left _ _), ?_⟩, fun _ => Or.inl ⟨rfl, hfull⟩⟩
    · have hknows := h.knows
      dsimp only
      match hplace : s.place with
      | .outside => trivial
      | .test => trivial
      | .handle _ _ => trivial
      | .read => rwa [hplace] at hknows
      | .release v => rwa [hplace] at hknows
    · dsimp only
      rw [ofNat_succ_length, h.balance, UInt32.add_assoc]
  · have ha := enqueue_room hsize h.inRange hfull data
    rw [if_neg ha.moved]
    refine ⟨⟨ha.inRange, ?_, ha.knows h.knows, ?_, h.sublist.append (List.Sublist.refl _), ?_⟩,
      fun _ => Or.inr rfl⟩
    · rw [← h.fifo, System.pending, System.pending, ha.queued, List.append_assoc, List.append_assoc]
    · have hlen := congrArg List.length ha.queued
      rw [ByteQueue.queued_length, List.length_append, ByteQueue.queued_length,
        List.length_singleton] at hlen
      dsimp only
      rw [hlen, List.length_append, List.length_singleton, h.unreleased]
      omega
    · dsimp only
      rw [ofNat_succ_length, ofNat_succ_length, h.balance, ha.dropped, UInt32.add_assoc,
        UInt32.add_comm s.queue.dropped, UInt32.add_assoc]

theorem Inv.statement (h : Inv d.size s) : Inv d.size (statement d s) := by
  have hfifo := h.fifo
  have hknows := h.knows
  rw [System.pending] at hfifo
  rw [Input.statement]
  match hplace : s.place with
  | .outside =>
    rw [hplace] at hfifo
    exact ⟨h.inRange, hfifo, trivial, h.unreleased, h.sublist, h.balance⟩
  | .test =>
    rw [hplace] at hfifo
    dsimp only
    by_cases hne : s.queue.tail ≠ s.queue.head
    · rw [if_pos hne]
      exact ⟨h.inRange, hfifo, hne, h.unreleased, h.sublist, h.balance⟩
    · rw [if_neg hne]
      exact ⟨h.inRange, hfifo, trivial, h.unreleased, h.sublist, h.balance⟩
  | .read =>
    rw [hplace] at hfifo hknows
    exact ⟨h.inRange, hfifo, ⟨hknows, rfl⟩, h.unreleased, h.sublist, h.balance⟩
  | .release value =>
    rw [hplace] at hfifo hknows
    obtain ⟨hne, hslot⟩ := hknows
    have hqueued := release_queued h.inRange hne
    have hcount := congrArg List.length hqueued
    rw [ByteQueue.queued_length, List.length_cons, ByteQueue.queued_length] at hcount
    refine ⟨⟨h.inRange.head, ?_⟩, ?_, trivial, ?_, h.sublist, h.balance⟩
    · dsimp only
      rw [next_toNat h.inRange.tail]
      have hsize := h.inRange.tail
      exact Nat.mod_lt _ (by omega)
    · rw [hqueued, hslot] at hfifo
      exact hfifo
    · have hunreleased := h.unreleased
      dsimp only
      omega
  | .handle value 0 =>
    rw [hplace] at hfifo
    have hhanded : (s.handed ++ [value]) ++ s.queue.queued d.size = s.accepted := by
      rw [List.append_assoc]
      exact hfifo
    dsimp only
    rw [if_pos rfl]
    split
    · exact ⟨h.inRange, hhanded, trivial, h.unreleased, h.sublist, h.balance⟩
    · split
      · exact ⟨h.inRange, hhanded, trivial, h.unreleased, h.sublist, h.balance⟩
      · exact ⟨h.inRange, hhanded, trivial, h.unreleased, h.sublist, h.balance⟩
  | .handle value (k + 1) =>
    rw [hplace] at hfifo
    dsimp only
    rw [if_neg (Nat.succ_ne_zero k)]
    split
    · exact ⟨h.inRange, hfifo, trivial, h.unreleased, h.sublist, h.balance⟩
    · split
      · exact ⟨h.inRange, hfifo, trivial, h.unreleased, h.sublist, h.balance⟩
      · exact ⟨h.inRange, hfifo, trivial, h.unreleased, h.sublist, h.balance⟩

theorem Inv.run (hsize : 1 < d.size.toNat) (h : Inv d.size s) (events : List Event) :
    Inv d.size (run d s events) := by
  induction events generalizing s with
  | nil => exact h
  | cons event events ih =>
    apply ih
    match event with
    | .interrupt status data => exact (h.interrupt hsize status data).1
    | .statement => exact h.statement

/-! ### The result -/

/-- The queue of the device is a lossless queue in the state `s`. -/
structure LosslessFifo (d : Device σ) (s : System σ) : Prop where
  /-- What was handed over is what was accepted, in order, up to what is pending. -/
  fifo : s.handed ++ s.pending d.size = s.accepted
  /-- The accepted bytes are offered ones, in order. -/
  sublist : s.accepted.Sublist s.offered
  head : s.queue.head < 128
  tail : s.queue.tail < 128
  balance : UInt32.ofNat s.offered.length =
    UInt32.ofNat s.handed.length + UInt32.ofNat (s.pending d.size).length + s.queue.dropped
  /-- A further interrupt with a byte has it accepted, or 127 accepted bytes were not released. -/
  refused : ∀ status data, d.offers status →
    (interrupt d s status data).accepted = s.accepted ++ [data] ∨
      ((interrupt d s status data).accepted = s.accepted ∧ s.released + 127 ≤ s.accepted.length)

theorem Inv.losslessFifo (hsize : d.size = 128) (h : Inv d.size s) :
    LosslessFifo d s := by
  have hnat : d.size.toNat = 128 := by
    rw [hsize]
    rfl
  refine ⟨h.fifo, h.sublist, ?_, ?_, ?_, ?_⟩
  · have := h.inRange.head
    rwa [UInt32.lt_iff_toNat_lt, ← hsize]
  · have := h.inRange.tail
    rwa [UInt32.lt_iff_toNat_lt, ← hsize]
  · rw [h.balance, ← h.fifo, List.length_append, UInt32.ofNat_add]
  · intro status data hoffers
    rcases (h.interrupt (by omega) status data).2 hoffers with hrefuses | haccepted
    · refine Or.inr ⟨hrefuses.accepted, ?_⟩
      have hfull := hrefuses.full
      have hunreleased := h.unreleased
      omega
    · exact Or.inl haccepted

end

/-- Whatever the shell does with a scancode, and in every interleaving of interrupts with the
statements of the loops, both queues are lossless in every state. -/
theorem interrupt_queues_lossless :
    (∀ (σ : Type) (process : σ → UInt8 → σ) (slots : UInt32 → UInt8) (driver : σ) (events : List Event),
      LosslessFifo (keyboardDevice process)
        (run (keyboardDevice process) (System.initial slots driver) events)) ∧
    (∀ (slots : UInt32 → UInt8) (driver : Mouse) (events : List Event),
      LosslessFifo mouseDevice (run mouseDevice (System.initial slots driver) events)) := by
  refine ⟨?_, ?_⟩
  · intro σ process slots driver events
    have hsize : 1 < (keyboardDevice process).size.toNat := show 1 <
      keyboardScancodeQueueSize.toNat by decide
    exact ((Inv.initial hsize slots driver).run hsize events).losslessFifo rfl
  · intro slots driver events
    have hsize : 1 < mouseDevice.size.toNat := by decide
    exact ((Inv.initial hsize slots driver).run hsize events).losslessFifo rfl

end TermobKernel.Input
