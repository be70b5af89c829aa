import TermobKernel.Input.Model
import Mathlib.Tactic

/-!
# The packets of the wheel mouse

`mouse_drain_pending` cuts the stream of bytes into packets of four and turns the signed fourth byte
of each into calls of the terminal. In every interleaving with the interrupts the statics of the
driver are those of the bytes handled one after another. One byte is read wrongly: the negation of
`-128` is `-128` again in eight bits, so that a packet with the fourth byte `0x80` adds `2 ^ 32 -
128` to the counter and scrolls by no line at all.
-/

namespace TermobKernel.Input

variable {begun : List UInt8} {m : Mouse}

/-! ### Bytes one after another -/

section Device
variable {σ : Type}

def handleByte : List (σ → UInt8 → σ × Bool) → σ → UInt8 → σ
  | [], s, _ => s
  | f :: statements, s, value =>
    if (f s value).2 then handleByte statements (f s value).1 value else (f s value).1

/-- The statics of the driver once the byte in hand is finished. -/
def System.settled (d : Device σ) (s : System σ) : σ :=
  match s.place with
  | .handle value (k + 1) => handleByte (d.statements.drop (k + 1)) s.driver value
  | _ => s.driver

theorem settled_statement (d : Device σ) (s : System σ) :
    ((statement d s).settled d = s.settled d ∧ (statement d s).handed = s.handed) ∨
      ∃ value, (statement d s).settled d = handleByte d.statements (s.settled d) value ∧
        (statement d s).handed = s.handed ++ [value] := by
  -- The statement with number `k` and those behind it.
  have hstep : ∀ (value : UInt8) (k : Nat), s.place = .handle value k →
      (statement d s).settled d = handleByte (d.statements.drop k) s.driver value := by
    intro value k hplace
    rw [statement, hplace]
    dsimp only
    cases hk : d.statements[k]? with
    | none =>
      rw [List.drop_eq_nil_of_le (List.getElem?_eq_none_iff.mp hk)]
      rfl
    | some f =>
      obtain ⟨hlt, rfl⟩ := List.getElem?_eq_some_iff.mp hk
      rw [List.drop_eq_getElem_cons hlt, handleByte]
      dsimp only
      by_cases hmore : (d.statements[k] s.driver value).2 = true
      · rw [if_pos hmore, if_pos hmore]
        rfl
      · rw [if_neg hmore, if_neg hmore]
        rfl
  have hhanded : ∀ (value : UInt8) (k : Nat), s.place = .handle value k →
      (statement d s).handed = if k = 0 then s.handed ++ [value] else s.handed := by
    intro value k hplace
    rw [statement, hplace]
    dsimp only
    cases d.statements[k]? with
    | none => rfl
    | some f => rfl
  cases hplace : s.place with
  | handle value k =>
    cases k with
    | zero =>
      refine Or.inr ⟨value, ?_, hhanded value 0 hplace⟩
      rw [hstep value 0 hplace, System.settled, hplace]
      rfl
    | succ k =>
      refine Or.inl ⟨?_, hhanded value (k + 1) hplace⟩
      rw [hstep value (k + 1) hplace, System.settled, hplace]
  | test =>
    refine Or.inl ?_
    rw [statement, System.settled, System.settled, hplace]
    dsimp only
    by_cases hne : s.queue.tail ≠ s.queue.head
    · rw [if_pos hne]
      exact ⟨rfl, rfl⟩
    · rw [if_neg hne]
      exact ⟨rfl, rfl⟩
  | outside => exact Or.inl (by rw [statement, System.settled, System.settled, hplace]; exact ⟨rfl, rfl⟩)
  | read => exact Or.inl (by rw [statement, System.settled, System.settled, hplace]; exact ⟨rfl, rfl⟩)
  | release value =>
      exact Or.inl (by rw [statement, System.settled, System.settled, hplace]; exact ⟨rfl, rfl⟩)

theorem handleByte_map {mark : σ → σ} {statements : List (σ → UInt8 → σ × Bool)}
    (hmark : ∀ f ∈ statements, ∀ s value, f (mark s) value = (mark (f s value).1, (f s value).2)) (s : σ)
    (value : UInt8) : handleByte statements (mark s) value = mark (handleByte statements s value) := by
  induction statements generalizing s with
  | nil => rfl
  | cons f statements ih =>
    rw [handleByte, handleByte, hmark f (by simp)]
    by_cases hmore : (f s value).2 = true
    · rw [if_pos hmore, if_pos hmore]
      exact ih (fun g hg => hmark g (by simp [hg])) _
    · rw [if_neg hmore, if_neg hmore]

theorem settled_map {d : Device σ} {mark : σ → σ}
    (hmark : ∀ f ∈ d.statements, ∀ s value, f (mark s) value = (mark (f s value).1, (f s value).2))
    {s s' : System σ} (hplace : s'.place = s.place) (hdriver : s'.driver = mark s.driver) :
    s'.settled d = mark (s.settled d) := by
  rw [System.settled, System.settled, hplace, hdriver]
  split
  · exact handleByte_map (fun f hf => hmark f (List.mem_of_mem_drop hf)) s.driver _
  · rfl

end Device

/-- What `mouse_drain_pending` does with a byte. -/
def mouseDrainByte (m : Mouse) (value : UInt8) : Mouse := handleByte mouseDevice.statements m value

/-- The counter of the interrupts is not read by the loop. -/
def Mouse.withIrqEvents (k : UInt32) (m : Mouse) : Mouse := { m with irqEvents := k }

theorem mouseProcessPacket_withIrqEvents (k : UInt32) (m : Mouse) :
    mouseProcessPacket (m.withIrqEvents k) = (mouseProcessPacket m).withIrqEvents k := by
  unfold mouseProcessPacket Mouse.withIrqEvents
  dsimp only
  split_ifs <;> rfl

theorem statements_withIrqEvents (k : UInt32) : ∀ f ∈ mouseDevice.statements, ∀ m value,
    f (Mouse.withIrqEvents k m) value = ((f m value).1.withIrqEvents k, (f m value).2) := by
  intro f hf m value
  simp only [mouseDevice, List.mem_cons, List.not_mem_nil, or_false] at hf
  rcases hf with rfl | rfl | rfl
  · by_cases hskip : m.packetIndex = 0 ∧ value &&& 0x08 = 0
    · rw [mouseCheckSync, mouseCheckSync, if_pos hskip,
        if_pos (show (m.withIrqEvents k).packetIndex = 0 ∧ _ from hskip)]
      rfl
    · rw [mouseCheckSync, mouseCheckSync, if_neg hskip,
        if_neg (show ¬((m.withIrqEvents k).packetIndex = 0 ∧ _) from hskip)]
  · rfl
  · by_cases hfull : m.packetIndex ≥ m.packetSize
    · rw [mouseCompletePacket, mouseCompletePacket, if_pos hfull,
        if_pos (show (m.withIrqEvents k).packetIndex ≥ (m.withIrqEvents k).packetSize from hfull),
        ← mouseProcessPacket_withIrqEvents]
      rfl
    · rw [mouseCompletePacket, mouseCompletePacket, if_neg hfull,
        if_neg (show ¬(m.withIrqEvents k).packetIndex ≥ (m.withIrqEvents k).packetSize from hfull)]

/-- In every run the driver is where the bytes handed to it have brought it, apart from the count of
the interrupts. -/
theorem settled_run (m : Mouse) (slots : UInt32 → UInt8) (events : List Event) :
    let s := run mouseDevice (System.initial slots m) events
    ∃ k, s.settled mouseDevice = (s.handed.foldl mouseDrainByte m).withIrqEvents k := by
  suffices hrun : ∀ (events : List Event) (s : System Mouse),
      (∃ k, s.settled mouseDevice = (s.handed.foldl mouseDrainByte m).withIrqEvents k) →
        ∃ k, (run mouseDevice s events).settled mouseDevice =
          ((run mouseDevice s events).handed.foldl mouseDrainByte m).withIrqEvents k from
    hrun events (System.initial slots m) ⟨m.irqEvents, rfl⟩
  intro events
  induction events with
  | nil => exact fun s h => h
  | cons event events ih =>
    intro s hs
    apply ih
    obtain ⟨k, hk⟩ := hs
    cases event with
    | interrupt status data =>
      have hplace : (interrupt mouseDevice s status data).place = s.place := by
        unfold interrupt
        split <;> rfl
      have hhanded : (interrupt mouseDevice s status data).handed = s.handed := by
        unfold interrupt
        split <;> rfl
      have hdriver : ∃ k', (interrupt mouseDevice s status data).driver = s.driver.withIrqEvents k' := by
        unfold interrupt
        split
        · exact ⟨s.driver.irqEvents + 1, rfl⟩
        · exact ⟨s.driver.irqEvents, rfl⟩
      obtain ⟨k', hdriver⟩ := hdriver
      refine ⟨k', ?_⟩
      rw [step, settled_map (statements_withIrqEvents k') hplace hdriver, hhanded, hk]
      rfl
    | statement =>
      rcases settled_statement mouseDevice s with ⟨hsettled, hhanded⟩ | ⟨value, hsettled, hhanded⟩
      · exact ⟨k, by rw [step, hsettled, hhanded, hk]⟩
      · refine ⟨k, ?_⟩
        rw [step, hsettled, hhanded, hk, List.foldl_append, List.foldl_cons, List.foldl_nil, mouseDrainByte]
        exact handleByte_map (statements_withIrqEvents k) _ value

/-! ### Packets -/

/-- The complete packets of a stream, behind the bytes of a packet that was begun. -/
def packetsFrom : List UInt8 → List UInt8 → List (List UInt8)
  | _, [] => []
  | begun, value :: stream =>
    if begun = [] ∧ value &&& 0x08 = 0 then packetsFrom [] stream
    else if begun.length + 1 = 4 then (begun ++ [value]) :: packetsFrom [] stream
    else packetsFrom (begun ++ [value]) stream

/-- The complete packets of a stream: bytes without bit 3 are discarded where a packet starts, and
the others are grouped by four. -/
def packets (stream : List UInt8) : List (List UInt8) := packetsFrom [] stream

def wheelByte (packet : List UInt8) : UInt8 := packet.getD 3 0

/-- The lines to scroll up and down for a fourth byte. -/
def linesUp (value : UInt8) : Nat := value.toInt8.toInt.toNat

def linesDown (value : UInt8) : Nat := (-value.toInt8.toInt).toNat

def packetCalls (packet : List UInt8) : List ScrollCall :=
  List.replicate (linesUp (wheelByte packet)) .lineUp ++
    List.replicate (linesDown (wheelByte packet)) .lineDown

/-- The driver has counted the packets of the stream and scrolled by their fourth bytes. -/
structure Decoded (m m' : Mouse) (stream : List UInt8) : Prop where
  seen : m'.packetsSeen = m.packetsSeen + UInt32.ofNat (packets stream).length
  up : m'.scrollUpEvents = m.scrollUpEvents +
    UInt32.ofNat ((packets stream).map fun p => linesUp (wheelByte p)).sum
  down : m'.scrollDownEvents =
    m.scrollDownEvents + UInt32.ofNat ((packets stream).map fun p => linesDown (wheelByte p)).sum
  calls : m'.scrollCalls = m.scrollCalls ++ (packets stream).flatMap packetCalls

/-! ### One packet -/

/-- The lines that the driver really scrolls down, and what it adds to its counter. -/
def stepsDown (value : UInt8) : Nat := if value = 0x80 then 0 else linesDown value

def countedDown (value : UInt8) : Nat := if value = 0x80 then 2 ^ 32 - 128 else linesDown value

theorem wheel_arithmetic : ∀ n < 256,
    let value := UInt8.ofNat n
    let delta := value.toInt8
    (delta > 0 → delta.toInt32.toUInt32 = UInt32.ofNat (linesUp value) ∧ delta.toInt.toNat = linesUp value ∧
        countedDown value = 0 ∧ stepsDown value = 0) ∧
      (delta < 0 → linesUp value = 0 ∧ (-delta).toInt32.toUInt32 = UInt32.ofNat (countedDown value) ∧
        (-delta).toInt.toNat = stepsDown value) ∧
      (¬delta > 0 → ¬delta < 0 → linesUp value = 0 ∧ countedDown value = 0 ∧ stepsDown value = 0) := by
  decide +kernel

/-- The terminal calls that the driver really makes for a packet. -/
def madeCalls (packet : List UInt8) : List ScrollCall :=
  List.replicate (linesUp (wheelByte packet)) .lineUp ++
    List.replicate (stepsDown (wheelByte packet)) .lineDown

/-- What the driver does for a row of packets. -/
structure Counts (m m' : Mouse) (ps : List (List UInt8)) : Prop where
  seen : m'.packetsSeen = m.packetsSeen + UInt32.ofNat ps.length
  up : m'.scrollUpEvents = m.scrollUpEvents + UInt32.ofNat (ps.map fun p => linesUp (wheelByte p)).sum
  down : m'.scrollDownEvents = m.scrollDownEvents +
    UInt32.ofNat (ps.map fun p => countedDown (wheelByte p)).sum
  calls : m'.scrollCalls = m.scrollCalls ++ ps.flatMap madeCalls

theorem Counts.nothing {m m' : Mouse} (hseen : m'.packetsSeen = m.packetsSeen)
    (hup : m'.scrollUpEvents = m.scrollUpEvents) (hdown : m'.scrollDownEvents = m.scrollDownEvents)
    (hcalls : m'.scrollCalls = m.scrollCalls) : Counts m m' [] := by
  refine ⟨?_, ?_, ?_, ?_⟩
  · simp [hseen]
  · simp [hup]
  · simp [hdown]
  · simp [hcalls]

theorem Counts.trans {m m' m'' : Mouse} {ps qs : List (List UInt8)} (h : Counts m m' ps)
    (h' : Counts m' m'' qs) :
    Counts m m'' (ps ++ qs) := by
  refine ⟨?_, ?_, ?_, ?_⟩
  · rw [h'.seen, h.seen, List.length_append, UInt32.ofNat_add, UInt32.add_assoc]
  · rw [h'.up, h.up, List.map_append, List.sum_append, UInt32.ofNat_add, UInt32.add_assoc]
  · rw [h'.down, h.down, List.map_append, List.sum_append, UInt32.ofNat_add, UInt32.add_assoc]
  · rw [h'.calls, h.calls, List.flatMap_append, List.append_assoc]

theorem Counts.one {m m' : Mouse} {packet : List UInt8} (hseen : m'.packetsSeen = m.packetsSeen + 1)
    (hup : m'.scrollUpEvents = m.scrollUpEvents + UInt32.ofNat (linesUp (wheelByte packet)))
    (hdown : m'.scrollDownEvents = m.scrollDownEvents + UInt32.ofNat (countedDown (wheelByte packet)))
    (hcalls : m'.scrollCalls = m.scrollCalls ++ madeCalls packet) : Counts m m' [packet] := by
  refine ⟨hseen, ?_, ?_, ?_⟩
  · simp [hup]
  · simp [hdown]
  · simp [hcalls]

/-- The driver of a wheel mouse with the bytes of a packet that was begun. -/
structure Collects (m : Mouse) (begun : List UInt8) : Prop where
  wheel : m.wheelReady = true
  size : m.packetSize = 4
  short : begun.length < 4
  index : m.packetIndex = UInt8.ofNat begun.length
  stored : ∀ i < begun.length, begun[i]? = some (m.packet (UInt8.ofNat i))

theorem mouseProcessPacket_counts {packet : List UInt8} (hwheel : m.wheelReady = true)
    (hsize : m.packetSize = 4) (hbyte : m.packet 3 = wheelByte packet) :
    Counts m (mouseProcessPacket m) [packet] ∧ (mouseProcessPacket m).wheelReady = true ∧
      (mouseProcessPacket m).packetSize = 4 ∧ (mouseProcessPacket m).packetIndex = m.packetIndex := by
  obtain ⟨hup, hdown, hnone⟩ := wheel_arithmetic (m.packet 3).toNat (m.packet 3).toNat_lt
  rw [UInt8.ofNat_toNat] at hup hdown hnone
  unfold mouseProcessPacket
  dsimp only
  rw [if_neg (by simp [hwheel, hsize])]
  rw [hbyte] at hup hdown hnone ⊢
  by_cases hpos : (wheelByte packet).toInt8 > 0
  · obtain ⟨hcount, hcalls, hzero, hsteps⟩ := hup hpos
    rw [if_pos hpos]
    refine ⟨Counts.one rfl ?_ ?_ ?_, hwheel, hsize, rfl⟩
    · rw [hcount]
    · rw [hzero]
      exact (UInt32.add_zero _).symm
    · rw [madeCalls, hcalls, hsteps, List.replicate_zero, List.append_nil]
  · by_cases hneg : (wheelByte packet).toInt8 < 0
    · obtain ⟨hzero, hcount, hcalls⟩ := hdown hneg
      rw [if_neg hpos, if_pos hneg]
      refine ⟨Counts.one rfl ?_ ?_ ?_, hwheel, hsize, rfl⟩
      · rw [hzero]
        exact (UInt32.add_zero _).symm
      · rw [hcount]
      · rw [madeCalls, hcalls, hzero, List.replicate_zero, List.nil_append]
    · obtain ⟨hzero, hcount, hsteps⟩ := hnone hpos hneg
      rw [if_neg hpos, if_neg hneg]
      refine ⟨Counts.one rfl ?_ ?_ ?_, hwheel, hsize, rfl⟩
      · rw [hzero]
        exact (UInt32.add_zero _).symm
      · rw [hcount]
        exact (UInt32.add_zero _).symm
      · rw [madeCalls, hzero, hsteps, List.replicate_zero, List.replicate_zero, List.append_nil,
          List.append_nil]

/-! ### The stream -/

theorem mouseDrainByte_eq (m : Mouse) (value : UInt8) :
    mouseDrainByte m value =
      if m.packetIndex = 0 ∧ value &&& 0x08 = 0 then { m with syncLosses := m.syncLosses + 1 }
      else (mouseCompletePacket (mouseStoreByte m value).1 value).1 := by
  rw [mouseDrainByte, mouseDevice, handleByte, mouseCheckSync]
  by_cases hskip : m.packetIndex = 0 ∧ value &&& 0x08 = 0
  · rw [if_pos hskip, if_pos hskip]
    rfl
  · rw [if_neg hskip, if_neg hskip]
    rw [if_pos rfl, handleByte, if_pos (show (mouseStoreByte m value).2 = true from rfl), handleByte]
    split <;> rfl

theorem Collects.index_eq_zero (h : Collects m begun) :
    m.packetIndex = 0 ↔ begun = [] := by
  have hshort := h.short
  rw [h.index, ← UInt8.toNat_inj, UInt8.toNat_ofNat', UInt8.toNat_zero, ← List.length_eq_zero_iff]
  omega

theorem Collects.store {m : Mouse} {begun : List UInt8} (h : Collects m begun) (value : UInt8) :
    (∀ i < (begun ++ [value]).length,
        (begun ++ [value])[i]? = some ((mouseStoreByte m value).1.packet (UInt8.ofNat i))) ∧
      (mouseStoreByte m value).1.packetIndex = UInt8.ofNat (begun ++ [value]).length := by
  have hshort := h.short
  rw [List.length_append, List.length_singleton]
  constructor
  · intro i hi
    change (begun ++ [value])[i]? = some (Function.update m.packet m.packetIndex value (UInt8.ofNat i))
    rw [h.index]
    by_cases hlast : i = begun.length
    · rw [hlast, List.getElem?_concat_length, Function.update_self]
    · have hne : UInt8.ofNat i ≠ UInt8.ofNat begun.length := by
        intro heq
        have hnat := congrArg UInt8.toNat heq
        rw [UInt8.toNat_ofNat', UInt8.toNat_ofNat'] at hnat
        omega
      rw [List.getElem?_append_left (by omega), Function.update_of_ne hne]
      exact h.stored i (by omega)
  · rw [mouseStoreByte, h.index, UInt8.ofNat_add]
    rfl

theorem Collects.drainByte (h : Collects m begun) (value : UInt8) :
    ∃ begun' ps, Collects (mouseDrainByte m value) begun' ∧ Counts m (mouseDrainByte m value) ps ∧
      ∀ stream, packetsFrom begun (value :: stream) = ps ++ packetsFrom begun' stream := by
  have hshort := h.short
  rw [mouseDrainByte_eq]
  by_cases hskip : m.packetIndex = 0 ∧ value &&& 0x08 = 0
  · obtain rfl := h.index_eq_zero.mp hskip.1
    rw [if_pos hskip]
    refine ⟨[], [], ⟨h.wheel, h.size, h.short, h.index, h.stored⟩, Counts.nothing rfl rfl rfl rfl,
      fun stream => ?_⟩
    rw [packetsFrom, if_pos ⟨rfl, hskip.2⟩, List.nil_append]
  · obtain ⟨hstored, hindex⟩ := h.store value
    rw [if_neg hskip]
    have hopen : ¬(begun = [] ∧ value &&& 0x08 = 0) := fun hc => hskip ⟨h.index_eq_zero.mpr hc.1, hc.2⟩
    have hfull : (mouseStoreByte m value).1.packetIndex ≥ (mouseStoreByte m value).1.packetSize ↔
        begun.length + 1 = 4 := by
      rw [show (mouseStoreByte m value).1.packetSize = 4 from h.size, hindex, ge_iff_le,
        UInt8.le_iff_toNat_le, UInt8.toNat_ofNat', List.length_append, List.length_singleton]
      change 4 ≤ _ ↔ _
      omega
    by_cases hfour : begun.length + 1 = 4
    · have hbyte : (mouseStoreByte m value).1.packet 3 = wheelByte (begun ++ [value]) := by
        have hfourth := hstored 3 (by rw [List.length_append, List.length_singleton]; omega)
        rw [wheelByte, List.getD_eq_getElem?_getD, hfourth]
        rfl
      obtain ⟨hcounts, hwheel, hsize, hzero⟩ := mouseProcessPacket_counts
        (m := { (mouseStoreByte m value).1 with packetIndex := 0 }) h.wheel h.size hbyte
      rw [mouseCompletePacket, if_pos (hfull.mpr hfour)]
      refine ⟨[], [begun ++ [value]], ⟨hwheel, hsize, by decide, hzero, by simp⟩, ?_, fun stream => ?_⟩
      · exact ⟨hcounts.seen, hcounts.up, hcounts.down, hcounts.calls⟩
      · rw [packetsFrom, if_neg hopen, if_pos hfour, List.singleton_append]
    · rw [mouseCompletePacket, if_neg (fun hc => hfour (hfull.mp hc))]
      refine ⟨begun ++ [value], [], ⟨h.wheel, h.size, ?_, hindex, hstored⟩, Counts.nothing rfl rfl rfl rfl,
        fun stream => ?_⟩
      · rw [List.length_append, List.length_singleton]
        omega
      · rw [packetsFrom, if_neg hopen, if_neg hfour, List.nil_append]

theorem Collects.stream (stream : List UInt8) : ∀ {m : Mouse}, Collects m begun →
    Counts m (stream.foldl mouseDrainByte m) (packetsFrom begun stream) := by
  induction stream generalizing begun with
  | nil => exact fun _ => Counts.nothing rfl rfl rfl rfl
  | cons value stream ih =>
    intro m h
    obtain ⟨begun', ps, hnext, hcounts, hpackets⟩ := h.drainByte value
    rw [List.foldl_cons, hpackets]
    exact hcounts.trans (ih hnext)

theorem stepsDown_of_ne {value : UInt8} (h : value ≠ 0x80) : stepsDown value = linesDown value := if_neg h

theorem countedDown_of_ne {value : UInt8} (h : value ≠ 0x80) :
    countedDown value = linesDown value := if_neg h

theorem madeCalls_length (ps : List (List UInt8)) :
    (ps.flatMap madeCalls).length ≤ (ps.flatMap packetCalls).length ∧
      ((ps.flatMap madeCalls).length = (ps.flatMap packetCalls).length → ∀ p ∈ ps, wheelByte p ≠ 0x80) := by
  induction ps with
  | nil => simp
  | cons p ps ih =>
    have hsteps : stepsDown (wheelByte p) ≤ linesDown (wheelByte p) ∧
        (wheelByte p = 0x80 → stepsDown (wheelByte p) < linesDown (wheelByte p)) := by
      by_cases hbyte : wheelByte p = 0x80
      · rw [hbyte]
        decide
      · rw [stepsDown_of_ne hbyte]
        exact ⟨le_refl _, fun h => absurd h hbyte⟩
    simp only [List.flatMap_cons, List.length_append, madeCalls, packetCalls, List.length_replicate,
      List.mem_cons, forall_eq_or_imp]
    refine ⟨by omega, fun heq => ⟨fun hbyte => ?_, ih.2 (by omega)⟩⟩
    have hfewer := hsteps.2 hbyte
    omega

theorem madeCalls_eq_iff (ps : List (List UInt8)) :
    ps.flatMap madeCalls = ps.flatMap packetCalls ↔ ∀ p ∈ ps, wheelByte p ≠ 0x80 := by
  constructor
  · exact fun heq => (madeCalls_length ps).2 (congrArg List.length heq)
  · intro hbytes
    refine List.flatMap_congr fun p hp => ?_
    rw [madeCalls, packetCalls, stepsDown_of_ne (hbytes p hp)]

/-- A wheel mouse between two packets. -/
structure WheelIdle (m : Mouse) : Prop where
  wheel : m.wheelReady = true
  size : m.packetSize = 4
  index : m.packetIndex = 0

/-- **The packets of the wheel mouse.** A stream of bytes is decoded faithfully if and only if no
packet of it has the fourth byte `0x80`; and in every interleaving with the interrupts the loop has
done with the bytes handed to it what it does with this stream, apart from the count of the
interrupts. -/
theorem wheel_decoded_iff {m : Mouse} (hm : WheelIdle m) :
    (∀ stream, Decoded m (stream.foldl mouseDrainByte m) stream ↔ ∀ p ∈ packets stream,
      wheelByte p ≠ 0x80) ∧ ∀ slots events, let s := run mouseDevice (System.initial slots m) events
        s.place = .outside ∨ s.place = .test →
          ∃ k, s.driver = (s.handed.foldl mouseDrainByte m).withIrqEvents k := by
  constructor
  · intro stream
    have hcollects : Collects m [] := ⟨hm.wheel, hm.size, by decide, hm.index, by simp⟩
    have hcounts := hcollects.stream stream
    rw [← packets] at hcounts
    constructor
    · intro h
      have hcalls := hcounts.calls.symm.trans h.calls
      exact (madeCalls_eq_iff _).mp (List.append_cancel_left hcalls)
    · intro hbytes
      refine ⟨hcounts.seen, hcounts.up, ?_, ?_⟩
      · rw [hcounts.down, List.map_congr_left fun p hp => countedDown_of_ne (hbytes p hp)]
      · rw [hcounts.calls, (madeCalls_eq_iff _).mpr hbytes]
  · intro slots events s hplace
    obtain ⟨k, hk⟩ := settled_run m slots events
    refine ⟨k, Eq.trans ?_ hk⟩
    rw [System.settled]
    rcases hplace with hplace | hplace
    · rw [show (run mouseDevice (System.initial slots m) events).place = _ from hplace]
    · rw [show (run mouseDevice (System.initial slots m) events).place = _ from hplace]

def wheelMouse : Mouse := ⟨fun _ => 0, 0, 4, true, 0, 0, 0, 0, 0, 0, 0, []⟩

/-- A byte without bit 3, a packet that scrolls up by two lines and one that scrolls down by one. -/
theorem wheel_decoded_resync :
    Decoded wheelMouse ([0x00, 0x08, 0, 0, 2, 0x09, 5, 5, 0xFF].foldl mouseDrainByte wheelMouse)
      [0x00, 0x08, 0, 0, 2, 0x09, 5, 5, 0xFF] :=
  ((wheel_decoded_iff ⟨rfl, rfl, rfl⟩).1 _).mpr (by decide)

/-- The fourth byte `0x80` asks for 128 lines down: none is scrolled, and the counter is `2 ^ 32 - 128`. -/
theorem wheel_extreme_delta :
    linesDown 0x80 = 128 ∧
      ([0x08, 0, 0, 0x80].foldl mouseDrainByte wheelMouse).scrollDownEvents = 0xFFFFFF80 ∧
      ([0x08, 0, 0, 0x80].foldl mouseDrainByte wheelMouse).scrollCalls = [] := by
  decide

end TermobKernel.Input
