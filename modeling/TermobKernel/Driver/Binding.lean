import TermobKernel.Driver.Model
import TermobKernel.Library.Runs

/-!
# Driver binding is canonical

Whatever the order of the calls, in the end a device is bound to the earliest driver that accepts
it. The device list is known exactly: each registration has one node, and so has each registration
that the probe of its driver makes (`nodesOf`). A registration of a device appends its nodes and
touches no older one. The loop over the devices for a new driver meets the old nodes, which the
older drivers have refused or taken, and behind them the nodes that its own probes appended; these
have met the new driver already and stay as they are.
-/

namespace TermobKernel.Driver
open Runs

variable {π : Type}

/-! ### What is to be shown of a state -/

def earliest (drivers : List (TermobDriver π)) (device : TermobDevice) : Option Nat :=
  drivers.findIdx? (driverDeviceMatches · device)

def released (device : TermobDevice) : TermobDevice :=
  { device with driver := none, boundDriverName := none }

/-- The device is bound to the earliest driver that accepts it, and to none if none does. -/
structure BoundRight (drivers : List (TermobDriver π)) (node : DeviceNode π) : Prop where
  driver : node.device.driver = earliest drivers (released node.device)
  name : node.device.boundDriverName = (node.device.driver.bind (drivers[·]?)).bind (·.name)

def bindTo (drivers : List (TermobDriver π)) (device : TermobDevice) : TermobDevice :=
  { device with
    driver := earliest drivers device
    boundDriverName := ((earliest drivers device).bind (drivers[·]?)).bind (·.name) }

def probeFor (drivers : List (TermobDriver π)) (device : TermobDevice) : Option π :=
  ((earliest drivers device).bind (drivers[·]?)).bind (·.probe)

mutual

/-- The nodes of a registration: its own, and those of the registrations that its probe makes. -/
def nodesOf (buses : List Bus) (drivers : List (TermobDriver π)) : Registration π → List (DeviceNode π)
  | .mk device registers =>
    if device.name = none then []
    else
      ⟨bindTo drivers (driverStoredDevice buses device), registers⟩ ::
        match probeFor drivers (driverStoredDevice buses device) with
        | some callback => nodesOfAll buses drivers (registers callback)
        | none => []

def nodesOfAll (buses : List Bus) (drivers : List (TermobDriver π)) :
    List (Registration π) → List (DeviceNode π)
  | [] => []
  | r :: rs => nodesOf buses drivers r ++ nodesOfAll buses drivers rs

end

def bindingEvents (drivers : List (TermobDriver π)) (b : Nat × Nat) : List Event :=
  match (drivers[b.2]?).bind (·.probe) with
  | some _ => [.bound b.1 b.2, .probed b.1 b.2]
  | none => [.bound b.1 b.2]

/-- The counters count the lists and the bound devices. The events are the bindings that the nodes
show, each once and each followed by the call of the probe, if there is one. -/
structure Booked (s : State π) : Prop where
  devices : s.driverDeviceCountValue = s.driverDeviceList.length
  drivers : s.driverDriverCountValue = s.driverDriverList.length
  bound : s.driverBoundCountValue = s.driverDeviceList.countP (·.device.driver.isSome)
  known : ∀ node ∈ s.driverDeviceList, ∀ k, node.device.driver = some k → k < s.driverDriverList.length
  order : ∃ order : List (Nat × Nat), s.events = order.flatMap (bindingEvents s.driverDriverList) ∧
    (order.map Prod.fst).Nodup ∧
    ∀ i k, (i, k) ∈ order ↔ ∃ node, s.driverDeviceList[i]? = some node ∧ node.device.driver = some k

/-- Nodes keep their place and their device, and a bound node does not change at all. -/
structure Later (s s' : State π) : Prop where
  ready : s'.driverModelReady = s.driverModelReady
  buses : s'.driverBusList = s.driverBusList
  nodes : ∀ (i : Nat) (node : DeviceNode π), s.driverDeviceList[i]? = some node →
    ∃ node' : DeviceNode π, s'.driverDeviceList[i]? = some node' ∧ node'.registers = node.registers ∧
      released node'.device = released node.device ∧ (node.device.driver ≠ none → node' = node)

/-- The events of the bindings that nodes from position `i` on show, in the order of the nodes. -/
def nodeEvents (drivers : List (TermobDriver π)) : Nat → List (DeviceNode π) → List Event
  | _, [] => []
  | i, node :: nodes =>
    (match node.device.driver with
      | some k => bindingEvents drivers (i, k)
      | none => []) ++ nodeEvents drivers (i + 1) nodes

/-- The nodes `new` are appended and bound one after the other, and nothing else happens to the lists. -/
structure Grown (s s' : State π) (new : List (DeviceNode π)) : Prop where
  ready : s'.driverModelReady = s.driverModelReady
  buses : s'.driverBusList = s.driverBusList
  drivers : s'.driverDriverList = s.driverDriverList
  nodes : s'.driverDeviceList = s.driverDeviceList ++ new
  events : s'.events = s.events ++ nodeEvents s.driverDriverList s.driverDeviceList.length new

section relations
variable {s s' s'' : State π} {new new' : List (DeviceNode π)}

theorem Later.refl (s : State π) : Later s s :=
  ⟨rfl, rfl, fun _ node h => ⟨node, h, rfl, rfl, fun _ => rfl⟩⟩

theorem Later.trans (h : Later s s') (h' : Later s' s'') : Later s s'' := by
  refine ⟨h'.ready.trans h.ready, h'.buses.trans h.buses, fun i node hnode => ?_⟩
  obtain ⟨node', hnode', hreg, hdev, hkeep⟩ := h.nodes i node hnode
  obtain ⟨node'', hnode'', hreg', hdev', hkeep'⟩ := h'.nodes i node' hnode'
  refine ⟨node'', hnode'', hreg'.trans hreg, hdev'.trans hdev, fun hbound => ?_⟩
  obtain rfl := hkeep hbound
  exact hkeep' hbound

theorem Grown.later (h : Grown s s' new) : Later s s' := by
  refine ⟨h.ready, h.buses, fun i node hnode => ⟨node, ?_, rfl, rfl, fun _ => rfl⟩⟩
  rw [h.nodes, List.getElem?_append_left (List.getElem?_eq_some_iff.mp hnode).1]
  exact hnode

theorem Grown.refl (s : State π) : Grown s s [] :=
  ⟨rfl, rfl, rfl, (List.append_nil _).symm, (List.append_nil _).symm⟩

theorem nodeEvents_append (drivers : List (TermobDriver π)) (i : Nat) (new new' : List (DeviceNode π)) :
    nodeEvents drivers i (new ++ new') = nodeEvents drivers i new ++
        nodeEvents drivers (i + new.length) new' := by
  induction new generalizing i with
  | nil => rfl
  | cons node new ih =>
    rw [List.cons_append, nodeEvents, nodeEvents, ih, List.append_assoc, List.length_cons, Nat.add_assoc,
      Nat.add_comm 1]

theorem Grown.trans (h : Grown s s' new) (h' : Grown s' s'' new') : Grown s s'' (new ++ new') := by
  refine ⟨h'.ready.trans h.ready, h'.buses.trans h.buses, h'.drivers.trans h.drivers, ?_, ?_⟩
  · rw [h'.nodes, h.nodes, List.append_assoc]
  · rw [h'.events, h.events, h.nodes, h.drivers, List.length_append, nodeEvents_append, List.append_assoc]

end relations

mutual

theorem boundRight_nodesOf (buses : List Bus) (drivers : List (TermobDriver π)) :
    ∀ (r : Registration π), ∀ node ∈ nodesOf buses drivers r, BoundRight drivers node
  | .mk device registers => by
    intro node hnode
    rw [nodesOf] at hnode
    split at hnode
    · cases hnode
    rcases List.mem_cons.mp hnode with rfl | hnode
    · exact ⟨rfl, rfl⟩
    · split at hnode
      · exact boundRight_nodesOfAll buses drivers _ node hnode
      · cases hnode

theorem boundRight_nodesOfAll (buses : List Bus) (drivers : List (TermobDriver π)) :
    ∀ (rs : List (Registration π)), ∀ node ∈ nodesOfAll buses drivers rs, BoundRight drivers node
  | [] => by
    intro node hnode
    cases hnode
  | r :: rs => by
    intro node hnode
    rcases List.mem_append.mp (nodesOfAll.eq_2 .. ▸ hnode) with hnode | hnode
    · exact boundRight_nodesOf buses drivers r node hnode
    · exact boundRight_nodesOfAll buses drivers rs node hnode

end

/-! ### Single steps -/

def started (s : State π) (i k : Nat) (node : DeviceNode π) (driver : TermobDriver π) : State π :=
  { driverBind s i k node driver with events := s.events ++ bindingEvents s.driverDriverList (i, k) }

def boundNode (node : DeviceNode π) (k : Nat) (driver : TermobDriver π) : DeviceNode π :=
  { node with device := { node.device with driver := some k, boundDriverName := driver.name } }

section steps
variable {s : State π} {i k : Nat} {node : DeviceNode π} {driver : TermobDriver π}
  {probe : π → State π → State π}

theorem driverTryBind_bound (hnode : s.driverDeviceList[i]? = some node)
    (hbound : node.device.driver ≠ none) :
    driverTryBind probe s i k = s := by
  unfold driverTryBind
  rw [hnode]
  cases s.driverDriverList[k]? with
  | none => rfl
  | some driver => exact if_pos hbound

theorem driverTryBind_refused (hnode : s.driverDeviceList[i]? = some node)
    (hrefused : ∀ driver, s.driverDriverList[k]? = some driver →
      driverDeviceMatches driver node.device = false) :
    driverTryBind probe s i k = s := by
  unfold driverTryBind
  rw [hnode]
  cases hdriver : s.driverDriverList[k]? with
  | none => rfl
  | some driver =>
    dsimp only
    rw [if_pos (hrefused driver hdriver), ite_self]

theorem driverTryBind_accepted (hnode : s.driverDeviceList[i]? = some node)
    (hfree : node.device.driver = none) (hdriver : s.driverDriverList[k]? = some driver)
    (hmatch : driverDeviceMatches driver node.device = true) :
    driverTryBind probe s i k = (driver.probe.elim id probe) (started s i k node driver) := by
  have hevents : bindingEvents s.driverDriverList (i, k) =
      match driver.probe with
      | some _ => [.bound i k, .probed i k]
      | none => [.bound i k] := by
    rw [bindingEvents]
    dsimp only
    rw [hdriver, Option.bind_some]
  unfold driverTryBind
  rw [hnode, hdriver]
  dsimp only
  rw [if_neg (not_not.mpr hfree), if_neg (by rw [hmatch]; nofun), started, hevents]
  cases driver.probe with
  | none => rfl
  | some callback =>
    simp only [Option.elim, driverBind, List.append_assoc]
    rfl

theorem Booked.append (h : Booked s) (device : TermobDevice) (registers : π → List (Registration π)) :
    Booked (driverAppendDevice s device registers) := by
  obtain ⟨order, hevents, hnodup, hmem⟩ := h.order
  refine ⟨?_, h.drivers, ?_, ?_, order, hevents, hnodup, ?_⟩
  · rw [driverAppendDevice, List.length_append, h.devices]
    rfl
  · rw [driverAppendDevice, List.countP_append, ← h.bound]
    rfl
  · intro node hnode k hk
    rcases List.mem_append.mp hnode with hold | hlast
    · exact h.known node hold k hk
    · rw [List.mem_singleton.mp hlast] at hk
      cases hk
  · intro i k
    rw [hmem]
    constructor
    · rintro ⟨node, hnode, hk⟩
      refine ⟨node, ?_, hk⟩
      rw [driverAppendDevice, List.getElem?_append_left (List.getElem?_eq_some_iff.mp hnode).1]
      exact hnode
    · rintro ⟨node, hnode, hk⟩
      rw [driverAppendDevice, List.getElem?_append] at hnode
      split at hnode
      · exact ⟨node, hnode, hk⟩
      · rw [List.getElem?_singleton] at hnode
        split at hnode
        · obtain rfl := Option.some.inj hnode
          cases hk
        · cases hnode

theorem Booked.started (h : Booked s) (hnode : s.driverDeviceList[i]? = some node)
    (hfree : node.device.driver = none) (hdriver : s.driverDriverList[k]? = some driver) :
    Booked (started s i k node driver) := by
  obtain ⟨order, hevents, hnodup, hmem⟩ := h.order
  obtain ⟨hi, hat⟩ := List.getElem?_eq_some_iff.mp hnode
  have hlist : (Driver.started s i k node driver).driverDeviceList =
    s.driverDeviceList.set i (boundNode node k driver) := rfl
  refine ⟨?_, h.drivers, ?_, ?_, order ++ [(i, k)], ?_, ?_, ?_⟩
  · rw [hlist, List.length_set]
    exact h.devices
  · rw [hlist, List.countP_set hi, hat, hfree, ← h.bound]
    rfl
  · intro node' hnode' k' hk'
    rcases List.mem_or_eq_of_mem_set (hlist ▸ hnode') with hold | rfl
    · exact h.known node' hold k' hk'
    · obtain rfl := Option.some.inj hk'
      exact (List.getElem?_eq_some_iff.mp hdriver).1
  · change s.events ++ bindingEvents s.driverDriverList (i, k) = _
    rw [hevents, List.flatMap_append, List.flatMap_singleton]
    rfl
  · rw [List.map_append, List.nodup_append]
    refine ⟨hnodup, List.nodup_singleton _, ?_⟩
    rintro j hj j' hj' rfl
    rw [List.map_singleton, List.mem_singleton] at hj'
    subst hj'
    obtain ⟨⟨j, k'⟩, hin, rfl⟩ := List.mem_map.mp hj
    obtain ⟨node', hnode', hk'⟩ := (hmem _ _).mp hin
    -- the node is not bound yet, so it is in no earlier binding
    rw [hnode] at hnode'
    rw [← Option.some.inj hnode', hfree] at hk'
    cases hk'
  · intro j k'
    rw [List.mem_append, hmem, List.mem_singleton, Prod.mk.injEq, hlist, List.getElem?_set]
    by_cases hj : i = j
    · subst hj
      rw [if_pos rfl, if_pos hi, hnode]
      constructor
      · rintro (⟨node', hsame, hk'⟩ | ⟨_, rfl⟩)
        · rw [← Option.some.inj hsame, hfree] at hk'
          cases hk'
        · exact ⟨_, rfl, rfl⟩
      · rintro ⟨node', hsame, hk'⟩
        rw [← Option.some.inj hsame] at hk'
        exact Or.inr ⟨rfl, (Option.some.inj hk').symm⟩
    · rw [if_neg hj]
      constructor
      · rintro (hold | ⟨rfl, _⟩)
        · exact hold
        · exact absurd rfl hj
      · exact Or.inl

theorem boundRight_boundNode {drivers : List (TermobDriver π)} (hdriver : drivers[k]? = some driver)
    (hearliest : earliest drivers (released node.device) = some k) :
    BoundRight drivers (boundNode node k driver) := by
  refine ⟨hearliest.symm, ?_⟩
  change driver.name = ((some k).bind (drivers[·]?)).bind (·.name)
  rw [Option.bind_some, hdriver, Option.bind_some]

end steps

/-! ### The registration of a device -/

section devices
variable {s : State π} {i : Nat} {node : DeviceNode π} {probe : π → State π → State π}

theorem driverDriverLoop_add (a b k : Nat) (s : State π) :
    driverDriverLoop probe i (a + b) k s =
        driverDriverLoop probe i b (k + a) (driverDriverLoop probe i a k s) := by
  induction a generalizing k s with
  | zero => rw [Nat.zero_add, driverDriverLoop, Nat.add_zero]
  | succ a ih => rw [Nat.succ_add, driverDriverLoop, ih, driverDriverLoop, Nat.add_right_comm,
      Nat.add_assoc]

theorem driverDriverLoop_skip (n k : Nat) (hskip : ∀ j, k ≤ j → j < k + n → driverTryBind probe s i j = s) :
    driverDriverLoop probe i n k s = s := by
  induction n generalizing k with
  | zero => rfl
  | succ n ih =>
    rw [driverDriverLoop, hskip k le_rfl (by omega)]
    exact ih (k + 1) fun j hle hlt => hskip j (by omega) (by omega)

theorem driverDriverLoop_none (hnode : s.driverDeviceList[i]? = some node)
    (hearliest : earliest s.driverDriverList node.device = none) :
    driverDriverLoop probe i s.driverDriverList.length 0 s = s := by
  apply driverDriverLoop_skip
  intro j _ _
  refine driverTryBind_refused hnode fun driver hdriver => ?_
  exact List.findIdx?_eq_none_iff.mp hearliest driver (List.mem_of_getElem? hdriver)

/-- The drivers before the earliest that accepts the device refuse it, and those behind it find it bound. -/
theorem driverDriverLoop_some {k : Nat} (hnode : s.driverDeviceList[i]? = some node)
    (hearliest : earliest s.driverDriverList node.device = some k)
    (hbound : ∃ node', (driverTryBind probe s i k).driverDeviceList[i]? = some node' ∧
      node'.device.driver ≠ none) :
    driverDriverLoop probe i s.driverDriverList.length 0 s = driverTryBind probe s i k := by
  obtain ⟨hk, _, hfirst⟩ := List.findIdx?_eq_some_iff_getElem.mp hearliest
  obtain ⟨node', hnode', hdriver'⟩ := hbound
  have hskip : driverDriverLoop probe i k 0 s = s := by
    apply driverDriverLoop_skip
    intro j _ hj
    refine driverTryBind_refused hnode fun driver hdriver => ?_
    obtain ⟨hlt, rfl⟩ := List.getElem?_eq_some_iff.mp hdriver
    exact Bool.eq_false_of_not_eq_true (hfirst j (by omega))
  obtain ⟨rest, hrest⟩ : ∃ rest, s.driverDriverList.length = k + (rest + 1) :=
    ⟨s.driverDriverList.length - k - 1, by omega⟩
  rw [hrest, driverDriverLoop_add, hskip, Nat.zero_add, driverDriverLoop]
  exact driverDriverLoop_skip _ _ fun j _ _ => driverTryBind_bound hnode' hdriver'

/-- The nodes that the call of the probe of a driver appends. -/
def probeNodes (buses : List Bus) (drivers : List (TermobDriver π)) (driver : TermobDriver π)
    (registers : π → List (Registration π)) : List (DeviceNode π) :=
  match driver.probe with
  | some callback => nodesOfAll buses drivers (registers callback)
  | none => []

/-- What a probe does: it books what it registers, appends the nodes and touches no node that exists. -/
def ProbeOk (registers : π → List (Registration π)) (probe : π → State π → State π) : Prop :=
  ∀ callback t, Booked t → t.driverModelReady = true → Booked (probe callback t) ∧
    Grown t (probe callback t) (nodesOfAll t.driverBusList t.driverDriverList (registers callback))

theorem driverTryBind_binds {k : Nat} {driver : TermobDriver π} (h : Booked s)
    (hready : s.driverModelReady = true) (hprobe : ProbeOk node.registers probe)
    (hnode : s.driverDeviceList[i]? = some node) (hfree : node.device.driver = none)
    (hdriver : s.driverDriverList[k]? = some driver)
    (hmatch : driverDeviceMatches driver node.device = true) :
    Booked (driverTryBind probe s i k) ∧ Grown (started s i k node driver) (driverTryBind probe s i k)
      (probeNodes s.driverBusList s.driverDriverList driver node.registers) := by
  have hbooked := h.started hnode hfree hdriver
  rw [driverTryBind_accepted hnode hfree hdriver hmatch, probeNodes]
  cases driver.probe with
  | none => exact ⟨hbooked, Grown.refl _⟩
  | some callback => exact hprobe callback _ hbooked hready

theorem register_grown {device : TermobDevice} {registers : π → List (Registration π)} (h : Booked s)
    (hready : s.driverModelReady = true) (hname : device.name ≠ none) (hprobe : ProbeOk registers probe)
    {s' : State π}
    (hs' : s' = driverDriverLoop probe s.driverDeviceList.length s.driverDriverList.length 0
      (driverAppendDevice s device registers)) :
    Booked s' ∧ Grown s s' (nodesOf s.driverBusList s.driverDriverList (.mk device registers)) := by
  have hbooked := h.append device registers
  have hnode : (driverAppendDevice s device registers).driverDeviceList[s.driverDeviceList.length]? =
      some ⟨driverStoredDevice s.driverBusList device, registers⟩ := List.getElem?_concat_length
  rw [nodesOf, if_neg hname, bindTo, probeFor]
  cases hearliest : earliest s.driverDriverList (driverStoredDevice s.driverBusList device) with
  | none =>
    rw [show s.driverDriverList.length =
      (driverAppendDevice s device registers).driverDriverList.length from rfl,
      driverDriverLoop_none hnode hearliest] at hs'
    subst hs'
    exact ⟨hbooked, rfl, rfl, rfl, rfl, (List.append_nil _).symm⟩
  | some k =>
    obtain ⟨hk, hmatch, _⟩ := List.findIdx?_eq_some_iff_getElem.mp hearliest
    have hdriver : s.driverDriverList[k]? = some s.driverDriverList[k] := List.getElem?_eq_getElem hk
    generalize s.driverDriverList[k] = driver at hdriver hmatch
    obtain ⟨hbooked', hgrown⟩ := driverTryBind_binds hbooked hready hprobe hnode rfl hdriver hmatch
    have hlist : (started (driverAppendDevice s device registers) s.driverDeviceList.length k
        ⟨driverStoredDevice s.driverBusList device, registers⟩ driver).driverDeviceList =
        s.driverDeviceList ++ [boundNode
          ⟨driverStoredDevice s.driverBusList device, registers⟩ k driver] := by
      change (s.driverDeviceList ++ [_]).set s.driverDeviceList.length _ = _
      rw [List.set_append_right _ _ le_rfl, Nat.sub_self]
      rfl
    have hnodes := hgrown.nodes
    rw [hlist, List.append_assoc] at hnodes
    have hplace : (driverTryBind probe (driverAppendDevice s device registers) s.driverDeviceList.length
        k).driverDeviceList[s.driverDeviceList.length]? =
        some (boundNode ⟨driverStoredDevice s.driverBusList device, registers⟩ k driver) := by
      rw [hnodes, List.getElem?_append_right le_rfl, Nat.sub_self]
      rfl
    rw [show s.driverDriverList.length =
      (driverAppendDevice s device registers).driverDriverList.length from rfl,
      driverDriverLoop_some hnode hearliest ⟨_, hplace, nofun⟩] at hs'
    subst hs'
    have hevents := hgrown.events
    rw [hlist, List.length_append, List.length_singleton] at hevents
    rw [Option.bind_some, hdriver, Option.bind_some, Option.bind_some]
    refine ⟨hbooked', hgrown.ready, hgrown.buses, hgrown.drivers, hnodes, ?_⟩
    rw [hevents, nodeEvents, ← List.append_assoc]
    rfl

end devices

mutual

theorem driverRegisterDevice_spec :
    ∀ (r : Registration π) (s : State π), Booked s → s.driverModelReady = true →
    Booked (driverRegisterDevice r s).2 ∧
      Grown s (driverRegisterDevice r s).2 (nodesOf s.driverBusList s.driverDriverList r)
  | .mk device registers, s, h, hready => by
    rw [driverRegisterDevice]
    by_cases hname : device.name = none
    · rw [if_pos (Or.inr hname), nodesOf, if_pos hname]
      exact ⟨h, Grown.refl s⟩
    · rw [if_neg (by rw [hready]; exact not_or.mpr ⟨nofun, hname⟩)]
      exact register_grown h hready hname
        (fun callback t ht hready => driverRegisterDevices_spec (registers callback) t ht hready) rfl

theorem driverRegisterDevices_spec : ∀ (rs : List (Registration π)) (s : State π), Booked s →
    s.driverModelReady = true → Booked (driverRegisterDevices rs s) ∧
      Grown s (driverRegisterDevices rs s) (nodesOfAll s.driverBusList s.driverDriverList rs)
  | [], s, h, _ => by
    rw [driverRegisterDevices, nodesOfAll]
    exact ⟨h, Grown.refl s⟩
  | r :: rs, s, h, hready => by
    rw [driverRegisterDevices, nodesOfAll]
    obtain ⟨hbooked, hgrown⟩ := driverRegisterDevice_spec r s h hready
    obtain ⟨hbooked', hgrown'⟩ := driverRegisterDevices_spec rs _ hbooked (hgrown.ready.trans hready)
    rw [hgrown.buses, hgrown.drivers] at hgrown'
    exact ⟨hbooked', hgrown.trans hgrown'⟩

end

/-! ### The registration of a driver -/

theorem probeOk_driverProbe {s : State π} {i : Nat} {node : DeviceNode π}
    (hnode : s.driverDeviceList[i]? = some node) :
    ProbeOk node.registers (driverProbe s i) := by
  intro callback t ht hready
  unfold driverProbe
  rw [hnode]
  exact driverRegisterDevices_spec (node.registers callback) t ht hready

section drivers
variable {buses : List Bus} {drivers : List (TermobDriver π)} {driver : TermobDriver π}

theorem earliest_concat (drivers : List (TermobDriver π)) (driver : TermobDriver π)
    (device : TermobDevice) :
    earliest (drivers ++ [driver]) device =
      (earliest drivers device).or
        (if driverDeviceMatches driver device then some drivers.length else none) := by
  unfold earliest
  rw [List.findIdx?_append, List.findIdx?_singleton]
  congr 1
  cases driverDeviceMatches driver device with
  | true => simp
  | false => simp

theorem BoundRight.concat {node : DeviceNode π} (h : BoundRight drivers node)
    (hkept : node.device.driver ≠ none ∨ driverDeviceMatches driver (released node.device) = false) :
    BoundRight (drivers ++ [driver]) node := by
  have hdriver := h.driver
  refine ⟨?_, ?_⟩
  · rw [earliest_concat, ← hdriver]
    rcases hkept with hbound | hrefused
    · obtain ⟨k, hk⟩ := Option.ne_none_iff_exists'.mp hbound
      rw [hk, Option.some_or]
    · rw [hrefused, if_neg (by nofun), Option.or_none]
  · rw [h.name]
    cases hk : node.device.driver with
    | none => rfl
    | some k =>
      rw [hk] at hdriver
      obtain ⟨hlt, _⟩ := List.findIdx?_eq_some_iff_getElem.mp hdriver.symm
      rw [Option.bind_some, Option.bind_some, List.getElem?_append_left hlt]

theorem BoundRight.released_eq {node : DeviceNode π} (h : BoundRight drivers node)
    (hfree : node.device.driver = none) :
    released node.device = node.device := by
  have hname := h.name
  rw [hfree] at hname
  obtain ⟨device, registers⟩ := node
  obtain ⟨⟩ := device
  cases hfree
  cases hname
  rfl

/-- The new driver, registered behind `drivers`, takes the device of the node. -/
def Takes (driver : TermobDriver π) (node : DeviceNode π) : Prop :=
  node.device.driver = none ∧ driverDeviceMatches driver node.device = true

instance (driver : TermobDriver π) : DecidablePred (Takes driver) := fun _ =>
    inferInstanceAs (Decidable (_ ∧ _))

def reboundNode (drivers : List (TermobDriver π)) (driver : TermobDriver π) (node : DeviceNode π) :
    DeviceNode π :=
  if Takes driver node then boundNode node drivers.length driver else node

/-- The nodes that are appended when the loop for the new driver comes to the node. -/
def lateNodes (buses : List Bus) (drivers : List (TermobDriver π)) (driver : TermobDriver π)
    (node : DeviceNode π) : List (DeviceNode π) :=
  if Takes driver node then probeNodes buses (drivers ++ [driver]) driver node.registers else []

theorem BoundRight.rebound {node : DeviceNode π} (h : BoundRight drivers node) :
    BoundRight (drivers ++ [driver]) (reboundNode drivers driver node) := by
  unfold reboundNode
  by_cases htakes : Takes driver node
  · have hnone := h.driver
    rw [htakes.1] at hnone
    rw [if_pos htakes]
    refine boundRight_boundNode List.getElem?_concat_length ?_
    rw [earliest_concat, ← hnone, Option.none_or, if_pos (by rw [h.released_eq htakes.1]; exact htakes.2)]
  · rw [if_neg htakes]
    apply h.concat
    by_cases hfree : node.device.driver = none
    · rw [h.released_eq hfree]
      exact Or.inr (Bool.eq_false_of_not_eq_true fun hmatch => htakes ⟨hfree, hmatch⟩)
    · exact Or.inl hfree

theorem reboundNode_later (drivers : List (TermobDriver π)) (driver : TermobDriver π)
    (node : DeviceNode π) :
    (reboundNode drivers driver node).registers = node.registers ∧
      released (reboundNode drivers driver node).device = released node.device ∧
      (node.device.driver ≠ none → reboundNode drivers driver node = node) := by
  unfold reboundNode
  by_cases htakes : Takes driver node
  · rw [if_pos htakes]
    exact ⟨rfl, rfl, fun hbound => absurd htakes.1 hbound⟩
  · rw [if_neg htakes]
    exact ⟨rfl, rfl, fun _ => rfl⟩

theorem driverTryBind_kept {s : State π} {i k : Nat} {node : DeviceNode π} {probe : π → State π → State π}
    (hnode : s.driverDeviceList[i]? = some node) (hdriver : s.driverDriverList[k]? = some driver)
    (hkept : ¬Takes driver node) : driverTryBind probe s i k = s := by
  by_cases hfree : node.device.driver = none
  · refine driverTryBind_refused hnode fun driver' hdriver' => ?_
    rw [hdriver] at hdriver'
    rw [← Option.some.inj hdriver']
    exact Bool.eq_false_of_not_eq_true fun hmatch => hkept ⟨hfree, hmatch⟩
  · exact driverTryBind_bound hnode hfree

/-- The loop has passed the nodes `passed` and comes to the nodes `left`; what the probes have
appended follows them. -/
structure Visiting (buses : List Bus) (drivers : List (TermobDriver π)) (driver : TermobDriver π)
    (passed left : List (DeviceNode π)) (s : State π) : Prop where
  booked : Booked s
  ready : s.driverModelReady = true
  busList : s.driverBusList = buses
  list : s.driverDriverList = drivers ++ [driver]
  nodes : s.driverDeviceList = passed.map (reboundNode drivers driver) ++
    (left ++ passed.flatMap (lateNodes buses drivers driver))

variable {passed left : List (DeviceNode π)} {node : DeviceNode π} {s : State π}

theorem Visiting.driver_at (h : Visiting buses drivers driver passed left s) :
    s.driverDriverList[drivers.length]? = some driver := by
  rw [h.list]
  exact List.getElem?_concat_length

theorem Visiting.visit (h : Visiting buses drivers driver passed (node :: left) s) :
    Visiting buses drivers driver (passed ++ [node]) left
      (driverTryBind (driverProbe s passed.length) s passed.length drivers.length) := by
  have hnode : s.driverDeviceList[passed.length]? = some node := by
    rw [h.nodes, List.getElem?_append_right (by rw [List.length_map]), List.length_map, Nat.sub_self]
    rfl
  by_cases htakes : Takes driver node
  · obtain ⟨hbooked, hgrown⟩ :=
      driverTryBind_binds h.booked h.ready (probeOk_driverProbe hnode) hnode htakes.1 h.driver_at htakes.2
    rw [h.busList, h.list] at hgrown
    refine ⟨hbooked, hgrown.ready.trans h.ready, hgrown.buses.trans h.busList,
      hgrown.drivers.trans h.list, ?_⟩
    have hset : (started s passed.length drivers.length node driver).driverDeviceList =
        s.driverDeviceList.set passed.length (boundNode node drivers.length driver) := rfl
    rw [hgrown.nodes, hset, h.nodes, List.set_append_right _ _ (by rw [List.length_map]),
      List.length_map, Nat.sub_self,
      List.map_append, List.flatMap_append, List.map_singleton, List.flatMap_singleton, reboundNode,
      if_pos htakes, lateNodes, if_pos htakes]
    simp
  · rw [driverTryBind_kept hnode h.driver_at htakes]
    refine ⟨h.booked, h.ready, h.busList, h.list, ?_⟩
    rw [h.nodes, List.map_append, List.flatMap_append, List.map_singleton, List.flatMap_singleton,
      reboundNode, if_neg htakes, lateNodes, if_neg htakes]
    simp

theorem not_takes_of_boundRight {k : Nat} (h : BoundRight drivers node)
    (hdriver : drivers[k]? = some driver) :
    ¬Takes driver node := by
  rintro ⟨hfree, hmatch⟩
  have hnone := h.driver
  rw [hfree, h.released_eq hfree] at hnone
  have hrefused := List.findIdx?_eq_none_iff.mp hnone.symm driver (List.mem_of_getElem? hdriver)
  rw [hmatch] at hrefused
  cases hrefused

theorem driverDeviceLoop_rest {k i rounds : Nat} (hright : ∀ node ∈ s.driverDeviceList.drop i,
    BoundRight s.driverDriverList node) (hdriver : s.driverDriverList[k]? = some driver)
    (hrounds : s.driverDeviceList.length ≤ i + rounds) : driverDeviceLoop k rounds i s = some s := by
  induction rounds generalizing i with
  | zero => rw [driverDeviceLoop, if_neg (by omega)]
  | succ rounds ih =>
    rw [driverDeviceLoop]
    split
    next hin =>
      have hnode : s.driverDeviceList[i]? = some s.driverDeviceList[i] := List.getElem?_eq_getElem hin
      rw [List.drop_eq_getElem_cons hin] at hright
      rw [driverTryBind_kept hnode hdriver
        (not_takes_of_boundRight (hright _ List.mem_cons_self) hdriver)]
      exact ih (fun node hmem => hright node (List.mem_cons_of_mem _ hmem)) (by omega)
    next => rfl

theorem boundRight_lateNodes : ∀ node' ∈ lateNodes buses drivers driver node,
    BoundRight (drivers ++ [driver]) node' := by
  intro node' hmem
  unfold lateNodes probeNodes at hmem
  split at hmem
  · split at hmem
    · exact boundRight_nodesOfAll _ _ _ node' hmem
    · cases hmem
  · cases hmem

theorem Visiting.loop (h : Visiting buses drivers driver passed left s) :
    ∃ n s', (∀ rounds, n ≤ rounds → driverDeviceLoop drivers.length rounds passed.length s = some s') ∧
      Visiting buses drivers driver (passed ++ left) [] s' := by
  induction left generalizing passed s with
  | nil =>
    refine ⟨s.driverDeviceList.length, s, fun rounds hrounds => ?_, by rwa [List.append_nil]⟩
    refine driverDeviceLoop_rest ?_ h.driver_at (by omega)
    intro node hmem
    rw [h.nodes, List.drop_append_of_le_length (by rw [List.length_map]),
      List.drop_of_length_le (by rw [List.length_map]), List.nil_append, List.nil_append] at hmem
    obtain ⟨_, _, hlate⟩ := List.mem_flatMap.mp hmem
    rw [h.list]
    exact boundRight_lateNodes node hlate
  | cons node left ih =>
    have hin : passed.length < s.driverDeviceList.length := by
      rw [h.nodes, List.length_append, List.length_map, List.length_append, List.length_cons]
      omega
    obtain ⟨n, s', hloop, hend⟩ := ih h.visit
    rw [List.append_assoc, List.singleton_append] at hend
    refine ⟨n + 1, s', fun rounds hrounds => ?_, hend⟩
    obtain ⟨rounds, rfl⟩ : ∃ r, rounds = r + 1 := ⟨rounds - 1, by omega⟩
    rw [driverDeviceLoop, if_pos hin]
    rw [List.length_append, List.length_singleton] at hloop
    exact hloop rounds (by omega)

/-- What a further driver makes of a device list. -/
def rebound (buses : List Bus) (drivers : List (TermobDriver π)) (driver : TermobDriver π)
    (nodes : List (DeviceNode π)) : List (DeviceNode π) :=
  nodes.map (reboundNode drivers driver) ++ nodes.flatMap (lateNodes buses drivers driver)

theorem rebound_append (nodes nodes' : List (DeviceNode π)) :
    (rebound buses drivers driver (nodes ++ nodes')).Perm
      (rebound buses drivers driver nodes ++ rebound buses drivers driver nodes') := by
  simp only [rebound, List.map_append, List.flatMap_append, List.append_assoc]
  refine List.Perm.append_left _ ?_
  rw [← List.append_assoc, ← List.append_assoc]
  exact List.Perm.append_right _ List.perm_append_comm

theorem rebound_perm {nodes nodes' : List (DeviceNode π)} (h : nodes.Perm nodes') :
    (rebound buses drivers driver nodes).Perm (rebound buses drivers driver nodes') :=
  (h.map _).append (h.flatMap_right _)

end drivers

/-! ### The nodes for a further driver -/

section further
variable {buses : List Bus} {drivers : List (TermobDriver π)} {driver : TermobDriver π}

theorem probeFor_concat_some {device : TermobDevice} {k : Nat} (h : earliest drivers device = some k) :
    bindTo (drivers ++ [driver]) device = bindTo drivers device ∧
      probeFor (drivers ++ [driver]) device = probeFor drivers device := by
  obtain ⟨hk, _, _⟩ := List.findIdx?_eq_some_iff_getElem.mp h
  rw [bindTo, bindTo, probeFor, probeFor, earliest_concat, h, Option.some_or, Option.bind_some,
    Option.bind_some, List.getElem?_append_left hk]
  exact ⟨rfl, rfl⟩

mutual

/-- A registration made before the new driver has, with it, the nodes that the loop for the driver
leaves. -/
theorem nodesOf_concat : ∀ r : Registration π,
    (nodesOf buses (drivers ++ [driver]) r).Perm (rebound buses drivers driver (nodesOf buses drivers r))
  | .mk device registers => by
    rw [nodesOf, nodesOf]
    by_cases hname : device.name = none
    · rw [if_pos hname, if_pos hname]
      exact List.Perm.nil
    rw [if_neg hname, if_neg hname]
    cases hearliest : earliest drivers (driverStoredDevice buses device) with
    | some k =>
      obtain ⟨hbind, hprobe⟩ := @probeFor_concat_some π drivers driver _ k hearliest
      have hkept : ¬Takes driver ⟨bindTo drivers (driverStoredDevice buses device), registers⟩ := by
        rintro ⟨hfree, _⟩
        change earliest drivers _ = none at hfree
        rw [hearliest] at hfree
        cases hfree
      rw [hbind, hprobe]
      refine List.Perm.trans ?_ (rebound_append [_] _).symm
      have hnode : rebound buses drivers driver [⟨bindTo drivers (driverStoredDevice buses device),
          registers⟩] = [⟨bindTo drivers (driverStoredDevice buses device), registers⟩] := by
        rw [rebound, List.map_singleton, List.flatMap_singleton, reboundNode, if_neg hkept,
          lateNodes, if_neg hkept]
        rfl
      rw [hnode, List.singleton_append]
      refine List.Perm.cons _ ?_
      cases probeFor drivers (driverStoredDevice buses device) with
      | none => exact List.Perm.nil
      | some callback => exact nodesOfAll_concat (registers callback)
    | none =>
      have hfree : bindTo drivers (driverStoredDevice buses device) = driverStoredDevice buses device := by
        rw [bindTo, hearliest]
        rfl
      rw [hfree, show probeFor drivers (driverStoredDevice buses device) = none by
        rw [probeFor, hearliest]; rfl]
      dsimp only
      rw [rebound, List.map_singleton, List.flatMap_singleton, reboundNode, lateNodes]
      by_cases hmatch : driverDeviceMatches driver (driverStoredDevice buses device) = true
      · rw [if_pos ⟨rfl, hmatch⟩, if_pos ⟨rfl, hmatch⟩]
        have hlast : earliest (drivers ++ [driver]) (driverStoredDevice buses device) =
            some drivers.length := by
          rw [earliest_concat, hearliest, Option.none_or, if_pos hmatch]
        rw [bindTo, probeFor, hlast, Option.bind_some, List.getElem?_concat_length,
          Option.bind_some, Option.bind_some]
        exact List.Perm.refl _
      · have htakes : ¬Takes driver ⟨driverStoredDevice buses device, registers⟩ := fun h => hmatch h.2
        rw [if_neg htakes, if_neg htakes]
        have hnone : earliest (drivers ++ [driver]) (driverStoredDevice buses device) = none := by
          rw [earliest_concat, hearliest, Option.none_or, if_neg hmatch]
        rw [bindTo, probeFor, hnone]
        exact List.Perm.refl _

theorem nodesOfAll_concat : ∀ rs : List (Registration π),
    (nodesOfAll buses (drivers ++ [driver]) rs).Perm
      (rebound buses drivers driver (nodesOfAll buses drivers rs))
  | [] => List.Perm.nil
  | r :: rs => by
    rw [nodesOfAll, nodesOfAll]
    exact ((nodesOf_concat r).append (nodesOfAll_concat rs)).trans (rebound_append _ _).symm

end

theorem nodesOfAll_append (rs rs' : List (Registration π)) :
    nodesOfAll buses drivers (rs ++ rs') = nodesOfAll buses drivers rs ++ nodesOfAll buses drivers rs' := by
  induction rs with
  | nil => rfl
  | cons r rs ih => rw [List.cons_append, nodesOfAll, nodesOfAll, ih, List.append_assoc]

end further

/-! ### Runs -/

/-- The state between two calls. -/
structure Quiet (s : State π) : Prop where
  ready : s.driverModelReady = true
  booked : Booked s
  settled : ∀ node ∈ s.driverDeviceList, BoundRight s.driverDriverList node

/-- The device list is that of the registrations. -/
def Registered (rs : List (Registration π)) (s : State π) : Prop :=
  s.driverDeviceList.Perm (nodesOfAll s.driverBusList s.driverDriverList rs)

theorem Booked.appendDriver {s : State π} (h : Booked s) (driver : TermobDriver π) :
    Booked (driverAppendDriver s driver) := by
  obtain ⟨order, hevents, hnodup, hmem⟩ := h.order
  refine ⟨h.devices, ?_, h.bound, ?_, order, ?_, hnodup, hmem⟩
  · rw [driverAppendDriver, List.length_append, h.drivers]
    rfl
  · intro node hnode k hk
    rw [driverAppendDriver, List.length_append]
    exact Nat.lt_add_right _ (h.known node hnode k hk)
  · change s.events = _
    rw [hevents]
    apply List.flatMap_congr
    rintro ⟨i, k⟩ hb
    obtain ⟨node, hnode, hk⟩ := (hmem i k).mp hb
    have hlt := h.known node (List.mem_of_getElem? hnode) k hk
    rw [bindingEvents, bindingEvents, driverAppendDriver, List.getElem?_append_left hlt]

theorem Quiet.registerDriver {s : State π} (h : Quiet s) {driver : TermobDriver π}
    (hname : driver.name ≠ none) :
    ∃ n s', (∀ rounds, n ≤ rounds → driverRegisterDriver rounds s driver = some (true, s')) ∧ Quiet s' ∧
      Later s s' ∧ s'.driverDriverList = s.driverDriverList ++ [driver] ∧
      s'.driverDeviceList = rebound s.driverBusList s.driverDriverList driver s.driverDeviceList := by
  have hon : ¬(s.driverModelReady = false ∨ driver.name = none) := by
    rw [h.ready]
    exact not_or.mpr ⟨nofun, hname⟩
  have hstart : Visiting s.driverBusList s.driverDriverList driver [] s.driverDeviceList
      (driverAppendDriver s driver) := by
    refine ⟨h.booked.appendDriver driver, h.ready, rfl, rfl, ?_⟩
    rw [List.map_nil, List.flatMap_nil, List.append_nil, List.nil_append]
    rfl
  obtain ⟨n, s', hloop, hend⟩ := hstart.loop
  rw [List.nil_append] at hend
  have hnodes := hend.nodes
  rw [List.nil_append] at hnodes
  refine ⟨n, s', fun rounds hrounds => ?_, ⟨hend.ready, hend.booked, ?_⟩, ⟨?_, hend.busList, ?_⟩,
    hend.list, hnodes⟩
  · rw [driverRegisterDriver, if_neg hon]
    exact congrArg (Option.map (true, ·)) (hloop rounds hrounds)
  · intro node hmem
    rw [hend.list]
    rw [hnodes] at hmem
    rcases List.mem_append.mp hmem with hold | hnew
    · obtain ⟨old, hin, rfl⟩ := List.mem_map.mp hold
      exact (h.settled old hin).rebound
    · obtain ⟨_, _, hlate⟩ := List.mem_flatMap.mp hnew
      exact boundRight_lateNodes node hlate
  · rw [hend.ready, h.ready]
  · intro i node hnode
    refine ⟨reboundNode s.driverDriverList driver node, ?_, reboundNode_later _ _ node⟩
    rw [hnodes, List.getElem?_append_left
      (by rw [List.length_map]; exact (List.getElem?_eq_some_iff.mp hnode).1),
      List.getElem?_map, hnode]
    rfl

theorem Quiet.registerDevice {s : State π} (h : Quiet s) (r : Registration π) :
    Quiet (driverRegisterDevice r s).2 ∧
      Grown s (driverRegisterDevice r s).2 (nodesOf s.driverBusList s.driverDriverList r) := by
  obtain ⟨hbooked, hgrown⟩ := driverRegisterDevice_spec r s h.booked h.ready
  refine ⟨⟨hgrown.ready.trans h.ready, hbooked, ?_⟩, hgrown⟩
  intro node hmem
  rw [hgrown.nodes] at hmem
  rw [hgrown.drivers]
  rcases List.mem_append.mp hmem with hold | hlast
  · exact h.settled node hold
  · exact boundRight_nodesOf _ _ r node hlast

inductive Call (π : Type) where
  | device (r : Registration π)
  | driver (driver : TermobDriver π)

def step (rounds : Nat) (s : State π) : Call π → Option (State π)
  | .device r => some (driverRegisterDevice r s).2
  | .driver driver => (driverRegisterDriver rounds s driver).map Prod.snd

/-- The calls, made after `driver_model_init`, all return, and leave the state `s`. -/
def Returns (calls : List (Call π)) (s : State π) : Prop :=
  ∃ n, ∀ rounds, n ≤ rounds → run (step rounds) (driverModelInit true) calls = some s

def driversOf : List (Call π) → List (TermobDriver π)
  | [] => []
  | .device _ :: calls => driversOf calls
  | .driver driver :: calls => (if driver.name = none then [] else [driver]) ++ driversOf calls

def devicesOf : List (Call π) → List (Registration π)
  | [] => []
  | .device r :: calls => r :: devicesOf calls
  | .driver _ :: calls => devicesOf calls

/-- The device at `i` is bound to the driver at `k`. -/
def BoundTo (s : State π) (i k : Nat) : Prop := (s.driverDeviceList[i]?).bind (·.device.driver) = some k

instance (s : State π) (i k : Nat) : Decidable (BoundTo s i k) := inferInstanceAs (Decidable (_ = _))

/-- Every device that is bound was bound once, and the probe of its driver, if there is one, was
called once for it. No other probe was called. -/
structure ProbedOnce (s : State π) : Prop where
  bound : ∀ i k, s.events.count (.bound i k) = if BoundTo s i k then 1 else 0
  probed : ∀ i k, s.events.count (.probed i k) =
    if BoundTo s i k ∧ ((s.driverDriverList[k]?).bind (·.probe)).isSome then 1 else 0

/-- What holds after the calls. The devices are those that the calls and the probes registered, each
with one node, bound to the earliest driver of its bus type that accepts it; each binding was made
once, with one call of the probe, and the counter counts them. -/
structure Canonical (calls : List (Call π)) (s : State π) : Prop where
  drivers : s.driverDriverList = driversOf calls
  devices : s.driverDeviceList.Perm (nodesOfAll s.driverBusList (driversOf calls) (devicesOf calls))
  settled : ∀ node ∈ s.driverDeviceList, BoundRight (driversOf calls) node
  probes : ProbedOnce s
  booked : Booked s

theorem count_bindingEvents (drivers : List (TermobDriver π)) (b : Nat × Nat) (i k : Nat) :
    (bindingEvents drivers b).count (.bound i k) = (if b = (i, k) then 1 else 0) ∧
      (bindingEvents drivers b).count (.probed i k) =
        if b = (i, k) ∧ ((drivers[k]?).bind (·.probe)).isSome then 1 else 0 := by
  obtain ⟨j, l⟩ := b
  rw [bindingEvents]
  by_cases hb : j = i ∧ l = k
  · obtain ⟨rfl, rfl⟩ := hb
    cases (drivers[l]?).bind (·.probe) with
    | none => simp
    | some callback => simp
  · have hne : ¬((j, l) = (i, k)) := by simpa using hb
    cases (drivers[l]?).bind (·.probe) with
    | none => simp [hb]
    | some callback => simp [hb]

theorem count_events (drivers : List (TermobDriver π)) (order : List (Nat × Nat)) (i k : Nat) :
    (order.flatMap (bindingEvents drivers)).count (.bound i k) = order.count (i, k) ∧
      (order.flatMap (bindingEvents drivers)).count (.probed i k) =
        if ((drivers[k]?).bind (·.probe)).isSome then order.count (i, k) else 0 := by
  induction order with
  | nil => simp
  | cons b order ih =>
    obtain ⟨hbound, hprobed⟩ := count_bindingEvents drivers b i k
    rw [List.flatMap_cons, List.count_append, List.count_append, hbound, hprobed, ih.1, ih.2,
      List.count_cons]
    by_cases hb : b = (i, k)
    · by_cases hcallback : ((drivers[k]?).bind (·.probe)).isSome
      · simp [hb, hcallback, Nat.add_comm]
      · simp [hb, hcallback, Nat.add_comm]
    · simp [hb]

theorem Booked.probedOnce {s : State π} (h : Booked s) : ProbedOnce s := by
  obtain ⟨order, hevents, hnodup, hmem⟩ := h.order
  have hcount : ∀ i k, order.count (i, k) = if BoundTo s i k then 1 else 0 := by
    intro i k
    rw [(List.Nodup.of_map _ hnodup).count]
    congr 1
    rw [hmem, BoundTo, Option.bind_eq_some_iff]
  refine ⟨fun i k => ?_, fun i k => ?_⟩
  · rw [hevents, (count_events ..).1, hcount]
  · rw [hevents, (count_events ..).2, hcount]
    by_cases hbound : BoundTo s i k
    · simp [hbound]
    · simp [hbound]

theorem Returns.unique {calls : List (Call π)} {s s' : State π} (h : Returns calls s)
    (h' : Returns calls s') :
    s = s' := by
  obtain ⟨n, hn⟩ := h
  obtain ⟨n', hn'⟩ := h'
  exact Option.some.inj ((hn (max n n') (le_max_left _ _)).symm.trans (hn' (max n n') (le_max_right _ _)))

theorem Quiet.step {rs : List (Registration π)} {s : State π} (h : Quiet s) (hrs : Registered rs s)
    (call : Call π) :
    ∃ n s', (∀ rounds, n ≤ rounds → Driver.step rounds s call = some s') ∧ Quiet s' ∧ Later s s' ∧
      s'.driverDriverList = s.driverDriverList ++ driversOf [call] ∧
      Registered (rs ++ devicesOf [call]) s' := by
  cases call with
  | device r =>
    obtain ⟨hquiet, hgrown⟩ := h.registerDevice r
    refine ⟨0, _, fun _ _ => rfl, hquiet, hgrown.later, ?_, ?_⟩
    · rw [hgrown.drivers]
      exact (List.append_nil _).symm
    · rw [Registered, hgrown.nodes, hgrown.buses, hgrown.drivers, nodesOfAll_append, devicesOf,
        devicesOf, nodesOfAll, nodesOfAll, List.append_nil]
      exact hrs.append_right _
  | driver driver =>
    rw [devicesOf, devicesOf, List.append_nil, driversOf, driversOf, List.append_nil]
    by_cases hname : driver.name = none
    · rw [if_pos hname, List.append_nil]
      refine ⟨0, s, fun rounds _ => ?_, h, Later.refl s, rfl, hrs⟩
      rw [Driver.step, driverRegisterDriver, if_pos (Or.inr hname)]
      rfl
    · rw [if_neg hname]
      obtain ⟨n, s', hreturns, hquiet, hlater, hdrivers, hnodes⟩ := h.registerDriver hname
      refine ⟨n, s', fun rounds hrounds => ?_, hquiet, hlater, hdrivers, ?_⟩
      · rw [Driver.step, hreturns rounds hrounds]
        rfl
      · rw [Registered, hnodes, hdrivers, hlater.buses]
        exact (rebound_perm hrs).trans (nodesOfAll_concat rs).symm

theorem driversOf_append (calls calls' : List (Call π)) :
    driversOf (calls ++ calls') = driversOf calls ++ driversOf calls' := by
  induction calls with
  | nil => rfl
  | cons call calls ih =>
    cases call with
    | device r => exact ih
    | driver driver => rw [List.cons_append, driversOf, driversOf, ih, List.append_assoc]

theorem devicesOf_append (calls calls' : List (Call π)) :
    devicesOf (calls ++ calls') = devicesOf calls ++ devicesOf calls' := by
  induction calls with
  | nil => rfl
  | cons call calls ih =>
    cases call with
    | device r => rw [List.cons_append, devicesOf, devicesOf, ih, List.cons_append]
    | driver driver => exact ih

theorem Quiet.run (calls : List (Call π)) {rs : List (Registration π)} {s : State π} (h : Quiet s)
    (hrs : Registered rs s) :
    ∃ n s', (∀ rounds, n ≤ rounds → Runs.run (Driver.step rounds) s calls = some s') ∧ Quiet s' ∧
      Later s s' ∧ s'.driverDriverList = s.driverDriverList ++ driversOf calls ∧
      Registered (rs ++ devicesOf calls) s' := by
  induction calls generalizing rs s with
  | nil => exact ⟨0, s, fun _ _ => rfl, h, Later.refl s, (List.append_nil _).symm,
      by rwa [devicesOf, List.append_nil]⟩
  | cons call calls ih =>
    obtain ⟨n, s₁, hstep, hquiet, hlater, hdrivers, hrs₁⟩ := h.step hrs call
    obtain ⟨n', s', hrun, hquiet', hlater', hdrivers', hrs'⟩ := ih hquiet hrs₁
    rw [hdrivers, List.append_assoc, ← driversOf_append, List.singleton_append] at hdrivers'
    rw [List.append_assoc, ← devicesOf_append, List.singleton_append] at hrs'
    refine ⟨max n n', s', fun rounds hrounds => ?_, hquiet', hlater.trans hlater', hdrivers', hrs'⟩
    rw [Runs.run, hstep rounds (le_trans (le_max_left _ _) hrounds), Option.bind_some]
    exact hrun rounds (le_trans (le_max_right _ _) hrounds)

theorem quiet_of_no_devices {s : State π} (hready : s.driverModelReady = true)
    (hlist : s.driverDeviceList = []) (hevents : s.events = [])
    (hdevices : s.driverDeviceCountValue = 0) (hbound : s.driverBoundCountValue = 0)
    (hdrivers : s.driverDriverCountValue = s.driverDriverList.length) : Quiet s := by
  have hnone : ∀ node, node ∉ s.driverDeviceList := by
    rw [hlist]
    exact fun _ => List.not_mem_nil
  refine ⟨hready, ⟨by rw [hdevices, hlist, List.length_nil], hdrivers,
    by rw [hbound, hlist, List.countP_nil],
    fun node hnode => absurd hnode (hnone node), [], hevents, List.nodup_nil, ?_⟩,
    fun node hnode => absurd hnode (hnone node)⟩
  intro i k
  refine ⟨fun hmem => absurd hmem List.not_mem_nil, ?_⟩
  rintro ⟨node, hnode, _⟩
  exact absurd (List.mem_of_getElem? hnode) (hnone node)

theorem quiet_init : Quiet (driverModelInit true : State π) := quiet_of_no_devices rfl rfl rfl rfl rfl rfl

theorem registered_init : Registered [] (driverModelInit true : State π) := List.Perm.nil

theorem returns_canonical (calls : List (Call π)) : ∃ s, Returns calls s ∧ Canonical calls s := by
  obtain ⟨n, s, hrun, hquiet, _, hdrivers, hrs⟩ := quiet_init.run calls registered_init
  have hlist : s.driverDriverList = driversOf calls := hdrivers
  rw [List.nil_append, Registered, hlist] at hrs
  exact ⟨s, ⟨n, hrun⟩, hlist, hrs, hlist ▸ hquiet.settled, hquiet.booked.probedOnce, hquiet.booked⟩

/-- Every sequence of registrations returns, in a canonical state. A node that is bound after some
of the calls is the same after all of them. And it does not matter whether a device comes before or
after a driver: after any calls that register the same drivers in the same order, the same device
has the same driver. -/
theorem driver_binding_canonical (calls : List (Call π)) :
    ∃ s, Returns calls s ∧ Canonical calls s ∧
      (∀ earlier later, calls = earlier ++ later → ∃ s₁, Returns earlier s₁ ∧
        ∀ (i : Nat) (node : DeviceNode π), s₁.driverDeviceList[i]? = some node → node.device.driver ≠ none →
          s.driverDeviceList[i]? = some node) ∧
      ∀ calls' s', Returns calls' s' → driversOf calls' = driversOf calls →
        ∀ node ∈ s.driverDeviceList, ∀ node' ∈ s'.driverDeviceList,
          released node'.device = released node.device → node'.device.driver = node.device.driver := by
  obtain ⟨s, hreturns, hcanonical⟩ := returns_canonical calls
  refine ⟨s, hreturns, hcanonical, ?_, ?_⟩
  · rintro earlier later rfl
    obtain ⟨n, s₁, hrun, hquiet, _, _, hrs⟩ := quiet_init.run earlier registered_init
    obtain ⟨n', s₂, hrun', _, hlater, _⟩ := hquiet.run later hrs
    have hall : Returns (earlier ++ later) s₂ := by
      refine ⟨max n n', fun rounds hrounds => ?_⟩
      rw [run_append, hrun rounds (le_trans (le_max_left _ _) hrounds), Option.bind_some]
      exact hrun' rounds (le_trans (le_max_right _ _) hrounds)
    obtain rfl := hreturns.unique hall
    refine ⟨s₁, ⟨n, hrun⟩, fun i node hnode hbound => ?_⟩
    obtain ⟨node', hnode', _, _, hkeep⟩ := hlater.nodes i node hnode
    rw [hnode', hkeep hbound]
  · intro calls' s' hreturns' hdrivers node hmem node' hmem' hsame
    obtain ⟨s₂, hreturns₂, hcanonical'⟩ := returns_canonical calls'
    obtain rfl := hreturns'.unique hreturns₂
    rw [(hcanonical'.settled node' hmem').driver, (hcanonical.settled node hmem).driver, hsame, hdrivers]

theorem driverDeviceLoop_more {k i rounds : Nat} {s s' : State π}
    (h : driverDeviceLoop k rounds i s = some s') (more : Nat) :
    driverDeviceLoop k (rounds + more) i s = some s' := by
  induction rounds generalizing i s with
  | zero =>
    rw [driverDeviceLoop] at h
    split at h
    · cases h
    · rename_i hend
      cases more with
      | zero => rw [driverDeviceLoop, if_neg hend, ← h]
      | succ more => rw [Nat.zero_add, driverDeviceLoop, if_neg hend, ← h]
  | succ rounds ih =>
    rw [Nat.succ_add, driverDeviceLoop]
    rw [driverDeviceLoop] at h
    split at h
    · rename_i hin
      rw [if_pos hin]
      exact ih h
    · rename_i hend
      rw [if_neg hend, h]

theorem step_more {rounds : Nat} {s s' : State π} {call : Call π} (h : step rounds s call = some s')
    (more : Nat) :
    step (rounds + more) s call = some s' := by
  cases call with
  | device r => exact h
  | driver driver =>
    rw [step, driverRegisterDriver] at h ⊢
    split at h
    · rename_i hoff
      rw [if_pos hoff, ← h]
    · rename_i hon
      rw [if_neg hon]
      obtain ⟨_, hr, rfl⟩ := Option.map_eq_some_iff.mp h
      obtain ⟨t, ht, rfl⟩ := Option.map_eq_some_iff.mp hr
      rw [driverDeviceLoop_more ht more]
      rfl

theorem returns_of_run {rounds : Nat} {calls : List (Call π)} {s : State π}
    (h : run (step rounds) (driverModelInit true) calls = some s) : Returns calls s := by
  refine ⟨rounds, fun rounds' hle => ?_⟩
  obtain ⟨more, rfl⟩ := Nat.exists_eq_add_of_le hle
  generalize (driverModelInit true : State π) = s₀ at h
  induction calls generalizing s₀ with
  | nil => exact h
  | cons call calls ih =>
    rw [run] at h ⊢
    obtain ⟨s₁, hstep, hrest⟩ := Option.bind_eq_some_iff.mp h
    rw [step_more hstep more, Option.bind_some]
    exact ih s₁ hrest

def virtioDisk : TermobDevice :=
  ⟨some "pci-disk", .pci, none, none, none, 0, 0, virtioPciVendorId, 0x1001, 1, 0, 0, 0, 0, 4, 0⟩

def virtioDiskCalls : List (Call VirtioProbe) :=
  [.driver virtioPciDriver, .device (virtioRegistration [] 0x1000 virtioDisk), .driver virtioBlkDriver]

/-- The probe of the first driver registers the logical device, which waits for the block driver. -/
theorem driver_binding_canonical_nested :
    ∃ s, Returns virtioDiskCalls s ∧ Canonical virtioDiskCalls s ∧
      s.driverDeviceList.map (fun node => (node.device.name, node.device.boundDriverName)) =
        [(some "pci-disk", some "virtio-pci"), (some "virtio-block@00:04.0", some "virtio-blk")] ∧
      s.events = [.bound 0 0, .probed 0 0, .bound 1 1, .probed 1 1] ∧ s.driverBoundCountValue = 2 := by
  obtain ⟨s, hreturns, hcanonical, _⟩ := driver_binding_canonical virtioDiskCalls
  have hview : (run (step 2) (driverModelInit true) virtioDiskCalls).map (fun s =>
      (s.driverDeviceList.map (fun node => (node.device.name, node.device.boundDriverName)), s.events,
        s.driverBoundCountValue)) =
      some ([(some "pci-disk", some "virtio-pci"), (some "virtio-block@00:04.0", some "virtio-blk")],
        [.bound 0 0, .probed 0 0, .bound 1 1, .probed 1 1], 2) := by decide +kernel
  obtain ⟨s', hrun, hview⟩ := Option.map_eq_some_iff.mp hview
  obtain rfl := hreturns.unique (returns_of_run hrun)
  rw [Prod.mk.injEq, Prod.mk.injEq] at hview
  exact ⟨s, hreturns, hcanonical, hview⟩

end TermobKernel.Driver
