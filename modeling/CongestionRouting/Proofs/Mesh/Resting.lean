import CongestionRouting.Proofs.Mesh.Counting
import CongestionRouting.Proofs.Neighbor.Places

namespace CongestionRouting

namespace MeshNode

variable {n n' : MeshNode} {entry : Neighbor}

/-- What hearing signals leaves alone. -/
structure Listens (n n' : MeshNode) : Prop where
  id_eq : n'.id = n.id
  parent_eq : n'.parent = n.parent
  config_eq : n'.agent.config = n.agent.config
  engine_eq : n'.agent.engine = { n.agent.engine with
    steering := n'.agent.engine.steering
    random := n'.agent.engine.random }

instance : IsPreorder MeshNode Listens where
  refl _ := ⟨rfl, rfl, rfl, rfl⟩
  trans _ _ _ h h' := ⟨h'.id_eq.trans h.id_eq, h'.parent_eq.trans h.parent_eq,
    h'.config_eq.trans h.config_eq, by rw [h'.engine_eq, h.engine_eq]⟩

theorem Listens.hear (sender : Address) : n.Listens (n.hear sender) := by
  unfold MeshNode.hear
  split
  · rcases n.agent.receiveSignal_cases sender n.host with ⟨tally, heq, -⟩ | ⟨tally, -, heq, -⟩
    · rw [heq]
      exact ⟨rfl, rfl, rfl, rfl⟩
    · rw [heq]
      exact ⟨rfl, rfl, rfl, rfl⟩
  · exact refl_of Listens n

theorem Listens.hearAll (senders : List Address) : n.Listens (senders.foldl MeshNode.hear n) :=
  hearAll_of_hear (fun _ => .hear) senders n

theorem Listens.advertise : n.Listens n.advertise.2 := ⟨rfl, rfl, rfl, rfl⟩

theorem Listens.afterAdvertising (senders : List Address) :
    n.Listens (senders.foldl MeshNode.hear n.advertise.2) :=
  trans_of Listens .advertise (.hearAll senders)

theorem neighbors_hear (n : MeshNode) (sender : Address) :
    (n.hear sender).host.neighbors = (recordSignal sender n.host.neighbors).2 := by
  unfold MeshNode.hear
  split
  · exact Agent.neighbors_receiveSignal ..
  · next hunknown =>
    rw [NeighborTable.recordSignal_snd, Option.not_isSome_iff_eq_none.1 hunknown]
    rfl

theorem advertiser_hear (sender : Address) :
    (n.hear sender).host.advertiser = n.host.advertiser := by
  unfold MeshNode.hear
  split
  · rcases n.agent.receiveSignal_cases sender n.host with ⟨tally, heq, -⟩ | ⟨tally, -, heq, -⟩
    · rw [heq]
      rfl
    · rw [heq]
      rfl
  · rfl

/-- A node between two intervals. -/
structure AtRest (n : MeshNode) : Prop where
  running : n.agent.isRunning = true
  counters_eq : n.counters = .zero
  unflagged : ∀ entry ∈ n.host.neighbors.entries, entry.congested = false

/-- A node that has nothing left to report is at rest after the end of its interval. -/
theorem AtRest.tick (hr : n.agent.isRunning = true) (hs : n.counters.sent = 0) :
    n.tick.2.AtRest := by
  obtain ⟨report, -, hticked⟩ := Agent.tick_of_running n.host hr
  have hengine : n.tick.2.agent.engine = _ := hticked.engine_eq
  have hneighbors : n.tick.2.host.neighbors = _ := hticked.neighbors_eq
  refine ⟨?_, ?_, fun entry hentry => ?_⟩
  · rw [Agent.isRunning, hengine]
    exact hr
  · rw [counters, hengine]
    change (⟨0, 0, n.counters.sent⟩ : PacketCounters) = _
    rw [hs]
    rfl
  · rw [hneighbors] at hentry
    obtain ⟨i, hi⟩ := NeighborTable.mem_entries_iff.1 hentry
    have hclear := (NeighborTable.entryAt_clearFlags (t := n.host.neighbors) i).symm.trans hi
    obtain ⟨old, -, rfl⟩ := Option.map_eq_some_iff.1 hclear
    rfl

theorem AtRest.meet (hn : n.AtRest) {address : Address} (hmet : n.meet address = .ok n') :
    n'.AtRest := by
  obtain ⟨handle, table, hi, rfl⟩ := meet_eq_ok hmet
  refine ⟨hn.running, hn.counters_eq, fun entry hentry => ?_⟩
  rcases NeighborTable.mem_entries_insert hi hentry with hold | rfl
  · exact hn.unflagged entry hold
  · rfl

theorem AtRest.evict (hn : n.AtRest) {neighbor : NodeId} {withdrawn : Bool}
    (he : n.evict neighbor = some (withdrawn, n')) : n'.AtRest := by
  obtain ⟨h, -, heq⟩ := Option.map_eq_some_iff.1 he
  injection heq with _ heq
  subst heq
  exact ⟨hn.running, hn.counters_eq,
    fun entry hentry => hn.unflagged entry (NeighborTable.mem_entries_remove hentry)⟩

theorem unflagged_enterParents {table table' : NeighborTable} {ids : List NodeId}
    (ht : ∀ entry ∈ table.entries, entry.congested = false)
    (he : enterParents table ids = .ok table') : ∀ entry ∈ table'.entries, entry.congested = false := by
  induction ids generalizing table with
  | nil =>
    injection he with he
    exact he ▸ ht
  | cons id ids ih =>
    obtain ⟨⟨handle, entered⟩, hi, he⟩ := exists_of_bind_eq_ok he
    refine ih (fun entry hentry => ?_) he
    rcases NeighborTable.mem_entries_insert hi hentry with hold | rfl
    · exact ht entry hold
    · rfl

theorem unflagged_uplinkTable {table : NeighborTable} {parent : Option NodeId}
    {candidates : List NodeId} (he : uplinkTable parent candidates = .ok table) :
    ∀ entry ∈ table.entries, entry.congested = false := by
  cases parent with
  | none => exact unflagged_enterParents (fun _ hentry => absurd hentry List.not_mem_nil) he
  | some p =>
    obtain ⟨⟨handle, entered⟩, hi, he⟩ := exists_of_bind_eq_ok he
    obtain ⟨chosen, hs, he⟩ := exists_of_bind_eq_ok he
    refine unflagged_enterParents (fun entry hentry => ?_) he
    rw [NeighborTable.entries, NeighborTable.slots_setPreferredParent hs] at hentry
    rcases NeighborTable.mem_entries_insert hi hentry with hold | rfl
    · exact absurd hold List.not_mem_nil
    · rfl

theorem AtRest.start {id : NodeId} {parent : Option NodeId} {traffic : UInt32}
    {table : NeighborTable} {config : Config} {agent : Agent} (ha : Agent.ofConfig config = .ok agent)
    (ht : ∀ entry ∈ table.entries, entry.congested = false) :
    (MeshNode.start id parent traffic table agent).AtRest := by
  rw [Agent.ofConfig_eq_ok ha]
  exact ⟨rfl, rfl, ht⟩

end MeshNode

namespace Mesh

open MeshNode

variable {m m' : Mesh} {i : Nat} {n : MeshNode}

theorem nodes_tick (m : Mesh) : m.tick.2.nodes = m.nodes.map fun n => n.tick.2 := by
  simp only [tick, Array.map_map]
  rfl

theorem ticks_eq (m : Mesh) :
    m.tick.1 = m.nodes.toList.filterMap fun n => n.tick.1.map (n.id, ·) := by
  simp only [tick, Array.toList_map, List.filterMap_map]
  rfl

theorem ids_ticks (h : ∀ n ∈ m.nodes, n.agent.isRunning = true) :
    m.tick.1.map Prod.fst = m.nodes.toList.map MeshNode.id := by
  rw [ticks_eq, List.map_filterMap, ← List.filterMap_eq_map]
  apply List.filterMap_congr
  intro n hn
  obtain ⟨report, hreport, -⟩ :=
    Agent.tick_of_running n.host (h n (Array.mem_toList_iff.1 hn))
  have htick : n.tick.1 = some report := hreport
  rw [htick]
  rfl

theorem getElem?_ticks (h : ∀ n ∈ m.nodes, n.agent.isRunning = true) (i : Nat) :
    m.tick.1[i]? = m.nodes[i]?.bind fun n => n.tick.1.map (n.id, ·) := by
  have hsome : ∀ n ∈ m.nodes.toList, ∃ report, n.tick.1 = some report := by
    intro n hn
    obtain ⟨report, hreport, -⟩ :=
      Agent.tick_of_running n.host (h n (Array.mem_toList_iff.1 hn))
    exact ⟨report, hreport⟩
  rw [ticks_eq, ← Array.getElem?_toList]
  generalize m.nodes.toList = ns at hsome
  induction ns generalizing i with
  | nil => rfl
  | cons n ns ih =>
    obtain ⟨report, hreport⟩ := hsome n List.mem_cons_self
    rw [List.filterMap_cons_some (by rw [hreport, Option.map_some])]
    cases i with
    | zero => simp [hreport]
    | succ i => exact ih i fun n hn => hsome n (List.mem_cons_of_mem _ hn)

/-- Who advertises is settled before the interval begins. -/
theorem congestedSenders_reported (m : Mesh) :
    m.reported.congestedSenders = m.congestedSenders := by
  let sender : MeshNode → Option Address := fun n => if n.advertise.1 then some n.id.address else none
  have hsame : m.reported.nodes.toList.map sender = m.nodes.toList.map sender := by
    refine (keeps_reported m).map_eq fun _ old told hkeeps => ?_
    have hadvertise : told.advertise.1 = old.advertise.1 := by
      change told.host.advertiser.pending = old.host.advertiser.pending
      rw [hkeeps.host_eq]
    simp only [sender, hadvertise, hkeeps.id_eq]
  have hsenders := congrArg (List.filterMap id) hsame
  rwa [List.filterMap_map, List.filterMap_map] at hsenders

theorem mem_congestedSenders {a : Address} : a ∈ m.congestedSenders ↔
    ∃ n ∈ m.nodes, n.host.advertiser.pending = true ∧ n.id.address = a := by
  simp only [congestedSenders, List.mem_filterMap, Option.ite_none_right_eq_some, Option.some.injEq,
    Array.mem_toList_iff]
  rfl

theorem listens_advertise (m : Mesh) : Pointwise (fun _ => Listens) m.nodes m.advertise.nodes :=
  .map fun _ _ => .afterAdvertising _

theorem size_advertise (m : Mesh) : m.reported.advertise.nodes.size = m.nodes.size :=
  (listens_advertise m.reported).1.trans (keeps_reported m).1

/-- The node that ends its interval at an index, and what it has heard. -/
theorem exists_of_getElem?_advertise (hn : m.reported.advertise.nodes[i]? = some n) :
    ∃ old told, m.nodes[i]? = some old ∧ m.reported.nodes[i]? = some told ∧ old.Keeps told ∧
      n = m.reported.congestedSenders.foldl MeshNode.hear told.advertise.2 := by
  unfold advertise at hn
  rw [Array.getElem?_map] at hn
  obtain ⟨told, htold, rfl⟩ := Option.map_eq_some_iff.1 hn
  obtain ⟨old, hold, hkeeps⟩ := (keeps_reported m).2 i told htold
  exact ⟨old, told, hold, htold, hkeeps, rfl⟩

theorem getElem?_step (m : Mesh) (i : Nat) :
    m.step.2.nodes[i]? = (m.reported.advertise.nodes[i]?).map fun n => n.tick.2 := by
  rw [(step_eq m).2, nodes_tick, Array.getElem?_map]

theorem exists_of_mem_advertise {n : MeshNode} (hn : n ∈ m.reported.advertise.nodes) :
    ∃ (i : Nat) (old told : MeshNode), m.nodes[i]? = some old ∧ m.reported.nodes[i]? = some told ∧
      m.reported.advertise.nodes[i]? = some n ∧ old.Keeps told ∧ told.Listens n := by
  obtain ⟨i, hi⟩ := Array.mem_iff_getElem?.1 hn
  obtain ⟨old, told, hold, htold, hkeeps, heq⟩ := exists_of_getElem?_advertise hi
  exact ⟨i, old, told, hold, htold, hi, hkeeps, heq ▸ .afterAdvertising _⟩

theorem ids_advertise (m : Mesh) :
    m.reported.advertise.nodes.toList.map MeshNode.id = m.nodes.toList.map MeshNode.id := by
  have hadvertised := (listens_advertise m.reported).map_eq fun _ _ _ h => h.id_eq
  exact hadvertised.trans ((keeps_reported m).map_eq fun _ _ _ h => h.id_eq)

theorem ids_step (m : Mesh) :
    m.step.2.nodes.toList.map MeshNode.id = m.nodes.toList.map MeshNode.id := by
  rw [(step_eq m).2, nodes_tick, Array.toList_map, List.map_map]
  exact ids_advertise m

theorem running_advertise (h : ∀ n ∈ m.nodes, n.AtRest) :
    ∀ n ∈ m.reported.advertise.nodes, n.agent.isRunning = true := by
  intro n hn
  obtain ⟨i, old, told, hold, -, -, hkeeps, hlistens⟩ := exists_of_mem_advertise hn
  rw [Agent.isRunning, hlistens.engine_eq, hkeeps.engine_eq]
  exact (h old (Array.mem_of_getElem? hold)).running

theorem atRest_step (h : ∀ n ∈ m.nodes, n.AtRest) : ∀ n ∈ m.step.2.nodes, n.AtRest := by
  intro n' hn'
  rw [(step_eq m).2, nodes_tick] at hn'
  obtain ⟨n, hn, rfl⟩ := Array.mem_map.1 hn'
  obtain ⟨i, old, told, -, htold, -, -, hlistens⟩ := exists_of_mem_advertise hn
  have hsent := sent_reported (fun n hn => congrArg PacketCounters.sent (h n hn).counters_eq) told
    (Array.mem_of_getElem? htold)
  refine .tick (running_advertise h n hn) ?_
  rw [counters, hlistens.engine_eq]
  exact hsent

/-- The way of the node at an index through an interval: what it is once the reports are exchanged, what
it is when the interval ends, and its own report. -/
structure Passes (m : Mesh) (i : Nat) (n told heard : MeshNode) (report : TickReport) : Prop where
  told_eq : m.reported.nodes[i]? = some told
  keeps : n.Keeps told
  heard_eq : m.reported.advertise.nodes[i]? = some heard
  hears : heard = m.reported.congestedSenders.foldl MeshNode.hear told.advertise.2
  ticks_eq : m.step.1.ticks[i]? = some (n.id, report)
  step_eq : m.step.2.nodes[i]? = some heard.tick.2
  report_eq : heard.tick.1 = some report
  ticked : heard.agent.Ticked heard.host report heard.tick.2.agent heard.tick.2.host

theorem Passes.listens {told heard : MeshNode} {report : TickReport}
    (h : m.Passes i n told heard report) : told.Listens heard :=
  h.hears ▸ .afterAdvertising _

theorem exists_passes (h : ∀ n ∈ m.nodes, n.AtRest) (hn : m.nodes[i]? = some n) :
    ∃ told heard report, m.Passes i n told heard report := by
  have hi : i < m.reported.advertise.nodes.size := by
    rw [size_advertise]
    exact (Array.getElem?_eq_some_iff.1 hn).1
  have hheard := Array.getElem?_eq_getElem hi
  obtain ⟨old, told, hold, htold, hkeeps, hhears⟩ := exists_of_getElem?_advertise hheard
  obtain rfl : old = n := Option.some.inj (hold.symm.trans hn)
  generalize m.reported.advertise.nodes[i] = heard at hheard hhears
  have hlistens : told.Listens heard := hhears ▸ .afterAdvertising _
  have hrunning := running_advertise h
  obtain ⟨report, hreport, hticked⟩ :=
    Agent.tick_of_running heard.host (hrunning heard (Array.mem_of_getElem? hheard))
  have htick : heard.tick.1 = some report := hreport
  refine ⟨told, heard, report, htold, hkeeps, hheard, hhears, ?_, ?_, htick, hticked⟩
  · rw [(Mesh.step_eq m).1, getElem?_ticks hrunning, hheard, Option.bind_some, htick,
      Option.map_some, hlistens.id_eq, hkeeps.id_eq]
  · rw [getElem?_step, hheard, Option.map_some]

theorem exists_passes_of_mem (h : ∀ n ∈ m.nodes, n.AtRest) {tick : NodeId × TickReport}
    (htick : tick ∈ m.step.1.ticks) : ∃ i n told heard report,
      m.nodes[i]? = some n ∧ m.Passes i n told heard report ∧ tick = (n.id, report) := by
  obtain ⟨i, hi⟩ := List.mem_iff_getElem?.1 htick
  have hat := hi
  rw [(step_eq m).1, getElem?_ticks (running_advertise h)] at hat
  obtain ⟨heard, hheard, -⟩ := Option.bind_eq_some_iff.1 hat
  obtain ⟨n, -, hn, -⟩ := exists_of_getElem?_advertise hheard
  obtain ⟨told, heard, report, hpasses⟩ := exists_passes h hn
  exact ⟨i, n, told, heard, report, hn, hpasses, Option.some.inj (hi.symm.trans hpasses.ticks_eq)⟩

/-- What meeting a neighbor keeps, and what a design has at the index it is built for, all nodes have after
an attempt to build it. -/
theorem forall_getElem?_of_build {P : Nat → MeshNode → Prop}
    (hmeet : ∀ i n n' address, P i n → n.meet address = .ok n' → P i n')
    (hdesign : ∀ plan node, m.design plan = .ok node → P m.nodes.size node)
    (h : ∀ i n, m.nodes[i]? = some n → P i n) (plan : NodePlan) :
    ∀ i n, (m.build plan).2.nodes[i]? = some n → P i n := by
  cases hd : m.design plan with
  | error e => simpa only [build, hd] using h
  | ok node =>
    -- The uplinks that met the new address keep it, also when a later one refuses.
    have hkept : ∀ i n, (introduce m.nextAddress plan.uplinks m.nodes).2[i]? = some n → P i n :=
      introduce_induction (fun id _ n n' hp hmet => hmeet id.index n n' _ hp hmet) h
    have hsize : (introduce m.nextAddress plan.uplinks m.nodes).2.size = m.nodes.size :=
      size_introduce
    rw [(build_of_design hd).2]
    split
    · next hi =>
      rw [hi] at hkept
      exact hkept
    · next hi =>
      rw [hi] at hkept hsize
      intro i n hn
      rw [Array.getElem?_push] at hn
      split at hn
      · next hlast =>
        injection hn with hn
        rw [← hn, hlast, hsize]
        exact hdesign plan node hd
      · exact hkept i n hn

/-- What meeting and forgetting neighbors keep, and what a design has at the index it is built for, all
nodes have after an event that is no interval. -/
theorem forall_getElem?_of_apply {P : Nat → MeshNode → Prop}
    (hmeet : ∀ i n n' address, P i n → n.meet address = .ok n' → P i n')
    (hevict : ∀ i n n' neighbor withdrawn, P i n → n.evict neighbor = some (withdrawn, n') → P i n')
    (hdesign : ∀ plan node, m.design plan = .ok node → P m.nodes.size node)
    (h : ∀ i n, m.nodes[i]? = some n → P i n) {event : MeshEvent} (he : event ≠ .step) :
    ∀ i n, (m.apply event).2.nodes[i]? = some n → P i n := by
  cases event with
  | step => exact absurd rfl he
  | reseed seed => exact h
  | setDelivery a b d =>
    cases hs : m.setDelivery a b d with
    | error e => simpa only [apply, hs] using h
    | ok m' => simpa only [apply, hs, setDelivery_eq_ok hs] using h
  | build plan =>
    rw [apply_build]
    exact forall_getElem?_of_build hmeet hdesign h plan
  | evict id neighbor =>
    cases hev : m.evict id neighbor with
    | error e => simpa only [apply, hev] using h
    | ok result =>
      obtain ⟨node, node', hnode, hnode', hresult⟩ := evict_eq_ok hev
      simp only [apply, hev, hresult]
      intro i n hn
      rw [Array.getElem?_setIfInBounds] at hn
      split at hn
      · next hi =>
        split at hn
        · injection hn with hn
          exact hn ▸ hi ▸ hevict id.index node node' neighbor _ (h _ node hnode) hnode'
        · cases hn
      · exact h i n hn

theorem forall_of_apply {P : MeshNode → Prop}
    (hmeet : ∀ n n' address, P n → n.meet address = .ok n' → P n')
    (hevict : ∀ n n' neighbor withdrawn, P n → n.evict neighbor = some (withdrawn, n') → P n')
    (hdesign : ∀ (m : Mesh) plan node, m.design plan = .ok node → P node)
    (h : ∀ n ∈ m.nodes, P n) {event : MeshEvent} (he : event ≠ .step) :
    ∀ n ∈ (m.apply event).2.nodes, P n := by
  intro n hn
  obtain ⟨i, hi⟩ := Array.mem_iff_getElem?.1 hn
  exact forall_getElem?_of_apply (P := fun _ => P) (fun _ => hmeet) (fun _ => hevict) (hdesign m)
    (fun i n hn => h n (Array.mem_of_getElem? hn)) he i n hi

theorem atRest_apply (h : ∀ n ∈ m.nodes, n.AtRest) (event : MeshEvent) :
    ∀ n ∈ (m.apply event).2.nodes, n.AtRest := by
  by_cases he : event = .step
  · subst he
    exact atRest_step h
  · refine forall_of_apply (fun _ _ _ hn hmet => hn.meet hmet) (fun _ _ _ _ hn hev => hn.evict hev)
      (fun m plan node hd => ?_) h he
    obtain ⟨-, -, config, agent, table, ha, ht, rfl⟩ := design_eq_ok hd
    exact .start ha (unflagged_uplinkTable ht)

theorem applyAll_concat (m : Mesh) (events : List MeshEvent) (event : MeshEvent) :
    m.applyAll (events ++ [event]) = ((m.applyAll events).apply event).2 := by
  rw [applyAll, List.foldl_append]
  rfl

/-- What holds of a mesh without nodes and is kept by every event holds of every reachable mesh. -/
theorem applyAll_induction {P : Mesh → Prop} (hempty : P empty)
    (happly : ∀ m event, P m → P (m.apply event).2) (events : List MeshEvent) :
    P (empty.applyAll events) := by
  have hrun : ∀ m : Mesh, P m → P (m.applyAll events) := by
    induction events with
    | nil => exact fun _ hm => hm
    | cons event events ih => exact fun m hm => ih _ (happly m event hm)
  exact hrun empty hempty

theorem atRest_applyAll (events : List MeshEvent) :
    ∀ n ∈ (empty.applyAll events).nodes, n.AtRest :=
  applyAll_induction (P := fun m => ∀ n ∈ m.nodes, n.AtRest) (fun n hn => absurd hn (by simp [empty]))
    (fun _ event h => atRest_apply h event) events

end Mesh

end CongestionRouting
