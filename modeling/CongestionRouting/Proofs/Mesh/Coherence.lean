import CongestionRouting.Proofs.Agent.Eviction
import CongestionRouting.Proofs.Mesh.Hearing
import CongestionRouting.Proofs.Neighbor.Backing
import CongestionRouting.Proofs.Route.Sharing

namespace CongestionRouting

/-- A detour under review goes because its parent recovered, or because of some obstacle. -/
theorem Steering.reason_endInterval {ν ρ : Type} [Neighborhood ν] [RouteStore ρ] {s : Steering}
    {table : ν} {routes : ρ} {reason : WithdrawalReason}
    (h : (s.endInterval table routes).1 = .withdrawn reason) :
    reason = .parentUncongested ∨
      ∃ detour, s.detour = some detour ∧ obstacle table detour = some reason := by
  unfold endInterval at h
  cases hd : s.detour with
  | none =>
    simp only [hd] at h
    exact absurd h nofun
  | some detour =>
    simp only [hd] at h
    split at h
    · next obstacle hobstacle =>
      injection h with h
      exact .inr ⟨detour, rfl, h ▸ hobstacle⟩
    · split at h
      · exact absurd h nofun
      · split at h
        · exact absurd h nofun
        · injection h with h
          exact .inl h.symm

/-- Alone in the list steering has its own routes and no others. -/
theorem RouteList.Sharing.routes_eq {priority : RoutePriority} {capacity : Nat} {s : Steering}
    {t : RouteList} (h : Sharing priority capacity [] s t) : t.routes = s.ownRoutes := by
  have hperm := h.perm
  rw [List.nil_append] at hperm
  unfold Steering.ownRoutes at hperm ⊢
  cases hd : s.detour with
  | none =>
    rw [hd] at hperm
    exact List.perm_nil.1 hperm
  | some detour =>
    rw [hd] at hperm
    exact List.perm_singleton.1 hperm

namespace MeshNode

/-- What the node at an index is built with and keeps: a table in good order that tells of the same parent
as the node, and a detour that the table backs and whose route is the only one. -/
structure Rooted (i : Nat) (n : MeshNode) : Prop where
  index_lt : i < Mesh.maxNodes
  id_eq : n.id = Mesh.idAt i
  descends : n.Descends i
  consistent : n.host.neighbors.Consistent
  preferredAddress_eq : n.host.neighbors.preferredAddress = n.parent.map NodeId.address
  backs : ∀ detour, n.agent.engine.steering.detour = some detour → n.host.neighbors.Backs detour
  sharing : RouteList.Sharing n.agent.config.priority RouteList.standardCapacity []
    n.agent.engine.steering n.host.routes

namespace Rooted

variable {i : Nat} {n n' : MeshNode}

theorem meet (hn : n.Rooted i) {address : Address} (hmet : n.meet address = .ok n') :
    n'.Rooted i := by
  have hdescends := hn.descends.meet hmet
  obtain ⟨handle, table, hi, rfl⟩ := meet_eq_ok hmet
  exact ⟨hn.index_lt, hn.id_eq, hdescends, hn.consistent.insert hi,
    (hn.consistent.preferredAddress_insert hi).trans hn.preferredAddress_eq,
    fun detour hd => hn.consistent.backs_insert hi (hn.backs detour hd), hn.sharing⟩

theorem evict (hn : n.Rooted i) {neighbor : NodeId} {withdrawn : Bool}
    (he : n.evict neighbor = some (withdrawn, n')) : n'.Rooted i := by
  have hdescends := hn.descends.evict he
  obtain ⟨h, hl, heq⟩ := Option.map_eq_some_iff.1 he
  injection heq with _ heq
  subst heq
  let host := { n.host with neighbors := (n.host.neighbors.remove h).2 }
  refine ⟨hn.index_lt, hn.id_eq, hdescends, hn.consistent.remove h, ?_, fun detour hd => ?_, ?_⟩
  · change (n.host.neighbors.remove h).2.preferredAddress = _
    rw [hn.consistent.preferredAddress_remove hl, hn.preferredAddress_eq]
    by_cases hp : n.parent = some neighbor
    · simp [hp]
    · have hne : n.parent.map NodeId.address ≠ some neighbor.address := fun heq => by
        obtain ⟨parent, hparent, haddress⟩ := Option.map_eq_some_iff.1 heq
        exact hp (hparent.trans (congrArg some (NodeId.address_inj haddress)))
      rw [if_neg hne, if_neg hp]
  · change (n.agent.forget h host).2.1.engine.steering.detour = some detour at hd
    by_cases hdetour : n.agent.engine.steering.detour.map Detour.neighbor = some h
    · -- The detour through the neighbor that leaves is withdrawn.
      obtain ⟨old, hold, rfl⟩ := Option.map_eq_some_iff.1 hdetour
      rw [Agent.forget_eq_cleared hold] at hd
      exact absurd hd nofun
    · rw [Agent.forget_of_ne hdetour] at hd
      have hne : detour.neighbor ≠ h := fun heq => hdetour (by rw [hd, Option.map_some, heq])
      exact (hn.backs detour hd).remove hne
  · have hsharing : RouteList.Sharing n.agent.config.priority RouteList.standardCapacity []
        n.agent.engine.steering host.routes := hn.sharing
    exact Agent.forget_keeps (RouteList.Sharing.steeringInvariant NeighborTable ChaCha _ _ _) h hsharing

theorem keeps (hn : n.Rooted i) (h : n.Keeps n') : n'.Rooted i := by
  have hsteering : n'.agent.engine.steering = n.agent.engine.steering := by rw [h.engine_eq]
  have hneighbors : n'.host.neighbors = n.host.neighbors := by rw [h.host_eq]
  refine ⟨hn.index_lt, h.id_eq.trans hn.id_eq,
    hn.descends.congr h.parent_eq hneighbors hsteering, ?_, ?_, ?_, ?_⟩
  · rw [hneighbors]
    exact hn.consistent
  · rw [hneighbors, h.parent_eq]
    exact hn.preferredAddress_eq
  · rw [hneighbors, hsteering]
    exact hn.backs
  · rw [h.config_eq, hsteering, h.host_eq]
    exact hn.sharing

theorem advertise (hn : n.Rooted i) : n.advertise.2.Rooted i :=
  ⟨hn.index_lt, hn.id_eq, hn.descends.congr rfl rfl rfl, hn.consistent, hn.preferredAddress_eq,
    hn.backs, hn.sharing⟩

theorem hear (hn : n.Rooted i) (sender : Address) : (n.hear sender).Rooted i := by
  have hlistens : n.Listens (n.hear sender) := .hear sender
  have hreflags := NeighborTable.Reflags.recordSignal hn.consistent.toOrderly sender
  have hbacks := fun detour hd => hreflags.backs (hn.backs detour hd)
  refine ⟨hn.index_lt, hlistens.id_eq.trans hn.id_eq, hn.descends.hear sender, ?_, ?_, ?_, ?_⟩
  · rw [neighbors_hear]
    exact hn.consistent.retouch (.recordSignal _ sender)
  · rw [neighbors_hear, hreflags.preferredAddress_eq, hlistens.parent_eq]
    exact hn.preferredAddress_eq
  · rw [neighbors_hear]
    unfold MeshNode.hear
    split
    · exact Agent.receiveSignal_keeps (backingInvariant _) sender rfl hbacks
    · exact hbacks
  · rw [hlistens.config_eq]
    unfold MeshNode.hear
    split
    · exact Agent.receiveSignal_keeps (RouteList.Sharing.steeringInvariant NeighborTable ChaCha _ _ _)
        sender trivial hn.sharing
    · exact hn.sharing

theorem hearAll (hn : n.Rooted i) (senders : List Address) :
    (senders.foldl MeshNode.hear n).Rooted i := by
  induction senders generalizing n with
  | nil => exact hn
  | cons sender senders ih => exact ih (hn.hear sender)

theorem tick (hn : n.Rooted i) : n.tick.2.Rooted i := by
  have hsharing : RouteList.Sharing n.agent.config.priority RouteList.standardCapacity []
      n.tick.2.agent.engine.steering n.tick.2.host.routes :=
    Agent.tick_keeps (RouteList.Sharing.steeringInvariant NeighborTable ChaCha _ _ _) hn.sharing
  have hbacks : ∀ detour, n.tick.2.agent.engine.steering.detour = some detour →
      n.host.neighbors.Backs detour :=
    Agent.tick_keeps (backingInvariant n.host.neighbors) hn.backs
  have hreflags : n.host.neighbors.Reflags n.tick.2.host.neighbors ∧
      n.tick.2.host.neighbors.Consistent := by
    rcases Agent.neighbors_tick n.agent n.host with hsame | hclear
    · change n.tick.2.host.neighbors = n.host.neighbors at hsame
      rw [hsame]
      exact ⟨⟨fun _ => rfl, rfl⟩, hn.consistent⟩
    · change n.tick.2.host.neighbors = n.host.neighbors.clearFlags at hclear
      rw [hclear]
      exact ⟨.clearFlags _, hn.consistent.retouch (.clearFlags _)⟩
  have hconfig : n.tick.2.agent.config = n.agent.config := Agent.config_tick n.agent n.host
  exact ⟨hn.index_lt, hn.id_eq, hn.descends.tick, hreflags.2,
    hreflags.1.preferredAddress_eq.trans hn.preferredAddress_eq,
    fun detour hd => hreflags.1.backs (hbacks detour hd), hconfig ▸ hsharing⟩

/-- What a tick has to withdraw leads through a routing parent in the table. -/
theorem outcome_tick (hn : n.Rooted i) {report : TickReport} (ht : n.tick.1 = some report)
    {reason : WithdrawalReason} (ho : report.outcome = .withdrawn reason) :
    reason = .parentUncongested ∨ reason = .noParent := by
  cases hr : n.agent.isRunning with
  | false =>
    have hstopped : n.agent.tick n.host = (none, n.agent, n.host) := Agent.tick_of_stopped hr
    have hnone : n.tick.1 = none := congrArg Prod.fst hstopped
    rw [hnone] at ht
    exact absurd ht nofun
  | true =>
    obtain ⟨report', hreport, hticked⟩ := Agent.tick_of_running n.host hr
    obtain rfl : report' = report := Option.some.inj (hreport.symm.trans ht)
    rw [hticked.outcome_eq] at ho
    rcases Steering.reason_endInterval ho with hrecovered | ⟨detour, hd, hobstacle⟩
    · exact .inl hrecovered
    · exact .inr ((hn.backs detour hd).obstacle_eq hobstacle)

end Rooted

variable {table table' : NeighborTable} {ids : List NodeId}

theorem consistent_enterParents (ht : table.Consistent) (he : enterParents table ids = .ok table') :
    table'.Consistent ∧ table'.preferredAddress = table.preferredAddress := by
  induction ids generalizing table with
  | nil =>
    injection he with he
    exact he ▸ ⟨ht, rfl⟩
  | cons id ids ih =>
    obtain ⟨⟨handle, entered⟩, hi, he⟩ := exists_of_bind_eq_ok he
    obtain ⟨hconsistent, hsame⟩ := ih (ht.insert hi) he
    exact ⟨hconsistent, hsame.trans (ht.preferredAddress_insert hi)⟩

theorem consistent_uplinkTable {parent : Option NodeId} {candidates : List NodeId}
    (he : uplinkTable parent candidates = .ok table) :
    table.Consistent ∧ table.preferredAddress = parent.map NodeId.address := by
  have hempty : (NeighborTable.empty NeighborTable.standardCapacity).Consistent := .empty (by decide)
  cases parent with
  | none => exact consistent_enterParents hempty he
  | some p =>
    obtain ⟨⟨handle, entered⟩, hi, he⟩ := exists_of_bind_eq_ok he
    obtain ⟨chosen, hs, he⟩ := exists_of_bind_eq_ok he
    have hentered := hempty.insert hi
    obtain ⟨hconsistent, hsame⟩ :=
      consistent_enterParents (hentered.retouch (.setPreferredParent hs)) he
    have hself := (hempty.admits_insert hi).get?_self
    exact ⟨hconsistent, hsame.trans (NeighborTable.preferredAddress_setPreferredParent hself hs)⟩

theorem rooted_design {m : Mesh} {plan : NodePlan} {node : MeshNode}
    (hd : m.design plan = .ok node) : node.Rooted m.nodes.size := by
  have hdescends := Mesh.descends_design hd
  obtain ⟨hroom, -, config, agent, table, ha, ht, rfl⟩ := Mesh.design_eq_ok hd
  obtain ⟨hconsistent, hpreferred⟩ := consistent_uplinkTable ht
  rw [Agent.ofConfig_eq_ok ha] at hdescends ⊢
  exact ⟨hroom, rfl, hdescends, hconsistent, hpreferred, nofun, .start _ _ _ _⟩

end MeshNode

namespace Mesh

open MeshNode

variable {m : Mesh}

def Rooted (m : Mesh) : Prop := ∀ (i : Nat) (n : MeshNode), m.nodes[i]? = some n → n.Rooted i

theorem Rooted.of_keeps {m' : Mesh} (hm : m.Rooted)
    (h : Pointwise (fun _ => Keeps) m.nodes m'.nodes) : m'.Rooted := by
  intro i n' hn'
  obtain ⟨n, hn, hkeeps⟩ := h.2 i n' hn'
  exact (hm i n hn).keeps hkeeps

theorem Rooted.advertise (hm : m.Rooted) {i : Nat} {n : MeshNode}
    (hn : m.reported.advertise.nodes[i]? = some n) : n.Rooted i := by
  obtain ⟨-, told, -, htold, -, rfl⟩ := exists_of_getElem?_advertise hn
  exact (hm.of_keeps (keeps_reported m) i told htold).advertise.hearAll _

theorem Rooted.apply (hm : m.Rooted) (event : MeshEvent) : (m.apply event).2.Rooted := by
  by_cases he : event = .step
  · subst he
    intro i n' hn'
    change m.step.2.nodes[i]? = some n' at hn'
    rw [getElem?_step] at hn'
    obtain ⟨n, hn, rfl⟩ := Option.map_eq_some_iff.1 hn'
    exact (hm.advertise hn).tick
  · exact forall_getElem?_of_apply (fun _ _ _ _ hn hmet => hn.meet hmet)
      (fun _ _ _ _ _ hn hev => hn.evict hev) (fun _ _ hd => rooted_design hd) hm he

theorem rooted_applyAll (events : List MeshEvent) : (empty.applyAll events).Rooted :=
  applyAll_induction (fun _ _ hn => absurd hn (by simp [empty])) (fun _ event hm => hm.apply event) events

theorem Rooted.descending (hm : m.Rooted) : Descending m.nodes := fun i n hn => (hm i n hn).descends

/-- A mesh and the node at an index of it: what it records of its parent, what its table tells and what
its agent installed. -/
structure Coherent (m : Mesh) (i : Nat) (n : MeshNode) : Prop where
  index_eq : n.id.index = i
  parent_iff : ∀ parent, n.parent = some parent ↔
    n.host.neighbors.preferredAddress = some parent.address
  parent_lt : ∀ parent, n.parent = some parent → parent.index < i
  routingParent_lt : ∀ entry ∈ n.host.neighbors.entries, entry.routingParent = true →
    ∃ j < i, ∃ older, m.nodes[j]? = some older ∧ older.id.address = entry.address
  isActive_iff : n.agent.isActive = true ↔ ∃ alternate, n.alternate = some alternate
  alternate_lt : ∀ alternate, n.alternate = some alternate →
    alternate.index < i ∧ n.parent ≠ some alternate
  neighbor_eq : ∀ alternate, n.alternate = some alternate → ∃ detour entry,
    n.agent.engine.steering.detour = some detour ∧
      n.host.neighbors.get? detour.neighbor = some entry ∧ entry.address = alternate.address
  routes_of_active : ∀ alternate, n.alternate = some alternate →
    n.host.routes.routes = [⟨alternate.address, n.agent.config.priority⟩]
  routes_of_inactive : n.agent.isActive = false → n.host.routes.routes = []

end Mesh

namespace MeshNode.Rooted

variable {i : Nat} {n : MeshNode}

theorem index_eq (hn : n.Rooted i) : n.id.index = i := by
  rw [hn.id_eq]
  exact UInt16.toNat_ofNat_of_lt' hn.index_lt

theorem parent_iff (hn : n.Rooted i) (parent : NodeId) : n.parent = some parent ↔
    n.host.neighbors.preferredAddress = some parent.address := by
  rw [hn.preferredAddress_eq, Option.map_eq_some_iff]
  constructor
  · exact fun hp => ⟨parent, hp, rfl⟩
  · rintro ⟨recorded, hp, haddress⟩
    exact hp.trans (congrArg some (NodeId.address_inj haddress))

theorem exists_of_alternate {alternate : NodeId} (ha : n.alternate = some alternate) :
    ∃ detour, n.agent.engine.steering.detour = some detour ∧
      detour.nextHop = alternate.address := by
  obtain ⟨detour, hd, hid⟩ := Option.bind_eq_some_iff.1 ha
  exact ⟨detour, hd, (NodeId.ofAddress?_eq_some_iff.1 hid).symm⟩

theorem parent_ne_alternate (hn : n.Rooted i) {alternate : NodeId}
    (ha : n.alternate = some alternate) : n.parent ≠ some alternate := by
  obtain ⟨detour, hd, hhop⟩ := exists_of_alternate ha
  obtain ⟨hne, entry, hg, -, haddress⟩ := hn.backs detour hd
  intro hp
  have hlookup := hn.consistent.lookup_preferredAddress ((hn.parent_iff alternate).1 hp)
  have hfound : n.host.neighbors.lookup alternate.address = some detour.neighbor := by
    rw [hn.consistent.lookup_eq_some_iff, hg, Option.map_some, haddress, hhop]
  exact hne (hlookup.trans hfound)

theorem isActive_iff (hn : n.Rooted i) :
    n.agent.isActive = true ↔ ∃ alternate, n.alternate = some alternate := by
  rw [Agent.isActive, Steering.isActive, Option.isSome_iff_exists]
  constructor
  · rintro ⟨detour, hd⟩
    obtain ⟨id, -, haddress⟩ := hn.descends.detour detour hd
    refine ⟨id, Option.bind_eq_some_iff.2 ⟨detour, hd, ?_⟩⟩
    exact NodeId.ofAddress?_eq_some_iff.2 haddress
  · rintro ⟨alternate, ha⟩
    obtain ⟨detour, hd, -⟩ := exists_of_alternate ha
    exact ⟨detour, hd⟩

theorem coherent {m : Mesh} (hm : m.Rooted) (hi : m.nodes[i]? = some n) : m.Coherent i n := by
  have hn := hm i n hi
  have hroutes := hn.sharing.routes_eq
  refine ⟨hn.index_eq, hn.parent_iff, hn.descends.parent_lt, fun entry hentry hrouting => ?_,
    hn.isActive_iff, fun alternate ha => ⟨hn.descends.alternate_lt ha, hn.parent_ne_alternate ha⟩,
    fun alternate ha => ?_, fun alternate ha => ?_, fun hinactive => ?_⟩
  · obtain ⟨id, hlt, haddress⟩ := hn.descends.neighbors entry hentry hrouting
    have hj := Array.getElem?_eq_getElem (hlt.trans (Array.getElem?_eq_some_iff.1 hi).1)
    refine ⟨id.index, hlt, _, hj, ?_⟩
    rw [(hm _ _ hj).id_eq, ← haddress]
    exact Mesh.addressAt_index id
  · obtain ⟨detour, hd, hhop⟩ := exists_of_alternate ha
    obtain ⟨-, entry, hg, -, haddress⟩ := hn.backs detour hd
    exact ⟨detour, entry, hd, hg, haddress.trans hhop⟩
  · obtain ⟨detour, hd, hhop⟩ := exists_of_alternate ha
    rw [hroutes, Steering.ownRoutes, hd, ← hhop, ← hn.sharing.priority_eq]
    rfl
  · have hnone : n.agent.engine.steering.detour = none := Option.not_isSome_iff_eq_none.1 (by
      rw [Bool.not_eq_true]
      exact hinactive)
    rw [hroutes, Steering.ownRoutes, hnone]
    rfl

end MeshNode.Rooted

end CongestionRouting
