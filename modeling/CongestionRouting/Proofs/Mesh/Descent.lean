import CongestionRouting.Proofs.Mesh.Build
import CongestionRouting.Proofs.Route.Invariant

namespace CongestionRouting

def OlderThan (i : Nat) (address : Address) : Prop :=
  ∃ id : NodeId, id.index < i ∧ id.address = address

/-- Detours that are given up, kept or newly taken lead to addresses of a kind if the routing parents
in the table all do. -/
theorem detourInvariant {ρ : Type} [RouteStore ρ] (P : Address → Prop) :
    SteeringInvariant ChaCha (NeighborTable.RoutesVia P)
      (fun s (_ : ρ) => ∀ detour, s.detour = some detour → P detour.nextHop) where
  drop _ _ := nofun
  count _ _ _ hp := hp
  install {s table routes} random ht hd hp := by
    rcases Steering.install_cases s table routes random with
      ⟨detour, -, hs, -, hoffered, -⟩ | ⟨hs, -⟩
    · rw [hs]
      intro d heq
      injection heq with heq
      exact heq ▸ ht.address hoffered.routingParent hoffered.address_eq
    · rw [hs]
      exact hp

namespace Agent

variable {ν ρ α τ : Type} [Neighborhood ν] [RouteStore ρ] (a : Agent) (host : Host ν ρ α τ)

theorem neighbors_receiveSignal (sender : Address) :
    (a.receiveSignal sender host).2.2.neighbors = (recordSignal sender host.neighbors).2 := by
  unfold receiveSignal
  rcases recordSignal sender host.neighbors with ⟨source, neighbors⟩
  cases source with
  | unknown | neighbor => rfl
  | preferredParent h =>
    simp only
    split <;> rfl

variable [Advertiser α] [IntervalTimer τ]

theorem neighbors_tick :
    (a.tick host).2.2.neighbors = host.neighbors ∨
      (a.tick host).2.2.neighbors = Neighborhood.clearFlags host.neighbors := by
  unfold tick Engine.tick
  by_cases hrun : a.engine.clock.running = true
  · simp only [hrun, Bool.not_true, Bool.false_eq_true, if_false, or_true]
  · simp only [hrun, Bool.not_false, if_true, true_or]

end Agent

namespace MeshNode

/-- All that the node at an index sends to is older. -/
structure Descends (i : Nat) (n : MeshNode) : Prop where
  parent_lt : ∀ parent, n.parent = some parent → parent.index < i
  neighbors : n.host.neighbors.RoutesVia (OlderThan i)
  detour : ∀ detour, n.agent.engine.steering.detour = some detour → OlderThan i detour.nextHop

variable {i : Nat} {n n' : MeshNode}

theorem Descends.alternate_lt (hn : n.Descends i) {id : NodeId} (ha : n.alternate = some id) :
    id.index < i := by
  obtain ⟨detour, hd, hid⟩ := Option.bind_eq_some_iff.1 ha
  obtain ⟨older, hlt, haddress⟩ := hn.detour detour hd
  rw [← haddress, NodeId.ofAddress?_eq_some_iff] at hid
  exact NodeId.address_inj hid ▸ hlt

theorem Descends.congr (hn : n.Descends i) (hparent : n'.parent = n.parent)
    (hneighbors : n'.host.neighbors = n.host.neighbors)
    (hsteering : n'.agent.engine.steering = n.agent.engine.steering) : n'.Descends i :=
  ⟨hparent ▸ hn.parent_lt, hneighbors ▸ hn.neighbors, hsteering ▸ hn.detour⟩

theorem Descends.meet (hn : n.Descends i) {address : Address} (hmet : n.meet address = .ok n') :
    n'.Descends i := by
  obtain ⟨handle, table, hi, rfl⟩ := meet_eq_ok hmet
  exact ⟨hn.parent_lt, hn.neighbors.insert hi nofun, hn.detour⟩

theorem Descends.evict (hn : n.Descends i) {neighbor : NodeId} {withdrawn : Bool}
    (he : n.evict neighbor = some (withdrawn, n')) : n'.Descends i := by
  obtain ⟨h, -, heq⟩ := Option.map_eq_some_iff.1 he
  injection heq with _ heq
  subst heq
  refine ⟨?_, hn.neighbors.remove h, ?_⟩
  · intro parent hp
    simp only at hp
    split at hp
    · exact absurd hp nofun
    · exact hn.parent_lt parent hp
  · exact Agent.forget_keeps (detourInvariant (OlderThan i)) h hn.detour

theorem Descends.receiveReport (hn : n.Descends i) (message : List UInt8) :
    (n.receiveReport message).Descends i := by
  refine hn.congr rfl rfl ?_
  unfold MeshNode.receiveReport Agent.receiveReport
  split <;> rfl

theorem Descends.hear (hn : n.Descends i) (sender : Address) : (n.hear sender).Descends i := by
  unfold MeshNode.hear
  split
  · refine ⟨hn.parent_lt, ?_, ?_⟩
    · simp only [Agent.neighbors_receiveSignal]
      exact hn.neighbors.recordSignal sender
    · exact Agent.receiveSignal_keeps (detourInvariant (OlderThan i)) sender
        (hn.neighbors.recordSignal sender) hn.detour
  · exact hn

theorem Descends.tick (hn : n.Descends i) : n.tick.2.Descends i := by
  refine ⟨hn.parent_lt, ?_, Agent.tick_keeps (detourInvariant (OlderThan i)) hn.detour⟩
  change (n.agent.tick n.host).2.2.neighbors.RoutesVia _
  rcases Agent.neighbors_tick n.agent n.host with hsame | hclear
  · exact hsame ▸ hn.neighbors
  · exact hclear ▸ hn.neighbors.clearFlags

variable {table table' : NeighborTable} {ids : List NodeId}

theorem routesVia_enterParents (hids : ∀ id ∈ ids, id.index < i)
    (ht : table.RoutesVia (OlderThan i)) (he : enterParents table ids = .ok table') :
    table'.RoutesVia (OlderThan i) := by
  induction ids generalizing table with
  | nil =>
    injection he with he
    exact he ▸ ht
  | cons id ids ih =>
    obtain ⟨⟨handle, table''⟩, hi, he⟩ := exists_of_bind_eq_ok he
    have hid : OlderThan i id.address := ⟨id, hids id List.mem_cons_self, rfl⟩
    exact ih (fun id' hmem => hids id' (List.mem_cons_of_mem _ hmem))
      (ht.insert hi fun _ => hid) he

theorem routesVia_uplinkTable {parent : Option NodeId} {candidates : List NodeId}
    (hids : ∀ id ∈ parent.toList ++ candidates, id.index < i)
    (he : uplinkTable parent candidates = .ok table) : table.RoutesVia (OlderThan i) := by
  have hempty : (NeighborTable.empty NeighborTable.standardCapacity).RoutesVia (OlderThan i) :=
    NeighborTable.routesVia_empty _
  cases parent with
  | none => exact routesVia_enterParents hids hempty he
  | some p =>
    obtain ⟨⟨handle, entered⟩, hi, he⟩ := exists_of_bind_eq_ok he
    obtain ⟨chosen, hs, he⟩ := exists_of_bind_eq_ok he
    have hp : OlderThan i p.address := ⟨p, hids p (by simp), rfl⟩
    exact routesVia_enterParents (fun id hmem => hids id (by simp [hmem]))
      ((hempty.insert hi fun _ => hp).setPreferredParent hs) he

end MeshNode

theorem Mesh.descends_design {m : Mesh} {plan : NodePlan} {node : MeshNode}
    (hd : m.design plan = .ok node) : node.Descends m.nodes.size := by
  obtain ⟨-, hknown, config, agent, table, ha, ht, rfl⟩ := design_eq_ok hd
  refine ⟨?_, MeshNode.routesVia_uplinkTable hknown ht, ?_⟩
  · intro parent hp
    have hplan : plan.parent = some parent := hp
    exact hknown parent (by simp [NodePlan.uplinks, hplan])
  · rw [Agent.ofConfig_eq_ok ha]
    exact nofun

end CongestionRouting
