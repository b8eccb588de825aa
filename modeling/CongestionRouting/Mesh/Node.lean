import CongestionRouting.Agent
import CongestionRouting.Mesh.NodeId
import CongestionRouting.Neighbor.Table

namespace CongestionRouting

abbrev NodeHost := Host NeighborTable RouteList AdvertisedFlag CountingTimer

structure MeshNode where
  id : NodeId
  /-- The preferred parent; a node that lost it is detached. -/
  parent : Option NodeId
  agent : Agent
  host : NodeHost
  /-- The packets that the node originates in each interval. -/
  traffic : UInt32
  /-- The packets received in this interval that are still to be forwarded. -/
  inbox : UInt32
  /-- A sink absorbs what it receives. -/
  sink : Bool
  /-- The turn that the last packet took while there was an alternate: the parent's if set. -/
  parentTurn : Bool
  originated : Nat
  forwarded : Nat
  /-- The part of the forwarded packets that went through an alternate. -/
  viaAlternate : Nat
  received : Nat
  lost : Nat

namespace MeshNode

def enterParents (table : NeighborTable) : List NodeId → Except NeighborError NeighborTable
  | [] => .ok table
  | id :: ids => do
    let (_, table) ← table.insert id.address true
    enterParents table ids

def uplinkTable (parent : Option NodeId) (candidates : List NodeId) :
    Except NeighborError NeighborTable :=
  let empty := NeighborTable.empty NeighborTable.standardCapacity
  match parent with
  | none => enterParents empty candidates
  | some p => do
    let (h, table) ← empty.insert p.address true
    let table ← table.setPreferredParent (some h)
    enterParents table candidates

/-- A node whose agent is running. Without a parent it is a sink. -/
def start (id : NodeId) (parent : Option NodeId) (traffic : UInt32) (table : NeighborTable)
    (agent : Agent) : MeshNode :=
  let (agent, host) :=
    agent.start (⟨table, .empty RouteList.standardCapacity, .lowered, .idle⟩ : NodeHost)
  { id := id
    parent := parent
    agent := agent
    host := host
    traffic := traffic
    inbox := 0
    sink := parent.isNone
    parentTurn := false
    originated := 0
    forwarded := 0
    viaAlternate := 0
    received := 0
    lost := 0 }

def alternate (n : MeshNode) : Option NodeId :=
  n.agent.engine.steering.detour.bind fun detour => NodeId.ofAddress? detour.nextHop

def meet (n : MeshNode) (address : Address) : Except NeighborError MeshNode :=
  (n.host.neighbors.insert address false).map fun (_, table) =>
    { n with host := { n.host with neighbors := table } }

/-- Forgets a neighbor, and tells whether the detour led through it. Without its parent the node is
detached. -/
def evict (n : MeshNode) (neighbor : NodeId) : Option (Bool × MeshNode) :=
  (n.host.neighbors.lookup neighbor.address).map fun h =>
    let host := { n.host with neighbors := (n.host.neighbors.remove h).2 }
    let (withdrawn, agent, host) := n.agent.forget h host
    (withdrawn,
      { n with
        parent := if n.parent = some neighbor then none else n.parent
        agent := agent
        host := host })

def receive (n : MeshNode) (packets : Nat) : MeshNode :=
  { n with
    inbox := saturate32 (n.inbox.toNat + packets)
    agent := n.agent.addReceived packets }

/-- The type and code of the routing message that carries a report. -/
def reportHeader : List UInt8 := [0x9b, 0x02]

def report (n : MeshNode) : List UInt8 × MeshNode :=
  let (option, agent) := n.agent.report
  (reportHeader ++ option.toBytes, { n with agent := agent })

def receiveReport (n : MeshNode) (message : List UInt8) : MeshNode :=
  { n with agent := (n.agent.receiveReport message reportHeader.length).2 }

/-- Sends the advertisement, and tells whether it carries the congestion flag. -/
def advertise (n : MeshNode) : Bool × MeshNode :=
  let (pending, flag) := n.host.advertiser.take
  (pending, { n with host := { n.host with advertiser := flag } })

/-- Takes in the congestion flag of another node; only that of a neighbor is heard. -/
def hear (n : MeshNode) (sender : Address) : MeshNode :=
  if (n.host.neighbors.lookup sender).isSome then
    let (_, agent, host) := n.agent.receiveSignal sender n.host
    { n with agent := agent, host := host }
  else n

def tick (n : MeshNode) : Option TickReport × MeshNode :=
  let (report, agent, host) := n.agent.tick n.host
  (report, { n with agent := agent, host := host })

end MeshNode

end CongestionRouting
