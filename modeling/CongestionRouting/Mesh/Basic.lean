import CongestionRouting.Mesh.Delivery
import CongestionRouting.Mesh.Node
import Std.Data.HashMap

namespace CongestionRouting

structure Link where
  low : NodeId
  high : NodeId
  deriving DecidableEq, Hashable

namespace Link

def between (a b : NodeId) : Link := if a.value ≤ b.value then ⟨a, b⟩ else ⟨b, a⟩

end Link

structure Mesh where
  /-- Each node stands at the index that its identifier tells. -/
  nodes : Array MeshNode
  /-- The links whose delivery was set. -/
  links : Std.HashMap Link Delivery
  /-- The source that decides on the delivery of packets. -/
  random : ChaCha
  /-- The intervals simulated so far. -/
  steps : Nat

inductive MeshError where
  | unknownNode (id : NodeId)
  | notNeighbors (a b : NodeId)
  | tooManyNodes
  | config (cause : ConfigError)
  | neighbor (cause : NeighborError)
  deriving DecidableEq

/-- A node to be built. Without a configuration it gets the standard one, with a seed of its own. -/
structure NodePlan where
  parent : Option NodeId
  /-- The nodes that may serve as alternate parents. -/
  candidates : List NodeId
  traffic : UInt32
  config : Option Config

namespace NodePlan

def uplinks (plan : NodePlan) : List NodeId := plan.parent.toList ++ plan.candidates

end NodePlan

namespace Mesh

def maxNodes : Nat := UInt16.size

def empty : Mesh := ⟨#[], ∅, .ofSeed 0, 0⟩

def size (m : Mesh) : Nat := m.nodes.size

def isEmpty (m : Mesh) : Bool := m.nodes.isEmpty

def node? (m : Mesh) (id : NodeId) : Option MeshNode := m.nodes[id.index]?

def reseed (m : Mesh) (seed : UInt64) : Mesh := { m with random := .ofSeed seed }

def firstUnknown (m : Mesh) (ids : List NodeId) : Option NodeId :=
  ids.find? fun id => !decide (id.index < m.nodes.size)

def design (m : Mesh) (plan : NodePlan) : Except MeshError MeshNode :=
  if maxNodes ≤ m.nodes.size then .error .tooManyNodes
  else
    match m.firstUnknown plan.uplinks with
    | some unknown => .error (.unknownNode unknown)
    | none => do
      let config := plan.config.getD { Config.standard with seed := UInt64.ofNat m.nodes.size }
      let agent ← (Agent.ofConfig config).mapError .config
      let table ← (MeshNode.uplinkTable plan.parent plan.candidates).mapError .neighbor
      .ok (.start ⟨UInt16.ofNat m.nodes.size⟩ plan.parent plan.traffic table agent)

/-- Makes an address known to one node after the other, up to the first that cannot take it. -/
def introduce (address : Address) :
    List NodeId → Array MeshNode → Option NeighborError × Array MeshNode
  | [], nodes => (none, nodes)
  | id :: ids, nodes =>
    match nodes[id.index]? with
    | none => introduce address ids nodes
    | some node =>
      match node.meet address with
      | .error e => (some e, nodes)
      | .ok node => introduce address ids (nodes.setIfInBounds id.index node)

/-- Adds a node to the mesh. If one of its uplinks cannot take it, those before keep its address. -/
def build (m : Mesh) (plan : NodePlan) : Except MeshError NodeId × Mesh :=
  match m.design plan with
  | .error e => (.error e, m)
  | .ok node =>
    match m with
    | ⟨nodes, links, random, steps⟩ =>
      match introduce node.id.address plan.uplinks nodes with
      | (some e, nodes) => (.error (.neighbor e), ⟨nodes, links, random, steps⟩)
      | (none, nodes) => (.ok node.id, ⟨nodes.push node, links, random, steps⟩)

def addSinks (m : Mesh) : Nat → Option (Except MeshError NodeId) × Mesh
  | 0 => (none, m)
  | count + 1 =>
    let (result, m) := m.build ⟨none, [], 0, none⟩
    match m.addSinks count with
    | (none, m) => (some result, m)
    | later => later

/-- The delivery of a link; one that was never set delivers all. -/
def delivery (m : Mesh) (a b : NodeId) : Delivery := m.links.getD (.between a b) .always

def setDelivery (m : Mesh) (a b : NodeId) (d : Delivery) : Except MeshError Mesh :=
  match m.node? a with
  | none => .error (.unknownNode a)
  | some node =>
    if (m.node? b).isNone then .error (.unknownNode b)
    else if (node.host.neighbors.lookup b.address).isNone then .error (.notNeighbors a b)
    else .ok { m with links := m.links.insert (.between a b) d }

/-- Makes a node forget a neighbor, and tells whether its detour had to be withdrawn. -/
def evict (m : Mesh) (id neighbor : NodeId) : Except MeshError (Bool × Mesh) :=
  match m.node? id with
  | none => .error (.unknownNode id)
  | some node =>
    match node.evict neighbor with
    | none => .error (.notNeighbors id neighbor)
    | some (withdrawn, node) =>
      .ok (withdrawn, { m with nodes := m.nodes.setIfInBounds id.index node })

end Mesh

namespace MeshError

def message : MeshError → String
  | .unknownNode id => s!"Unknown node {id}"
  | .notNeighbors a b => s!"Nodes {a} and {b} are not neighbors"
  | .tooManyNodes => s!"The mesh cannot hold more than {Mesh.maxNodes} nodes"
  | .config cause => s!"Invalid multipath configuration: {cause.message}"
  | .neighbor cause => cause.message

end MeshError

end CongestionRouting
