import CongestionRouting.Mesh.Basic

namespace CongestionRouting

/-- The packets that a node sent over one link, and those of them that arrived. -/
structure HopLoad where
  sent : Nat
  arrived : Nat
  deriving DecidableEq

structure Dispatch where
  random : ChaCha
  parentTurn : Bool
  toParent : HopLoad
  toAlternate : HopLoad
  deriving DecidableEq

namespace HopLoad

def zero : HopLoad := ⟨0, 0⟩

def add (l : HopLoad) (arrived : Bool) : HopLoad := ⟨l.sent + 1, l.arrived + arrived.toNat⟩

def lost (l : HopLoad) : Nat := l.sent - l.arrived

end HopLoad

namespace Dispatch

def start (random : ChaCha) (parentTurn : Bool) : Dispatch := ⟨random, parentTurn, .zero, .zero⟩

/-- Where the next packet goes. While there is an alternate, it and the parent take turns. -/
def nextHop (parent : NodeId) (alternate : Option NodeId) (d : Dispatch) : NodeId × Dispatch :=
  match alternate with
  | none => (parent, d)
  | some alternate =>
    let d := { d with parentTurn := !d.parentTurn }
    (if d.parentTurn then parent else alternate, d)

/-- Sends one packet. The alternate's are those that do not go to the parent. -/
def send (link : NodeId → Delivery) (parent : NodeId) (alternate : Option NodeId) (d : Dispatch) :
    Dispatch :=
  let (hop, d) := d.nextHop parent alternate
  let (arrived, random) := (link hop).deliver d.random
  let d := { d with random := random }
  if hop = parent then { d with toParent := d.toParent.add arrived }
  else { d with toAlternate := d.toAlternate.add arrived }

def sendAll (link : NodeId → Delivery) (parent : NodeId) (alternate : Option NodeId) :
    Nat → Dispatch → Dispatch
  | 0, d => d
  | packets + 1, d => sendAll link parent alternate packets (d.send link parent alternate)

def sent (d : Dispatch) : Nat := d.toParent.sent + d.toAlternate.sent

def lost (d : Dispatch) : Nat := d.toParent.lost + d.toAlternate.lost

end Dispatch

namespace MeshNode

def load (n : MeshNode) : Nat := (saturate32 (n.traffic.toNat + n.inbox.toNat)).toNat

def absorb (n : MeshNode) : MeshNode :=
  { n with inbox := 0, received := n.received + n.inbox.toNat }

def loseAll (n : MeshNode) : MeshNode :=
  { n with
    inbox := 0
    originated := n.originated + n.traffic.toNat
    lost := n.lost + n.load }

def afterDispatch (n : MeshNode) (d : Dispatch) : MeshNode :=
  { n with
    inbox := 0
    agent := n.agent.addSent d.toParent.sent
    parentTurn := d.parentTurn
    originated := n.originated + n.traffic.toNat
    forwarded := n.forwarded + d.sent
    viaAlternate := n.viaAlternate + d.toAlternate.sent
    lost := n.lost + d.lost }

end MeshNode

/-- A mesh whose packets are under way, and where they ended so far. -/
structure Transit where
  mesh : Mesh
  delivered : Nat
  lost : Nat

namespace Transit

def modifyNode (t : Transit) (index : Nat) (f : MeshNode → MeshNode) : Transit :=
  { t with mesh := { t.mesh with nodes := t.mesh.nodes.modify index f } }

def moveNode (t : Transit) (index : Nat) : Transit :=
  match t.mesh.nodes[index]? with
  | none => t
  | some node =>
    if node.sink then
      { t.modifyNode index MeshNode.absorb with delivered := t.delivered + node.inbox.toNat }
    else
      match node.parent with
      | none => { t.modifyNode index MeshNode.loseAll with lost := t.lost + node.load }
      | some parent =>
        let alternate := node.alternate
        let d := Dispatch.sendAll (t.mesh.delivery node.id) parent alternate node.load
          (.start t.mesh.random node.parentTurn)
        let t := t.modifyNode index fun n => n.afterDispatch d
        let t := t.modifyNode parent.index fun n => n.receive d.toParent.arrived
        let t := match alternate with
          | none => t
          | some a => t.modifyNode a.index fun n => n.receive d.toAlternate.arrived
        { t with mesh := { t.mesh with random := d.random }, lost := t.lost + d.lost }

/-- Moves the packets of the first nodes of the mesh, from the last of them on. A node comes after
all that send to it, because its uplinks are older than it is. -/
def moveAll : Nat → Transit → Transit
  | 0, t => t
  | count + 1, t => moveAll count (t.moveNode count)

end Transit

structure StepReport where
  /-- The number of the interval, from one on. -/
  step : Nat
  delivered : Nat
  lost : Nat
  /-- The reports of the nodes that are running, by identifier. -/
  ticks : List (NodeId × TickReport)
  deriving DecidableEq

namespace Mesh

def forward (m : Mesh) : Transit := Transit.moveAll m.nodes.size ⟨m, 0, 0⟩

def reportNode (nodes : Array MeshNode) (index : Nat) : Array MeshNode :=
  match nodes[index]? with
  | none => nodes
  | some node =>
    match node.parent with
    | none => nodes
    | some parent =>
      let (message, node) := node.report
      (nodes.setIfInBounds index node).modify parent.index fun p => p.receiveReport message

def exchangeReports (m : Mesh) : Mesh :=
  { m with nodes := (List.range m.nodes.size).foldl reportNode m.nodes }

def congestedSenders (m : Mesh) : List Address :=
  m.nodes.toList.filterMap fun n => if n.advertise.1 then some n.id.address else none

/-- Every node hears the congested ones among its neighbors. -/
def advertise (m : Mesh) : Mesh :=
  let senders := m.congestedSenders
  -- A parent has its children among its neighbors, and so it hears them too.
  { m with nodes := m.nodes.map fun n => senders.foldl MeshNode.hear n.advertise.2 }

def tick (m : Mesh) : List (NodeId × TickReport) × Mesh :=
  let results := m.nodes.map fun n => (n.id, n.tick)
  (results.toList.filterMap fun (id, report, _) => report.map (id, ·),
    { m with nodes := results.map fun (_, _, n) => n })

def step (m : Mesh) : StepReport × Mesh :=
  let transit := forward { m with steps := m.steps + 1 }
  let (ticks, m) := transit.mesh.exchangeReports.advertise.tick
  (⟨m.steps, transit.delivered, transit.lost, ticks⟩, m)

end Mesh

end CongestionRouting
