import CongestionRouting.Mesh.Step

namespace CongestionRouting

/-- An interval, and the detours as they stand after it. -/
structure StepSummary where
  report : StepReport
  alternates : List (NodeId × NodeId)
  deriving DecidableEq

namespace StepReport

def congested (r : StepReport) : List NodeId :=
  (r.ticks.filter fun tick => tick.2.verdict.selfCongested).map Prod.fst

def notifying (r : StepReport) : List NodeId :=
  (r.ticks.filter fun tick => tick.2.notified).map Prod.fst

end StepReport

namespace Mesh

def delivered (m : Mesh) : Nat := (m.nodes.toList.map MeshNode.received).foldr (· + ·) 0

def lost (m : Mesh) : Nat := (m.nodes.toList.map MeshNode.lost).foldr (· + ·) 0

def activeNodes (m : Mesh) : List NodeId :=
  (m.nodes.toList.filter fun n => n.agent.isActive).map MeshNode.id

def alternates (m : Mesh) : List (NodeId × NodeId) :=
  m.nodes.toList.filterMap fun n => n.alternate.map (n.id, ·)

def summarizedStep (m : Mesh) : StepSummary × Mesh :=
  let (report, m) := m.step
  (⟨report, m.alternates⟩, m)

def run (m : Mesh) : Nat → List StepSummary × Mesh
  | 0 => ([], m)
  | count + 1 =>
    let (summary, m) := m.summarizedStep
    let (summaries, m) := m.run count
    (summary :: summaries, m)

end Mesh

end CongestionRouting
