import CongestionRouting.Mesh.Stats
import CongestionRouting.Text.Column
import CongestionRouting.Threshold

namespace CongestionRouting

/-- A lossy link congests a relay, and the relay's children move half of their traffic to another one until
the link recovers. -/
structure Scenario where
  /-- The number of intervals. -/
  steps : UInt64
  /-- The delivery of the lossy link while it is degraded. -/
  delivery : Delivery
  degradeAt : UInt64
  recoverAt : UInt64
  threshold : ThresholdRatio
  /-- Whether alternate parents are drawn at random. -/
  randomized : Bool
  /-- The packets that a leaf originates in each interval. -/
  traffic : UInt32
  seed : UInt64
  deriving DecidableEq

namespace Scenario

def standard : Scenario where
  steps := 16
  delivery := ⟨30, by decide⟩
  degradeAt := 3
  recoverAt := 10
  threshold := .half
  randomized := false
  traffic := 20
  seed := 0

def relay : NodeId := ⟨1⟩

def otherRelay : NodeId := ⟨2⟩

def lossyLeaf : NodeId := ⟨3⟩

def config (s : Scenario) (node : UInt64) : Config :=
  { Config.standard with
    threshold := s.threshold
    policy := if s.randomized then .randomized SelectionPolicy.standardAttempts else .deterministic
    seed := s.seed + node }

/-- The leaves 3 and 4 may use relay 2 beside their parent.
```text
           root (0)
          /        \
     relay (1)   relay (2)
      /     \   .  .   \
  leaf (3) leaf (4)   leaf (5)
```
-/
def plans (s : Scenario) : List NodePlan :=
  [⟨none, [], 0, s.config 0⟩, ⟨some ⟨0⟩, [], 0, s.config 1⟩, ⟨some ⟨0⟩, [], 0, s.config 2⟩,
    ⟨some relay, [otherRelay], s.traffic, s.config 3⟩,
    ⟨some relay, [otherRelay], s.traffic, s.config 4⟩, ⟨some otherRelay, [], s.traffic, s.config 5⟩]

def mesh (s : Scenario) : Mesh :=
  s.plans.foldl (fun m plan => (m.build plan).2) (Mesh.empty.reseed s.seed)

def setLossyLink (m : Mesh) (d : Delivery) : Mesh :=
  match m.setDelivery lossyLeaf relay d with
  | .ok m => m
  | .error _ => m

/-- Degrades or restores the lossy link when its time has come, with a line for each change. -/
def changeLink (s : Scenario) (m : Mesh) : List String × Mesh :=
  let step := m.steps + 1
  let (degraded, m) :=
    if step = s.degradeAt.toNat then
      ([s!"---- link {lossyLeaf}-{relay} degraded to {s.delivery}"], setLossyLink m s.delivery)
    else ([], m)
  let (recovered, m) :=
    if step = s.recoverAt.toNat then
      ([s!"---- link {lossyLeaf}-{relay} recovered"], setLossyLink m .always)
    else ([], m)
  (degraded ++ recovered, m)

def stepLine (summary : StepSummary) : String :=
  let r := summary.report
  let congested := ", ".intercalate (r.congested.map toString)
  let alternates := ", ".intercalate (summary.alternates.map fun (id, hop) => s!"{id}->{hop}")
  " ".intercalate
    [Text.alignRight 4 (toString r.step), Text.alignRight 9 (toString r.delivered),
      Text.alignRight 4 (toString r.lost), s!" [{Text.center 7 congested}] ", s!"[{alternates}]"]

def stepLines (s : Scenario) : Nat → Mesh → List String × Mesh
  | 0, m => ([], m)
  | count + 1, m =>
    let (changes, m) := s.changeLink m
    let (summary, m) := m.summarizedStep
    let (lines, m) := s.stepLines count m
    (changes ++ stepLine summary :: lines, m)

def nodeLine (n : MeshNode) : String :=
  " ".intercalate
    [Text.alignRight 4 (toString n.id), Text.alignRight 6 (n.parent.elim "-" toString),
      Text.alignRight 10 (toString n.originated), Text.alignRight 9 (toString n.forwarded),
      Text.alignRight 7 (toString n.viaAlternate), Text.alignRight 6 (toString n.lost),
      Text.alignRight 12 (toString n.agent.tally.activations)]

def lines (s : Scenario) : List String :=
  let start := s.mesh
  let (steps, m) := s.stepLines s.steps.toNat start
  [s!"{start.size} nodes, {s.traffic} packets per leaf and interval, threshold {s.threshold}", "",
      "step delivered lost  congested  alternates"] ++ steps ++
    ["", "node parent originated forwarded via-alt   lost  activations"] ++
    m.nodes.toList.map nodeLine

end Scenario

end CongestionRouting
