import CongestionRouting.Mesh.Step

namespace CongestionRouting

inductive MeshEvent where
  | reseed (seed : UInt64)
  | build (plan : NodePlan)
  | setDelivery (a b : NodeId) (d : Delivery)
  | evict (id neighbor : NodeId)
  | step

inductive MeshAnswer where
  | done
  | failed (e : MeshError)
  | built (id : NodeId)
  | evicted (withdrawn : Bool)
  | stepped (report : StepReport)
  deriving DecidableEq

namespace Mesh

def apply (m : Mesh) : MeshEvent → MeshAnswer × Mesh
  | .reseed seed => (.done, m.reseed seed)
  | .build plan =>
    match m.build plan with
    | (.ok id, m) => (.built id, m)
    | (.error e, m) => (.failed e, m)
  | .setDelivery a b d =>
    match m.setDelivery a b d with
    | .ok m => (.done, m)
    | .error e => (.failed e, m)
  | .evict id neighbor =>
    match m.evict id neighbor with
    | .ok (withdrawn, m) => (.evicted withdrawn, m)
    | .error e => (.failed e, m)
  | .step =>
    let (report, m) := m.step
    (.stepped report, m)

def applyAll (m : Mesh) (events : List MeshEvent) : Mesh :=
  events.foldl (fun m event => (m.apply event).2) m

end Mesh

end CongestionRouting
