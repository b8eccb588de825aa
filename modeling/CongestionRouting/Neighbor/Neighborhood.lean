import CongestionRouting.Address
import CongestionRouting.Neighbor.Handle

namespace CongestionRouting

def clearEach {ν : Type} (setCongested : ν → NeighborHandle → Bool → Bool × ν)
    (handles : List NeighborHandle) (table : ν) : ν :=
  handles.foldl (fun table handle => (setCongested table handle false).2) table

class Neighborhood (ν : Type) where
  /-- All neighbors, in an order that selection follows. -/
  neighbors : ν → List NeighborHandle
  address : ν → NeighborHandle → Option Address
  lookup : ν → Address → Option NeighborHandle
  isRoutingParent : ν → NeighborHandle → Bool
  /-- The congestion flag of a neighbor in the table. -/
  congested : ν → NeighborHandle → Option Bool
  /-- Sets a congestion flag, and tells whether it could be set. -/
  setCongested : ν → NeighborHandle → Bool → Bool × ν
  preferredParent : ν → Option NeighborHandle
  contains : ν → NeighborHandle → Bool := fun table handle => (address table handle).isSome
  /-- Clears all congestion flags. -/
  clearFlags : ν → ν := fun table => clearEach setCongested (neighbors table) table

end CongestionRouting
