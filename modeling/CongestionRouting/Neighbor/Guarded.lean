import CongestionRouting.Neighbor.Table

namespace CongestionRouting

/-- A table that can refuse flags. It has no sweep of its own, so flags are cleared one neighbor at a
time, and kept while the guard is up. -/
structure GuardedTable where
  table : NeighborTable
  readOnly : Bool
  deriving DecidableEq

namespace GuardedTable

def setCongested (g : GuardedTable) (h : NeighborHandle) (value : Bool) : Bool × GuardedTable :=
  if g.readOnly then (false, g)
  else
    let (done, table) := g.table.setCongested h value
    (done, { g with table := table })

instance : Neighborhood GuardedTable where
  neighbors g := Neighborhood.neighbors g.table
  address g := Neighborhood.address g.table
  lookup g := Neighborhood.lookup g.table
  isRoutingParent g := Neighborhood.isRoutingParent g.table
  congested g := Neighborhood.congested g.table
  setCongested := setCongested
  preferredParent g := Neighborhood.preferredParent g.table

end GuardedTable

/-- A neighborhood that is kept in a table, in which its host enters and removes neighbors. -/
class TableHolder (ν : Type) extends Neighborhood ν where
  table : ν → NeighborTable
  withTable : ν → NeighborTable → ν
  /-- Raises or lowers the guard, where there is one. -/
  guarding : ν → Bool → ν

instance : TableHolder NeighborTable where
  table t := t
  withTable _ t := t
  guarding t _ := t

instance : TableHolder GuardedTable where
  table := GuardedTable.table
  withTable g t := { g with table := t }
  guarding g value := { g with readOnly := value }

end CongestionRouting
