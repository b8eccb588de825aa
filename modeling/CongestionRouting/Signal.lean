import CongestionRouting.Neighbor.Neighborhood

namespace CongestionRouting

inductive SignalSource where
  | unknown
  | neighbor (handle : NeighborHandle)
  | preferredParent (handle : NeighborHandle)
  deriving DecidableEq

/-- Sets the flag of the sender. One whose flag cannot be set counts as unknown. -/
def recordSignal {ν : Type} [Neighborhood ν] (sender : Address) (table : ν) : SignalSource × ν :=
  match Neighborhood.lookup table sender with
  | none => (.unknown, table)
  | some h =>
    match Neighborhood.setCongested table h true with
    | (false, table) => (.unknown, table)
    | (true, table) =>
      if Neighborhood.preferredParent table = some h then (.preferredParent h, table)
      else (.neighbor h, table)

end CongestionRouting
