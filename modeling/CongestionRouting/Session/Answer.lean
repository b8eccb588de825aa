import CongestionRouting.Agent
import CongestionRouting.Neighbor.Guarded

namespace CongestionRouting

structure NeighborView where
  address : Option Address
  contained : Bool
  routingParent : Bool
  congested : Option Bool
  deriving DecidableEq

namespace NeighborView

def ofHandle {ν : Type} [Neighborhood ν] (table : ν) (h : NeighborHandle) : NeighborView where
  address := Neighborhood.address table h
  contained := Neighborhood.contains table h
  routingParent := Neighborhood.isRoutingParent table h
  congested := Neighborhood.congested table h

end NeighborView

inductive Answer where
  | done
  | flag (value : Bool)
  | number (n : Nat)
  | count (n : Option UInt16)
  | handle (h : Option NeighborHandle)
  | handles (hs : List (Option NeighborHandle))
  | entry (neighbor : Option Neighbor)
  | view (neighbor : NeighborView)
  | signal (source : SignalSource)
  | priority (p : Option RoutePriority)
  | address (a : Option Address)
  | activation (a : Option Activation)
  | outcome (o : IntervalOutcome)
  | verdict (v : Verdict)
  | report (r : Option TickReport)
  | bytes (bs : List UInt8)
  | tableFailure (e : NeighborError)
  | routeFailure (e : RouteError)
  | advertiserFailure (e : AdvertiserError)
  deriving DecidableEq

end CongestionRouting
