import CongestionRouting.Session.Answer

namespace CongestionRouting

abbrev SessionHost (ν : Type) := Host ν RouteList UnreliableFlag CountingTimer

inductive HostEvent where
  | insertNeighbor (address : Address) (routingParent : Bool)
  | removeNeighbor (h : NeighborHandle)
  | viewNeighbor (h : NeighborHandle)
  | findNeighbor (address : Address)
  | setCongested (h : NeighborHandle) (value : Bool)
  | setRoutingParent (h : NeighborHandle) (value : Bool)
  | setPreferredParent (h : Option NeighborHandle)
  | clearFlags
  | guardFlags (value : Bool)
  | recordSignal (sender : Address)
  | addRoute (nextHop : Address) (priority : RoutePriority)
  | removeRoute (nextHop : Address)
  | findRoute (nextHop : Address)
  | raiseFlag
  | takeFlag
  | setFailure (message : Option String)
  | setTimer (period : Duration)
  | rearmTimer
  | stopTimer
  deriving DecidableEq

namespace Host

variable {ν : Type} [TableHolder ν]

def replaceTable (host : SessionHost ν) (table : NeighborTable) : SessionHost ν :=
  { host with neighbors := TableHolder.withTable host.neighbors table }

def step (host : SessionHost ν) : HostEvent → Answer × SessionHost ν
  | .insertNeighbor address routingParent =>
    match (TableHolder.table host.neighbors).insert address routingParent with
    | .ok (h, table) => (.handle (some h), host.replaceTable table)
    | .error e => (.tableFailure e, host)
  | .removeNeighbor h =>
    let (entry, table) := (TableHolder.table host.neighbors).remove h
    (.entry entry, host.replaceTable table)
  | .viewNeighbor h => (.view (.ofHandle host.neighbors h), host)
  | .findNeighbor address => (.handle (Neighborhood.lookup host.neighbors address), host)
  | .setCongested h value =>
    let (done, neighbors) := Neighborhood.setCongested host.neighbors h value
    (.flag done, { host with neighbors := neighbors })
  | .setRoutingParent h value =>
    match (TableHolder.table host.neighbors).setRoutingParent h value with
    | .ok table => (.done, host.replaceTable table)
    | .error e => (.tableFailure e, host)
  | .setPreferredParent h =>
    match (TableHolder.table host.neighbors).setPreferredParent h with
    | .ok table => (.done, host.replaceTable table)
    | .error e => (.tableFailure e, host)
  | .clearFlags =>
    (.done, { host with neighbors := Neighborhood.clearFlags host.neighbors })
  | .guardFlags value =>
    (.done, { host with neighbors := TableHolder.guarding host.neighbors value })
  | .recordSignal sender =>
    let (source, neighbors) := CongestionRouting.recordSignal sender host.neighbors
    (.signal source, { host with neighbors := neighbors })
  | .addRoute nextHop priority =>
    match host.routes.insert nextHop priority with
    | .ok routes => (.done, { host with routes := routes })
    | .error e => (.routeFailure e, host)
  | .removeRoute nextHop =>
    let routes := host.routes.erase nextHop
    (.number routes.size, { host with routes := routes })
  | .findRoute nextHop =>
    (.priority ((host.routes.get? nextHop).map DefaultRoute.priority), host)
  | .raiseFlag =>
    match host.advertiser.schedule with
    | (.ok (), advertiser) => (.done, { host with advertiser := advertiser })
    | (.error e, advertiser) => (.advertiserFailure e, { host with advertiser := advertiser })
  | .takeFlag =>
    let (pending, flag) := host.advertiser.flag.take
    (.flag pending, { host with advertiser := { host.advertiser with flag := flag } })
  | .setFailure message =>
    (.done, { host with advertiser := { host.advertiser with failure := message } })
  | .setTimer period => (.done, { host with timer := host.timer.set period })
  | .rearmTimer => (.done, { host with timer := host.timer.rearm })
  | .stopTimer => (.done, { host with timer := host.timer.stop })

end Host

end CongestionRouting
