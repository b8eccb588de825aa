import CongestionRouting.Route.Selection
import CongestionRouting.Route.Store

namespace CongestionRouting

/-- The alternate parent, and the next hop its route was installed with. The next hop is kept so
that the route can be withdrawn when the neighbor is gone. -/
structure Detour where
  neighbor : NeighborHandle
  nextHop : Address
  deriving DecidableEq

inductive Activation where
  | installed (detour : Detour)
  | alreadyActive
  | suppressed
  | noParent
  | noCandidate
  | routeRejected (nextHop : Address)
  deriving DecidableEq

namespace Activation

def isInstalled : Activation → Bool
  | .installed _ => true
  | _ => false

end Activation

inductive WithdrawalReason where
  | parentUncongested
  | noParent
  | alternateEvicted
  | alternateIsPreferredParent
  | alternateNotRoutingParent
  | shutdown
  deriving DecidableEq

inductive IntervalOutcome where
  | inactive
  /-- The preferred parent is still congested. -/
  | kept
  /-- The parent recovered before the route had stayed long enough. -/
  | deferred
  | withdrawn (reason : WithdrawalReason)
  deriving DecidableEq

/-- A detour is recorded exactly while its secondary route is installed. -/
structure Steering where
  policy : SelectionPolicy
  priority : RoutePriority
  hysteresis : Hysteresis
  detour : Option Detour
  /-- Whether requests are ignored after a withdrawal. -/
  suppressed : Bool
  /-- The intervals that the detour has been through. -/
  activeIntervals : UInt32
  /-- The intervals that the suppression has left. -/
  holdDown : UInt32
  deriving DecidableEq

namespace Steering

variable {ν ρ γ : Type} [Neighborhood ν] [RouteStore ρ] [RandomSource γ]

def start (policy : SelectionPolicy) (priority : RoutePriority) (hysteresis : Hysteresis) :
    Steering :=
  ⟨policy, priority, hysteresis, none, false, 0, 0⟩

def isActive (s : Steering) : Bool := s.detour.isSome

/-- Why a detour cannot be used any more, whatever the congestion. -/
def obstacle (table : ν) (detour : Detour) : Option WithdrawalReason :=
  if !Neighborhood.contains table detour.neighbor then some .alternateEvicted
  else
    match Neighborhood.preferredParent table with
    | none => some .noParent
    | some parent =>
      if parent = detour.neighbor then some .alternateIsPreferredParent
      else if Neighborhood.isRoutingParent table detour.neighbor then none
      else some .alternateNotRoutingParent

/-- Whether a withdrawal starts a time of suppression. -/
def startsHoldDown (s : Steering) (reason : WithdrawalReason) : Bool :=
  reason = .parentUncongested && 0 < s.hysteresis.holdDownIntervals

def withdraw (s : Steering) (routes : ρ) (reason : WithdrawalReason) :
    Option Address × Steering × ρ :=
  match s.detour with
  | none => (none, s, routes)
  | some detour =>
    let idle := { s with detour := none, activeIntervals := 0 }
    let after :=
      if s.startsHoldDown reason then
        { idle with suppressed := true, holdDown := s.hysteresis.holdDownIntervals }
      else idle
    (some detour.nextHop, after, RouteStore.remove routes detour.nextHop)

def install (s : Steering) (table : ν) (routes : ρ) (random : γ) :
    Activation × Steering × ρ × γ :=
  if s.suppressed then (.suppressed, s, routes, random)
  else
    match Neighborhood.preferredParent table with
    | none => (.noParent, s, routes, random)
    | some preferred =>
      let (choice, random) := Selection.select s.policy table preferred random
      match choice.bind fun h => (Neighborhood.address table h).map (Detour.mk h) with
      | none => (.noCandidate, s, routes, random)
      | some detour =>
        match RouteStore.add routes detour.nextHop s.priority with
        | (false, routes) => (.routeRejected detour.nextHop, s, routes, random)
        | (true, routes) =>
          let s := { s with detour := some detour, activeIntervals := 0 }
          (.installed detour, s, routes, random)

/-- Answers a congestion signal of the preferred parent. A detour that cannot be used any more makes
way for a new one. -/
def request (s : Steering) (table : ν) (routes : ρ) (random : γ) :
    Activation × Steering × ρ × γ :=
  match s.detour with
  | none => s.install table routes random
  | some detour =>
    match obstacle table detour with
    | none => (.alreadyActive, s, routes, random)
    | some reason =>
      let (_, s, routes) := s.withdraw routes reason
      s.install table routes random

def releaseHoldDown (s : Steering) : Steering :=
  if s.suppressed then
    let left := UInt32.ofNat (s.holdDown.toNat - 1)
    { s with holdDown := left, suppressed := left ≠ 0 }
  else s

def parentCongested (table : ν) : Bool :=
  ((Neighborhood.preferredParent table).bind (Neighborhood.congested table)).getD false

def endInterval (s : Steering) (table : ν) (routes : ρ) : IntervalOutcome × Steering × ρ :=
  match s.detour with
  | none => (.inactive, s.releaseHoldDown, routes)
  | some detour =>
    match obstacle table detour with
    | some reason =>
      let (_, s, routes) := s.withdraw routes reason
      (.withdrawn reason, s, routes)
    | none =>
      let s := { s with activeIntervals := saturate32 (s.activeIntervals.toNat + 1) }
      if parentCongested table then (.kept, s, routes)
      else if s.activeIntervals < s.hysteresis.minActiveIntervals then (.deferred, s, routes)
      else
        let (_, s, routes) := s.withdraw routes .parentUncongested
        (.withdrawn .parentUncongested, s, routes)

def forget (s : Steering) (h : NeighborHandle) (routes : ρ) : Bool × Steering × ρ :=
  if s.detour.map Detour.neighbor = some h then
    let (hop, s, routes) := s.withdraw routes .alternateEvicted
    (hop.isSome, s, routes)
  else (false, s, routes)

end Steering

end CongestionRouting
