namespace CongestionRouting

/-- A higher number is a lower priority. -/
structure RoutePriority where
  level : UInt8
  deriving DecidableEq

namespace RoutePriority

def primary : RoutePriority := ⟨0⟩

def isLowerThan (p q : RoutePriority) : Bool := q.level < p.level

instance : ToString RoutePriority := ⟨fun p => toString p.level⟩

end RoutePriority

end CongestionRouting
