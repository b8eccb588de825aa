import CongestionRouting.Address
import CongestionRouting.Route.Priority

namespace CongestionRouting

class RouteStore (ρ : Type) where
  /-- Adds a secondary default route, and tells whether it was accepted. -/
  add : ρ → Address → RoutePriority → Bool × ρ
  /-- Removes the default route through a next hop. -/
  remove : ρ → Address → ρ

structure DefaultRoute where
  nextHop : Address
  priority : RoutePriority
  deriving DecidableEq

structure RouteList where
  /-- The routes in the order of their arrival. -/
  routes : List DefaultRoute
  capacity : Nat
  deriving DecidableEq

inductive RouteError where
  | notSecondary (nextHop : Address)
  | alreadyInstalled (nextHop : Address)
  | full (capacity : Nat)
  deriving DecidableEq

namespace RouteError

def message : RouteError → String
  | .notSecondary hop =>
    s!"secondary route to {hop} must have a lower priority than the primary route"
  | .alreadyInstalled hop => s!"default route to {hop} already installed"
  | .full capacity => s!"default route table full ({capacity} entries)"

end RouteError

namespace RouteList

def standardCapacity : Nat := 4

def empty (capacity : Nat) : RouteList := ⟨[], capacity⟩

def size (t : RouteList) : Nat := t.routes.length

def isEmpty (t : RouteList) : Bool := t.routes.isEmpty

def get? (t : RouteList) (nextHop : Address) : Option DefaultRoute :=
  t.routes.find? fun route => route.nextHop = nextHop

def insert (t : RouteList) (nextHop : Address) (priority : RoutePriority) :
    Except RouteError RouteList :=
  if !priority.isLowerThan .primary then .error (.notSecondary nextHop)
  else if (t.get? nextHop).isSome then .error (.alreadyInstalled nextHop)
  else if t.size < t.capacity then .ok { t with routes := t.routes ++ [⟨nextHop, priority⟩] }
  else .error (.full t.capacity)

def erase (t : RouteList) (nextHop : Address) : RouteList :=
  { t with routes := t.routes.filter fun route => route.nextHop ≠ nextHop }

instance : RouteStore RouteList where
  add t nextHop priority :=
    match t.insert nextHop priority with
    | .ok t => (true, t)
    | .error _ => (false, t)
  remove := erase

end RouteList

end CongestionRouting
