import CongestionRouting.Advertiser
import CongestionRouting.Neighbor.Neighborhood
import CongestionRouting.Route.Store
import CongestionRouting.Timer

namespace CongestionRouting

structure Host (ν ρ α τ : Type) where
  neighbors : ν
  routes : ρ
  advertiser : α
  timer : τ
  deriving DecidableEq

end CongestionRouting
