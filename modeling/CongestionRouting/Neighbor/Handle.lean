namespace CongestionRouting

structure NeighborHandle where
  index : UInt32
  generation : UInt32
  deriving DecidableEq

instance : ToString NeighborHandle := ⟨fun h => s!"{h.index}#{h.generation}"⟩

end CongestionRouting
