import CongestionRouting.Config
import CongestionRouting.Counters
import CongestionRouting.Neighbor.Neighborhood

namespace CongestionRouting

structure Verdict where
  selfCongested : Bool
  neighborsCongested : Bool
  received : UInt32
  expected : UInt32
  /-- The count of received packets below which the node is congested. -/
  threshold : UInt32
  /-- The neighbors whose flag is set, of all neighbors; not counted after too few packets. -/
  congested : Nat
  total : Nat
  deriving DecidableEq

structure CongestionRule where
  threshold : ThresholdRatio
  composition : Composition
  deriving DecidableEq

/-- Whether more than half are congested, in 64-bit arithmetic that saturates. -/
def isMajority (congested total : Nat) : Bool := total < min (2 * congested) (UInt64.size - 1)

namespace CongestionRule

variable {ν : Type} [Neighborhood ν]

def flags (table : ν) : List Bool :=
  (Neighborhood.neighbors table).filterMap (Neighborhood.congested table)

def judge (rule : CongestionRule) (counters : PacketCounters) (table : ν) : Verdict :=
  let threshold := rule.threshold.threshold counters.expected
  if counters.received < threshold then
    { selfCongested := true
      neighborsCongested := false
      received := counters.received
      expected := counters.expected
      threshold := threshold
      congested := 0
      total := 0 }
  else
    let flags := flags table
    let congested := flags.count true
    let majority := isMajority congested flags.length
    { selfCongested := rule.composition = .selfOrNeighborhood && majority
      neighborsCongested := majority
      received := counters.received
      expected := counters.expected
      threshold := threshold
      congested := congested
      total := flags.length }

end CongestionRule

end CongestionRouting
