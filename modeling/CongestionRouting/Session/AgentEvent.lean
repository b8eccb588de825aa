import CongestionRouting.Session.CountEvent

namespace CongestionRouting

inductive AgentEvent where
  | start
  | stop
  | tick
  | count (event : CountEvent)
  | reseed (seed : UInt64)
  | forget (h : NeighborHandle)
  | signal (sender : Address)
  | makeReport
  | receiveReport (message : List UInt8) (offset : Nat)
  deriving DecidableEq

namespace Agent

variable {ν ρ α τ : Type} [Neighborhood ν] [RouteStore ρ] [Advertiser α] [IntervalTimer τ]

def step (a : Agent) (host : Host ν ρ α τ) : AgentEvent → Answer × Agent × Host ν ρ α τ
  | .start => (.done, a.start host)
  | .stop => (.done, a.stop host)
  | .tick =>
    let (report, a, host) := a.tick host
    (.report report, a, host)
  | .count event =>
    let (answer, counters) := a.engine.counters.step event
    (answer, { a with engine := { a.engine with counters := counters } }, host)
  | .reseed seed => (.done, a.reseed seed, host)
  | .forget h =>
    let (withdrawn, a, host) := a.forget h host
    (.flag withdrawn, a, host)
  | .signal sender =>
    let (activation, a, host) := a.receiveSignal sender host
    (.activation activation, a, host)
  | .makeReport =>
    let (option, a) := a.report
    (.bytes option.toBytes, a, host)
  | .receiveReport message offset =>
    let (count, a) := a.receiveReport message offset
    (.count count, a, host)

end Agent

end CongestionRouting
