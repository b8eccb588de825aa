import CongestionRouting.Session.CountEvent

namespace CongestionRouting

inductive EngineEvent where
  | start
  | stop
  | tick
  | count (event : CountEvent)
  | reseed (seed : UInt64)
  | forget (h : NeighborHandle)
  | request
  | withdraw (reason : WithdrawalReason)
  | endInterval
  | judge
  | ask (now : Duration) (congested : Bool)
  | select (preferred : NeighborHandle) (policy : SelectionPolicy) (times : Nat)
  deriving DecidableEq

namespace Engine

variable {ν ρ α τ : Type} [Neighborhood ν] [RouteStore ρ] [Advertiser α] [IntervalTimer τ]

def step (e : Engine) (host : Host ν ρ α τ) : EngineEvent → Answer × Engine × Host ν ρ α τ
  | .start => (.done, e.start host)
  | .stop => (.done, e.stop host)
  | .tick =>
    let (report, e, host) := e.tick host
    (.report report, e, host)
  | .count event =>
    let (answer, counters) := e.counters.step event
    (answer, { e with counters := counters }, host)
  | .reseed seed => (.done, e.reseed seed, host)
  | .forget h =>
    let (withdrawn, e, host) := e.forget h host
    (.flag withdrawn, e, host)
  | .request =>
    let (activation, e, host) := e.request host
    (.activation (some activation), e, host)
  | .withdraw reason =>
    let (hop, e, host) := e.withdraw reason host
    (.address hop, e, host)
  | .endInterval =>
    let (outcome, steering, routes) := e.steering.endInterval host.neighbors host.routes
    (.outcome outcome, { e with steering := steering }, { host with routes := routes })
  | .judge => (.verdict (e.judge host.neighbors), e, host)
  | .ask now congested =>
    let (due, pacer) := e.pacer.ask now congested
    (.flag due, { e with pacer := pacer }, host)
  | .select preferred policy times =>
    let (choices, random) :=
      Selection.selectRepeatedly policy host.neighbors preferred times e.random
    (.handles choices, { e with random := random }, host)

end Engine

end CongestionRouting
