import CongestionRouting.Host
import CongestionRouting.Pacer
import CongestionRouting.Random.ChaCha
import CongestionRouting.Route.Steering
import CongestionRouting.Verdict

namespace CongestionRouting

structure IntervalClock where
  interval : DetectionInterval
  elapsed : Duration
  ticks : UInt64
  running : Bool
  deriving DecidableEq

namespace IntervalClock

def stopped (interval : DetectionInterval) : IntervalClock := ⟨interval, .zero, 0, false⟩

def advance (c : IntervalClock) : IntervalClock :=
  { c with elapsed := c.elapsed.saturatingAdd c.interval.duration, ticks := c.ticks + 1 }

end IntervalClock

structure NotificationError where
  cause : AdvertiserError
  deriving DecidableEq

def NotificationError.message (e : NotificationError) : String :=
  s!"Failed to schedule the congestion notification: {e.cause.message}"

structure TickReport where
  /-- The number of the interval, from one on. -/
  tick : UInt64
  elapsed : Duration
  verdict : Verdict
  notified : Bool
  outcome : IntervalOutcome
  errors : List NotificationError
  deriving DecidableEq

structure Engine where
  counters : PacketCounters
  rule : CongestionRule
  pacer : Pacer
  steering : Steering
  clock : IntervalClock
  random : ChaCha
  deriving DecidableEq

namespace Engine

variable {ν ρ α τ : Type} [Neighborhood ν] [RouteStore ρ] [Advertiser α] [IntervalTimer τ]

def ofConfig (c : Config) : Engine where
  counters := .zero
  rule := ⟨c.threshold, c.composition⟩
  pacer := .start c.pacing
  steering := .start c.policy c.priority c.hysteresis
  clock := .stopped c.interval
  random := .ofSeed c.seed

def start (e : Engine) (host : Host ν ρ α τ) : Engine × Host ν ρ α τ :=
  ({ e with clock := { e.clock with running := true } },
    { host with timer := IntervalTimer.set host.timer e.clock.interval.duration })

/-- Stops the clock, and leaves the detour as it is. -/
def stop (e : Engine) (host : Host ν ρ α τ) : Engine × Host ν ρ α τ :=
  ({ e with clock := { e.clock with running := false } },
    { host with timer := IntervalTimer.stop host.timer })

def judge (e : Engine) (table : ν) : Verdict := e.rule.judge e.counters table

/-- Asks for a notification if one is due, and tells whether it was scheduled. -/
def notify (pacer : Pacer) (now : Duration) (congested : Bool) (advertiser : α) :
    Bool × List NotificationError × Pacer × α :=
  match pacer.ask now congested with
  | (false, pacer) => (false, [], pacer, advertiser)
  | (true, pacer) =>
    -- To the pacer the notification is sent, whatever the advertiser makes of it.
    match Advertiser.schedule advertiser with
    | (.ok (), advertiser) => (true, [], pacer, advertiser)
    | (.error cause, advertiser) => (false, [⟨cause⟩], pacer, advertiser)

/-- Ends an interval. While the clock stands nothing happens. -/
def tick (e : Engine) (host : Host ν ρ α τ) : Option TickReport × Engine × Host ν ρ α τ :=
  if !e.clock.running then (none, e, host)
  else
    let clock := e.clock.advance
    let verdict := e.judge host.neighbors
    let (notified, errors, pacer, advertiser) :=
      notify e.pacer clock.elapsed verdict.selfCongested host.advertiser
    let (outcome, steering, routes) := e.steering.endInterval host.neighbors host.routes
    (some ⟨clock.ticks, clock.elapsed, verdict, notified, outcome, errors⟩,
      { e with
        counters := e.counters.restart
        pacer := pacer
        steering := steering
        clock := clock },
      { neighbors := Neighborhood.clearFlags host.neighbors
        routes := routes
        advertiser := advertiser
        timer := IntervalTimer.rearm host.timer })

def request (e : Engine) (host : Host ν ρ α τ) : Activation × Engine × Host ν ρ α τ :=
  let (activation, steering, routes, random) :=
    e.steering.request host.neighbors host.routes e.random
  (activation, { e with steering := steering, random := random }, { host with routes := routes })

def withdraw (e : Engine) (reason : WithdrawalReason) (host : Host ν ρ α τ) :
    Option Address × Engine × Host ν ρ α τ :=
  let (hop, steering, routes) := e.steering.withdraw host.routes reason
  (hop, { e with steering := steering }, { host with routes := routes })

def forget (e : Engine) (h : NeighborHandle) (host : Host ν ρ α τ) :
    Bool × Engine × Host ν ρ α τ :=
  let (withdrawn, steering, routes) := e.steering.forget h host.routes
  (withdrawn, { e with steering := steering }, { host with routes := routes })

def reseed (e : Engine) (seed : UInt64) : Engine := { e with random := .ofSeed seed }

end Engine

end CongestionRouting
