import CongestionRouting.Config

namespace CongestionRouting

structure Pacer where
  pacing : Pacing
  /-- The time to wait after the next notification. -/
  backoff : Duration
  /-- The time before which no notification is due. -/
  nextAllowed : Duration
  deriving DecidableEq

namespace Pacer

def start (pacing : Pacing) : Pacer := ⟨pacing, pacing.minInterval, .zero⟩

/-- Whether a notification is due now, which is then taken as sent. The node waits after each, twice as
long every time up to a bound, and from the shortest time again once it was not congested. -/
def ask (p : Pacer) (now : Duration) (congested : Bool) : Bool × Pacer :=
  if !congested then
    (false, { p with backoff := p.pacing.minInterval, nextAllowed := now })
  else if now < p.nextAllowed then (false, p)
  else
    (true,
      { p with
        backoff := min p.backoff.double p.pacing.maxInterval
        nextAllowed := now.saturatingAdd p.backoff })

end Pacer

end CongestionRouting
