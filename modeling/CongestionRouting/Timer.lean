import CongestionRouting.Duration

namespace CongestionRouting

class IntervalTimer (τ : Type) where
  /-- Sets the period and arms the timer. -/
  set : τ → Duration → τ
  /-- Arms the timer for another period. -/
  rearm : τ → τ
  stop : τ → τ

structure CountingTimer where
  period : Option Duration
  armed : Bool
  rearms : Nat
  deriving DecidableEq

namespace CountingTimer

def idle : CountingTimer := ⟨none, false, 0⟩

def set (t : CountingTimer) (period : Duration) : CountingTimer :=
  { t with period := some period, armed := true }

/-- Without a period there is nothing to rearm. -/
def rearm (t : CountingTimer) : CountingTimer :=
  if t.period.isSome then { t with armed := true, rearms := t.rearms + 1 } else t

def stop (t : CountingTimer) : CountingTimer := { t with armed := false }

instance : IntervalTimer CountingTimer := ⟨set, rearm, stop⟩

end CountingTimer

end CongestionRouting
