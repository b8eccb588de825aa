import CongestionRouting.CountOption
import CongestionRouting.Interval
import CongestionRouting.Route.Priority
import CongestionRouting.Threshold

namespace CongestionRouting

/-- The tests that make a node call itself congested. The majority of its neighbors is counted
either way. -/
inductive Composition where
  | selfOrNeighborhood
  | selfOnly
  deriving DecidableEq

inductive SelectionPolicy where
  /-- The first uncongested candidate in table order, or else the last candidate. -/
  | deterministic
  /-- The first of so many random neighbors that is an uncongested candidate. -/
  | randomized (attempts : UInt8)
  deriving DecidableEq

namespace SelectionPolicy

def standardAttempts : UInt8 := 3

end SelectionPolicy

structure Hysteresis where
  /-- The intervals a route stays before a recovered parent can withdraw it. -/
  minActiveIntervals : UInt32
  /-- The intervals after such a withdrawal during which congestion signals are ignored. -/
  holdDownIntervals : UInt32
  deriving DecidableEq

namespace Hysteresis

def disabled : Hysteresis := ⟨0, 0⟩

def isDisabled (h : Hysteresis) : Bool := h = disabled

end Hysteresis

structure Pacing where
  minInterval : Duration
  maxInterval : Duration
  deriving DecidableEq

namespace Pacing

def standard : Pacing := ⟨.zero, .ofSeconds 256⟩

end Pacing

structure Config where
  threshold : ThresholdRatio
  interval : DetectionInterval
  composition : Composition
  policy : SelectionPolicy
  hysteresis : Hysteresis
  pacing : Pacing
  priority : RoutePriority
  optionType : OptionType
  seed : UInt64
  deriving DecidableEq

inductive ConfigError where
  | zeroInterval
  | intervalNotPowerOfTwo (interval : DetectionInterval)
  | zeroAttempts
  | pacingRange (pacing : Pacing)
  | secondaryPriority
  deriving DecidableEq

namespace ConfigError

def message : ConfigError → String
  | .zeroInterval => "detection interval must not be zero"
  | .intervalNotPowerOfTwo i =>
    s!"detection interval must be 2^n seconds with n at most {DetectionInterval.maxExponent}, " ++
      s!"got {i}"
  | .zeroAttempts => "randomized selection needs at least one attempt"
  | .pacingRange p =>
    s!"notification pacing minimum ({p.minInterval}) must not exceed its maximum " ++
      s!"({p.maxInterval})"
  | .secondaryPriority => "secondary route priority must be lower than the primary route's"

end ConfigError

namespace DetectionInterval

def standardExponent : Nat := 5

def standard : DetectionInterval := ⟨.ofSeconds (UInt64.ofNat (Nat.pow 2 standardExponent))⟩

end DetectionInterval

namespace Config

def standard : Config where
  threshold := .half
  interval := .standard
  composition := .selfOrNeighborhood
  policy := .deterministic
  hysteresis := .disabled
  pacing := .standard
  priority := ⟨1⟩
  optionType := ⟨0x0a⟩
  seed := 0

def check (c : Config) : Except ConfigError Unit :=
  if c.interval.isZero then .error .zeroInterval
  else if c.interval.exponent = none then .error (.intervalNotPowerOfTwo c.interval)
  else if c.policy = .randomized 0 then .error .zeroAttempts
  else if c.pacing.maxInterval < c.pacing.minInterval then .error (.pacingRange c.pacing)
  else if c.priority.isLowerThan .primary then .ok ()
  else .error .secondaryPriority

end Config

end CongestionRouting
