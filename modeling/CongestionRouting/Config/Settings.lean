import CongestionRouting.Config
import CongestionRouting.Interval.Parser

namespace CongestionRouting

structure Settings where
  ratio : Option (UInt32 × UInt32)
  /-- The ratio as text, which counts more than the pair. -/
  threshold : Option String
  interval : Option String
  /-- The interval as a span, which counts more than the text. -/
  duration : Option Duration
  selfOnly : Option Bool
  attempts : Option UInt8
  hysteresis : Option Hysteresis
  pacing : Option Pacing
  priority : Option RoutePriority
  optionType : Option OptionType
  seed : Option UInt64
  deriving DecidableEq

inductive SettingsError where
  | ratio (cause : RatioError)
  | threshold (cause : RatioParseError)
  | interval (cause : IntervalError)
  deriving DecidableEq

namespace SettingsError

def message : SettingsError → String
  | .ratio cause => cause.message
  | .threshold cause => cause.message
  | .interval cause => cause.message

end SettingsError

namespace Settings

/-- A given value must be readable even where another one counts more. -/
def readRatio (s : Settings) : Except SettingsError ThresholdRatio := do
  let pair ← match s.ratio with
    | some (n, d) => (ThresholdRatio.make n d).mapError .ratio
    | none => .ok Config.standard.threshold
  match s.threshold with
  | some text => (ThresholdRatio.parse text).mapError .threshold
  | none => .ok pair

def readInterval (s : Settings) : Except SettingsError DetectionInterval := do
  let written ← match s.interval with
    | some text => (DetectionInterval.parse text).mapError .interval
    | none => .ok Config.standard.interval
  .ok (s.duration.elim written DetectionInterval.mk)

def toConfig (s : Settings) : Except SettingsError Config := do
  let threshold ← s.readRatio
  let interval ← s.readInterval
  .ok {
    threshold := threshold
    interval := interval
    composition := if s.selfOnly = some true then .selfOnly else .selfOrNeighborhood
    policy := s.attempts.elim .deterministic .randomized
    hysteresis := s.hysteresis.getD Config.standard.hysteresis
    pacing := s.pacing.getD Config.standard.pacing
    priority := s.priority.getD Config.standard.priority
    optionType := s.optionType.getD Config.standard.optionType
    seed := s.seed.getD Config.standard.seed }

end Settings

end CongestionRouting
