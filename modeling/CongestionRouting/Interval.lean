import CongestionRouting.Duration

namespace CongestionRouting

structure DetectionInterval where
  duration : Duration
  deriving DecidableEq

inductive IntervalFault where
  | unknownToken
  | expectedNumber
  | expectedMeasure
  | overflow
  deriving DecidableEq

inductive IntervalError where
  | exponentTooLarge (exponent : Nat)
  | unreadable (fault : IntervalFault) (input : String)
  deriving DecidableEq

namespace DetectionInterval

def maxExponent : Nat := 15

def isZero (i : DetectionInterval) : Bool := i.duration.nanos = 0

def ofExponent (n : Nat) : Except IntervalError DetectionInterval :=
  if n ≤ maxExponent then .ok ⟨.ofSeconds (UInt64.ofNat (Nat.pow 2 n))⟩
  else .error (.exponentTooLarge n)

/-- The zeros at the end of a binary number of so many places. -/
def trailingZeros : Nat → Nat → Nat
  | 0, _ => 0
  | places + 1, n => if n % 2 = 0 then trailingZeros places (n / 2) + 1 else 0

/-- The n for which the interval lasts 2 ^ n seconds, up to the largest exponent in use. -/
def exponent (i : DetectionInterval) : Option Nat :=
  if i.duration.subsecond ≠ 0 then none
  else
    let seconds := i.duration.seconds
    if ¬seconds.isPowerOfTwo then none
    else
      let n := trailingZeros 64 seconds
      if n ≤ maxExponent then some n else none

instance : ToString DetectionInterval := ⟨fun i => toString i.duration⟩

end DetectionInterval

namespace IntervalError

def message : IntervalError → String
  | .exponentTooLarge n =>
    s!"detection interval exponent {n} is above the maximum of {DetectionInterval.maxExponent}"
  | .unreadable .unknownToken input => s!"Failed to parse: {input}"
  | .unreadable .expectedNumber input =>
    s!"Expecting interval to start with a number, cannot parse {input}"
  | .unreadable .expectedMeasure input => s!"Expecting a measure, failed to parse: {input}"
  | .unreadable .overflow input => s!"number out of range in {input}"

end IntervalError

end CongestionRouting
