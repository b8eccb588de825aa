import CongestionRouting.Interval

namespace CongestionRouting.DetectionInterval

inductive TimeUnit where
  | milliseconds
  | seconds
  | minutes
  deriving DecidableEq

def TimeUnit.nanos : TimeUnit → Nat
  | .milliseconds => 1000000
  | .seconds => Duration.nanosPerSecond
  | .minutes => 60 * Duration.nanosPerSecond

inductive Token where
  | number (value : Nat)
  | unit (unit : TimeUnit)
  deriving DecidableEq

/-- The characters that may stand between tokens; a carriage return is none of them. -/
def isGap (c : Char) : Bool := c = ' ' || c = '\t' || c = '\n' || c = '\x0c'

/-- The longest tokens from the left; `none` marks a character that starts no token and ends the
reading. -/
def tokens (cs : List Char) : List (Option Token) :=
  match cs with
  | [] => []
  | 'm' :: 's' :: rest => some (.unit .milliseconds) :: tokens rest
  | 'm' :: rest => some (.unit .minutes) :: tokens rest
  | 's' :: rest => some (.unit .seconds) :: tokens rest
  | c :: rest =>
    if isGap c then tokens rest
    else if c.isDigit then
      some (.number (Nat.ofDigitChars 10 (c :: rest.takeWhile Char.isDigit) 0)) ::
        tokens (rest.dropWhile Char.isDigit)
    else [none]
termination_by cs.length
decreasing_by
  all_goals simp only [List.length_cons]
  all_goals have := (List.dropWhile_sublist (l := rest) Char.isDigit).length_le
  all_goals omega

/-- Adds the measures that a token sequence denotes. A number has 64 bits, whatever its unit. -/
def addMeasures (total : Duration) : List (Option Token) → Except IntervalFault Duration
  | [] => .ok total
  | none :: _ => .error .unknownToken
  | some (.unit _) :: _ => .error .expectedNumber
  | [some (.number n)] => .error (if n < UInt64.size then .expectedMeasure else .overflow)
  | some (.number n) :: measure :: rest =>
    if n < UInt64.size then
      match measure with
      | some (.unit u) =>
        match (Duration.ofNanos? (n * u.nanos)).bind total.add? with
        | some total => addMeasures total rest
        | none => .error .overflow
      | _ => .error .expectedMeasure
    else .error .overflow

def parse (s : String) : Except IntervalError DetectionInterval :=
  match addMeasures .zero (tokens s.toList) with
  | .ok total => .ok ⟨total⟩
  | .error fault => .error (.unreadable fault s)

end CongestionRouting.DetectionInterval
