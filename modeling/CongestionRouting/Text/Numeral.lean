namespace CongestionRouting.Text

inductive NumeralFault where
  | empty
  | invalidDigit
  | tooLarge
  deriving DecidableEq

def NumeralFault.message : NumeralFault → String
  | .empty => "cannot parse integer from empty string"
  | .invalidDigit => "invalid digit found in string"
  | .tooLarge => "number too large to fit in target type"

def digit? (c : Char) : Option Nat :=
  if c.isDigit then some (c.toNat - '0'.toNat) else none

/-- Appends digits to a number. The first character that is no digit, or that takes the number past
the limit, is the fault. -/
def readDigits (limit : Nat) : Nat → List Char → Except NumeralFault Nat
  | n, [] => .ok n
  | n, c :: cs =>
    match digit? c with
    | none => .error .invalidDigit
    | some d =>
      if 10 * n + d ≤ limit then readDigits limit (10 * n + d) cs else .error .tooLarge

/-- The number that a text denotes, at most `limit`; a sign alone is an invalid digit. -/
def readNumeral (limit : Nat) : List Char → Except NumeralFault Nat
  | [] => .error .empty
  | ['+'] => .error .invalidDigit
  | '+' :: cs => readDigits limit 0 cs
  | cs => readDigits limit 0 cs

def readUInt8 (cs : List Char) : Except NumeralFault UInt8 :=
  (readNumeral 0xff cs).map UInt8.ofNat

def readUInt16 (cs : List Char) : Except NumeralFault UInt16 :=
  (readNumeral 0xffff cs).map UInt16.ofNat

def readUInt32 (cs : List Char) : Except NumeralFault UInt32 :=
  (readNumeral 0xffffffff cs).map UInt32.ofNat

def readUInt64 (cs : List Char) : Except NumeralFault UInt64 :=
  (readNumeral 0xffffffffffffffff cs).map UInt64.ofNat

end CongestionRouting.Text
