import CongestionRouting.Text.Blank
import CongestionRouting.Text.Numeral

namespace CongestionRouting

inductive RatioError where
  | zeroDenominator
  | zeroNumerator
  | aboveOne (numerator denominator : UInt32)
  deriving DecidableEq

/-- A fraction above zero and up to one, not necessarily in lowest terms. -/
structure ThresholdRatio where
  numerator : UInt32
  denominator : UInt32
  numerator_pos : 0 < numerator.toNat
  numerator_le : numerator.toNat ≤ denominator.toNat
  deriving DecidableEq

inductive RatioParseError where
  | missingSlash
  | invalidNumber
  | invalid (cause : RatioError)
  deriving DecidableEq

namespace RatioError

def message : RatioError → String
  | .zeroDenominator => "threshold ratio denominator must not be zero"
  | .zeroNumerator => "threshold ratio numerator must not be zero"
  | .aboveOne n d => s!"threshold ratio must not exceed 1, got {n}/{d}"

end RatioError

namespace RatioParseError

def message : RatioParseError → String
  | .missingSlash => "expected a fraction such as '1/2'"
  | .invalidNumber => "invalid number in threshold ratio"
  | .invalid cause => cause.message

end RatioParseError

namespace ThresholdRatio

def half : ThresholdRatio := ⟨1, 2, by decide, by decide⟩

def make (n d : UInt32) : Except RatioError ThresholdRatio :=
  if d.toNat = 0 then .error .zeroDenominator
  else if hn : n.toNat = 0 then .error .zeroNumerator
  else if h : n.toNat ≤ d.toNat then .ok ⟨n, d, Nat.pos_of_ne_zero hn, h⟩
  else .error (.aboveOne n d)

def threshold (r : ThresholdRatio) (expected : UInt32) : UInt32 :=
  UInt32.ofNat (expected.toNat * r.numerator.toNat / r.denominator.toNat)

theorem fraction_le (r : ThresholdRatio) (count : Nat) :
    count * r.numerator.toNat / r.denominator.toNat ≤ count :=
  Nat.div_le_of_le_mul (by
    rw [Nat.mul_comm r.denominator.toNat]
    exact Nat.mul_le_mul_left _ r.numerator_le)

theorem toNat_threshold (r : ThresholdRatio) (expected : UInt32) :
    (r.threshold expected).toNat = expected.toNat * r.numerator.toNat / r.denominator.toNat := by
  rw [threshold, UInt32.toNat_ofNat']
  exact Nat.mod_eq_of_lt (Nat.lt_of_le_of_lt (r.fraction_le expected.toNat) expected.toNat_lt)

theorem threshold_le (r : ThresholdRatio) (expected : UInt32) : r.threshold expected ≤ expected := by
  rw [UInt32.le_iff_toNat_le, toNat_threshold]
  exact r.fraction_le expected.toNat

instance : ToString ThresholdRatio := ⟨fun r => s!"{r.numerator}/{r.denominator}"⟩

def splitAtSlash (cs : List Char) : Option (List Char × List Char) :=
  match cs.dropWhile (· ≠ '/') with
  | [] => none
  | _ :: right => some (cs.takeWhile (· ≠ '/'), right)

/-- Blanks may stand around the text and around the slash. -/
def parse (s : String) : Except RatioParseError ThresholdRatio :=
  match splitAtSlash (Text.trim s.toList) with
  | none => .error .missingSlash
  | some (left, right) =>
    match Text.readUInt32 (Text.trim left), Text.readUInt32 (Text.trim right) with
    | .ok n, .ok d => (make n d).mapError .invalid
    | _, _ => .error .invalidNumber

end ThresholdRatio

end CongestionRouting
