namespace CongestionRouting.Text

def fixedDigits : Nat → Nat → List Char
  | 0, _ => []
  | width + 1, n => fixedDigits width (n / 10) ++ [Nat.digitChar (n % 10)]

def dropTrailingZeros (ds : List Char) : List Char :=
  (ds.reverse.dropWhile (· = '0')).reverse

def fractionText (places n : Nat) : List Char :=
  match dropTrailingZeros (fixedDigits places n) with
  | [] => []
  | d :: ds => '.' :: d :: ds

/-- The text of `n / 10 ^ places`. -/
def decimalText (places n : Nat) : List Char :=
  Nat.toDigits 10 (n / Nat.pow 10 places) ++ fractionText places n

end CongestionRouting.Text
