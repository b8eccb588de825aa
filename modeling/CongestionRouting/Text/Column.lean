namespace CongestionRouting.Text

def spaces (n : Nat) : String := String.ofList (List.replicate n ' ')

/-- Padding goes to the left; a text that is too wide stays as it is. -/
def alignRight (width : Nat) (s : String) : String := spaces (width - s.length) ++ s

/-- Padding goes to both sides; of an odd number of spaces the larger half goes to the right. -/
def center (width : Nat) (s : String) : String :=
  let padding := width - s.length
  spaces (padding / 2) ++ s ++ spaces (padding - padding / 2)

end CongestionRouting.Text
