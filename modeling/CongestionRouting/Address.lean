namespace CongestionRouting

/-- Eight groups of sixteen bits, the most significant first. -/
structure Address where
  groups : Vector UInt16 8
  deriving DecidableEq

namespace Address

def zeroRun (groups : List UInt16) : Nat := (groups.takeWhile (· == 0)).length

/-- Position and length of the longest run of zero groups, the first one of equal length. -/
def longestZeroRun (groups : List UInt16) : Nat × Nat :=
  (List.range groups.length).foldl
    (fun best start =>
      let run := zeroRun (groups.drop start)
      if best.2 < run then (start, run) else best)
    (0, 0)

def groupsText (groups : List UInt16) : String :=
  ":".intercalate (groups.map fun g => String.ofList (Nat.toDigits 16 g.toNat))

def dottedText (high low : UInt16) : String :=
  let bytes := [high >>> 8, high &&& 0xff, low >>> 8, low &&& 0xff]
  ".".intercalate (bytes.map fun b => toString b.toNat)

/-- The longest run of at least two zero groups is written as a double colon; an address that
embeds an IPv4 address ends in its dotted form. -/
def text (a : Address) : String :=
  match a.groups.toList with
  | [0, 0, 0, 0, 0, 0xffff, high, low] => "::ffff:" ++ dottedText high low
  | groups =>
    let run := longestZeroRun groups
    if run.2 < 2 then groupsText groups
    else groupsText (groups.take run.1) ++ "::" ++ groupsText (groups.drop (run.1 + run.2))

instance : ToString Address := ⟨text⟩

end Address

end CongestionRouting
