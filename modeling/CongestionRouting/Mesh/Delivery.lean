import CongestionRouting.Random
import CongestionRouting.Text.Blank
import CongestionRouting.Text.Numeral

namespace CongestionRouting

structure Delivery where
  percent : UInt8
  percent_le : percent.toNat ≤ 100
  deriving DecidableEq

structure DeliveryError where
  percent : UInt8
  deriving DecidableEq

inductive DeliveryParseError where
  | missingSuffix
  | invalidNumber
  | outOfRange (cause : DeliveryError)
  deriving DecidableEq

def DeliveryError.message (e : DeliveryError) : String :=
  s!"delivery ratio must be in [0, 100]%, got {e.percent}%"

def DeliveryParseError.message : DeliveryParseError → String
  | .missingSuffix => "expected '%' suffix"
  | .invalidNumber => "invalid number before '%'"
  | .outOfRange cause => cause.message

namespace Delivery

def always : Delivery := ⟨100, by decide⟩

def never : Delivery := ⟨0, by decide⟩

def ofPercent (percent : UInt8) : Except DeliveryError Delivery :=
  if h : percent.toNat ≤ 100 then .ok ⟨percent, h⟩ else .error ⟨percent⟩

instance : ToString Delivery := ⟨fun d => s!"{d.percent}%"⟩

def stripPercentSign (cs : List Char) : Option (List Char) :=
  match cs.reverse with
  | '%' :: number => some number.reverse
  | _ => none

/-- Blanks may stand around the text and in front of the sign. -/
def parse (s : String) : Except DeliveryParseError Delivery :=
  match stripPercentSign (Text.trim s.toList) with
  | none => .error .missingSuffix
  | some number =>
    match Text.readUInt8 (Text.trim number) with
    | .error _ => .error .invalidNumber
    | .ok percent => (ofPercent percent).mapError .outOfRange

/-- Whether a packet arrives. A link that loses all packets or none draws no random word. -/
def deliver {γ : Type} [RandomSource γ] (d : Delivery) (random : γ) : Bool × γ :=
  if d.percent = 0 then (false, random)
  else if d.percent = 100 then (true, random)
  else
    let (drawn, random) := drawBelow 100 random
    (drawn < d.percent.toNat, random)

end Delivery

end CongestionRouting
