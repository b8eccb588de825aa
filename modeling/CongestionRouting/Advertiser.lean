namespace CongestionRouting

structure AdvertiserError where
  message : String
  deriving DecidableEq

class Advertiser (α : Type) where
  /-- Has the next advertisement carry the congestion flag. -/
  schedule : α → Except AdvertiserError Unit × α

/-- A flag that waits to be carried by the next advertisement. -/
structure AdvertisedFlag where
  pending : Bool
  /-- How often the flag was raised, pending or not. -/
  scheduled : Nat
  deriving DecidableEq

namespace AdvertisedFlag

def lowered : AdvertisedFlag := ⟨false, 0⟩

def raise (f : AdvertisedFlag) : AdvertisedFlag := ⟨true, f.scheduled + 1⟩

def take (f : AdvertisedFlag) : Bool × AdvertisedFlag := (f.pending, { f with pending := false })

instance : Advertiser AdvertisedFlag := ⟨fun f => (.ok (), f.raise)⟩

end AdvertisedFlag

/-- A flag that cannot be raised while there is a failure. -/
structure UnreliableFlag where
  flag : AdvertisedFlag
  failure : Option String
  deriving DecidableEq

namespace UnreliableFlag

def lowered : UnreliableFlag := ⟨.lowered, none⟩

def schedule (f : UnreliableFlag) : Except AdvertiserError Unit × UnreliableFlag :=
  match f.failure with
  | some message => (.error ⟨message⟩, f)
  | none => (.ok (), { f with flag := f.flag.raise })

instance : Advertiser UnreliableFlag := ⟨schedule⟩

end UnreliableFlag

end CongestionRouting
