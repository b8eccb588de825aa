import CongestionRouting.Saturating

namespace CongestionRouting

structure OptionType where
  code : UInt8
  deriving DecidableEq

def OptionType.text (t : OptionType) : String :=
  String.ofList ['0', 'x', Nat.digitChar (t.code.toNat / 16), Nat.digitChar (t.code.toNat % 16)]

instance : ToString OptionType := ⟨OptionType.text⟩

structure CountOption where
  type : OptionType
  count : UInt16
  deriving DecidableEq

inductive CountOptionError where
  | truncated (available : Nat)
  | unexpectedType (expected found : OptionType)
  | invalidLength (length : UInt8)
  deriving DecidableEq

structure BufferTooSmall where
  available : Nat
  deriving DecidableEq

namespace CountOption

def payloadLength : UInt8 := 2

def encodedLength : Nat := 4

/-- A count that sixteen bits cannot hold is reported as the largest they can. -/
def ofCount (type : OptionType) (count : UInt32) : CountOption := ⟨type, saturate16 count.toNat⟩

def toBytes (o : CountOption) : List UInt8 :=
  [o.type.code, payloadLength, (o.count >>> 8).toUInt8, o.count.toUInt8]

def encode (o : CountOption) (buffer : List UInt8) : Except BufferTooSmall (List UInt8) :=
  if encodedLength ≤ buffer.length then .ok (o.toBytes ++ buffer.drop encodedLength)
  else .error ⟨buffer.length⟩

def write (o : CountOption) (buffer : List UInt8) : Except BufferTooSmall Nat × List UInt8 :=
  match o.encode buffer with
  | .ok written => (.ok encodedLength, written)
  | .error e => (.error e, buffer)

/-- The sub-option in front of a message; what follows it is left unread. -/
def decode (expected : OptionType) : List UInt8 → Except CountOptionError CountOption
  | type :: length :: high :: low :: _ =>
    if ⟨type⟩ ≠ expected then .error (.unexpectedType expected ⟨type⟩)
    else if length ≠ payloadLength then .error (.invalidLength length)
    else .ok ⟨⟨type⟩, high.toUInt16 <<< 8 ||| low.toUInt16⟩
  | bytes => .error (.truncated bytes.length)

/-- Past the end of a message there is nothing left of it. -/
def decodeAt (expected : OptionType) (message : List UInt8) (offset : Nat) :
    Except CountOptionError CountOption :=
  decode expected (message.drop offset)

end CountOption

namespace CountOptionError

def message : CountOptionError → String
  | .truncated available =>
    s!"sub-option truncated: {available} bytes available, {CountOption.encodedLength} required"
  | .unexpectedType expected found => s!"unexpected sub-option type {found}, expecting {expected}"
  | .invalidLength length =>
    s!"invalid sub-option length {length}, expecting {CountOption.payloadLength}"

end CountOptionError

def BufferTooSmall.message (e : BufferTooSmall) : String :=
  s!"buffer too small for the sub-option: {e.available} bytes available, " ++
    s!"{CountOption.encodedLength} required"

end CongestionRouting
