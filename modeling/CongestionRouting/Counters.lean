import CongestionRouting.Saturating

namespace CongestionRouting

structure PacketCounters where
  /-- Packets received. -/
  received : UInt32
  /-- Packets that the node's children report to have sent. -/
  expected : UInt32
  /-- Packets sent to the preferred parent since the last report. -/
  sent : UInt32
  deriving DecidableEq

namespace PacketCounters

def zero : PacketCounters := ⟨0, 0, 0⟩

def addReceived (c : PacketCounters) (n : Nat) : PacketCounters :=
  { c with received := saturate32 (c.received.toNat + n) }

def addExpected (c : PacketCounters) (n : Nat) : PacketCounters :=
  { c with expected := saturate32 (c.expected.toNat + n) }

def addSent (c : PacketCounters) (n : Nat) : PacketCounters :=
  { c with sent := saturate32 (c.sent.toNat + n) }

def takeSent (c : PacketCounters) : UInt32 × PacketCounters := (c.sent, { c with sent := 0 })

/-- Starts an interval; what was sent is still to be reported. -/
def restart (c : PacketCounters) : PacketCounters := { c with received := 0, expected := 0 }

end PacketCounters

end CongestionRouting
