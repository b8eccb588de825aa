import CongestionRouting.Session.Answer

namespace CongestionRouting

inductive CountEvent where
  | received (n : Nat)
  | sent (n : Nat)
  | expected (n : UInt32)
  | takeSent
  | restart
  deriving DecidableEq

namespace PacketCounters

def step (c : PacketCounters) : CountEvent → Answer × PacketCounters
  | .received n => (.done, c.addReceived n)
  | .sent n => (.done, c.addSent n)
  | .expected n => (.done, c.addExpected n.toNat)
  | .takeSent => (.number c.takeSent.1.toNat, c.takeSent.2)
  | .restart => (.done, c.restart)

end PacketCounters

end CongestionRouting
