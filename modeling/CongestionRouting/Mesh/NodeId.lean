import CongestionRouting.Address
import CongestionRouting.Text.Numeral

namespace CongestionRouting

structure NodeId where
  value : UInt16
  deriving DecidableEq, Hashable

namespace NodeId

def index (id : NodeId) : Nat := id.value.toNat

theorem index_inj {i j : NodeId} : i.index = j.index ↔ i = j := by
  rw [index, index, UInt16.toNat_inj, NodeId.mk.injEq]

instance : ToString NodeId := ⟨fun id => toString id.value⟩

def parse (s : String) : Except Text.NumeralFault NodeId := (Text.readUInt16 s.toList).map NodeId.mk

/-- The address that a short address of sixteen bits gives rise to. -/
def address (id : NodeId) : Address := ⟨#v[0xfe80, 0, 0, 0, 0, 0x00ff, 0xfe00, id.value]⟩

def ofAddress? (a : Address) : Option NodeId :=
  if address ⟨a.groups[7]⟩ = a then some ⟨a.groups[7]⟩ else none

theorem ofAddress?_eq_some_iff {a : Address} {id : NodeId} :
    ofAddress? a = some id ↔ id.address = a := by
  unfold ofAddress?
  constructor
  · intro h
    split at h
    · next ha => exact Option.some.inj h ▸ ha
    · simp at h
  · rintro rfl
    simp [address]

theorem address_inj {i j : NodeId} (h : i.address = j.address) : i = j := by
  have hi := ofAddress?_eq_some_iff.2 h
  have hj := ofAddress?_eq_some_iff.2 (rfl : j.address = j.address)
  exact Option.some.inj (hi.symm.trans hj)

end NodeId

end CongestionRouting
