import CongestionRouting.Neighbor.Neighborhood

namespace CongestionRouting

structure Neighbor where
  address : Address
  routingParent : Bool
  congested : Bool
  deriving DecidableEq

/-- The slot of an entry that is removed counts one generation up, so that a handle to the removed entry
resolves to nothing from there on. -/
structure NeighborSlot where
  generation : UInt32
  entry : Option Neighbor
  deriving DecidableEq

structure NeighborTable where
  slots : List NeighborSlot
  /-- The slots without an entry, the one to be filled next in front. -/
  vacant : List UInt32
  capacity : Nat
  /-- The number of entries. -/
  size : Nat
  preferredParent : Option NeighborHandle
  deriving DecidableEq

inductive NeighborError where
  | full (capacity : Nat)
  | duplicate (address : Address)
  | notFound (handle : NeighborHandle)
  deriving DecidableEq

namespace NeighborError

def message : NeighborError → String
  | .full capacity => s!"neighbor table is full ({capacity} entries)"
  | .duplicate address => s!"neighbor {address} is already in the table"
  | .notFound handle => s!"neighbor {handle} is not in the table"

end NeighborError

namespace NeighborTable

def standardCapacity : Nat := 16

def empty (capacity : Nat) : NeighborTable := ⟨[], [], capacity, 0, none⟩

def isEmpty (t : NeighborTable) : Bool := t.size = 0

def get? (t : NeighborTable) (h : NeighborHandle) : Option Neighbor :=
  match t.slots[h.index.toNat]? with
  | some slot => if slot.generation = h.generation then slot.entry else none
  | none => none

def contains (t : NeighborTable) (h : NeighborHandle) : Bool := (t.get? h).isSome

def handles (t : NeighborTable) : List NeighborHandle :=
  t.slots.zipIdx.filterMap fun (slot, i) =>
    slot.entry.map fun _ => ⟨UInt32.ofNat i, slot.generation⟩

def lookup (t : NeighborTable) (address : Address) : Option NeighborHandle :=
  t.handles.find? fun h => (t.get? h).map Neighbor.address = some address

def modifyEntry (t : NeighborTable) (index : UInt32) (f : Neighbor → Neighbor) : NeighborTable :=
  { t with slots := t.slots.modify index.toNat fun slot => { slot with entry := slot.entry.map f } }

def fill (t : NeighborTable) (index : UInt32) (entry : Neighbor) :
    NeighborHandle × NeighborTable :=
  let generation := (t.slots[index.toNat]?.map NeighborSlot.generation).getD 0
  (⟨index, generation⟩,
    { t with
      slots := t.slots.modify index.toNat fun slot => { slot with entry := some entry }
      size := t.size + 1 })

/-- A new entry goes to the slot that was vacated last, or else behind all slots. -/
def place (t : NeighborTable) (entry : Neighbor) : NeighborHandle × NeighborTable :=
  match t.vacant with
  | index :: vacant => fill { t with vacant := vacant } index entry
  | [] => fill { t with slots := t.slots ++ [⟨0, none⟩] } (UInt32.ofNat t.slots.length) entry

def insert (t : NeighborTable) (address : Address) (routingParent : Bool) :
    Except NeighborError (NeighborHandle × NeighborTable) :=
  if (t.lookup address).isSome then .error (.duplicate address)
  else if t.size < t.capacity then .ok (t.place ⟨address, routingParent, false⟩)
  else .error (.full t.capacity)

/-- Takes an entry out; the preferred parent is forgotten with it. -/
def remove (t : NeighborTable) (h : NeighborHandle) : Option Neighbor × NeighborTable :=
  match t.get? h with
  | none => (none, t)
  | some entry =>
    (some entry,
      { t with
        slots := t.slots.modify h.index.toNat fun slot => ⟨slot.generation + 1, none⟩
        vacant := h.index :: t.vacant
        size := t.size - 1
        preferredParent := if t.preferredParent = some h then none else t.preferredParent })

def setPreferredParent (t : NeighborTable) (parent : Option NeighborHandle) :
    Except NeighborError NeighborTable :=
  match parent with
  | none => .ok { t with preferredParent := none }
  | some h =>
    if t.contains h then .ok { t with preferredParent := some h } else .error (.notFound h)

def setRoutingParent (t : NeighborTable) (h : NeighborHandle) (value : Bool) :
    Except NeighborError NeighborTable :=
  if t.contains h then
    .ok (t.modifyEntry h.index fun entry => { entry with routingParent := value })
  else .error (.notFound h)

def setCongested (t : NeighborTable) (h : NeighborHandle) (value : Bool) : Bool × NeighborTable :=
  if t.contains h then
    (true, t.modifyEntry h.index fun entry => { entry with congested := value })
  else (false, t)

def clearFlags (t : NeighborTable) : NeighborTable :=
  { t with
    slots := t.slots.map fun slot =>
      { slot with entry := slot.entry.map fun entry => { entry with congested := false } } }

instance : Neighborhood NeighborTable where
  neighbors := handles
  address t h := (t.get? h).map Neighbor.address
  lookup := lookup
  isRoutingParent t h := (t.get? h).any Neighbor.routingParent
  congested t h := (t.get? h).map Neighbor.congested
  setCongested := setCongested
  preferredParent := preferredParent
  clearFlags := clearFlags

end NeighborTable

end CongestionRouting
