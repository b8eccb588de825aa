import CongestionRouting.Signal
import CongestionRouting.Neighbor.Table

namespace CongestionRouting.NeighborTable

variable {t t' : NeighborTable} {h : NeighborHandle} {entry : Neighbor}

def entries (t : NeighborTable) : List Neighbor := t.slots.filterMap NeighborSlot.entry

theorem mem_entries : entry ∈ t.entries ↔ ∃ slot ∈ t.slots, slot.entry = some entry :=
  List.mem_filterMap

theorem mem_entries_of_get? (hg : t.get? h = some entry) : entry ∈ t.entries := by
  unfold get? at hg
  split at hg
  · next slot hslot =>
    split at hg
    · exact mem_entries.2 ⟨slot, List.mem_of_getElem? hslot, hg⟩
    · exact absurd hg nofun
  · exact absurd hg nofun

theorem contains_of_get? (hg : t.get? h = some entry) : Neighborhood.contains t h = true := by
  change ((t.get? h).map Neighbor.address).isSome = true
  rw [hg]
  rfl

theorem isRoutingParent_of_get? (hg : t.get? h = some entry) :
    Neighborhood.isRoutingParent t h = entry.routingParent := by
  change (t.get? h).any Neighbor.routingParent = entry.routingParent
  rw [hg]
  rfl

/-- A modified list holds old members, and the modified one of them. -/
theorem mem_modify {α : Type} {l : List α} {i : Nat} {f : α → α} {x : α} (hx : x ∈ l.modify i f) :
    x ∈ l ∨ ∃ y ∈ l, x = f y := by
  obtain ⟨j, hj⟩ := List.mem_iff_getElem?.1 hx
  rw [List.getElem?_modify] at hj
  obtain ⟨y, hy, hxy⟩ := Option.map_eq_some_iff.1 hj
  have hmem := List.mem_of_getElem? hy
  by_cases hi : i = j
  · exact .inr ⟨y, hmem, by simpa [hi] using hxy.symm⟩
  · have heq : y = x := by simpa [hi] using hxy
    exact .inl (heq ▸ hmem)

theorem mem_entries_fill {i : UInt32} {new : Neighbor} (he : entry ∈ (t.fill i new).2.entries) :
    entry ∈ t.entries ∨ entry = new := by
  obtain ⟨slot, hslot, hentry⟩ := mem_entries.1 he
  rcases mem_modify hslot with hold | ⟨old, -, rfl⟩
  · exact .inl (mem_entries.2 ⟨slot, hold, hentry⟩)
  · exact .inr (Option.some.inj hentry).symm

/-- A new neighbor is placed if its address is new and there is room, and refused otherwise. -/
theorem insert_eq_ok_iff {address : Address} {routingParent : Bool} :
    t.insert address routingParent = .ok (h, t') ↔
      t.lookup address = none ∧ t.size < t.capacity ∧
        t.place ⟨address, routingParent, false⟩ = (h, t') := by
  unfold insert
  split
  · next hold => simp [Option.isSome_iff_ne_none.1 hold]
  · next hnew =>
    split
    · next hroom => simp [Option.not_isSome_iff_eq_none.1 hnew, hroom]
    · next hfull => simp [hfull]

theorem mem_entries_insert {address : Address} {routingParent : Bool}
    (hi : t.insert address routingParent = .ok (h, t')) (he : entry ∈ t'.entries) :
    entry ∈ t.entries ∨ entry = ⟨address, routingParent, false⟩ := by
  obtain ⟨-, -, hplace⟩ := insert_eq_ok_iff.1 hi
  have ht : t' = (t.place ⟨address, routingParent, false⟩).2 := by rw [hplace]
  rw [ht, place] at he
  split at he
  · exact mem_entries_fill he
  · rcases mem_entries_fill he with hold | hnew
    · simp only [entries, List.filterMap_append, List.mem_append] at hold
      rcases hold with hold | hvacant
      · exact .inl hold
      · exact absurd hvacant (by simp)
    · exact .inr hnew

theorem mem_entries_remove (he : entry ∈ (t.remove h).2.entries) : entry ∈ t.entries := by
  unfold remove at he
  split at he
  · exact he
  · obtain ⟨slot, hslot, hentry⟩ := mem_entries.1 he
    rcases mem_modify hslot with hold | ⟨old, -, rfl⟩
    · exact mem_entries.2 ⟨slot, hold, hentry⟩
    · exact absurd hentry nofun

theorem mem_entries_setCongested {value : Bool}
    (he : entry ∈ (t.setCongested h value).2.entries) :
    ∃ old ∈ t.entries, old.address = entry.address ∧ old.routingParent = entry.routingParent := by
  unfold setCongested at he
  split at he
  · obtain ⟨slot, hslot, hentry⟩ := mem_entries.1 he
    rcases mem_modify hslot with hold | ⟨old, hmem, rfl⟩
    · exact ⟨entry, mem_entries.2 ⟨slot, hold, hentry⟩, rfl, rfl⟩
    · obtain ⟨before, hbefore, rfl⟩ := Option.map_eq_some_iff.1 hentry
      exact ⟨before, mem_entries.2 ⟨old, hmem, hbefore⟩, rfl, rfl⟩
  · exact ⟨entry, he, rfl, rfl⟩

theorem mem_entries_clearFlags (he : entry ∈ t.clearFlags.entries) :
    ∃ old ∈ t.entries, old.address = entry.address ∧ old.routingParent = entry.routingParent := by
  obtain ⟨slot, hslot, hentry⟩ := mem_entries.1 he
  obtain ⟨old, hmem, rfl⟩ := List.mem_map.1 hslot
  obtain ⟨before, hbefore, rfl⟩ := Option.map_eq_some_iff.1 hentry
  exact ⟨before, mem_entries.2 ⟨old, hmem, hbefore⟩, rfl, rfl⟩

/-- All routing parents have addresses of a kind. -/
def RoutesVia (P : Address → Prop) (t : NeighborTable) : Prop :=
  ∀ entry ∈ t.entries, entry.routingParent = true → P entry.address

variable {P : Address → Prop}

theorem routesVia_empty (capacity : Nat) : (empty capacity).RoutesVia P := nofun

theorem RoutesVia.insert (ht : t.RoutesVia P) {address : Address} {routingParent : Bool}
    (hi : t.insert address routingParent = .ok (h, t'))
    (ha : routingParent = true → P address) : t'.RoutesVia P := by
  intro entry he hr
  rcases mem_entries_insert hi he with hold | rfl
  · exact ht entry hold hr
  · exact ha hr

theorem RoutesVia.remove (ht : t.RoutesVia P) (h : NeighborHandle) : (t.remove h).2.RoutesVia P :=
  fun entry he hr => ht entry (mem_entries_remove he) hr

theorem RoutesVia.setCongested (ht : t.RoutesVia P) (h : NeighborHandle) (value : Bool) :
    (t.setCongested h value).2.RoutesVia P := by
  intro entry he hr
  obtain ⟨old, hold, haddress, hrouting⟩ := mem_entries_setCongested he
  exact haddress ▸ ht old hold (hrouting.trans hr)

theorem RoutesVia.clearFlags (ht : t.RoutesVia P) : t.clearFlags.RoutesVia P := by
  intro entry he hr
  obtain ⟨old, hold, haddress, hrouting⟩ := mem_entries_clearFlags he
  exact haddress ▸ ht old hold (hrouting.trans hr)

theorem RoutesVia.setPreferredParent (ht : t.RoutesVia P) {parent : Option NeighborHandle}
    (hs : t.setPreferredParent parent = .ok t') : t'.RoutesVia P := by
  unfold NeighborTable.setPreferredParent at hs
  split at hs
  · injection hs with hs
    exact hs ▸ ht
  · split at hs
    · injection hs with hs
      exact hs ▸ ht
    · exact absurd hs nofun

theorem RoutesVia.recordSignal (ht : t.RoutesVia P) (sender : Address) :
    (recordSignal sender t).2.RoutesVia P := by
  unfold CongestionRouting.recordSignal
  cases Neighborhood.lookup t sender with
  | none => exact ht
  | some h =>
    have hset : (Neighborhood.setCongested t h true).2.RoutesVia P := ht.setCongested h true
    rcases hflag : Neighborhood.setCongested t h true with ⟨done, t'⟩
    rw [hflag] at hset
    cases done with
    | false => simpa only [hflag] using hset
    | true =>
      simp only [hflag]
      split <;> exact hset

theorem RoutesVia.address (ht : t.RoutesVia P) {address : Address}
    (hr : Neighborhood.isRoutingParent t h = true)
    (ha : Neighborhood.address t h = some address) : P address := by
  obtain ⟨entry, hg, rfl⟩ := Option.map_eq_some_iff.1 ha
  exact ht entry (mem_entries_of_get? hg) ((isRoutingParent_of_get? hg).symm.trans hr)

end CongestionRouting.NeighborTable
