import CongestionRouting.Proofs.Neighbor.Places
import Mathlib.Data.List.Nodup

namespace CongestionRouting

theorem filterMap_eq_filterMap_range {α β : Type} (l : List α) (f : α → Option β) :
    l.filterMap f = (List.range l.length).filterMap fun i => l[i]?.bind f := by
  have hpositions : (List.range l.length).map (l[·]?) = l.map some := by
    apply List.ext_getElem?
    intro i
    rcases Nat.lt_or_ge i l.length with hi | hi <;> simp [hi]
  calc l.filterMap f = (l.map some).filterMap fun x => x.bind f := by
        rw [List.filterMap_map]
        rfl
    _ = _ := by
        rw [← hpositions, List.filterMap_map]
        rfl

namespace NeighborTable

variable {t t' : NeighborTable} {h : NeighborHandle} {address : Address} {routingParent : Bool}

def addresses (t : NeighborTable) : List Address := t.entries.map Neighbor.address

theorem entries_eq_filterMap (t : NeighborTable) {k : Nat} (hk : t.slots.length ≤ k) :
    t.entries = (List.range k).filterMap t.entryAt := by
  have hrange : List.range k =
      List.range t.slots.length ++ (List.range (k - t.slots.length)).map (t.slots.length + ·) := by
    rw [← List.range_add, Nat.add_sub_cancel' hk]
  have hbeyond : ((List.range (k - t.slots.length)).map (t.slots.length + ·)).filterMap t.entryAt =
      [] := by
    rw [List.filterMap_eq_nil_iff]
    intro i hi
    obtain ⟨j, -, rfl⟩ := List.mem_map.1 hi
    simp [entryAt]
  rw [hrange, List.filterMap_append, hbeyond, List.append_nil]
  exact filterMap_eq_filterMap_range t.slots NeighborSlot.entry

theorem entries_eq_map {f : Neighbor → Neighbor} (hf : ∀ i, t'.entryAt i = (t.entryAt i).map f) :
    t'.entries = t.entries.map f := by
  rw [t'.entries_eq_filterMap (Nat.le_max_left t'.slots.length t.slots.length),
    t.entries_eq_filterMap (Nat.le_max_right t'.slots.length t.slots.length), List.map_filterMap]
  exact List.filterMap_congr fun i _ => hf i

theorem addresses_eq_of_map {f : Neighbor → Neighbor} (hf : ∀ i, t'.entryAt i = (t.entryAt i).map f)
    (haddress : ∀ entry, (f entry).address = entry.address) : t'.addresses = t.addresses := by
  rw [addresses, entries_eq_map hf, List.map_map]
  exact List.map_congr_left fun entry _ => haddress entry

theorem addresses_clearFlags : t.clearFlags.addresses = t.addresses :=
  addresses_eq_of_map entryAt_clearFlags fun _ => rfl

namespace Orderly

variable (ht : t.Orderly)

include ht

theorem isSome_lookup_iff : (t.lookup address).isSome = true ↔ address ∈ t.addresses := by
  rw [← not_iff_not, Bool.not_eq_true, Option.isSome_eq_false_iff, Option.isNone_iff_eq_none,
    ht.lookup_eq_none_iff, addresses, List.mem_map]
  constructor
  · rintro hall ⟨entry, hentry, heq⟩
    obtain ⟨i, hi⟩ := mem_entries_iff.1 hentry
    exact hall i entry hi heq
  · intro hnone i entry hi heq
    exact hnone ⟨entry, mem_entries_iff.2 ⟨i, hi⟩, heq⟩

theorem nodup_addresses : t.addresses.Nodup := by
  rw [addresses, entries_eq_filterMap t (Nat.le_refl _), List.map_filterMap]
  refine List.Nodup.filterMap (fun i j a hi hj => ?_) List.nodup_range
  obtain ⟨entry, hentry, rfl⟩ := Option.map_eq_some_iff.1 (Option.mem_def.1 hi)
  obtain ⟨other, hother, heq⟩ := Option.map_eq_some_iff.1 (Option.mem_def.1 hj)
  exact ht.address_inj hentry hother heq.symm

theorem entries_recordSignal (sender : Address) :
    (CongestionRouting.recordSignal sender t).2.entries =
      t.entries.map fun e => { e with congested := e.congested || e.address = sender } :=
  entries_eq_map (ht.entryAt_recordSignal sender)

end Orderly

/-- A table from which nothing was ever removed. -/
structure Packed (t : NeighborTable) : Prop extends Orderly t where
  vacant_eq : t.vacant = []
  size_eq : t.size = t.slots.length
  size_le : t.size ≤ t.capacity
  capacity_eq : t.capacity = standardCapacity

namespace Packed

theorem empty : (NeighborTable.empty standardCapacity).Packed :=
  ⟨.empty _, rfl, rfl, Nat.zero_le _, rfl⟩

variable (ht : t.Packed)

include ht

theorem length_entries_le : t.entries.length ≤ standardCapacity := by
  have hslots : t.entries.length ≤ t.slots.length := List.length_filterMap_le _ _
  have hsize := ht.size_eq
  have hcapacity := ht.capacity_eq
  have hle := ht.size_le
  omega

/-- A new entry stands behind all others. -/
theorem entries_insert (hi : t.insert address routingParent = .ok (h, t')) :
    t'.entries = t.entries ++ [⟨address, routingParent, false⟩] := by
  obtain ⟨-, hroom, rfl⟩ := insert_eq_ok hi
  have hindex : (UInt32.ofNat t.slots.length).toNat = t.slots.length := by
    rw [ht.size_eq, ht.capacity_eq] at hroom
    exact UInt32.toNat_ofNat_of_lt' (Nat.lt_trans hroom (by decide))
  have hslots : (t.place ⟨address, routingParent, false⟩).2.slots =
      t.slots ++ [⟨0, some ⟨address, routingParent, false⟩⟩] := by
    simp only [place, ht.vacant_eq, fill, hindex]
    simp [List.modify_eq_take_drop]
  rw [entries, hslots, List.filterMap_append]
  rfl

theorem addresses_insert (hi : t.insert address routingParent = .ok (h, t')) :
    t'.addresses = t.addresses ++ [address] := by
  rw [addresses, ht.entries_insert hi, List.map_append]
  rfl

theorem insert (hi : t.insert address routingParent = .ok (h, t')) : t'.Packed := by
  have horderly := ht.toOrderly.insert hi
  obtain ⟨-, hroom, rfl⟩ := insert_eq_ok hi
  refine ⟨horderly, ?_, ?_, ?_, ?_⟩ <;> simp only [place, ht.vacant_eq, fill]
  · rw [List.length_modify, List.length_append, List.length_singleton, ht.size_eq]
  · exact hroom
  · exact ht.capacity_eq

theorem setPreferredParent {parent : Option NeighborHandle}
    (hs : t.setPreferredParent parent = .ok t') : t'.Packed ∧ t'.addresses = t.addresses := by
  have horderly := ht.toOrderly.setPreferredParent hs
  have hsame : ∃ p, t' = { t with preferredParent := p } := by
    unfold NeighborTable.setPreferredParent at hs
    split at hs
    · injection hs with hs
      exact ⟨none, hs.symm⟩
    · next h =>
      split at hs
      · injection hs with hs
        exact ⟨some h, hs.symm⟩
      · exact absurd hs nofun
  obtain ⟨p, rfl⟩ := hsame
  exact ⟨⟨horderly, ht.vacant_eq, ht.size_eq, ht.size_le, ht.capacity_eq⟩, rfl⟩

theorem clearFlags : t.clearFlags.Packed :=
  ⟨ht.toOrderly.clearFlags, ht.vacant_eq, ht.size_eq.trans (List.length_map _).symm, ht.size_le,
    ht.capacity_eq⟩

theorem recordSignal (sender : Address) : (CongestionRouting.recordSignal sender t).2.Packed := by
  have horderly := ht.toOrderly.recordSignal sender
  rw [recordSignal_snd] at horderly ⊢
  cases hl : t.lookup sender with
  | none => exact ht
  | some h =>
    simp only [hl, Option.elim_some, NeighborTable.setCongested] at horderly ⊢
    split at horderly
    · next hc =>
      rw [if_pos hc]
      exact ⟨horderly, ht.vacant_eq, ht.size_eq.trans (List.length_modify ..).symm, ht.size_le,
        ht.capacity_eq⟩
    · next hc =>
      rw [if_neg hc]
      exact ht

end Packed

end NeighborTable

end CongestionRouting
