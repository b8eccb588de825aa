import CongestionRouting.Proofs.Neighbor.Packed
import Mathlib.Data.List.Perm.Subperm

namespace CongestionRouting.NeighborTable

variable {t t' : NeighborTable} {h g : NeighborHandle} {entry other : Neighbor} {address : Address}
  {routingParent value : Bool} {i : Nat}

theorem get?_eq (t : NeighborTable) (h : NeighborHandle) :
    t.get? h = if t.generationAt h.index.toNat = some h.generation then t.entryAt h.index.toNat
      else none := by
  apply Option.ext
  intro entry
  rw [get?_eq_some_iff]
  split
  · next hg => simp only [hg, true_and]
  · next hg => simp only [hg, false_and, reduceCtorEq]

theorem generationAt_remove_self (hg : t.get? h = some entry) :
    (t.remove h).2.generationAt h.index.toNat = some (h.generation + 1) := by
  obtain ⟨slot, hslot, hgeneration⟩ := Option.map_eq_some_iff.1 (get?_eq_some_iff.1 hg).1
  simp [NeighborTable.remove, hg, generationAt, hslot, hgeneration]

theorem handles_eq_filterMap (t : NeighborTable) :
    t.handles = (List.range t.slots.length).filterMap fun i => (t.entryAt i).bind fun _ =>
      (t.generationAt i).map fun generation => ⟨UInt32.ofNat i, generation⟩ := by
  rw [handles, filterMap_eq_filterMap_range, List.length_zipIdx]
  refine List.filterMap_congr fun i _ => ?_
  rw [List.getElem?_zipIdx, entryAt, generationAt]
  cases t.slots[i]? with
  | none => rfl
  | some slot => cases hentry : slot.entry <;> simp [hentry]

/-- The same neighbors in the same slots. Their flags and roles may have changed, and another one of
them may have become the preferred parent. -/
structure Retouches (t t' : NeighborTable) : Prop where
  length_slots : t'.slots.length = t.slots.length
  generationAt_eq : ∀ i, t'.generationAt i = t.generationAt i
  address_eq : ∀ i, (t'.entryAt i).map Neighbor.address = (t.entryAt i).map Neighbor.address
  vacant_eq : t'.vacant = t.vacant
  size_eq : t'.size = t.size
  capacity_eq : t'.capacity = t.capacity
  preferredParent_live : ∀ h, t'.preferredParent = some h →
    t.preferredParent = some h ∨ ∃ entry, t.get? h = some entry

namespace Retouches

theorem refl (t : NeighborTable) : t.Retouches t :=
  ⟨rfl, fun _ => rfl, fun _ => rfl, rfl, rfl, rfl, fun _ hp => .inl hp⟩

theorem modifyEntry (t : NeighborTable) (index : UInt32) {f : Neighbor → Neighbor}
    (hf : ∀ e, (f e).address = e.address) : t.Retouches (t.modifyEntry index f) where
  length_slots := List.length_modify ..
  generationAt_eq := generationAt_modifyEntry index f
  address_eq i := by
    rw [entryAt_modifyEntry]
    split
    · cases t.entryAt i <;> simp [hf]
    · rfl
  vacant_eq := rfl
  size_eq := rfl
  capacity_eq := rfl
  preferredParent_live _ hp := .inl hp

theorem setCongested (t : NeighborTable) (h : NeighborHandle) (value : Bool) :
    t.Retouches (t.setCongested h value).2 := by
  unfold NeighborTable.setCongested
  split
  · exact modifyEntry t h.index fun _ => rfl
  · exact refl t

theorem setRoutingParent (hs : t.setRoutingParent h value = .ok t') : t.Retouches t' := by
  unfold NeighborTable.setRoutingParent at hs
  split at hs
  · injection hs with hs
    exact hs ▸ modifyEntry t h.index fun _ => rfl
  · exact absurd hs nofun

theorem setPreferredParent {parent : Option NeighborHandle}
    (hs : t.setPreferredParent parent = .ok t') : t.Retouches t' := by
  unfold NeighborTable.setPreferredParent at hs
  split at hs
  · injection hs with hs
    exact hs ▸ ⟨rfl, fun _ => rfl, fun _ => rfl, rfl, rfl, rfl, nofun⟩
  · split at hs
    · next hc =>
      injection hs with hs
      refine hs ▸ ⟨rfl, fun _ => rfl, fun _ => rfl, rfl, rfl, rfl, fun p hp => .inr ?_⟩
      injection hp with hp
      exact hp ▸ Option.isSome_iff_exists.1 hc
    · exact absurd hs nofun

theorem clearFlags (t : NeighborTable) : t.Retouches t.clearFlags where
  length_slots := List.length_map ..
  generationAt_eq := generationAt_clearFlags
  address_eq i := by
    rw [entryAt_clearFlags]
    cases t.entryAt i <;> rfl
  vacant_eq := rfl
  size_eq := rfl
  capacity_eq := rfl
  preferredParent_live _ hp := .inl hp

theorem recordSignal (t : NeighborTable) (sender : Address) :
    t.Retouches (recordSignal sender t).2 := by
  rw [recordSignal_snd]
  cases t.lookup sender with
  | none => exact refl t
  | some h => exact setCongested t h true

variable (ht : t.Retouches t')

include ht

theorem exists_entryAt (hi : t'.entryAt i = some entry) :
    ∃ old, t.entryAt i = some old ∧ old.address = entry.address := by
  have haddress := ht.address_eq i
  rw [hi] at haddress
  exact Option.map_eq_some_iff.1 haddress.symm

theorem entryAt_eq_none_iff (i : Nat) : t'.entryAt i = none ↔ t.entryAt i = none := by
  rw [← Option.map_eq_none_iff (f := Neighbor.address), ht.address_eq i, Option.map_eq_none_iff]

theorem address_get? (h : NeighborHandle) :
    (t'.get? h).map Neighbor.address = (t.get? h).map Neighbor.address := by
  rw [get?_eq, get?_eq, ht.generationAt_eq]
  split
  · exact ht.address_eq _
  · rfl

theorem handles_eq : t'.handles = t.handles := by
  rw [handles_eq_filterMap, handles_eq_filterMap, ht.length_slots]
  refine List.filterMap_congr fun i _ => ?_
  rw [ht.generationAt_eq]
  cases hi : t.entryAt i with
  | none => rw [(ht.entryAt_eq_none_iff i).2 hi]
  | some old =>
    obtain ⟨entry, hentry⟩ := Option.ne_none_iff_exists'.1 fun hnone =>
      absurd (hi.symm.trans ((ht.entryAt_eq_none_iff i).1 hnone)) nofun
    rw [hentry]
    rfl

theorem lookup_eq (address : Address) : t'.lookup address = t.lookup address := by
  unfold lookup
  simp only [ht.handles_eq, ht.address_get?]

theorem exists_get? (hg : t.get? h = some entry) :
    ∃ new, t'.get? h = some new ∧ new.address = entry.address := by
  have haddress := ht.address_get? h
  rw [hg] at haddress
  exact Option.map_eq_some_iff.1 haddress

theorem orderly (hold : t.Orderly) : t'.Orderly where
  index_lt hi := by
    obtain ⟨old, hi, -⟩ := ht.exists_entryAt hi
    exact hold.index_lt hi
  address_inj hi hj heq := by
    obtain ⟨old, hi, ha⟩ := ht.exists_entryAt hi
    obtain ⟨other, hj, hb⟩ := ht.exists_entryAt hj
    exact hold.address_inj hi hj (ha.trans (heq.trans hb.symm))
  vacant_lt index hv := by
    rw [ht.length_slots]
    exact hold.vacant_lt index (ht.vacant_eq ▸ hv)
  preferredParent_live h hp := by
    have hlive : ∃ entry, t.get? h = some entry :=
      (ht.preferredParent_live h hp).elim (hold.preferredParent_live h) id
    obtain ⟨entry, hg⟩ := hlive
    obtain ⟨new, hnew, -⟩ := ht.exists_get? hg
    exact ⟨new, hnew⟩

end Retouches

/-- What the parts of a table tell of each other. -/
structure Consistent (t : NeighborTable) : Prop extends Orderly t where
  capacity_le : t.capacity ≤ UInt32.size
  nodup_vacant : t.vacant.Nodup
  mem_vacant_iff : ∀ index : UInt32,
    index ∈ t.vacant ↔ index.toNat < t.slots.length ∧ t.entryAt index.toNat = none
  length_slots : t.slots.length = t.size + t.vacant.length
  length_slots_le : t.slots.length ≤ t.capacity

namespace Consistent

theorem empty {capacity : Nat} (hc : capacity ≤ UInt32.size) :
    (NeighborTable.empty capacity).Consistent where
  toOrderly := .empty capacity
  capacity_le := hc
  nodup_vacant := .nil
  mem_vacant_iff index := by simp [NeighborTable.empty]
  length_slots := rfl
  length_slots_le := Nat.zero_le _

theorem retouch (hold : t.Consistent) (ht : t.Retouches t') : t'.Consistent where
  toOrderly := ht.orderly hold.toOrderly
  capacity_le := ht.capacity_eq ▸ hold.capacity_le
  nodup_vacant := ht.vacant_eq ▸ hold.nodup_vacant
  mem_vacant_iff index := by
    rw [ht.vacant_eq, ht.length_slots, ht.entryAt_eq_none_iff]
    exact hold.mem_vacant_iff index
  length_slots := by rw [ht.length_slots, ht.size_eq, ht.vacant_eq, hold.length_slots]
  length_slots_le := by
    rw [ht.length_slots, ht.capacity_eq]
    exact hold.length_slots_le

section Facts

variable (ht : t.Consistent)

include ht

theorem length_slots_lt : t.slots.length ≤ UInt32.size :=
  Nat.le_trans ht.length_slots_le ht.capacity_le

theorem perm_vacant : (t.vacant.map UInt32.toNat).Perm
    ((List.range t.slots.length).filter fun i => (t.entryAt i).isNone) := by
  have hnodup : (t.vacant.map UInt32.toNat).Nodup :=
    ht.nodup_vacant.map fun _ _ heq => UInt32.toNat_inj.1 heq
  rw [List.perm_ext_iff_of_nodup hnodup (List.nodup_range.filter _)]
  intro i
  simp only [List.mem_map, List.mem_filter, List.mem_range, Option.isNone_iff_eq_none]
  constructor
  · rintro ⟨index, hmem, rfl⟩
    exact (ht.mem_vacant_iff index).1 hmem
  · rintro ⟨hi, hnone⟩
    have hindex : (UInt32.ofNat i).toNat = i :=
      UInt32.toNat_ofNat_of_lt' (Nat.lt_of_lt_of_le hi ht.length_slots_lt)
    exact ⟨UInt32.ofNat i, (ht.mem_vacant_iff _).2 (by rw [hindex]; exact ⟨hi, hnone⟩), hindex⟩

theorem size_eq : t.size = t.entries.length := by
  have hvacant : t.vacant.length =
      (List.range t.slots.length).countP fun i => (t.entryAt i).isNone := by
    rw [List.countP_eq_length_filter, ← ht.perm_vacant.length_eq, List.length_map]
  have hentries : t.entries.length =
      (List.range t.slots.length).countP fun i => (t.entryAt i).isSome := by
    rw [t.entries_eq_filterMap (Nat.le_refl _), List.length_filterMap_eq_countP]
  -- The vacant slots and the entries together are all slots.
  have hsplit := List.length_eq_countP_add_countP (l := List.range t.slots.length)
    fun i => (t.entryAt i).isSome
  have hnone : (fun i => decide ¬(t.entryAt i).isSome = true) = fun i => (t.entryAt i).isNone := by
    funext i
    cases t.entryAt i <;> rfl
  rw [List.length_range, hnone, ← hentries, ← hvacant] at hsplit
  have := ht.length_slots
  omega

theorem size_le : t.size ≤ t.capacity := by
  have := ht.length_slots
  have := ht.length_slots_le
  omega

end Facts

end Consistent

/-- A new entry came to a slot without one. The slot is the one that was vacated last, or a new one
behind all others. -/
structure Admits (t : NeighborTable) (entry : Neighbor) (h : NeighborHandle) (t' : NeighborTable) :
    Prop where
  entryAt_index : t.entryAt h.index.toNat = none
  entryAt_eq : ∀ i, t'.entryAt i = if h.index.toNat = i then some entry else t.entryAt i
  generationAt_index : t'.generationAt h.index.toNat = some h.generation
  generationAt_eq : ∀ {i generation}, t.generationAt i = some generation →
    t'.generationAt i = some generation
  slots_eq : t.vacant = h.index :: t'.vacant ∧ t'.slots.length = t.slots.length ∨
    t.vacant = [] ∧ t'.vacant = [] ∧ h.index.toNat = t.slots.length ∧
      t'.slots.length = t.slots.length + 1
  size_eq : t'.size = t.size + 1
  capacity_eq : t'.capacity = t.capacity
  preferredParent_eq : t'.preferredParent = t.preferredParent

namespace Admits

variable (ht : t.Admits entry h t')

include ht

theorem get?_self : t'.get? h = some entry :=
  get?_eq_some_iff.2 ⟨ht.generationAt_index, by rw [ht.entryAt_eq, if_pos rfl]⟩

theorem get?_of_some (hg : t.get? g = some other) : t'.get? g = some other := by
  obtain ⟨hgeneration, hentry⟩ := get?_eq_some_iff.1 hg
  have hne : h.index.toNat ≠ g.index.toNat := fun heq =>
    absurd (heq ▸ hentry) (by rw [ht.entryAt_index]; exact nofun)
  exact get?_eq_some_iff.2 ⟨ht.generationAt_eq hgeneration, by rw [ht.entryAt_eq, if_neg hne, hentry]⟩

end Admits

namespace Consistent

section Operations

variable (ht : t.Consistent)

include ht

/-- Of the slots the one in front of the vacant list is filled, or else a new one. -/
theorem admits_place (hroom : t.size < t.capacity) (entry : Neighbor) :
    t.Admits entry (t.place entry).1 (t.place entry).2 := by
  have hkept : ∀ {i generation}, t.generationAt i = some generation →
      (t.place entry).2.generationAt i = some generation := generationAt_place entry
  cases hvacant : t.vacant with
  | cons index vacant =>
    obtain ⟨hlt, hnone⟩ := (ht.mem_vacant_iff index).1 (by simp [hvacant])
    have hslot := List.getElem?_eq_getElem hlt
    rw [place_of_cons hvacant] at hkept ⊢
    exact {
      entryAt_index := hnone
      entryAt_eq := entryAt_fill (t := { t with vacant := vacant }) hlt
      generationAt_index := by
        rw [generationAt_fill]
        simp [fill, generationAt, hslot]
      generationAt_eq := hkept
      slots_eq := .inl ⟨hvacant, List.length_modify ..⟩
      size_eq := rfl
      capacity_eq := rfl
      preferredParent_eq := rfl }
  | nil =>
    have hlength : t.slots.length = t.size := by
      rw [ht.length_slots, hvacant]
      rfl
    have hindex : (UInt32.ofNat t.slots.length).toNat = t.slots.length :=
      UInt32.toNat_ofNat_of_lt' (by have := ht.capacity_le; omega)
    have hlt : (UInt32.ofNat t.slots.length).toNat < t.grown.slots.length := by
      rw [hindex]
      simp [grown]
    rw [place_of_nil hvacant] at hkept ⊢
    exact {
      entryAt_index := by
        simp only [fill, hindex]
        simp [entryAt]
      entryAt_eq := fun i => (entryAt_fill hlt i).trans (by rw [entryAt_grown]; rfl)
      generationAt_index := by
        rw [generationAt_fill, generationAt_grown]
        simp [fill, hindex, grown]
      generationAt_eq := hkept
      slots_eq := .inr ⟨hvacant, hvacant, hindex, by simp [fill, grown]⟩
      size_eq := rfl
      capacity_eq := rfl
      preferredParent_eq := rfl }

theorem admits_insert (hi : t.insert address routingParent = .ok (h, t')) :
    t.Admits ⟨address, routingParent, false⟩ h t' := by
  obtain ⟨-, hroom, hplace⟩ := insert_eq_ok_iff.1 hi
  have hadmits := ht.admits_place hroom ⟨address, routingParent, false⟩
  rwa [hplace] at hadmits

theorem insert (hi : t.insert address routingParent = .ok (h, t')) : t'.Consistent := by
  have hroom := (insert_eq_ok hi).2.1
  have hold := ht.length_slots
  have hle := ht.length_slots_le
  have ha := ht.admits_insert hi
  refine ⟨ht.toOrderly.insert hi, ha.capacity_eq ▸ ht.capacity_le, ?_, fun index => ?_, ?_, ?_⟩
  · rcases ha.slots_eq with ⟨hvacant, -⟩ | ⟨-, hvacant, -⟩
    · exact (List.nodup_cons.1 (hvacant ▸ ht.nodup_vacant)).2
    · rw [hvacant]
      exact .nil
  -- The slot that was filled has left the vacant ones, or is new and never was one of them.
  · have hiff := ht.mem_vacant_iff index
    rw [ha.entryAt_eq]
    rcases ha.slots_eq with ⟨hvacant, hlength⟩ | ⟨hnone, hvacant, hindex, hlength⟩
    · have hfresh := (List.nodup_cons.1 (hvacant ▸ ht.nodup_vacant)).1
      rw [hvacant, List.mem_cons] at hiff
      rw [hlength]
      by_cases heq : index = h.index
      · simp [heq, hfresh]
      · rw [if_neg fun h => heq (UInt32.toNat_inj.1 h.symm), ← hiff]
        simp [heq]
    · rw [hnone] at hiff
      rw [hvacant, hlength]
      split
      · simp
      · next hne =>
        simp only [List.not_mem_nil, false_iff, not_and] at hiff ⊢
        intro hlt
        exact hiff (by omega)
  · rw [ha.size_eq]
    rcases ha.slots_eq with ⟨hvacant, hlength⟩ | ⟨hnone, hvacant, -, hlength⟩
    · rw [hvacant, List.length_cons] at hold
      omega
    · rw [hnone] at hold
      rw [hvacant, hlength, hold]
      simp
  · rw [ha.capacity_eq]
    rcases ha.slots_eq with ⟨-, hlength⟩ | ⟨hnone, -, -, hlength⟩
    · omega
    · rw [hnone] at hold
      simp only [List.length_nil] at hold
      omega

theorem size_pos (hg : t.get? h = some entry) : 0 < t.size := by
  rw [ht.size_eq]
  exact List.length_pos_of_mem (mem_entries_of_get? hg)

theorem remove (h : NeighborHandle) : (t.remove h).2.Consistent := by
  have horderly := ht.toOrderly.remove h
  cases hg : t.get? h with
  | none =>
    rw [remove_of_stale hg]
    exact ht
  | some entry =>
    have hentry := (get?_eq_some_iff.1 hg).2
    have hfresh : h.index ∉ t.vacant := fun hmem => by
      rw [((ht.mem_vacant_iff _).1 hmem).2] at hentry
      exact absurd hentry nofun
    have hslots : (t.remove h).2.slots.length = t.slots.length := by
      simp [NeighborTable.remove, hg]
    have hvacant : (t.remove h).2.vacant = h.index :: t.vacant := by
      simp [NeighborTable.remove, hg]
    have hsize : (t.remove h).2.size = t.size - 1 := by
      simp [NeighborTable.remove, hg]
    have hcapacity : (t.remove h).2.capacity = t.capacity := by
      simp [NeighborTable.remove, hg]
    refine ⟨horderly, hcapacity ▸ ht.capacity_le, ?_, fun index => ?_, ?_, ?_⟩
    · rw [hvacant]
      exact List.nodup_cons.2 ⟨hfresh, ht.nodup_vacant⟩
    · rw [hvacant, hslots, List.mem_cons, ht.mem_vacant_iff, entryAt_remove hg]
      by_cases heq : index = h.index
      · simp [heq, lt_length_of_entryAt hentry]
      · rw [if_neg fun h => heq (UInt32.toNat_inj.1 h.symm)]
        simp [heq]
    · have := ht.size_pos hg
      have := ht.length_slots
      rw [hslots, hvacant, hsize, List.length_cons]
      omega
    · rw [hslots, hcapacity]
      exact ht.length_slots_le

end Operations

end Consistent

namespace Orderly

variable (ht : t.Orderly)

include ht

/-- The handles listed are those that resolve. -/
theorem mem_handles_iff : h ∈ t.handles ↔ ∃ entry, t.get? h = some entry := by
  simp only [handles, List.mem_filterMap, Prod.exists, List.mem_zipIdx_iff_getElem?,
    Option.map_eq_some_iff, get?_eq_some_iff]
  constructor
  · rintro ⟨slot, i, hslot, entry, hentry, rfl⟩
    have hat : t.entryAt i = some entry := by simp [entryAt, hslot, hentry]
    have hindex : (UInt32.ofNat i).toNat = i := UInt32.toNat_ofNat_of_lt' (ht.index_lt hat)
    exact ⟨entry, by simp [generationAt, hindex, hslot], by rw [hindex, hat]⟩
  · rintro ⟨entry, hgeneration, hentry⟩
    obtain ⟨slot, hslot, hsome⟩ := Option.bind_eq_some_iff.1 hentry
    obtain ⟨slot', hslot', heq⟩ := Option.map_eq_some_iff.1 hgeneration
    obtain rfl : slot = slot' := Option.some.inj (hslot.symm.trans hslot')
    exact ⟨slot, h.index.toNat, hslot, entry, hsome, by rw [UInt32.ofNat_toNat, heq]⟩

theorem map_handles : t.handles.map t.get? = t.entries.map some := by
  rw [← ht.filterMap_handles, List.map_filterMap_some_eq_filter_map_isSome, List.filter_eq_self.2]
  intro found hmem
  obtain ⟨h, hh, rfl⟩ := List.mem_map.1 hmem
  obtain ⟨entry, hg⟩ := ht.mem_handles_iff.1 hh
  rw [hg]
  rfl

theorem pairwise_handles : t.handles.Pairwise fun h g => h.index < g.index := by
  rw [handles_eq_filterMap, List.pairwise_filterMap]
  refine List.pairwise_lt_range.imp fun {i j} hlt h hh g hg => ?_
  obtain ⟨entry, hat, hh⟩ := Option.bind_eq_some_iff.1 hh
  obtain ⟨other, hat', hg⟩ := Option.bind_eq_some_iff.1 hg
  obtain ⟨-, -, rfl⟩ := Option.map_eq_some_iff.1 hh
  obtain ⟨-, -, rfl⟩ := Option.map_eq_some_iff.1 hg
  rw [UInt32.lt_iff_toNat_lt, UInt32.toNat_ofNat_of_lt' (ht.index_lt hat),
    UInt32.toNat_ofNat_of_lt' (ht.index_lt hat')]
  exact hlt

theorem length_handles : t.handles.length = t.entries.length := by
  rw [← List.length_map t.get?, ht.map_handles, List.length_map]

/-- There are not more entries than indexes. -/
theorem length_entries_le : t.entries.length ≤ UInt32.size := by
  have hnodup : (t.handles.map fun h => h.index.toNat).Nodup := by
    rw [List.Nodup, List.pairwise_map]
    exact ht.pairwise_handles.imp fun hlt => Nat.ne_of_lt hlt
  have hsubset : t.handles.map (fun h => h.index.toNat) ⊆ List.range UInt32.size := fun i hi => by
    obtain ⟨h, -, rfl⟩ := List.mem_map.1 hi
    exact List.mem_range.2 h.index.toNat_lt_size
  have hle := (List.subperm_of_subset hnodup hsubset).length_le
  rwa [List.length_map, ht.length_handles, List.length_range] at hle

theorem eq_of_address_eq (hh : t.get? h = some entry) (hg : t.get? g = some other)
    (ha : entry.address = other.address) : h = g :=
  eq_of_index_eq hh hg (ht.address_inj (get?_eq_some_iff.1 hh).2 (get?_eq_some_iff.1 hg).2 ha)

theorem lookup_eq_some_iff :
    t.lookup address = some h ↔ (t.get? h).map Neighbor.address = some address := by
  constructor
  · intro hl
    obtain ⟨entry, hg, rfl⟩ := Orderly.get?_of_lookup hl
    rw [hg, Option.map_some]
  · intro hsome
    obtain ⟨entry, hg, rfl⟩ := Option.map_eq_some_iff.1 hsome
    have hentry := (get?_eq_some_iff.1 hg).2
    cases hl : t.lookup entry.address with
    | none => exact absurd rfl (ht.lookup_eq_none_iff.1 hl _ _ hentry)
    | some g =>
      obtain ⟨found, hfound, haddress⟩ := Orderly.get?_of_lookup hl
      rw [ht.eq_of_address_eq hfound hg haddress]

end Orderly

/-- A new neighbor is refused for its address, or else for want of room. -/
theorem Consistent.insert_eq (ht : t.Consistent) (address : Address) (routingParent : Bool) :
    t.insert address routingParent =
      if address ∈ t.addresses then .error (.duplicate address)
      else if t.size = t.capacity then .error (.full t.capacity)
      else .ok (t.place ⟨address, routingParent, false⟩) := by
  have hle := ht.size_le
  have hroom : t.size < t.capacity ↔ ¬t.size = t.capacity := by omega
  simp only [NeighborTable.insert, ht.isSome_lookup_iff, hroom, ite_not]

end CongestionRouting.NeighborTable
