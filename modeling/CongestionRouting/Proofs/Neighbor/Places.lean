import CongestionRouting.Proofs.Neighbor.Entries
import CongestionRouting.Verdict
import Mathlib.Data.List.Basic

namespace CongestionRouting

namespace CongestionRule

variable {ν : Type} [Neighborhood ν] (rule : CongestionRule) (counters : PacketCounters) (table : ν)

theorem received_judge : (rule.judge counters table).received = counters.received := by
  unfold judge
  dsimp only
  split <;> rfl

theorem expected_judge : (rule.judge counters table).expected = counters.expected := by
  unfold judge
  dsimp only
  split <;> rfl

end CongestionRule

namespace NeighborTable

variable {t t' : NeighborTable} {h : NeighborHandle} {entry : Neighbor} {address : Address}
  {routingParent value : Bool} {i j : Nat}

def entryAt (t : NeighborTable) (i : Nat) : Option Neighbor := t.slots[i]?.bind NeighborSlot.entry

def generationAt (t : NeighborTable) (i : Nat) : Option UInt32 :=
  t.slots[i]?.map NeighborSlot.generation

theorem mem_entries_iff : entry ∈ t.entries ↔ ∃ i, t.entryAt i = some entry := by
  rw [mem_entries]
  simp only [List.mem_iff_getElem?, entryAt, Option.bind_eq_some_iff]
  constructor
  · rintro ⟨slot, ⟨i, hi⟩, he⟩
    exact ⟨i, slot, hi, he⟩
  · rintro ⟨i, slot, hi, he⟩
    exact ⟨slot, ⟨i, hi⟩, he⟩

theorem get?_eq_some_iff : t.get? h = some entry ↔
    t.generationAt h.index.toNat = some h.generation ∧ t.entryAt h.index.toNat = some entry := by
  unfold get? generationAt entryAt
  cases t.slots[h.index.toNat]? with
  | none => simp
  | some slot =>
    simp only [Option.map_some, Option.some.injEq, Option.bind_some]
    split
    · next hg => simp only [hg, true_and]
    · next hg => simp only [hg, false_and, reduceCtorEq]

/-- A slot has one generation, so one handle at most resolves to its entry. -/
theorem eq_of_index_eq {g : NeighborHandle} {other : Neighbor} (hh : t.get? h = some entry)
    (hg : t.get? g = some other) (hi : h.index.toNat = g.index.toNat) : h = g := by
  have hgeneration := (get?_eq_some_iff.1 hh).1
  rw [hi, (get?_eq_some_iff.1 hg).1] at hgeneration
  cases h
  cases g
  simp_all [UInt32.toNat_inj]

theorem lt_length_of_entryAt (hi : t.entryAt i = some entry) : i < t.slots.length := by
  obtain ⟨slot, hslot, -⟩ := Option.bind_eq_some_iff.1 hi
  exact (List.getElem?_eq_some_iff.1 hslot).1

section Operations

theorem entryAt_modifyEntry (index : UInt32) (f : Neighbor → Neighbor) (j : Nat) :
    (t.modifyEntry index f).entryAt j =
      if index.toNat = j then (t.entryAt j).map f else t.entryAt j := by
  unfold modifyEntry entryAt
  rw [List.getElem?_modify]
  by_cases hj : index.toNat = j <;> cases t.slots[j]? <;> simp [hj]

theorem generationAt_modifyEntry (index : UInt32) (f : Neighbor → Neighbor) (j : Nat) :
    (t.modifyEntry index f).generationAt j = t.generationAt j := by
  unfold modifyEntry generationAt
  rw [List.getElem?_modify]
  by_cases hj : index.toNat = j <;> cases t.slots[j]? <;> simp [hj]

theorem modifyEntry_modifyEntry (t : NeighborTable) (index : UInt32) (f g : Neighbor → Neighbor) :
    (t.modifyEntry index f).modifyEntry index g = t.modifyEntry index (g ∘ f) := by
  unfold modifyEntry
  simp only [List.modify_modify_eq, Function.comp_def, Option.map_map]

theorem exists_of_setRoutingParent (hs : t.setRoutingParent h value = .ok t')
    (hi : t'.entryAt i = some entry) : ∃ old, t.entryAt i = some old ∧
      entry.address = old.address ∧ entry.congested = old.congested := by
  unfold setRoutingParent at hs
  split at hs
  · injection hs with hs
    rw [← hs, entryAt_modifyEntry] at hi
    split at hi
    · obtain ⟨old, hold, rfl⟩ := Option.map_eq_some_iff.1 hi
      exact ⟨old, hold, rfl, rfl⟩
    · exact ⟨entry, hi, rfl, rfl⟩
  · exact absurd hs nofun

theorem slots_setPreferredParent {parent : Option NeighborHandle}
    (hs : t.setPreferredParent parent = .ok t') : t'.slots = t.slots := by
  unfold setPreferredParent at hs
  split at hs
  · injection hs with hs
    rw [← hs]
  · split at hs
    · injection hs with hs
      rw [← hs]
    · exact absurd hs nofun

theorem entryAt_clearFlags (j : Nat) :
    t.clearFlags.entryAt j = (t.entryAt j).map fun e => { e with congested := false } := by
  unfold clearFlags entryAt
  rw [List.getElem?_map]
  cases t.slots[j]? <;> simp

theorem generationAt_clearFlags (j : Nat) : t.clearFlags.generationAt j = t.generationAt j := by
  unfold clearFlags generationAt
  rw [List.getElem?_map]
  cases t.slots[j]? <;> simp

theorem remove_of_stale (hg : t.get? h = none) : (t.remove h).2 = t := by
  simp only [remove, hg]

theorem entryAt_remove (hg : t.get? h = some entry) (j : Nat) :
    (t.remove h).2.entryAt j = if h.index.toNat = j then none else t.entryAt j := by
  simp only [remove, hg, entryAt, List.getElem?_modify]
  by_cases hj : h.index.toNat = j <;> cases t.slots[j]? <;> simp [hj]

theorem generationAt_remove (hg : t.get? h = some entry) (hj : h.index.toNat ≠ j) :
    (t.remove h).2.generationAt j = t.generationAt j := by
  simp only [remove, hg, generationAt, List.getElem?_modify, if_neg hj]
  cases t.slots[j]? <;> rfl

theorem get?_remove_of_ne {g : NeighborHandle} {other : Neighbor} (hg : t.get? g = some other)
    (hne : g ≠ h) : (t.remove h).2.get? g = some other := by
  cases hh : t.get? h with
  | none =>
    rw [remove_of_stale hh]
    exact hg
  | some entry =>
    have hplace : h.index.toNat ≠ g.index.toNat := fun hi => hne (eq_of_index_eq hh hg hi).symm
    obtain ⟨hgeneration, hentry⟩ := get?_eq_some_iff.1 hg
    exact get?_eq_some_iff.2 ⟨(generationAt_remove hh hplace).trans hgeneration,
      by rw [entryAt_remove hh, if_neg hplace, hentry]⟩

theorem entryAt_fill {index : UInt32} (hi : index.toNat < t.slots.length) (j : Nat) :
    (t.fill index entry).2.entryAt j = if index.toNat = j then some entry else t.entryAt j := by
  simp only [fill, entryAt, List.getElem?_modify]
  by_cases hj : index.toNat = j
  · subst hj
    simp [List.getElem?_eq_getElem hi]
  · cases t.slots[j]? <;> simp [hj]

theorem generationAt_fill (index : UInt32) (j : Nat) :
    (t.fill index entry).2.generationAt j = t.generationAt j := by
  simp only [fill, generationAt, List.getElem?_modify]
  by_cases hj : index.toNat = j <;> cases t.slots[j]? <;> simp [hj]

def grown (t : NeighborTable) : NeighborTable := { t with slots := t.slots ++ [⟨0, none⟩] }

theorem entryAt_grown (t : NeighborTable) (i : Nat) : t.grown.entryAt i = t.entryAt i := by
  simp only [grown, entryAt, List.getElem?_append, List.getElem?_singleton]
  split
  · rfl
  · next hi =>
    rw [List.getElem?_eq_none (Nat.le_of_not_lt hi)]
    split <;> rfl

theorem generationAt_grown (t : NeighborTable) (i : Nat) :
    t.grown.generationAt i = if i = t.slots.length then some 0 else t.generationAt i := by
  simp only [grown, generationAt, List.getElem?_append, List.getElem?_singleton]
  split
  · next hlt => rw [if_neg (Nat.ne_of_lt hlt)]
  · next hle =>
    by_cases heq : i = t.slots.length
    · simp [heq]
    · rw [if_neg heq, List.getElem?_eq_none (Nat.le_of_not_lt hle)]
      simp only [Option.map_none, Option.map_eq_none_iff, ite_eq_right_iff]
      omega

theorem place_of_cons {index : UInt32} {vacant : List UInt32} (hv : t.vacant = index :: vacant)
    (entry : Neighbor) : t.place entry = fill { t with vacant := vacant } index entry := by
  simp only [place, hv]

theorem place_of_nil (hv : t.vacant = []) (entry : Neighbor) :
    t.place entry = t.grown.fill (UInt32.ofNat t.slots.length) entry := by
  simp only [place, grown, hv]

theorem exists_entryAt_place (hv : ∀ v ∈ t.vacant, v.toNat < t.slots.length) :
    ∃ index : UInt32, ∀ j,
      (t.place entry).2.entryAt j = if index.toNat = j then some entry else t.entryAt j := by
  cases hvacant : t.vacant with
  | cons index vacant =>
    have hi : index.toNat < t.slots.length := hv index (by simp [hvacant])
    rw [place_of_cons hvacant]
    exact ⟨index, entryAt_fill (t := { t with vacant := vacant }) hi⟩
  | nil =>
    -- Behind the slots there is room, also when the number of slots exceeds an index.
    have hi : (UInt32.ofNat t.slots.length).toNat < t.grown.slots.length := by
      have := Nat.mod_le t.slots.length (2 ^ 32)
      simp only [grown, UInt32.toNat_ofNat', List.length_append, List.length_singleton]
      omega
    refine ⟨UInt32.ofNat t.slots.length, fun j => ?_⟩
    rw [place_of_nil hvacant, entryAt_fill hi, entryAt_grown]

theorem generationAt_place (entry : Neighbor) {g : UInt32} (hg : t.generationAt j = some g) :
    (t.place entry).2.generationAt j = some g := by
  cases hvacant : t.vacant with
  | cons index vacant =>
    rw [place_of_cons hvacant, generationAt_fill]
    exact hg
  | nil =>
    have hj : j ≠ t.slots.length := by
      rintro rfl
      simp [generationAt] at hg
    rw [place_of_nil hvacant, generationAt_fill, generationAt_grown, if_neg hj, hg]

theorem vacant_place (hv : ∀ v ∈ t.vacant, v.toNat < t.slots.length) :
    ∀ v ∈ (t.place entry).2.vacant, v.toNat < (t.place entry).2.slots.length := by
  unfold place
  split
  · next index vacant hvacant =>
    intro v hmem
    simpa [fill] using hv v (by simp only [hvacant]; exact List.mem_cons_of_mem _ hmem)
  · next hvacant =>
    intro v hmem
    exact absurd (hvacant ▸ hmem) nofun

theorem insert_eq_ok (hi : t.insert address routingParent = .ok (h, t')) :
    t.lookup address = none ∧ t.size < t.capacity ∧
      t' = (t.place ⟨address, routingParent, false⟩).2 := by
  obtain ⟨hnew, hroom, hplace⟩ := insert_eq_ok_iff.1 hi
  exact ⟨hnew, hroom, by rw [hplace]⟩

theorem recordSignal_snd (sender : Address) (t : NeighborTable) :
    (recordSignal sender t).2 =
      (t.lookup sender).elim t fun h => (t.setCongested h true).2 := by
  have hlookup : Neighborhood.lookup t sender = t.lookup sender := rfl
  have hset : ∀ h, Neighborhood.setCongested t h true = t.setCongested h true := fun _ => rfl
  unfold CongestionRouting.recordSignal
  simp only [hlookup, hset]
  cases t.lookup sender with
  | none => rfl
  | some h =>
    simp only [Option.elim_some]
    rcases t.setCongested h true with ⟨_ | _, table⟩
    · rfl
    · simp only
      split <;> rfl

theorem generationAt_recordSignal (sender : Address) (j : Nat) :
    (recordSignal sender t).2.generationAt j = t.generationAt j := by
  rw [recordSignal_snd]
  cases t.lookup sender with
  | none => rfl
  | some h =>
    simp only [Option.elim_some, setCongested]
    split
    · exact generationAt_modifyEntry ..
    · rfl

theorem preferredParent_recordSignal (sender : Address) :
    (recordSignal sender t).2.preferredParent = t.preferredParent := by
  rw [recordSignal_snd]
  cases t.lookup sender with
  | none => rfl
  | some h =>
    simp only [Option.elim_some, setCongested]
    split <;> rfl

end Operations

/-- Handles have room for all places in use, no address is entered twice, and the preferred parent is
in the table. -/
structure Orderly (t : NeighborTable) : Prop where
  index_lt : ∀ {i entry}, t.entryAt i = some entry → i < UInt32.size
  address_inj : ∀ {i j entry other}, t.entryAt i = some entry → t.entryAt j = some other →
    entry.address = other.address → i = j
  vacant_lt : ∀ index ∈ t.vacant, index.toNat < t.slots.length
  preferredParent_live : ∀ h, t.preferredParent = some h → ∃ entry, t.get? h = some entry

namespace Orderly

theorem empty (capacity : Nat) : (NeighborTable.empty capacity).Orderly where
  index_lt h := absurd h nofun
  address_inj h := absurd h nofun
  vacant_lt := nofun
  preferredParent_live := nofun

theorem filterMap_handles (ht : t.Orderly) : t.handles.filterMap t.get? = t.entries := by
  have hentries : t.entries = t.slots.zipIdx.filterMap fun p => p.1.entry := by
    calc t.entries = (t.slots.zipIdx.map Prod.fst).filterMap NeighborSlot.entry := by
          rw [List.zipIdx_map_fst, entries]
      _ = _ := List.filterMap_map
  rw [hentries, handles, List.filterMap_filterMap]
  apply List.filterMap_congr
  rintro ⟨slot, i⟩ hmem
  have hi : t.slots[i]? = some slot := List.mem_zipIdx_iff_getElem?.1 hmem
  cases he : slot.entry with
  | none => simp [he]
  | some entry =>
    have hat : t.entryAt i = some entry := by simp [entryAt, hi, he]
    have hindex : (UInt32.ofNat i).toNat = i := UInt32.toNat_ofNat_of_lt' (ht.index_lt hat)
    have hget : t.get? ⟨UInt32.ofNat i, slot.generation⟩ = some entry :=
      get?_eq_some_iff.2 ⟨by simp [generationAt, hindex, hi], by rw [hindex, hat]⟩
    simp only [he, Option.map_some, Option.bind_some, hget]

theorem lookup_eq_none_iff (ht : t.Orderly) :
    t.lookup address = none ↔ ∀ i entry, t.entryAt i = some entry → entry.address ≠ address := by
  have hmem : (∀ i entry, t.entryAt i = some entry → entry.address ≠ address) ↔
      ∀ entry ∈ t.handles.filterMap t.get?, entry.address ≠ address := by
    simp only [ht.filterMap_handles, mem_entries_iff]
    exact ⟨fun h entry ⟨i, hi⟩ => h i entry hi, fun h i entry hi => h entry ⟨i, hi⟩⟩
  rw [hmem, lookup, List.find?_eq_none]
  simp only [List.mem_filterMap, decide_eq_true_eq, Option.map_eq_some_iff]
  constructor
  · rintro h entry ⟨handle, hhandle, hget⟩ rfl
    exact h handle hhandle ⟨entry, hget, rfl⟩
  · rintro h handle hhandle ⟨entry, hget, haddress⟩
    exact h entry ⟨handle, hhandle, hget⟩ haddress

theorem get?_of_lookup (hl : t.lookup address = some h) :
    ∃ entry, t.get? h = some entry ∧ entry.address = address := by
  have hfound := List.find?_some hl
  rwa [decide_eq_true_eq, Option.map_eq_some_iff] at hfound

theorem flags_eq (ht : t.Orderly) :
    CongestionRule.flags t = t.entries.map Neighbor.congested := by
  rw [← ht.filterMap_handles, List.map_filterMap]
  rfl

/-- The orderly kept by a change of entries that leaves addresses and handles alone. -/
theorem congr (ht : t.Orderly) (hentry : ∀ i, (t'.entryAt i).map Neighbor.address =
    (t.entryAt i).map Neighbor.address) (hgeneration : ∀ i, t'.generationAt i = t.generationAt i)
    (hvacant : ∀ index ∈ t'.vacant, index.toNat < t'.slots.length)
    (hpreferred : t'.preferredParent = t.preferredParent) : t'.Orderly := by
  have hback : ∀ {i entry}, t'.entryAt i = some entry →
      ∃ old, t.entryAt i = some old ∧ old.address = entry.address := by
    intro i entry hi
    have hmap := hentry i
    rw [hi, Option.map_some] at hmap
    exact Option.map_eq_some_iff.1 hmap.symm
  refine ⟨fun hi => ?_, fun hi hj haddress => ?_, hvacant, fun h hp => ?_⟩
  · obtain ⟨old, hold, -⟩ := hback hi
    exact ht.index_lt hold
  · obtain ⟨old, hold, heq⟩ := hback hi
    obtain ⟨other, hother, heq'⟩ := hback hj
    exact ht.address_inj hold hother (heq.trans (haddress.trans heq'.symm))
  · obtain ⟨entry, hget⟩ := ht.preferredParent_live h (hpreferred ▸ hp)
    obtain ⟨hg, he⟩ := get?_eq_some_iff.1 hget
    have hmap := hentry h.index.toNat
    rw [he, Option.map_some] at hmap
    obtain ⟨new, hnew, -⟩ := Option.map_eq_some_iff.1 hmap
    exact ⟨new, get?_eq_some_iff.2 ⟨(hgeneration _).trans hg, hnew⟩⟩

theorem modifyEntry (ht : t.Orderly) (index : UInt32) {f : Neighbor → Neighbor}
    (hf : ∀ e, (f e).address = e.address) : (t.modifyEntry index f).Orderly := by
  refine ht.congr (fun i => ?_) (generationAt_modifyEntry index f) (fun v hv => ?_) rfl
  · rw [entryAt_modifyEntry]
    split
    · cases t.entryAt i <;> simp [hf]
    · rfl
  · simpa [NeighborTable.modifyEntry] using ht.vacant_lt v hv

theorem setCongested (ht : t.Orderly) (h : NeighborHandle) (value : Bool) :
    (t.setCongested h value).2.Orderly := by
  unfold NeighborTable.setCongested
  split
  · exact ht.modifyEntry h.index fun _ => rfl
  · exact ht

theorem setRoutingParent (ht : t.Orderly) (hs : t.setRoutingParent h value = .ok t') :
    t'.Orderly := by
  unfold NeighborTable.setRoutingParent at hs
  split at hs
  · injection hs with hs
    exact hs ▸ ht.modifyEntry h.index fun _ => rfl
  · exact absurd hs nofun

theorem clearFlags (ht : t.Orderly) : t.clearFlags.Orderly := by
  refine ht.congr (fun i => ?_) generationAt_clearFlags (fun v hv => ?_) rfl
  · rw [entryAt_clearFlags]
    cases t.entryAt i <;> rfl
  · simpa [NeighborTable.clearFlags] using ht.vacant_lt v hv

theorem setPreferredParent (ht : t.Orderly) {parent : Option NeighborHandle}
    (hs : t.setPreferredParent parent = .ok t') : t'.Orderly := by
  unfold NeighborTable.setPreferredParent at hs
  split at hs
  · injection hs with hs
    exact hs ▸ ⟨ht.index_lt, ht.address_inj, ht.vacant_lt, nofun⟩
  · next h =>
    split at hs
    · next hc =>
      injection hs with hs
      refine hs ▸ ⟨ht.index_lt, ht.address_inj, ht.vacant_lt, fun p hp => ?_⟩
      injection hp with hp
      exact hp ▸ Option.isSome_iff_exists.1 hc
    · exact absurd hs nofun

theorem remove (ht : t.Orderly) (h : NeighborHandle) : (t.remove h).2.Orderly := by
  cases hg : t.get? h with
  | none =>
    rw [remove_of_stale hg]
    exact ht
  | some entry =>
    have hback : ∀ {i entry}, (t.remove h).2.entryAt i = some entry →
        h.index.toNat ≠ i ∧ t.entryAt i = some entry := by
      intro i entry hi
      rw [entryAt_remove hg] at hi
      split at hi
      · exact absurd hi nofun
      · next hne => exact ⟨hne, hi⟩
    refine ⟨fun hi => ht.index_lt (hback hi).2,
      fun hi hj => ht.address_inj (hback hi).2 (hback hj).2, fun v hv => ?_, fun p hp => ?_⟩
    · have hlive := lt_length_of_entryAt (get?_eq_some_iff.1 hg).2
      simp only [NeighborTable.remove, hg, List.mem_cons, List.length_modify] at hv ⊢
      rcases hv with rfl | hv
      · exact hlive
      · exact ht.vacant_lt v hv
    · simp only [NeighborTable.remove, hg] at hp
      split at hp
      · exact absurd hp nofun
      · next hne =>
        obtain ⟨kept, hkept⟩ := ht.preferredParent_live p hp
        exact ⟨kept, get?_remove_of_ne hkept fun heq => hne (hp.trans (congrArg some heq))⟩

/-- A new entry has its flag clear, and no other place changes. -/
theorem entryAt_insert (ht : t.Orderly) (hi : t.insert address routingParent = .ok (h, t')) :
    ∃ i < UInt32.size, ∀ j, t'.entryAt j =
      if i = j then some ⟨address, routingParent, false⟩ else t.entryAt j := by
  obtain ⟨-, -, rfl⟩ := insert_eq_ok hi
  obtain ⟨index, hentry⟩ := exists_entryAt_place ht.vacant_lt
  exact ⟨index.toNat, index.toNat_lt_size, hentry⟩

theorem insert (ht : t.Orderly) (hi : t.insert address routingParent = .ok (h, t')) :
    t'.Orderly := by
  obtain ⟨i, hlt, hentry⟩ := ht.entryAt_insert hi
  obtain ⟨hnone, -, rfl⟩ := insert_eq_ok hi
  have hfresh := ht.lookup_eq_none_iff.1 hnone
  -- An entry is the new one or an old one; the address of the new one is no old one's.
  have hcases : ∀ {j e}, (t.place ⟨address, routingParent, false⟩).2.entryAt j = some e →
      i = j ∧ e.address = address ∨ t.entryAt j = some e := by
    intro j e hj
    rw [hentry] at hj
    split at hj
    · next hij =>
      injection hj with hj
      exact .inl ⟨hij, hj ▸ rfl⟩
    · exact .inr hj
  refine ⟨fun hj => ?_, fun hj hk haddress => ?_, vacant_place ht.vacant_lt, fun p hp => ?_⟩
  · rcases hcases hj with ⟨rfl, -⟩ | hold
    · exact hlt
    · exact ht.index_lt hold
  · rcases hcases hj with ⟨rfl, hnew⟩ | hold <;> rcases hcases hk with ⟨rfl, hnew'⟩ | hold'
    · rfl
    · exact absurd (haddress.symm.trans hnew) (hfresh _ _ hold')
    · exact absurd (haddress.trans hnew') (hfresh _ _ hold)
    · exact ht.address_inj hold hold' haddress
  · have hpref : (t.place ⟨address, routingParent, false⟩).2.preferredParent = t.preferredParent := by
      unfold place
      split <;> rfl
    obtain ⟨entry, hget⟩ := ht.preferredParent_live p (hpref ▸ hp)
    obtain ⟨hg, he⟩ := get?_eq_some_iff.1 hget
    have hgeneration := generationAt_place ⟨address, routingParent, false⟩ hg
    by_cases hplace : i = p.index.toNat
    · exact ⟨_, get?_eq_some_iff.2 ⟨hgeneration, by rw [hentry, if_pos hplace]⟩⟩
    · exact ⟨entry, get?_eq_some_iff.2 ⟨hgeneration, by rw [hentry, if_neg hplace, he]⟩⟩

theorem recordSignal (ht : t.Orderly) (sender : Address) : (recordSignal sender t).2.Orderly := by
  rw [recordSignal_snd]
  cases t.lookup sender with
  | none => exact ht
  | some h => exact ht.setCongested h true

/-- A signal sets the flag of its sender, if that is in the table. -/
theorem entryAt_recordSignal (ht : t.Orderly) (sender : Address) (i : Nat) :
    (CongestionRouting.recordSignal sender t).2.entryAt i = (t.entryAt i).map fun e =>
      { e with congested := e.congested || e.address = sender } := by
  rw [recordSignal_snd]
  cases hl : t.lookup sender with
  | none =>
    have hne := ht.lookup_eq_none_iff.1 hl i
    cases hi : t.entryAt i with
    | none => simp [hi]
    | some e => simp [hi, hne e hi]
  | some h =>
    obtain ⟨found, hget, haddress⟩ := get?_of_lookup hl
    have hlive : t.contains h = true := Option.isSome_iff_exists.2 ⟨found, hget⟩
    simp only [Option.elim_some, NeighborTable.setCongested, hlive, if_true]
    rw [entryAt_modifyEntry]
    have hfound := (get?_eq_some_iff.1 hget).2
    split
    · next hi =>
      subst hi
      simp [hfound, haddress]
    · next hi =>
      cases he : t.entryAt i with
      | none => rfl
      | some e =>
        -- No other entry has the address of the sender.
        have hne : e.address ≠ sender := fun heq =>
          hi (ht.address_inj hfound he (haddress.trans heq.symm))
        simp [hne]

end Orderly

theorem get?_recordSignal (ht : t.Orderly) (sender : Address) (h : NeighborHandle) :
    (recordSignal sender t).2.get? h = (t.get? h).map fun e =>
      { e with congested := e.congested || e.address = sender } := by
  apply Option.ext
  intro entry
  rw [get?_eq_some_iff, ht.entryAt_recordSignal, generationAt_recordSignal]
  simp only [Option.map_eq_some_iff, get?_eq_some_iff]
  constructor
  · rintro ⟨hg, old, hold, rfl⟩
    exact ⟨old, ⟨hg, hold⟩, rfl⟩
  · rintro ⟨old, ⟨hg, hold⟩, rfl⟩
    exact ⟨hg, old, hold, rfl⟩

theorem recordSignal_of_unknown (hl : t.lookup address = none) :
    recordSignal address t = (.unknown, t) := by
  have hlookup : Neighborhood.lookup t address = none := hl
  simp only [recordSignal, hlookup]

theorem recordSignal_of_lookup (hl : t.lookup address = some h) :
    recordSignal address t =
      (if t.preferredParent = some h then .preferredParent h else .neighbor h,
        t.modifyEntry h.index fun e => { e with congested := true }) := by
  obtain ⟨entry, hget, -⟩ := Orderly.get?_of_lookup hl
  have hlive : t.contains h = true := Option.isSome_iff_exists.2 ⟨entry, hget⟩
  have hlookup : Neighborhood.lookup t address = some h := hl
  have hset : Neighborhood.setCongested t h true =
      (true, t.modifyEntry h.index fun e => { e with congested := true }) := if_pos hlive
  have hpreferred : Neighborhood.preferredParent
      (t.modifyEntry h.index fun e => { e with congested := true }) = t.preferredParent := rfl
  simp only [recordSignal, hlookup, hset, hpreferred]
  split <;> rfl

end NeighborTable

end CongestionRouting
