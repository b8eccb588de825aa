import CongestionRouting.Neighbor.Guarded
import CongestionRouting.Proofs.Session.Verdicts

namespace CongestionRouting

theorem clearEach_of_refused {ν : Type} {setCongested : ν → NeighborHandle → Bool → Bool × ν}
    {table : ν} (h : ∀ handle, setCongested table handle false = (false, table))
    (handles : List NeighborHandle) : clearEach setCongested handles table = table := by
  induction handles with
  | nil => rfl
  | cons handle handles ih =>
    rw [clearEach, List.foldl_cons, h handle]
    exact ih

namespace NeighborTable

variable {t t' : NeighborTable} {h : NeighborHandle} {entry : Neighbor} {i : Nat}

theorem slots_ext (hgeneration : ∀ i, t'.generationAt i = t.generationAt i)
    (hentry : ∀ i, t'.entryAt i = t.entryAt i) : t'.slots = t.slots := by
  apply List.ext_getElem?
  intro i
  have hg := hgeneration i
  have he := hentry i
  unfold generationAt at hg
  unfold entryAt at he
  cases hs' : t'.slots[i]? with
  | none =>
    rw [hs', Option.map_none, eq_comm, Option.map_eq_none_iff] at hg
    exact hg.symm
  | some slot' =>
    rw [hs', Option.map_some, eq_comm] at hg
    obtain ⟨slot, hs, hsame⟩ := Option.map_eq_some_iff.1 hg
    rw [hs', hs] at he
    obtain ⟨generation, entry⟩ := slot
    obtain ⟨generation', entry'⟩ := slot'
    obtain rfl : generation = generation' := hsame
    obtain rfl : entry' = entry := he
    exact hs.symm

/-- Setting a flag touches no more than a slot. -/
theorem exists_of_setCongested (t : NeighborTable) (h : NeighborHandle) (value : Bool) :
    ∃ slots, (t.setCongested h value).2 = { t with slots := slots } := by
  unfold setCongested
  split
  · exact ⟨_, rfl⟩
  · exact ⟨t.slots, rfl⟩

theorem exists_of_clearEach (handles : List NeighborHandle) (t : NeighborTable) :
    ∃ slots, clearEach setCongested handles t = { t with slots := slots } := by
  induction handles generalizing t with
  | nil => exact ⟨t.slots, rfl⟩
  | cons h handles ih =>
    obtain ⟨first, hfirst⟩ := t.exists_of_setCongested h false
    obtain ⟨slots, hslots⟩ := ih (t.setCongested h false).2
    refine ⟨slots, hslots.trans ?_⟩
    rw [hfirst]

theorem entryAt_setCongested (hg : t.get? h = some entry) (value : Bool) (i : Nat) :
    (t.setCongested h value).2.entryAt i =
      if h.index.toNat = i then (t.entryAt i).map fun e => { e with congested := value }
      else t.entryAt i := by
  have hc : t.contains h = true := Option.isSome_iff_exists.2 ⟨entry, hg⟩
  rw [setCongested, if_pos hc]
  exact entryAt_modifyEntry h.index _ i

theorem generationAt_clearEach (handles : List NeighborHandle) (t : NeighborTable) (i : Nat) :
    (clearEach setCongested handles t).generationAt i = t.generationAt i := by
  induction handles generalizing t with
  | nil => rfl
  | cons h handles ih => exact (ih _).trans ((Retouches.setCongested t h false).generationAt_eq i)

/-- Flags are cleared at the places of the handles. That a handle resolves is not lost by clearing
another, and clearing twice is clearing once. -/
theorem entryAt_clearEach {handles : List NeighborHandle} {t : NeighborTable}
    (hlive : ∀ h ∈ handles, ∃ entry, t.get? h = some entry) (i : Nat) :
    (clearEach setCongested handles t).entryAt i =
      if ∃ h ∈ handles, h.index.toNat = i then (t.entryAt i).map fun e => { e with congested := false }
      else t.entryAt i := by
  induction handles generalizing t with
  | nil => simp only [clearEach, List.foldl_nil, List.not_mem_nil, false_and, exists_false, if_false]
  | cons h handles ih =>
    obtain ⟨entry, hg⟩ := hlive h List.mem_cons_self
    have hlive' : ∀ g ∈ handles, ∃ new, (t.setCongested h false).2.get? g = some new := by
      intro g hmem
      obtain ⟨old, hold⟩ := hlive g (List.mem_cons_of_mem h hmem)
      obtain ⟨new, hnew, -⟩ := (Retouches.setCongested t h false).exists_get? hold
      exact ⟨new, hnew⟩
    have hrest := ih hlive'
    rw [entryAt_setCongested hg] at hrest
    rw [clearEach, List.foldl_cons]
    refine hrest.trans ?_
    simp only [List.exists_mem_cons_iff]
    by_cases hhere : h.index.toNat = i
    · simp only [hhere, if_true, true_or, Option.map_map, Function.comp_def, ite_self]
    · simp only [hhere, if_false, false_or]

theorem Orderly.exists_handle (ht : t.Orderly) (hi : t.entryAt i = some entry) :
    ∃ h ∈ t.handles, h.index.toNat = i := by
  obtain ⟨slot, hslot, -⟩ := Option.bind_eq_some_iff.1 hi
  have hindex : (UInt32.ofNat i).toNat = i := UInt32.toNat_ofNat_of_lt' (ht.index_lt hi)
  have hgeneration : t.generationAt i = some slot.generation := by rw [generationAt, hslot, Option.map_some]
  have hg : t.get? ⟨UInt32.ofNat i, slot.generation⟩ = some entry := by
    rw [get?_eq_some_iff, hindex]
    exact ⟨hgeneration, hi⟩
  exact ⟨_, ht.mem_handles_iff.2 ⟨entry, hg⟩, hindex⟩

/-- All handles together lead to all entries. -/
theorem Orderly.clearEach_handles (ht : t.Orderly) :
    clearEach NeighborTable.setCongested t.handles t = t.clearFlags := by
  have hslots : (clearEach NeighborTable.setCongested t.handles t).slots = t.clearFlags.slots := by
    apply slots_ext
    · intro i
      rw [generationAt_clearEach, generationAt_clearFlags]
    · intro i
      rw [entryAt_clearEach fun h => ht.mem_handles_iff.1, entryAt_clearFlags]
      split
      · rfl
      · next hnone =>
        cases hi : t.entryAt i with
        | none => rfl
        | some entry => exact absurd (ht.exists_handle hi) hnone
  obtain ⟨slots, h⟩ := exists_of_clearEach t.handles t
  rw [h] at hslots ⊢
  exact congrArg (fun slots => { t with slots := slots }) hslots

end NeighborTable

namespace GuardedTable

theorem clearEach_of_open (handles : List NeighborHandle) (t : NeighborTable) :
    clearEach setCongested handles ⟨t, false⟩ =
      ⟨clearEach NeighborTable.setCongested handles t, false⟩ := by
  induction handles generalizing t with
  | nil => rfl
  | cons h handles ih => exact ih (t.setCongested h false).2

end GuardedTable

namespace Session

/-- Whatever was entered and removed, the handles of a table lead to each of its flags, and clearing
them one after the other is a sweep through the slots: all flags are cleared, and nothing else is touched. A
table that refuses flags keeps them, as one does behind a raised guard. -/
theorem clearEach_neighbors (capacity : Nat) (routes : RouteList) (core : SessionCore)
    (events : List SessionEvent) :
    let t : NeighborTable := ((start (.empty capacity) routes core).run events).host.neighbors
    let cleared : NeighborTable := clearEach Neighborhood.setCongested (Neighborhood.neighbors t) t
    cleared = Neighborhood.clearFlags t ∧
      cleared = { t with slots := cleared.slots } ∧
      (∀ i, cleared.generationAt i = t.generationAt i ∧
        cleared.entryAt i = (t.entryAt i).map fun e => { e with congested := false }) ∧
      (∀ readOnly, Neighborhood.clearFlags (GuardedTable.mk t readOnly) =
        ⟨if readOnly then t else cleared, readOnly⟩) ∧
      ∀ {ν : Type} [Neighborhood ν] (table : ν),
        (∀ h, Neighborhood.setCongested table h false = (false, table)) →
        clearEach Neighborhood.setCongested (Neighborhood.neighbors table) table = table := by
  intro t cleared
  have ht : t.Orderly := (reached_run capacity routes core events).orderly
  have hsame : cleared = t.clearFlags := ht.clearEach_handles
  refine ⟨hsame, ?_, fun i => ?_, fun readOnly => ?_, fun table hrefused => ?_⟩
  · rw [hsame]
    rfl
  · rw [hsame]
    exact ⟨NeighborTable.generationAt_clearFlags i, NeighborTable.entryAt_clearFlags i⟩
  · cases readOnly with
    | false => exact GuardedTable.clearEach_of_open t.handles t
    | true => exact clearEach_of_refused (fun _ => rfl) t.handles
  · exact clearEach_of_refused hrefused (Neighborhood.neighbors table)

/-- A slot in the middle is reused and the first one is free, its old handle still in the hands of the
host. Two of three flags were set. -/
theorem clearEach_neighbors_reused :
    let hop (n : UInt16) : Address := ⟨#v[0xfe80, 0, 0, 0, 0, 0, 0, n]⟩
    let events : List SessionEvent :=
      [.host (.insertNeighbor (hop 1) true), .host (.insertNeighbor (hop 2) true),
        .host (.insertNeighbor (hop 3) false), .host (.removeNeighbor ⟨1, 0⟩),
        .host (.insertNeighbor (hop 4) true), .host (.removeNeighbor ⟨0, 0⟩),
        .host (.setPreferredParent (some ⟨1, 1⟩)), .host (.setCongested ⟨0, 0⟩ true),
        .host (.setCongested ⟨1, 1⟩ true), .host (.setCongested ⟨2, 0⟩ true)]
    let t : NeighborTable := ((start (.empty 3) (.empty 0) .absent).run events).host.neighbors
    let cleared : NeighborTable := clearEach Neighborhood.setCongested (Neighborhood.neighbors t) t
    let guarded : GuardedTable := ⟨t, true⟩
    t.flagged = [hop 4, hop 3] ∧ cleared = Neighborhood.clearFlags t ∧
      cleared = ⟨[⟨1, none⟩, ⟨1, some ⟨hop 4, true, false⟩⟩, ⟨0, some ⟨hop 3, false, false⟩⟩], [0], 3, 2,
        some ⟨1, 1⟩⟩ ∧
      (∀ h, Neighborhood.setCongested guarded h false = (false, guarded)) ∧
      clearEach Neighborhood.setCongested (Neighborhood.neighbors guarded) guarded = guarded := by
  intro hop events t cleared guarded
  obtain ⟨hsame, -, -, -, hkept⟩ := clearEach_neighbors 3 (.empty 0) .absent events
  have hrefused : ∀ h, Neighborhood.setCongested guarded h false = (false, guarded) := fun _ => rfl
  exact ⟨by decide, hsame, by decide, hrefused, hkept guarded hrefused⟩

end Session

end CongestionRouting
