import CongestionRouting.Proofs.Session.Neighbors

namespace CongestionRouting

namespace History

/-- How often the slot at a place was vacated. -/
def releases (past : History) (i : Nat) : Nat :=
  past.countP fun o => o.released?.map (fun h => h.index.toNat) = some i

theorem releases_cons (o : Occurrence) (past : History) (i : Nat) :
    releases (o :: past) i =
      past.releases i + if o.released?.map (fun h => h.index.toNat) = some i then 1 else 0 := by
  simp only [releases, List.countP_cons, decide_eq_true_eq]

theorem releases_le_cons (o : Occurrence) (past : History) (i : Nat) :
    past.releases i ≤ releases (o :: past) i := by
  rw [releases_cons]
  exact Nat.le_add_right _ _

theorem releases_of_none {o : Occurrence} (ho : o.released? = none) (past : History) (i : Nat) :
    releases (o :: past) i = past.releases i := by
  rw [releases_cons, ho]
  rfl

end History

/-- The generation of each slot is the number of times that it was vacated, in 32 bits. -/
structure Counted (past : History) (t : NeighborTable) : Prop where
  generation_eq : ∀ {i generation}, t.generationAt i = some generation →
    generation = UInt32.ofNat (past.releases i)
  releases_eq_zero : ∀ {i}, t.slots.length ≤ i → past.releases i = 0

/-- A handle is behind if the slot was vacated since it was given out. -/
def Superseded (past : History) (h : NeighborHandle) : Prop :=
  h.generation.toNat < past.releases h.index.toNat

namespace Counted

variable {past : History} {o : Occurrence} {t t' : NeighborTable} {h : NeighborHandle}
  {entry : Neighbor}

theorem empty (capacity : Nat) : Counted [] (.empty capacity) where
  generation_eq hg := absurd hg (by simp [NeighborTable.generationAt, NeighborTable.empty])
  releases_eq_zero _ := rfl

theorem place (hc : Counted past t) (entry : Neighbor) : Counted past (t.place entry).2 := by
  cases hv : t.vacant with
  | cons index vacant =>
    rw [NeighborTable.place_of_cons hv]
    refine ⟨fun hg => hc.generation_eq ?_, fun hi => hc.releases_eq_zero ?_⟩
    · rwa [NeighborTable.generationAt_fill] at hg
    · simpa [NeighborTable.fill] using hi
  | nil =>
    rw [NeighborTable.place_of_nil hv]
    refine ⟨fun {i generation} hg => ?_, fun hi => hc.releases_eq_zero ?_⟩
    · rw [NeighborTable.generationAt_fill, NeighborTable.generationAt_grown] at hg
      split at hg
      · next hnew =>
        rw [hc.releases_eq_zero (Nat.le_of_eq hnew.symm)]
        exact (Option.some.inj hg).symm
      · exact hc.generation_eq hg
    · have : (t.grown.fill (UInt32.ofNat t.slots.length) entry).2.slots.length =
          t.slots.length + 1 := by
        simp [NeighborTable.fill, NeighborTable.grown]
      omega

theorem step (hc : Counted past t) (hs : TableStep t o t') : Counted (o :: past) t' := by
  cases hs with
  | @enter _ address routingParent _ hi =>
    have hplace := hc.place ⟨address, routingParent, false⟩
    rw [← (NeighborTable.insert_eq_ok hi).2.2] at hplace
    refine ⟨fun hg => ?_, fun hle => ?_⟩ <;> rw [History.releases_of_none rfl]
    · exact hplace.generation_eq hg
    · exact hplace.releases_eq_zero hle
  | retouch hi hr ht =>
    refine ⟨fun hg => ?_, fun hle => ?_⟩ <;> rw [History.releases_of_none hr]
    · exact hc.generation_eq (ht.generationAt_eq _ ▸ hg)
    · exact hc.releases_eq_zero (ht.length_slots ▸ hle)
  | @leave h entry hg =>
    obtain ⟨hgeneration, hentry⟩ := NeighborTable.get?_eq_some_iff.1 hg
    have hlt := NeighborTable.lt_length_of_entryAt hentry
    refine ⟨fun {i generation} hi => ?_, fun {i} hle => ?_⟩
    · rw [History.releases_cons]
      simp only [Occurrence.released?, Option.map_some, Option.some.injEq]
      by_cases heq : h.index.toNat = i
      · -- The generation and the count of the vacated slot go up together.
        subst heq
        rw [NeighborTable.generationAt_remove_self hg] at hi
        rw [if_pos rfl, UInt32.ofNat_add, ← hc.generation_eq hgeneration]
        exact (Option.some.inj hi).symm
      · rw [if_neg heq, Nat.add_zero]
        exact hc.generation_eq (NeighborTable.generationAt_remove hg heq ▸ hi)
    · have hlength : (t.remove h).2.slots.length = t.slots.length := by
        simp [NeighborTable.remove, hg]
      rw [hlength] at hle
      rw [History.releases_cons, hc.releases_eq_zero hle]
      simp only [Occurrence.released?, Option.map_some, Option.some.injEq]
      rw [if_neg (by omega)]

theorem generation_toNat (hc : Counted past t) (hg : t.generationAt h.index.toNat = some h.generation)
    (hr : past.releases h.index.toNat < UInt32.size) :
    h.generation.toNat = past.releases h.index.toNat := by
  rw [hc.generation_eq hg, UInt32.toNat_ofNat_of_lt' hr]

theorem get?_eq_none (hc : Counted past t) (hs : Superseded past h)
    (hr : past.releases h.index.toNat < UInt32.size) : t.get? h = none := by
  rw [NeighborTable.get?_eq, if_neg]
  intro hg
  exact absurd (hc.generation_toNat hg hr) (Nat.ne_of_lt hs)

theorem superseded_of_leave (hc : Counted past t) (hg : t.get? h = some entry)
    (hr : past.releases h.index.toNat < UInt32.size) (answer : Neighbor) :
    Superseded (⟨.host (.removeNeighbor h), .entry (some answer)⟩ :: past) h := by
  rw [Superseded, hc.generation_toNat (NeighborTable.get?_eq_some_iff.1 hg).1 hr,
    History.releases_cons]
  simp [Occurrence.released?]

end Counted

theorem Superseded.cons {past : History} {h : NeighborHandle} (hs : Superseded past h)
    (o : Occurrence) : Superseded (o :: past) h :=
  Nat.lt_of_lt_of_le hs (History.releases_le_cons o past _)

/-- What becomes of a live handle in one event: it stands for the same neighbor still, or that has left. -/
theorem TableStep.live_or_left {t t' : NeighborTable} {o : Occurrence} {h : NeighborHandle}
    {entry : Neighbor} (hs : TableStep t o t') (ht : t.Consistent) (hg : t.get? h = some entry) :
    (o.released? ≠ some h ∧ ∃ new, t'.get? h = some new ∧ new.address = entry.address) ∨
      (o.released? = some h ∧ ∃ left, o = ⟨.host (.removeNeighbor h), .entry (some left)⟩) := by
  cases hs with
  | enter hi => exact .inl ⟨nofun, entry, (ht.admits_insert hi).get?_of_some hg, rfl⟩
  | retouch hi hr hretouch =>
    exact .inl ⟨by rw [hr]; exact nofun, hretouch.exists_get? hg⟩
  | @leave g left hleft =>
    by_cases heq : g = h
    · exact .inr ⟨by rw [heq]; rfl, left, by rw [heq]⟩
    · exact .inl ⟨fun h => heq (Option.some.inj h), entry,
        NeighborTable.get?_remove_of_ne hg (Ne.symm heq), rfl⟩

/-- All handles given out so far stand for a neighbor or are behind. -/
structure Ledger (past : History) (t : NeighborTable) : Prop extends Counted past t where
  consistent : t.Consistent
  issued : ∀ o ∈ past, ∀ h, o.issued? = some h →
    (∃ entry, t.get? h = some entry) ∨ Superseded past h

namespace Ledger

variable {past : History} {o : Occurrence} {t t' : NeighborTable} {h : NeighborHandle}

theorem empty {capacity : Nat} (hc : capacity ≤ UInt32.size) : Ledger [] (.empty capacity) :=
  ⟨.empty capacity, .empty hc, fun _ hmem => absurd hmem List.not_mem_nil⟩

theorem step (hl : Ledger past t) (hs : TableStep t o t')
    (hr : ∀ i, past.releases i < UInt32.size) : Ledger (o :: past) t' := by
  refine ⟨hl.toCounted.step hs, (hs.consistent hl.consistent).1, fun o' hmem h hissued => ?_⟩
  rcases List.mem_cons.1 hmem with rfl | hold
  · cases hs with
    | enter hi =>
      injection hissued with hissued
      exact .inl ⟨_, hissued ▸ (hl.consistent.admits_insert hi).get?_self⟩
    | leave hg => exact absurd hissued nofun
    | retouch hi hr ht => exact absurd (hi.symm.trans hissued) nofun
  · rcases hl.issued o' hold h hissued with ⟨entry, hg⟩ | hbehind
    · rcases hs.live_or_left hl.consistent hg with ⟨-, new, hnew, -⟩ | ⟨-, left, rfl⟩
      · exact .inl ⟨new, hnew⟩
      · exact .inr (hl.superseded_of_leave hg (hr _) left)
    · exact .inr (hbehind.cons o)

/-- A new neighbor gets a handle that none had before. -/
theorem fresh (hl : Ledger past t) (hr : ∀ i, past.releases i < UInt32.size) {address : Address}
    {routingParent : Bool} (hi : t.insert address routingParent = .ok (h, t')) :
    ∀ o ∈ past, o.issued? ≠ some h := by
  intro o hmem hissued
  -- Had it been given out before, it would be live or behind. But its slot was vacant, and it has the
  -- newest generation of that slot.
  have hadmits := hl.consistent.admits_insert hi
  rcases hl.issued o hmem h hissued with ⟨entry, hg⟩ | hbehind
  · have hentry := (NeighborTable.get?_eq_some_iff.1 hg).2
    rw [hadmits.entryAt_index] at hentry
    exact absurd hentry nofun
  · have hstep := hl.toCounted.step (.enter hi)
    have hreleases : History.releases
        (⟨.host (.insertNeighbor address routingParent), .handle (some h)⟩ :: past) h.index.toNat =
          past.releases h.index.toNat := History.releases_of_none rfl past _
    have heq := hstep.generation_toNat hadmits.generationAt_index (hreleases ▸ hr _)
    rw [hreleases] at heq
    exact absurd heq (Nat.ne_of_lt hbehind)

end Ledger

namespace Session

variable {s : Session NeighborTable} {past : History} {h : NeighborHandle} {entry : Neighbor}

theorem releases_le_history (s : Session NeighborTable) (past : History)
    (events : List SessionEvent) (i : Nat) :
    past.releases i ≤ (s.history past events).releases i :=
  (s.suffix_history past events).sublist.countP_le

theorem counted_run (hc : Counted past s.host.neighbors) (events : List SessionEvent) :
    Counted (s.history past events) (s.run events).host.neighbors := by
  induction events generalizing s past with
  | nil => exact hc
  | cons event events ih => exact ih (hc.step (s.tableStep event))

theorem ledger_run (hl : Ledger past s.host.neighbors) {events : List SessionEvent}
    (hr : ∀ i, (s.history past events).releases i < UInt32.size) :
    Ledger (s.history past events) (s.run events).host.neighbors := by
  induction events generalizing s past with
  | nil => exact hl
  | cons event events ih =>
    -- What bounds the whole past bounds each part of it.
    have hpast : ∀ i, past.releases i < UInt32.size := fun i =>
      Nat.lt_of_le_of_lt (s.releases_le_history past (event :: events) i) (hr i)
    exact ih (hl.step (s.tableStep event) hpast) hr

theorem get?_run_of_superseded (hc : Counted past s.host.neighbors) (hs : Superseded past h)
    {events : List SessionEvent}
    (hr : (s.history past events).releases h.index.toNat < UInt32.size) :
    (s.run events).host.neighbors.get? h = none := by
  have hlater : Superseded (s.history past events) h :=
    Nat.lt_of_lt_of_le hs (s.releases_le_history past events _)
  exact (counted_run hc events).get?_eq_none hlater hr

theorem get?_run_of_not_removed (ht : s.host.neighbors.Consistent)
    (hg : s.host.neighbors.get? h = some entry) {events : List SessionEvent}
    (hn : .host (.removeNeighbor h) ∉ events) :
    ∃ new, (s.run events).host.neighbors.get? h = some new ∧ new.address = entry.address := by
  induction events generalizing s entry with
  | nil => exact ⟨entry, hg, rfl⟩
  | cons event events ih =>
    rcases (s.tableStep event).live_or_left ht hg with ⟨-, new, hnew, haddress⟩ | ⟨-, left, heq⟩
    · obtain ⟨last, hlast, hsame⟩ := ih ((s.tableStep event).consistent ht).1 hnew
        fun hmem => hn (List.mem_cons_of_mem _ hmem)
      exact ⟨last, hlast, hsame.trans haddress⟩
    · rw [(Occurrence.mk.inj heq).1] at hn
      exact absurd List.mem_cons_self hn

theorem superseded_of_removed (hc : Counted past s.host.neighbors)
    (hg : s.host.neighbors.get? h = some entry)
    (hr : past.releases h.index.toNat < UInt32.size) :
    let gone : SessionEvent := .host (.removeNeighbor h)
    Superseded (⟨gone, (s.step gone).1⟩ :: past) h := by
  intro gone
  have hanswer : (s.step gone).1 = .entry (some entry) := by
    simp only [gone, step, Host.step, TableHolder.table, NeighborTable.remove, hg]
  rw [hanswer]
  exact hc.superseded_of_leave hg hr entry

theorem get?_run_of_removed (hc : Counted past s.host.neighbors) (ht : s.host.neighbors.Consistent)
    (hg : s.host.neighbors.get? h = some entry) {events : List SessionEvent}
    (hremoved : .host (.removeNeighbor h) ∈ events)
    (hr : (s.history past events).releases h.index.toNat < UInt32.size) :
    (s.run events).host.neighbors.get? h = none := by
  -- The first of the removals is the one that vacates the slot.
  obtain ⟨stay, after, rfl, hstay⟩ := List.eq_append_cons_of_mem hremoved
  obtain ⟨last, hlast, -⟩ := get?_run_of_not_removed ht hg hstay
  rw [history_append] at hr
  rw [run_append]
  have hcounted := counted_run hc stay
  generalize s.run stay = s' at *
  generalize s.history past stay = past' at *
  have hbehind := superseded_of_removed hcounted hlast
    (Nat.lt_of_le_of_lt (s'.releases_le_history past' _ _) hr)
  exact get?_run_of_superseded (hcounted.step (s'.tableStep _)) hbehind hr

theorem viewNeighbor_eq (s : Session NeighborTable) (h : NeighborHandle) :
    s.step (.host (.viewNeighbor h)) =
      (.view ((s.host.neighbors.get? h).elim ⟨none, false, false, none⟩ fun entry =>
        ⟨some entry.address, true, entry.routingParent, some entry.congested⟩), s) := by
  have hview : NeighborView.ofHandle s.host.neighbors h =
      ⟨(s.host.neighbors.get? h).map Neighbor.address,
        ((s.host.neighbors.get? h).map Neighbor.address).isSome,
        (s.host.neighbors.get? h).any Neighbor.routingParent,
        (s.host.neighbors.get? h).map Neighbor.congested⟩ := rfl
  simp only [step, Host.step, hview]
  cases s.host.neighbors.get? h <;> rfl

/-- A handle that stands for nothing: nothing is told of it, and nothing is done through it. -/
structure Dangling (s : Session NeighborTable) (h : NeighborHandle) : Prop where
  get?_eq : s.host.neighbors.get? h = none
  view_eq : s.step (.host (.viewNeighbor h)) = (.view ⟨none, false, false, none⟩, s)
  remove_eq : s.step (.host (.removeNeighbor h)) = (.entry none, s)
  setCongested_eq : ∀ value, s.step (.host (.setCongested h value)) = (.flag false, s)
  setRoutingParent_eq : ∀ value,
    s.step (.host (.setRoutingParent h value)) = (.tableFailure (.notFound h), s)
  setPreferredParent_eq :
    s.step (.host (.setPreferredParent (some h))) = (.tableFailure (.notFound h), s)

theorem dangling_of_get? (hg : s.host.neighbors.get? h = none) : s.Dangling h := by
  have hc : s.host.neighbors.contains h = false := by
    rw [NeighborTable.contains, hg]
    rfl
  refine ⟨hg, ?_, ?_, fun value => ?_, fun value => ?_, ?_⟩
  · rw [viewNeighbor_eq, hg]
    rfl
  · simp only [step, Host.step, TableHolder.table, NeighborTable.remove, hg]
    rfl
  · have hset : Neighborhood.setCongested s.host.neighbors h value = (false, s.host.neighbors) := by
      change s.host.neighbors.setCongested h value = _
      rw [NeighborTable.setCongested, hc]
      rfl
    simp only [step, Host.step, hset]
  · simp only [step, Host.step, TableHolder.table, NeighborTable.setRoutingParent, hc,
      Bool.false_eq_true, if_false]
  · simp only [step, Host.step, TableHolder.table, NeighborTable.setPreferredParent, hc,
      Bool.false_eq_true, if_false]

/-- A handle that stands for the neighbor with an address. -/
structure Standing (s : Session NeighborTable) (h : NeighborHandle) (address : Address) : Prop where
  exists_get? : ∃ entry, s.host.neighbors.get? h = some entry ∧ entry.address = address
  exists_view : ∃ routingParent congested, s.step (.host (.viewNeighbor h)) =
    (.view ⟨some address, true, routingParent, some congested⟩, s)

theorem standing_of_get? (hg : s.host.neighbors.get? h = some entry) :
    s.Standing h entry.address where
  exists_get? := ⟨entry, hg, rfl⟩
  exists_view := ⟨entry.routingParent, entry.congested, by rw [viewNeighbor_eq, hg]; rfl⟩

theorem insert_of_handle {address : Address} {routingParent : Bool}
    (ha : (s.step (.host (.insertNeighbor address routingParent))).1 = .handle (some h)) :
    s.host.neighbors.insert address routingParent =
      .ok (h, (s.step (.host (.insertNeighbor address routingParent))).2.host.neighbors) := by
  simp only [step, Host.step, TableHolder.table] at ha ⊢
  cases hi : s.host.neighbors.insert address routingParent with
  | error e => cases hi ▸ ha
  | ok placed =>
    rw [hi] at ha
    injection ha with ha
    injection ha with ha
    subst ha
    rfl

/-- As long as no slot has been vacated so often that its generation counts around, the handle of a new
neighbor is one that none had before. It stands for that neighbor until it is removed, and for nothing
ever after, whoever is in the slot by then. -/
theorem handles_unconfused {capacity : Nat} (hc : capacity ≤ UInt32.size) (routes : RouteList)
    (core : SessionCore) {events : List SessionEvent} :
    let first : Session NeighborTable := start (.empty capacity) routes core
    (∀ i, (first.history [] events).releases i < UInt32.size) →
      ∀ before address routingParent later h,
        let enter : SessionEvent := .host (.insertNeighbor address routingParent)
        events = before ++ enter :: later → ((first.run before).step enter).1 = .handle (some h) →
          (∀ o ∈ first.history [] before, o.issued? ≠ some h) ∧
            (.host (.removeNeighbor h) ∉ later → (first.run events).Standing h address) ∧
            (.host (.removeNeighbor h) ∈ later → (first.run events).Dangling h) := by
  intro first hr before address routingParent later h enter hevents hanswer
  subst hevents
  rw [history_append] at hr
  -- Releases only add up, so what bounds them in the end bounds them up to the entry.
  have hledger := ledger_run (s := first) (.empty hc)
    fun i => Nat.lt_of_le_of_lt (releases_le_history _ _ (enter :: later) i) (hr i)
  rw [run_append]
  generalize first.run before = s at *
  generalize first.history [] before = past at *
  have hpast : ∀ i, past.releases i < UInt32.size := fun i =>
    Nat.lt_of_le_of_lt (releases_le_history _ _ (enter :: later) i) (hr i)
  have hi := insert_of_handle hanswer
  have hg := (hledger.consistent.admits_insert hi).get?_self
  have hnext := hledger.step (s.tableStep enter) hpast
  refine ⟨hledger.fresh hpast hi, fun hstays => ?_, fun hleaves => ?_⟩
  · obtain ⟨entry, hentry, haddress⟩ := get?_run_of_not_removed hnext.consistent hg hstays
    have hstanding := standing_of_get? hentry
    rwa [haddress] at hstanding
  · exact dangling_of_get?
      (get?_run_of_removed hnext.toCounted hnext.consistent hg hleaves (hr _))

/-- A slot with its second neighbor: the handle of the first one does not stand for it. -/
theorem handles_unconfused_reused :
    let hop (n : UInt16) : Address := ⟨#v[0xfe80, 0, 0, 0, 0, 0, 0, n]⟩
    let first : Session NeighborTable := start (.empty 1) (.empty 2) .absent
    let events : List SessionEvent :=
      [.host (.insertNeighbor (hop 1) true), .host (.removeNeighbor ⟨0, 0⟩),
        .host (.insertNeighbor (hop 2) true)]
    (∀ i, (first.history [] events).releases i < UInt32.size) ∧
      (first.run events).Dangling ⟨0, 0⟩ ∧ (first.run events).Standing ⟨0, 1⟩ (hop 2) ∧
      (first.run events).host.neighbors.size = 1 := by
  intro hop first events
  have hc : 1 ≤ UInt32.size := by decide
  have hlength : (first.history [] events).length < UInt32.size := by decide
  have hr : ∀ i, (first.history [] events).releases i < UInt32.size := fun i =>
    Nat.lt_of_le_of_lt List.countP_le_length hlength
  have hold := handles_unconfused hc (.empty 2) .absent hr [] (hop 1) true
    [.host (.removeNeighbor ⟨0, 0⟩), .host (.insertNeighbor (hop 2) true)] ⟨0, 0⟩ rfl (by decide)
  have hnew := handles_unconfused hc (.empty 2) .absent hr
    [.host (.insertNeighbor (hop 1) true), .host (.removeNeighbor ⟨0, 0⟩)] (hop 2) true [] ⟨0, 1⟩
    rfl (by decide)
  exact ⟨hr, hold.2.2 List.mem_cons_self, hnew.2.1 List.not_mem_nil, by decide⟩

end Session

end CongestionRouting
