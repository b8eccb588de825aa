import CongestionRouting.Mesh.Stats
import CongestionRouting.Proofs.Mesh.Relay

namespace CongestionRouting

def MeshEvent.Grows (m : Mesh) : MeshEvent → Prop
  | .build plan => plan.config = none ∧ (m.build plan).1.isOk = true
  | .evict _ _ => False
  | .reseed _ | .setDelivery _ _ _ | .step => True

/-- An interval after which nobody is congested, has said so or has a detour. -/
structure StepSummary.Quiet (s : StepSummary) : Prop where
  congested_eq : s.report.congested = []
  notifying_eq : s.report.notifying = []
  alternates_eq : s.alternates = []

namespace Mesh

open MeshNode

variable {m m' : Mesh} {events : List MeshEvent}

instance (m : Mesh) : DecidablePred (MeshEvent.Grows m)
  | .build plan => inferInstanceAs (Decidable (plan.config = none ∧ (m.build plan).1.isOk = true))
  | .evict _ _ => isFalse id
  | .reseed _ | .setDelivery _ _ _ | .step => isTrue trivial

def Grows (m : Mesh) : List MeshEvent → Prop
  | [] => True
  | event :: events => event.Grows m ∧ (m.apply event).2.Grows events

theorem Relaying.of_nodes_eq (hm : m.Relaying) (h : m'.nodes = m.nodes) : m'.Relaying := by
  obtain ⟨nodes, links, random, steps⟩ := m'
  subst h
  exact ⟨⟨hm.size_le, hm.id_eq, hm.packed, hm.known_lt, hm.symm⟩, hm.atRest, hm.standard⟩

theorem Relaying.build (hm : m.Relaying) {plan : NodePlan} (hplan : plan.config = none) {id : NodeId}
    (hb : m.build plan = (.ok id, m')) : m'.Relaying := by
  have happly : (m.apply (.build plan)).2 = m' := by rw [apply_build, hb]
  refine ⟨hm.toMutual.build hb, happly ▸ atRest_apply hm.atRest (.build plan), fun n' hn' => ?_⟩
  obtain ⟨node, nodes, hd, hi, rfl⟩ := build_eq_ok hb
  rcases Array.mem_push.1 hn' with hold | rfl
  · obtain ⟨i, hget⟩ := Array.mem_iff_getElem?.1 hold
    have hnodes : (introduce m.nextAddress plan.uplinks m.nodes).2 = nodes := by rw [hi]
    obtain ⟨n, hn, heq, -⟩ := introduce_only_neighbors (hnodes ▸ hget)
    exact (hm.standard n (Array.mem_of_getElem? hn)).congr (heq ▸ rfl)
  · exact standard_design hplan hd

theorem Relaying.apply (hm : m.Relaying) {event : MeshEvent} (he : event.Grows m) :
    (m.apply event).2.Relaying := by
  cases event with
  | reseed seed => exact hm.of_nodes_eq rfl
  | step => exact hm.step
  | evict id neighbor => exact he.elim
  | setDelivery a b d =>
    cases hs : m.setDelivery a b d with
    | error e => simpa only [Mesh.apply, hs] using hm
    | ok m' =>
      obtain rfl := setDelivery_eq_ok hs
      simp only [Mesh.apply, hs]
      exact hm.of_nodes_eq rfl
  | build plan =>
    obtain ⟨hplan, hok⟩ := he
    rcases hb : m.build plan with ⟨e | id, m'⟩
    · rw [hb] at hok
      cases hok
    · rw [apply_build, hb]
      exact hm.build hplan hb

theorem relaying_empty : empty.Relaying :=
  ⟨mutual_empty, fun _ hn => absurd hn (by simp [empty]), fun _ hn => absurd hn (by simp [empty])⟩

theorem Relaying.applyAll (hm : m.Relaying) (h : m.Grows events) : (m.applyAll events).Relaying := by
  induction events generalizing m with
  | nil => exact hm
  | cons event events ih => exact ih (hm.apply h.1) h.2

section Run

def after (m : Mesh) (k : Nat) : Mesh := (m.run k).2

/-- The interval that follows after so many. -/
def summaryAfter (m : Mesh) (k : Nat) : StepSummary := (m.after k).summarizedStep.1

/-- Whether the node at an index notifies its neighbors in the interval that follows after so many. -/
def notifies (m : Mesh) (k i : Nat) : Bool := idAt i ∈ (m.summaryAfter k).report.notifying

theorem after_succ (m : Mesh) (k : Nat) : m.after (k + 1) = (m.after k).step.2 := by
  induction k generalizing m with
  | zero => rfl
  | succ k ih => exact ih m.step.2

theorem run_eq (m : Mesh) (count : Nat) : (m.run count).1 = (List.range count).map m.summaryAfter := by
  induction count generalizing m with
  | zero => rfl
  | succ count ih =>
    have hrest : (m.run (count + 1)).1 = m.summaryAfter 0 :: (m.step.2.run count).1 := rfl
    rw [hrest, ih, List.range_succ_eq_map, List.map_cons, List.map_map]
    rfl

theorem Lossless.after (hlinks : m.Lossless) (k : Nat) : (m.after k).Lossless := by
  induction k with
  | zero => exact hlinks
  | succ k ih =>
    intro a b
    rw [after_succ, delivery, links_step]
    exact ih a b

theorem Relaying.after (hm : m.Relaying) (k : Nat) : (m.after k).Relaying ∧
    (m.after k).nodes.size = m.nodes.size ∧ ∀ i j, (m.after k).Hears i j ↔ m.Hears i j := by
  induction k with
  | zero => exact ⟨hm, rfl, fun _ _ => Iff.rfl⟩
  | succ k ih =>
    obtain ⟨hrelaying, hsize, hhears⟩ := ih
    have hstep := hrelaying.acquainted_step
    rw [after_succ]
    exact ⟨hrelaying.step, hstep.1.trans hsize, fun i j => (hears_congr hstep i j).trans (hhears i j)⟩

/-- A node that is congested notifies its neighbors, and is then going to advertise it. -/
theorem Relaying.map_filter_ticks (hm : m.Relaying) {p : TickReport → Bool}
    (hp : ∀ report : TickReport, report.notified = report.verdict.selfCongested →
      p report = report.verdict.selfCongested) :
    (m.step.1.ticks.filter fun tick => p tick.2).map Prod.fst =
      (List.range m.nodes.size).filterMap fun i => if m.step.2.pending i then some (idAt i) else none := by
  rw [(step_eq m).1, ticks_eq, List.filter_filterMap, List.map_filterMap,
    filterMap_eq_filterMap_range, Array.length_toList, size_advertise]
  apply List.filterMap_congr
  intro i hi
  have hlt : i < m.reported.advertise.nodes.size := (size_advertise m).symm ▸ List.mem_range.1 hi
  have hn := Array.getElem?_eq_getElem hlt
  obtain ⟨hid, report, hreport, hnotified, hpending, -⟩ := hm.tick hn
  rw [Array.getElem?_toList, hn, Option.bind_some, hreport, hid, hpending, Option.map_some,
    Option.filter_some, hp report hnotified]
  split <;> rfl

theorem Relaying.notifying_step (hm : m.Relaying) : m.step.1.notifying =
    (List.range m.nodes.size).filterMap fun i => if m.step.2.pending i then some (idAt i) else none :=
  hm.map_filter_ticks fun _ hnotified => hnotified

theorem Relaying.congested_step (hm : m.Relaying) : m.step.1.congested = m.step.1.notifying :=
  (hm.map_filter_ticks fun _ _ => rfl).trans hm.notifying_step.symm

theorem Relaying.notifying_eq (hm : m.Relaying) (k : Nat) : (m.summaryAfter k).report.notifying =
    (List.range m.nodes.size).filterMap fun i =>
      if (m.after (k + 1)).pending i then some (idAt i) else none := by
  obtain ⟨hrelaying, hsize, -⟩ := hm.after k
  rw [after_succ, ← hsize]
  exact hrelaying.notifying_step

theorem Relaying.notifying_eq_nil_iff (hm : m.Relaying) (k : Nat) :
    (m.summaryAfter k).report.notifying = [] ↔
      ∀ i < m.nodes.size, (m.after (k + 1)).pending i = false := by
  rw [hm.notifying_eq, List.filterMap_eq_nil_iff]
  simp only [List.mem_range, ite_eq_right_iff, reduceCtorEq, imp_false, Bool.not_eq_true]

theorem Relaying.notifies_eq (hm : m.Relaying) (k : Nat) {i : Nat} (hi : i < m.nodes.size) :
    m.notifies k i = (m.after (k + 1)).pending i := by
  rw [notifies, hm.notifying_eq, Bool.eq_iff_iff, decide_eq_true_eq]
  simp only [List.mem_filterMap, List.mem_range, Option.ite_none_right_eq_some, Option.some.injEq]
  constructor
  · rintro ⟨j, hj, hpending, hid⟩
    exact (idAt_inj (hj.trans_le hm.size_le) (hi.trans_le hm.size_le)).1 hid ▸ hpending
  · exact fun hpending => ⟨i, hi, hpending, rfl⟩

/-- Where no packet is lost the advertisements of an interval are votes of the neighbors. -/
theorem Relaying.rounds (hm : m.Relaying) (hlinks : m.Lossless) :
    Vote.Rounds m.nodes.size m.Hears fun k => (m.after k).pending := by
  refine ⟨hm.symm, fun k => ?_⟩
  obtain ⟨hrelaying, hsize, hhears⟩ := hm.after k
  have hvotes := hrelaying.follows_step (hlinks.after k)
  rw [hsize, ← after_succ] at hvotes
  exact hvotes.congr (fun i _ j _ => hhears i j) (fun _ _ => rfl) fun _ _ => rfl

theorem Relaying.degree_le (hm : m.Relaying) {i : Nat} (hi : i < m.nodes.size) :
    Vote.degree m.nodes.size m.Hears i ≤ NeighborTable.standardCapacity := by
  rw [hm.degree_eq (Array.getElem?_eq_getElem hi)]
  exact (hm.packed _ (Array.getElem_mem hi)).length_entries_le

theorem Relaying.quiet_of_silent (hm : m.Relaying) (hlinks : m.Lossless) {k : Nat}
    (hk : ∀ i < m.nodes.size, (m.after k).pending i = false) : (m.summaryAfter k).Quiet := by
  obtain ⟨hrelaying, hsize, -⟩ := hm.after k
  have hnotifying := (hm.notifying_eq_nil_iff k).2 ((hm.rounds hlinks).silent hk)
  have hcongested : (m.summaryAfter k).report.congested = _ := hrelaying.congested_step
  have halternates : (m.summaryAfter k).alternates = (m.after k).step.2.alternates := rfl
  refine ⟨hcongested.trans hnotifying, hnotifying, ?_⟩
  rw [halternates, alternates, List.filterMap_eq_nil_iff]
  intro n hn
  rw [alternate, hrelaying.detour_step (hsize.symm ▸ hk) n (Array.mem_toList_iff.1 hn)]
  rfl

/-- Once nobody notifies nobody ever will. -/
theorem Relaying.quiet_of_lt (hm : m.Relaying) (hlinks : m.Lossless) {k j : Nat}
    (hk : (m.summaryAfter k).report.notifying = []) (hj : k < j) : (m.summaryAfter j).Quiet := by
  apply hm.quiet_of_silent hlinks
  induction j, hj using Nat.le_induction with
  | base => exact (hm.notifying_eq_nil_iff k).1 hk
  | succ j _ ih => exact (hm.rounds hlinks).silent ih

/-- So many intervals after the last loss, at most, notifications repeat every second interval. -/
def settlingTime (m : Mesh) : Nat := (2 * NeighborTable.standardCapacity + 1) * m.nodes.size

theorem Relaying.notifying_add_two (hm : m.Relaying) (hlinks : m.Lossless) {k : Nat}
    (hk : m.settlingTime ≤ k) :
    (m.summaryAfter (k + 2)).report.notifying = (m.summaryAfter k).report.notifying := by
  have hrepeats := (hm.rounds hlinks).repeats (fun _ => hm.degree_le) (Nat.le_succ_of_le hk)
  rw [hm.notifying_eq, hm.notifying_eq]
  exact List.filterMap_congr fun i hi => by rw [hrepeats i (List.mem_range.1 hi)]

theorem Relaying.notifying_add_mul (hm : m.Relaying) (hlinks : m.Lossless) (i : Nat) :
    (m.summaryAfter (m.settlingTime + 2 * i)).report.notifying =
      (m.summaryAfter m.settlingTime).report.notifying := by
  induction i with
  | zero => rfl
  | succ i ih => exact (hm.notifying_add_two hlinks (Nat.le_add_right _ (2 * i))).trans ih

end Run

/-- Once links lose nothing any more, a node of a mesh that only grew is congested in an interval, and
notifies its neighbors, exactly if more than half of its neighbors advertised that they were congested:
those that notified it in the interval before. After a while the same nodes do so in every second
interval. Then either congestion and detours are gone for good, or some node was congested in every
interval from the first on and is in every interval to come. -/
theorem congestion_dies_or_alternates {events : List MeshEvent} (hgrows : empty.Grows events)
    (hlinks : (empty.applyAll events).Lossless) :
    let m := empty.applyAll events
    (∀ count, (m.run count).1 = (List.range count).map m.summaryAfter) ∧
      (∀ k, (m.summaryAfter k).report.congested = (m.summaryAfter k).report.notifying) ∧
      Vote.Follows m.nodes.size m.Hears (m.notifies 0) m.pending ∧
      (∀ k, Vote.Follows m.nodes.size m.Hears (m.notifies (k + 1)) (m.notifies k)) ∧
      (∀ k, m.settlingTime ≤ k →
        (m.summaryAfter (k + 2)).report.notifying = (m.summaryAfter k).report.notifying) ∧
      ((∀ k, m.settlingTime < k → (m.summaryAfter k).Quiet) ∨
        ∀ k, (m.summaryAfter k).report.notifying ≠ []) := by
  intro m
  have hm : m.Relaying := relaying_empty.applyAll hgrows
  have hrounds := hm.rounds hlinks
  have hnotifies := fun k i hi => (hm.notifies_eq k (i := i) hi).symm
  refine ⟨run_eq m, fun k => (hm.after k).1.congested_step,
    (hrounds.follows 0).congr (fun _ _ _ _ => Iff.rfl) (hnotifies 0) fun _ _ => rfl,
    fun k => (hrounds.follows (k + 1)).congr (fun _ _ _ _ => Iff.rfl) (hnotifies (k + 1)) (hnotifies k),
    fun k hk => hm.notifying_add_two hlinks hk, ?_⟩
  by_cases hever : ∃ k, (m.summaryAfter k).report.notifying = []
  · obtain ⟨k, hk⟩ := hever
    -- A quiet interval far ahead has the notifications of the first settled one.
    have hquiet := hm.quiet_of_lt hlinks hk (by omega : k < m.settlingTime + 2 * (k + 1))
    have hsettled := (hm.notifying_add_mul hlinks (k + 1)).symm.trans hquiet.notifying_eq
    exact .inl fun j hj => hm.quiet_of_lt hlinks hsettled hj
  · exact .inr fun k hk => hever ⟨k, hk⟩

section Swapping

instance decidableGrows : (m : Mesh) → (events : List MeshEvent) → Decidable (m.Grows events)
  | _, [] => isTrue trivial
  | m, event :: events =>
    have := decidableGrows (m.apply event).2 events
    inferInstanceAs (Decidable (event.Grows m ∧ (m.apply event).2.Grows events))

theorem setDelivery_of_hears (hm : m.Mutual) (a b : NodeId) (hb : b.index < m.nodes.size)
    (h : m.Hears a.index b.index) (d : Delivery) :
    m.setDelivery a b d = .ok { m with links := m.links.insert (.between a b) d } := by
  obtain ⟨n, hn, hknown⟩ := h
  have hnode : m.node? a = some n := hn
  have hother : (m.node? b).isNone = false := by
    rw [node?, Array.getElem?_eq_getElem hb]
    rfl
  have hlookup : (n.host.neighbors.lookup b.address).isNone = false := by
    rw [Option.isNone_eq_false_iff, ← addressAt_index,
      (hm.packed n (Array.mem_of_getElem? hn)).toOrderly.isSome_lookup_iff]
    exact hknown
  unfold setDelivery
  simp only [hnode, hother, hlookup, Bool.false_eq_true, if_false]

def pair : List MeshEvent := [.build ⟨none, [], 0, none⟩, .build ⟨some ⟨0⟩, [], 10, none⟩]

/-- Their link fails for one interval. -/
def swapping : List MeshEvent :=
  pair ++ [.setDelivery ⟨1⟩ ⟨0⟩ .never, .step, .setDelivery ⟨1⟩ ⟨0⟩ .always]

theorem grows_swapping : empty.Grows swapping := by decide +kernel

theorem sendAll_never {link : NodeId → Delivery} {parent : NodeId} (hlink : link parent = .never)
    (packets : Nat) (d : Dispatch) : Dispatch.sendAll link parent none packets d =
      { d with toParent := ⟨d.toParent.sent + packets, d.toParent.arrived⟩ } := by
  induction packets generalizing d with
  | zero => rfl
  | succ packets ih =>
    rw [Dispatch.sendAll, ih]
    simp only [Dispatch.send, Dispatch.nextHop, hlink, if_true, HopLoad.add]
    congr 2
    omega

/-- A link that delivers nothing loses all that is sent over it. -/
theorem dispatch_of_never {t : Transit} {n : MeshNode} {parent : NodeId}
    (hlink : t.mesh.delivery n.id parent = .never) (ha : n.alternate = none) :
    t.dispatch n parent = ⟨t.mesh.random, n.parentTurn, ⟨n.load, 0⟩, .zero⟩ := by
  rw [Transit.dispatch, ha, sendAll_never hlink, Dispatch.start, HopLoad.zero, Nat.zero_add]

def broken : Mesh :=
  { empty.applyAll pair with links := (empty.applyAll pair).links.insert (.between ⟨1⟩ ⟨0⟩) .never }

def lostPackets : Dispatch := ⟨.ofSeed 0, false, ⟨10, 0⟩, .zero⟩

def bereft : Array MeshNode :=
  (lostPackets.arrive ⟨0⟩ none
    ((empty.applyAll pair).nodes.modify 1 fun n => n.afterDispatch lostPackets)).modify 0 absorb

theorem forward_broken :
    (forward { broken with steps := broken.steps + 1 }).mesh.nodes = bereft := by
  let t : Transit := ⟨{ broken with steps := broken.steps + 1 }, 0, 0⟩
  have hsize : broken.nodes.size = 2 := by decide +kernel
  have hmoved : forward { broken with steps := broken.steps + 1 } = (t.moveNode 1).moveNode 0 := by
    rw [forward]
    change Transit.moveAll broken.nodes.size t = _
    rw [hsize]
    rfl
  obtain ⟨n, hn⟩ : ∃ n, t.mesh.nodes[1]? = some n :=
    ⟨_, Array.getElem?_eq_getElem (hsize.symm ▸ by decide)⟩
  have hfacts : (t.mesh.nodes[1]?.all fun n => n.sink = false ∧ n.parent = some ⟨0⟩ ∧ n.id = ⟨1⟩ ∧
      n.alternate = none ∧ n.load = 10 ∧ n.parentTurn = false) = true := by decide +kernel
  rw [hn, Option.all_some, decide_eq_true_eq] at hfacts
  obtain ⟨hsink, hparent, hid, halternate, hload, hturn⟩ := hfacts
  -- The kernel does not evaluate the table of links, so its one entry is looked up by a rewrite.
  have hdelivery : t.mesh.delivery ⟨1⟩ ⟨0⟩ = .never := Std.HashMap.getD_insert_self
  have hdispatch : t.dispatch n ⟨0⟩ = lostPackets := by
    rw [dispatch_of_never (hid.symm ▸ hdelivery) halternate, hload, hturn]
    rfl
  have hfirst := Transit.moveNode_of_parent hn hsink hparent
  rw [hdispatch, halternate] at hfirst
  have hroot : ((t.moveNode 1).mesh.nodes[0]?.any MeshNode.sink) = true := by
    rw [hfirst]
    decide +kernel
  obtain ⟨root, hget, hsink⟩ := (Option.any_eq_true _ _).1 hroot
  rw [hmoved, Transit.moveNode_of_sink hget hsink, hfirst]
  rfl

/-- What an interval makes of the nodes once all packets have travelled. -/
def settle (nodes : Array MeshNode) : Array MeshNode :=
  (exchangeReports ⟨nodes, ∅, .ofSeed 0, 0⟩).advertise.tick.2.nodes

theorem nodes_step (m : Mesh) :
    m.step.2.nodes = settle (forward { m with steps := m.steps + 1 }).mesh.nodes := rfl

theorem relaying_pair : (empty.applyAll pair).Relaying :=
  relaying_empty.applyAll (by decide +kernel)

theorem relaying_broken : broken.Relaying := relaying_pair.of_nodes_eq rfl

theorem neighbors_broken : broken.step.2.nodes.size = 2 ∧
    (∀ i < 2, ∀ j < 2, broken.step.2.Hears i j ↔ i ≠ j) ∧ broken.step.2.pending 0 = true := by
  have hstep := relaying_broken.acquainted_step
  refine ⟨hstep.1.trans (by decide +kernel), fun i hi j hj => ?_, ?_⟩
  · rw [hears_congr hstep]
    revert i j
    decide +kernel
  · rw [pending, nodes_step, forward_broken]
    decide +kernel

theorem applyAll_swapping : empty.applyAll swapping =
    { broken.step.2 with links := broken.step.2.links.insert (.between ⟨1⟩ ⟨0⟩) .always } := by
  obtain ⟨hsize, hhears, -⟩ := neighbors_broken
  have hfirst := setDelivery_of_hears relaying_pair.toMutual ⟨1⟩ ⟨0⟩ (by decide +kernel)
    (by decide +kernel) .never
  have hlast := setDelivery_of_hears relaying_broken.step.toMutual ⟨1⟩ ⟨0⟩ (hsize.symm ▸ by decide)
    ((hhears 1 (by decide) 0 (by decide)).2 (by decide)) .always
  calc empty.applyAll swapping
      = ((((empty.applyAll pair).apply (.setDelivery ⟨1⟩ ⟨0⟩ .never)).2.apply .step).2.apply
          (.setDelivery ⟨1⟩ ⟨0⟩ .always)).2 := rfl
    _ = (broken.step.2.apply (.setDelivery ⟨1⟩ ⟨0⟩ .always)).2 := by simp only [apply, hfirst]; rfl
    _ = _ := by simp only [apply, hlast]

theorem lossless_swapping : (empty.applyAll swapping).Lossless := by
  intro a b
  have hlinks : broken.links = (∅ : Std.HashMap Link Delivery).insert (.between ⟨1⟩ ⟨0⟩) .never := rfl
  rw [applyAll_swapping, delivery, Std.HashMap.getD_insert, links_step, hlinks,
    Std.HashMap.getD_insert]
  split
  · rfl
  · simp

/-- The two nodes blame each other in turn. -/
theorem notifying_swapping (k : Nat) :
    ((empty.applyAll swapping).summaryAfter k).report.notifying ≠ [] := by
  obtain ⟨hsize, hhears, hpending⟩ := neighbors_broken
  have hm : (empty.applyAll swapping).Relaying := relaying_empty.applyAll grows_swapping
  have hrounds := hm.rounds lossless_swapping
  have hnodes : (empty.applyAll swapping).nodes = broken.step.2.nodes := by rw [applyAll_swapping]
  have hsize' : (empty.applyAll swapping).nodes.size = 2 := hnodes ▸ hsize
  have hswap : ∀ k, Vote.Follows 2 (· ≠ ·) ((empty.applyAll swapping).after (k + 1)).pending
      ((empty.applyAll swapping).after k).pending := by
    intro k
    have hvotes := hrounds.follows k
    rw [hsize'] at hvotes
    refine hvotes.congr (fun i hi j hj => ?_) (fun _ _ => rfl) fun _ _ => rfl
    rw [Hears, hnodes]
    exact hhears i hi j hj
  -- The vote of the one is the vote of the other before, so that one of the two always stands.
  have hone : ∀ k, ((empty.applyAll swapping).after k).pending 0 = true ∨
      ((empty.applyAll swapping).after k).pending 1 = true := by
    intro k
    induction k with
    | zero =>
      left
      change (empty.applyAll swapping).pending 0 = true
      rw [pending, hnodes]
      exact hpending
    | succ k ih =>
      obtain ⟨hzero, hone⟩ := (hswap k).swap
      rw [hzero, hone]
      exact ih.symm
  intro hnil
  have hsilent := (hm.notifying_eq_nil_iff k).1 hnil
  rw [hsize'] at hsilent
  rcases hone (k + 1) with hzero | hone
  · exact Bool.false_ne_true ((hsilent 0 (by decide)).symm.trans hzero)
  · exact Bool.false_ne_true ((hsilent 1 (by decide)).symm.trans hone)

theorem congestion_dies_or_alternates_swapping :
    let m := empty.applyAll swapping
    empty.Grows swapping ∧ m.Lossless ∧
      Vote.Follows m.nodes.size m.Hears (m.notifies 0) m.pending ∧
      (∀ k, Vote.Follows m.nodes.size m.Hears (m.notifies (k + 1)) (m.notifies k)) ∧
      (∀ k, m.settlingTime ≤ k →
        (m.summaryAfter (k + 2)).report.notifying = (m.summaryAfter k).report.notifying) ∧
      ∀ k, (m.summaryAfter k).report.congested ≠ [] := by
  intro m
  obtain ⟨-, hcongested, hfirst, hlater, hsettled, hends⟩ :=
    congestion_dies_or_alternates grows_swapping lossless_swapping
  have hnever := hends.resolve_left fun hquiet =>
    notifying_swapping (m.settlingTime + 1) (hquiet _ (Nat.lt_succ_self _)).notifying_eq
  exact ⟨grows_swapping, lossless_swapping, hfirst, hlater, hsettled, fun k => hcongested k ▸ hnever k⟩

/-- Relayed congestion can outlast its cause: twice as many intervals as there are nodes are not enough
for it to die out, and no number of intervals is. -/
theorem relayed_congestion_can_stay :
    ¬ ∀ events : List MeshEvent, empty.Grows events → (empty.applyAll events).Lossless →
      let m := empty.applyAll events
      ∀ count, ∀ s ∈ (m.run count).1.drop (2 * m.nodes.size), s.Quiet := by
  intro h
  have hsize : (empty.applyAll swapping).nodes.size = 2 := by
    rw [applyAll_swapping]
    exact neighbors_broken.1
  have hlast : (empty.applyAll swapping).summaryAfter 4 ∈ ((empty.applyAll swapping).run 5).1.drop
      (2 * (empty.applyAll swapping).nodes.size) := by
    rw [run_eq, hsize]
    exact List.mem_singleton_self _
  exact notifying_swapping 4 (h swapping grows_swapping lossless_swapping 5 _ hlast).notifying_eq

end Swapping

end Mesh

end CongestionRouting
