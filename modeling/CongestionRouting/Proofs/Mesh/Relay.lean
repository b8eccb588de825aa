import CongestionRouting.Proofs.Mesh.Healthy
import CongestionRouting.Proofs.Mesh.Hearing
import CongestionRouting.Proofs.Mesh.Majority
import CongestionRouting.Proofs.Verdict

namespace CongestionRouting

theorem Pacer.ask_of_standard {p : Pacer} {now : Duration} (hp : p.pacing = .standard)
    (hb : p.backoff = .zero) (hle : p.nextAllowed ≤ now) (congested : Bool) :
    p.ask now congested = (congested, ⟨.standard, .zero, now⟩) := by
  have hdue : ¬now < p.nextAllowed := Nat.not_lt.2 hle
  have hdouble : min Duration.zero.double Pacing.standard.maxInterval = .zero := by decide
  have hnow : now.saturatingAdd .zero = now := by
    apply Duration.ext_nanos
    have := now.nanos_lt
    simp only [Duration.saturatingAdd, Duration.nanos_saturate, Duration.zero, Duration.longest]
    omega
  cases congested with
  | false => simp only [ask, Bool.not_false, if_true, hp]; rfl
  | true => simp only [ask, Bool.not_true, Bool.false_eq_true, if_false, hdue, hp, hb, hdouble, hnow]

theorem IntervalClock.elapsed_le_advance (c : IntervalClock) : c.elapsed ≤ c.advance.elapsed := by
  have := c.elapsed.nanos_lt
  simp only [Duration.le_iff, advance, Duration.saturatingAdd, Duration.nanos_saturate,
    Duration.longest]
  omega

namespace NeighborTable

variable {t : NeighborTable}

theorem parentCongested_of_unflagged (h : ∀ entry ∈ t.entries, entry.congested = false) :
    Steering.parentCongested t = false := by
  unfold Steering.parentCongested
  cases hflag : (Neighborhood.preferredParent t).bind (Neighborhood.congested t) with
  | none => rfl
  | some value =>
    obtain ⟨parent, -, hcongested⟩ := Option.bind_eq_some_iff.1 hflag
    obtain ⟨entry, hg, rfl⟩ := Option.map_eq_some_iff.1 hcongested
    exact h entry (mem_entries_of_get? hg)

end NeighborTable

namespace CongestionRule

variable {counters : PacketCounters} {t : NeighborTable}

/-- With enough packets a verdict is that of the neighbors. -/
theorem judge_of_packed {rule : CongestionRule} (hle : counters.expected ≤ counters.received)
    (ht : t.Packed) (hrule : rule.composition = .selfOrNeighborhood) :
    (rule.judge counters t).selfCongested = t.mostCongested := by
  have henough : ¬rule.TooFew counters := by
    rw [TooFew, ← ThresholdRatio.lt_threshold_iff, UInt32.not_lt]
    exact UInt32.le_trans (rule.threshold.threshold_le _) hle
  simp only [rule.judge_of_enough henough ht.toOrderly, hrule, decide_true, Bool.true_and]

end CongestionRule

namespace Steering

theorem detour_endInterval {s : Steering} {t : NeighborTable} (routes : RouteList)
    (hs : s.hysteresis.minActiveIntervals = 0) (ht : parentCongested t = false) :
    (s.endInterval t routes).2.1.detour = none := by
  unfold endInterval
  cases hd : s.detour with
  | none =>
    simp only [releaseHoldDown]
    split <;> exact hd
  | some detour =>
    simp only
    split
    · next reason _ => exact detour_withdraw s routes reason
    · let counted : Steering :=
        { s with detour := some detour, activeIntervals := saturate32 (s.activeIntervals.toNat + 1) }
      simp only [ht, hs, UInt32.not_lt_zero, Bool.false_eq_true, if_false]
      exact detour_withdraw counted routes .parentUncongested

end Steering

theorem dampingInvariant (T : NeighborTable → Prop) : SteeringInvariant ChaCha T
    fun s (_ : RouteList) => s.hysteresis.minActiveIntervals = 0 where
  drop _ hp := hp
  count _ _ _ hp := hp
  install {s table routes} random _ _ hp := by
    rcases Steering.install_cases s table routes random with ⟨detour, -, hs, -⟩ | ⟨hs, -⟩
    · rw [hs]
      exact hp
    · rw [hs]
      exact hp

namespace MeshNode

variable {n n' : MeshNode}

/-- A node with the standard configuration, which does not damp what it relays. -/
structure Standard (n : MeshNode) : Prop where
  composition_eq : n.agent.engine.rule.composition = .selfOrNeighborhood
  pacing_eq : n.agent.engine.pacer.pacing = .standard
  backoff_eq : n.agent.engine.pacer.backoff = .zero
  nextAllowed_le : n.agent.engine.pacer.nextAllowed ≤ n.agent.engine.clock.elapsed
  minActiveIntervals_eq : n.agent.engine.steering.hysteresis.minActiveIntervals = 0

theorem Standard.congr (hn : n.Standard) (h : n'.agent = n.agent) : n'.Standard := by
  obtain ⟨hcomposition, hpacing, hbackoff, hle, hdamping⟩ := hn
  constructor <;> rw [h] <;> assumption

theorem Standard.keeps (hn : n.Standard) (h : n.Keeps n') : n'.Standard := by
  obtain ⟨hcomposition, hpacing, hbackoff, hle, hdamping⟩ := hn
  constructor <;> rw [h.engine_eq] <;> assumption

theorem Standard.hear (hn : n.Standard) (sender : Address) : (n.hear sender).Standard := by
  have hlistens : n.Listens (n.hear sender) := .hear sender
  obtain ⟨hcomposition, hpacing, hbackoff, hle, hdamping⟩ := hn
  have hkept : (n.hear sender).agent.engine.steering.hysteresis.minActiveIntervals = 0 := by
    unfold MeshNode.hear
    split
    · exact Agent.receiveSignal_keeps (dampingInvariant fun _ => True) sender trivial hdamping
    · exact hdamping
  refine ⟨?_, ?_, ?_, ?_, hkept⟩ <;> rw [hlistens.engine_eq] <;> assumption

/-- What a node heard: the flags of the senders are set, and its own advertisement is left alone. -/
structure Heard (senders : List Address) (n n' : MeshNode) : Prop where
  packed : n'.host.neighbors.Packed
  entries_eq : n'.host.neighbors.entries = n.host.neighbors.entries.map fun e =>
    { e with congested := e.congested || decide (e.address ∈ senders) }
  advertiser_eq : n'.host.advertiser = n.host.advertiser

theorem heard_hearAll (hn : n.host.neighbors.Packed) (senders : List Address) :
    Heard senders n (senders.foldl MeshNode.hear n) := by
  induction senders generalizing n with
  | nil => exact ⟨hn, by simp, rfl⟩
  | cons sender senders ih =>
    have hfirst := neighbors_hear n sender
    obtain ⟨hpacked, hentries, hadvertiser⟩ := ih (hfirst ▸ hn.recordSignal sender)
    refine ⟨hpacked, ?_, hadvertiser.trans (advertiser_hear sender)⟩
    rw [List.foldl_cons, hentries, hfirst, hn.toOrderly.entries_recordSignal, List.map_map]
    exact List.map_congr_left fun e _ => by simp [Bool.or_assoc]

theorem Standard.hearAll (hn : n.Standard) (senders : List Address) :
    (senders.foldl MeshNode.hear n).Standard := by
  induction senders generalizing n with
  | nil => exact hn
  | cons sender senders ih => exact ih (hn.hear sender)

/-- A standard node says at once what it finds out about itself. -/
theorem Standard.tick (hn : n.Standard) (hr : n.agent.isRunning = true)
    (hlowered : n.host.advertiser.pending = false) :
    ∃ report, n.tick.1 = some report ∧
      report.verdict = n.agent.engine.rule.judge n.counters n.host.neighbors ∧
      report.notified = report.verdict.selfCongested ∧
      n.tick.2.host.advertiser.pending = report.verdict.selfCongested ∧ n.tick.2.Standard := by
  obtain ⟨report, hreport, hticked⟩ := Agent.tick_of_running n.host hr
  -- The pacer never holds a standard node back: the time it waits for is always past.
  have hnow : n.agent.engine.pacer.nextAllowed ≤ n.agent.engine.clock.advance.elapsed :=
    Nat.le_trans hn.nextAllowed_le n.agent.engine.clock.elapsed_le_advance
  have hask := Pacer.ask_of_standard hn.pacing_eq hn.backoff_eq hnow report.verdict.selfCongested
  have hnotify := hticked.notify_eq
  unfold Engine.notify at hnotify
  rw [hask] at hnotify
  have heffect : report.notified = report.verdict.selfCongested ∧
      (n.agent.tick n.host).2.1.engine.pacer =
        ⟨.standard, .zero, n.agent.engine.clock.advance.elapsed⟩ := by
    cases hself : report.verdict.selfCongested with
    | false =>
      simp only [hself, Prod.mk.injEq] at hnotify
      exact ⟨hnotify.1, hnotify.2.2.1⟩
    | true =>
      simp only [hself, Advertiser.schedule, Prod.mk.injEq] at hnotify
      exact ⟨hnotify.1, hnotify.2.2.1⟩
  obtain ⟨hnotified, hpacer⟩ := heffect
  have hpending : n.tick.2.host.advertiser.pending = report.verdict.selfCongested := by
    have hwaits := hticked.pending_eq
    rwa [hlowered, Bool.false_or, hnotified] at hwaits
  have hdamping : n.tick.2.agent.engine.steering.hysteresis.minActiveIntervals = 0 :=
    Agent.tick_keeps (dampingInvariant fun _ => True) hn.minActiveIntervals_eq
  have hengine : n.tick.2.agent.engine = _ := hticked.engine_eq
  have hpacer' : n.tick.2.agent.engine.pacer = _ := hpacer
  refine ⟨report, hreport, hticked.verdict_eq, hnotified, hpending, ?_, ?_, ?_, ?_, hdamping⟩
  · rw [hengine]
    exact hn.composition_eq
  · rw [hpacer']
  · rw [hpacer']
  · rw [hpacer', hengine]
    exact Nat.le_refl _

theorem Standard.detour_tick (hn : n.Standard) (hr : n.agent.isRunning = true)
    (h : ∀ entry ∈ n.host.neighbors.entries, entry.congested = false) :
    n.tick.2.agent.engine.steering.detour = none := by
  obtain ⟨report, -, hticked⟩ := Agent.tick_of_running n.host hr
  have hengine : n.tick.2.agent.engine = _ := hticked.engine_eq
  rw [hengine]
  exact Steering.detour_endInterval n.host.routes hn.minActiveIntervals_eq
    (NeighborTable.parentCongested_of_unflagged h)

theorem standard_design {m : Mesh} {plan : NodePlan} (hplan : plan.config = none)
    (hd : m.design plan = .ok n) : n.Standard := by
  unfold Mesh.design at hd
  split at hd
  · exact absurd hd nofun
  · split at hd
    · exact absurd hd nofun
    · rw [hplan] at hd
      obtain ⟨agent, ha, hd⟩ := exists_of_bind_eq_ok hd
      obtain ⟨table, -, hd⟩ := exists_of_bind_eq_ok hd
      injection hd with hd
      rw [← hd, Agent.ofConfig_eq_ok (ok_of_mapError_eq_ok ha)]
      exact ⟨rfl, rfl, rfl, Nat.le_refl _, rfl⟩

end MeshNode

namespace Mesh

open MeshNode

variable {m m' : Mesh} {i : Nat} {n n' : MeshNode}

def pending (m : Mesh) (i : Nat) : Bool := m.nodes[i]?.any fun n => n.host.advertiser.pending

theorem pending_eq (hn : m.nodes[i]? = some n) : m.pending i = n.host.advertiser.pending := by
  rw [pending, hn, Option.any_some]

theorem mem_congestedSenders_reported (hm : m.Mutual) {a : Address} :
    a ∈ m.reported.congestedSenders ↔ ∃ j < m.nodes.size, m.pending j = true ∧ addressAt j = a := by
  rw [congestedSenders_reported, mem_congestedSenders]
  constructor
  · rintro ⟨n, hn, hpending, rfl⟩
    obtain ⟨j, hj⟩ := Array.mem_iff_getElem?.1 hn
    refine ⟨j, (Array.getElem?_eq_some_iff.1 hj).1, ?_, ?_⟩
    · rw [pending_eq hj]
      exact hpending
    · rw [hm.id_eq j n hj]
      rfl
  · rintro ⟨j, hlt, hpending, rfl⟩
    have hj := Array.getElem?_eq_getElem hlt
    rw [pending_eq hj] at hpending
    refine ⟨m.nodes[j], Array.getElem_mem hlt, hpending, ?_⟩
    rw [hm.id_eq j _ hj]
    rfl

/-- A mesh of standard nodes between two intervals. -/
structure Relaying (m : Mesh) : Prop extends Mutual m where
  atRest : ∀ n ∈ m.nodes, n.AtRest
  standard : ∀ n ∈ m.nodes, n.Standard

/-- A node at the end of its interval: of those it knows it has heard all who were congested. -/
structure Informed (m : Mesh) (old n : MeshNode) : Prop where
  id_eq : n.id = old.id
  running : n.agent.isRunning = true
  standard : n.Standard
  packed : n.host.neighbors.Packed
  lowered : n.host.advertiser.pending = false
  entries_eq : n.host.neighbors.entries = old.host.neighbors.entries.map fun e =>
    { e with congested := decide (e.address ∈ m.reported.congestedSenders) }

theorem Relaying.informed (hm : m.Relaying) (hn : m.reported.advertise.nodes[i]? = some n) :
    ∃ old, m.nodes[i]? = some old ∧ m.Informed old n := by
  have hmem := Array.mem_of_getElem? hn
  have hrunning := running_advertise hm.atRest n hmem
  obtain ⟨old, told, hold, -, hkeeps, rfl⟩ := exists_of_getElem?_advertise hn
  have hbefore := Array.mem_of_getElem? hold
  have hneighbors : told.advertise.2.host.neighbors = old.host.neighbors := by
    change told.host.neighbors = _
    rw [hkeeps.host_eq]
  have hpacked : told.advertise.2.host.neighbors.Packed := hneighbors ▸ hm.packed old hbefore
  obtain ⟨hheard, hentries, hadvertiser⟩ := heard_hearAll hpacked m.reported.congestedSenders
  have hlistens : told.Listens (m.reported.congestedSenders.foldl MeshNode.hear told.advertise.2) :=
    .afterAdvertising _
  have hstandard : told.advertise.2.Standard := ((hm.standard old hbefore).keeps hkeeps).congr rfl
  refine ⟨old, hold, ⟨hlistens.id_eq.trans hkeeps.id_eq, hrunning, hstandard.hearAll _, hheard,
    hadvertiser ▸ rfl, ?_⟩⟩
  -- The flags were all down when the interval began, so that those set now come from the senders.
  rw [hentries, hneighbors]
  refine List.map_congr_left fun e he => ?_
  rw [(hm.atRest old hbefore).unflagged e he, Bool.false_or]

variable {old : MeshNode}

theorem Informed.known_eq (h : m.Informed old n) : n.known = old.known := by
  rw [known, NeighborTable.addresses, h.entries_eq, List.map_map]
  rfl

theorem Informed.acquainted (h : m.Informed old n) : old.Acquainted n.tick.2 := by
  obtain ⟨report, -, hticked⟩ := Agent.tick_of_running n.host h.running
  have hcleared : n.tick.2.host.neighbors = n.host.neighbors.clearFlags := hticked.neighbors_eq
  refine ⟨h.id_eq, ?_, ?_⟩
  · rw [hcleared]
    exact h.packed.clearFlags
  · rw [known, hcleared, NeighborTable.addresses_clearFlags]
    exact h.known_eq

theorem Relaying.acquainted_step (hm : m.Relaying) :
    Pointwise (fun _ => Acquainted) m.nodes m.step.2.nodes := by
  refine ⟨?_, fun i n' hn' => ?_⟩
  · rw [(step_eq m).2, nodes_tick, Array.size_map, size_advertise]
  · rw [getElem?_step] at hn'
    obtain ⟨n, hn, rfl⟩ := Option.map_eq_some_iff.1 hn'
    obtain ⟨old, hold, hinformed⟩ := hm.informed hn
    exact ⟨old, hold, hinformed.acquainted⟩

theorem Relaying.step (hm : m.Relaying) : m.step.2.Relaying := by
  refine ⟨hm.toMutual.congr hm.acquainted_step, atRest_step hm.atRest, fun n' hn' => ?_⟩
  obtain ⟨i, hi⟩ := Array.mem_iff_getElem?.1 hn'
  rw [getElem?_step] at hi
  obtain ⟨n, hn, rfl⟩ := Option.map_eq_some_iff.1 hi
  obtain ⟨old, -, hinformed⟩ := hm.informed hn
  obtain ⟨report, -, -, -, -, hstandard⟩ :=
    hinformed.standard.tick hinformed.running hinformed.lowered
  exact hstandard

theorem countP_addresses {l : List Address} {size : Nat} (hsize : size ≤ maxNodes) (hl : l.Nodup)
    (hknown : ∀ a ∈ l, ∃ j < size, addressAt j = a) (p : Address → Bool) :
    l.countP p = (Finset.range size |>.filter fun j => addressAt j ∈ l ∧ p (addressAt j) = true).card := by
  have himage : (l.filter p).toFinset = Finset.image addressAt
      (Finset.range size |>.filter fun j => addressAt j ∈ l ∧ p (addressAt j) = true) := by
    ext a
    simp only [List.mem_toFinset, List.mem_filter, Finset.mem_image, Finset.mem_filter,
      Finset.mem_range]
    constructor
    · rintro ⟨hmem, hp⟩
      obtain ⟨j, hj, rfl⟩ := hknown a hmem
      exact ⟨j, ⟨hj, hmem, hp⟩, rfl⟩
    · rintro ⟨j, ⟨-, hmem, hp⟩, rfl⟩
      exact ⟨hmem, hp⟩
  rw [List.countP_eq_length_filter, ← List.toFinset_card_of_nodup (hl.filter p), himage]
  apply Finset.card_image_of_injOn
  intro j hj k hk heq
  simp only [Finset.mem_coe, Finset.mem_filter, Finset.mem_range] at hj hk
  exact (addressAt_inj (hj.1.trans_le hsize) (hk.1.trans_le hsize)).1 heq

theorem hears_iff (hold : m.nodes[i]? = some old) (j : Nat) :
    m.Hears i j ↔ addressAt j ∈ old.known := by
  simp only [Hears, hold, Option.mem_def, Option.some.injEq, exists_eq_left']

theorem Mutual.degree_eq (hm : m.Mutual) (hold : m.nodes[i]? = some old) :
    Vote.degree m.nodes.size m.Hears i = old.host.neighbors.entries.length := by
  have hmem := Array.mem_of_getElem? hold
  have hall := countP_addresses hm.size_le (hm.packed old hmem).toOrderly.nodup_addresses
    (hm.known_lt old hmem) fun _ => true
  rw [List.countP_true, NeighborTable.addresses, List.length_map] at hall
  rw [hall, Vote.degree]
  exact congrArg Finset.card (Finset.filter_congr fun j _ => by
    simp only [hears_iff hold, known, NeighborTable.addresses, and_true])

/-- Most entries of a node that has heard all have their flag set if most of those it hears were
congested. -/
theorem Informed.mostCongested_eq (h : m.Informed old n) (hm : m.Mutual)
    (hold : m.nodes[i]? = some old) : n.host.neighbors.mostCongested =
      decide (Vote.degree m.nodes.size m.Hears i < 2 * Vote.ayes m.nodes.size m.Hears m.pending i) := by
  have hmem := Array.mem_of_getElem? hold
  have hlength : n.host.neighbors.entries.length = old.host.neighbors.entries.length := by
    rw [h.entries_eq, List.length_map]
  have hayes : n.host.neighbors.entries.countP Neighbor.congested =
      Vote.ayes m.nodes.size m.Hears m.pending i := by
    have hsenders := countP_addresses hm.size_le (hm.packed old hmem).toOrderly.nodup_addresses
      (hm.known_lt old hmem) fun a => decide (a ∈ m.reported.congestedSenders)
    rw [NeighborTable.addresses, List.countP_map] at hsenders
    rw [h.entries_eq, List.countP_map, Vote.ayes]
    refine hsenders.trans (congrArg Finset.card (Finset.filter_congr fun j hj => ?_))
    have hlt := Finset.mem_range.1 hj
    rw [hears_iff hold, decide_eq_true_eq, mem_congestedSenders_reported hm]
    refine and_congr_right fun _ => ⟨?_, fun hp => ⟨j, hlt, hp, rfl⟩⟩
    rintro ⟨k, hk, hp, heq⟩
    exact (addressAt_inj (hk.trans_le hm.size_le) (hlt.trans_le hm.size_le)).1 heq ▸ hp
  rw [NeighborTable.mostCongested, hlength, ← hm.degree_eq hold, hayes]

theorem expected_le_received_advertise (hlinks : m.Lossless) (hrest : ∀ n ∈ m.nodes, n.AtRest)
    (hn : n ∈ m.reported.advertise.nodes) : n.counters.expected ≤ n.counters.received := by
  obtain ⟨i, old, told, -, htold, -, -, hlistens⟩ := exists_of_mem_advertise hn
  have hcounters : n.counters = told.counters := by
    rw [counters, hlistens.engine_eq]
    rfl
  rw [hcounters]
  exact expected_le_received hlinks (fun n hn => (hrest n hn).counters_eq) told
    (Array.mem_of_getElem? htold)

/-- What a node of a relaying mesh reports at the end of its interval, and whether it then advertises
that it is congested. -/
theorem Relaying.tick (hm : m.Relaying) (hn : m.reported.advertise.nodes[i]? = some n) :
    n.id = idAt i ∧ ∃ report, n.tick.1 = some report ∧
      report.notified = report.verdict.selfCongested ∧
      m.step.2.pending i = report.verdict.selfCongested ∧
      (m.Lossless → report.verdict.selfCongested = decide (Vote.degree m.nodes.size m.Hears i <
        2 * Vote.ayes m.nodes.size m.Hears m.pending i)) := by
  obtain ⟨old, hold, hinformed⟩ := hm.informed hn
  obtain ⟨report, hreport, hverdict, hnotified, hpending, -⟩ :=
    hinformed.standard.tick hinformed.running hinformed.lowered
  have hstep : m.step.2.nodes[i]? = some n.tick.2 := by rw [getElem?_step, hn, Option.map_some]
  refine ⟨hinformed.id_eq.trans (hm.id_eq i old hold), report, hreport, hnotified,
    (pending_eq hstep).trans hpending, fun hlinks => ?_⟩
  have hle := expected_le_received_advertise hlinks hm.atRest (Array.mem_of_getElem? hn)
  have hself := CongestionRule.judge_of_packed hle hinformed.packed
    hinformed.standard.composition_eq
  have hjudge : report.verdict = n.agent.engine.rule.judge n.counters n.host.neighbors := hverdict
  rw [hjudge, hself, hinformed.mostCongested_eq hm.toMutual hold]

/-- Where no packet is lost the congestion of an interval is the vote of the neighbors in the interval
before. -/
theorem Relaying.follows_step (hm : m.Relaying) (hlinks : m.Lossless) :
    Vote.Follows m.nodes.size m.Hears m.step.2.pending m.pending := by
  intro i hi
  have hlt : i < m.reported.advertise.nodes.size := (size_advertise m).symm ▸ hi
  obtain ⟨-, report, -, -, hpending, hvote⟩ := hm.tick (Array.getElem?_eq_getElem hlt)
  rw [hpending, hvote hlinks]

/-- An interval in which nobody has heard of congestion leaves no detour. -/
theorem Relaying.detour_step (hm : m.Relaying) (hsilent : ∀ j < m.nodes.size, m.pending j = false) :
    ∀ n' ∈ m.step.2.nodes, n'.agent.engine.steering.detour = none := by
  intro n' hn'
  obtain ⟨i, hi⟩ := Array.mem_iff_getElem?.1 hn'
  rw [getElem?_step] at hi
  obtain ⟨n, hn, rfl⟩ := Option.map_eq_some_iff.1 hi
  obtain ⟨old, -, hinformed⟩ := hm.informed hn
  refine hinformed.standard.detour_tick hinformed.running fun entry hentry => ?_
  rw [hinformed.entries_eq] at hentry
  obtain ⟨before, -, rfl⟩ := List.mem_map.1 hentry
  refine decide_eq_false fun hsender => ?_
  obtain ⟨j, hj, hpending, -⟩ := (mem_congestedSenders_reported hm.toMutual).1 hsender
  rw [hsilent j hj] at hpending
  exact absurd hpending nofun

end Mesh

end CongestionRouting
