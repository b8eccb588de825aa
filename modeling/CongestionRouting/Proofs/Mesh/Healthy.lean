import CongestionRouting.Proofs.Mesh.Resting

namespace CongestionRouting

namespace CongestionRule

variable {counters : PacketCounters} {t : NeighborTable}

theorem count_flags_eq_zero (h : ∀ entry ∈ t.entries, entry.congested = false) :
    (flags t).count true = 0 := by
  rw [List.count_eq_zero]
  intro hmem
  obtain ⟨handle, -, hflag⟩ := List.mem_filterMap.1 hmem
  obtain ⟨entry, hg, hcongested⟩ := Option.map_eq_some_iff.1 hflag
  have hclear := h entry (NeighborTable.mem_entries_of_get? hg)
  rw [hcongested] at hclear
  exact absurd hclear nofun

theorem judge_of_unflagged (rule : CongestionRule) (hle : counters.expected ≤ counters.received)
    (h : ∀ entry ∈ t.entries, entry.congested = false) :
    (rule.judge counters t).selfCongested = false ∧
      (rule.judge counters t).neighborsCongested = false := by
  have hthreshold : ¬counters.received < rule.threshold.threshold counters.expected :=
    UInt32.not_lt.2 (UInt32.le_trans (rule.threshold.threshold_le _) hle)
  have hminority : isMajority 0 (flags t).length = false := by
    simp [isMajority]
  unfold judge
  simp only [if_neg hthreshold, count_flags_eq_zero h, hminority, Bool.and_false, and_self]

end CongestionRule

namespace Engine

variable {α : Type} [Advertiser α]

theorem notify_of_uncongested (pacer : Pacer) (now : Duration) (advertiser : α) :
    ∃ pacer', notify pacer now false advertiser = (false, [], pacer', advertiser) := ⟨_, rfl⟩

end Engine

/-- The report of a node that has no reason to react. -/
structure TickReport.Unmoved (report : TickReport) : Prop where
  selfCongested_eq : report.verdict.selfCongested = false
  neighborsCongested_eq : report.verdict.neighborsCongested = false
  notified_eq : report.notified = false
  outcome_eq : report.outcome = .inactive

namespace MeshNode

variable {n n' : MeshNode}

/-- A node that never reacted: no advertisement of it waits, and it has neither detour nor route. -/
structure Straight (n : MeshNode) : Prop where
  pending_eq : n.host.advertiser.pending = false
  detour_eq : n.agent.engine.steering.detour = none
  routes_eq : n.host.routes.routes = []

theorem Straight.meet (hn : n.Straight) {address : Address} (hmet : n.meet address = .ok n') :
    n'.Straight := by
  obtain ⟨handle, table, -, rfl⟩ := meet_eq_ok hmet
  exact ⟨hn.pending_eq, hn.detour_eq, hn.routes_eq⟩

theorem Straight.evict (hn : n.Straight) {neighbor : NodeId} {withdrawn : Bool}
    (he : n.evict neighbor = some (withdrawn, n')) : n'.Straight := by
  obtain ⟨h, -, heq⟩ := Option.map_eq_some_iff.1 he
  injection heq with _ heq
  have hforget : n.agent.engine.steering.forget h n.host.routes =
      (false, n.agent.engine.steering, n.host.routes) := by
    simp only [Steering.forget, hn.detour_eq, Option.map_none, reduceCtorEq, if_false]
  subst heq
  refine ⟨hn.pending_eq, ?_, ?_⟩
  · change (n.agent.engine.steering.forget h n.host.routes).2.1.detour = none
    rw [hforget]
    exact hn.detour_eq
  · change (n.agent.engine.steering.forget h n.host.routes).2.2.routes = []
    rw [hforget]
    exact hn.routes_eq

theorem Straight.keeps (hn : n.Straight) (h : n.Keeps n') : n'.Straight := by
  refine ⟨?_, ?_, ?_⟩
  · rw [h.host_eq]
    exact hn.pending_eq
  · rw [h.engine_eq]
    exact hn.detour_eq
  · rw [h.host_eq]
    exact hn.routes_eq

theorem Straight.tick (hn : n.Straight) (hr : n.agent.isRunning = true)
    (hle : n.counters.expected ≤ n.counters.received)
    (hflags : ∀ entry ∈ n.host.neighbors.entries, entry.congested = false) :
    ∃ report, n.tick.1 = some report ∧ report.Unmoved ∧ n.tick.2.Straight := by
  obtain ⟨report, hreport, hticked⟩ := Agent.tick_of_running n.host hr
  have hjudge := n.agent.engine.rule.judge_of_unflagged hle hflags
  have hverdict : report.verdict = n.agent.engine.rule.judge n.counters n.host.neighbors :=
    hticked.verdict_eq
  -- There is no detour to review, and none comes of letting go of a suppression.
  have hreview : n.agent.engine.steering.endInterval n.host.neighbors n.host.routes =
      (.inactive, n.agent.engine.steering.releaseHoldDown, n.host.routes) := by
    simp only [Steering.endInterval, hn.detour_eq]
  have hrelease : n.agent.engine.steering.releaseHoldDown.detour = none := by
    unfold Steering.releaseHoldDown
    split <;> exact hn.detour_eq
  have hnotify := hticked.notify_eq
  rw [hverdict, hjudge.1] at hnotify
  obtain ⟨pacer, hquiet⟩ := Engine.notify_of_uncongested n.agent.engine.pacer
    n.agent.engine.clock.advance.elapsed n.host.advertiser
  rw [hquiet] at hnotify
  simp only [Prod.mk.injEq] at hnotify
  obtain ⟨hnotified, -, -, hadvertiser⟩ := hnotify
  refine ⟨report, hreport, ⟨?_, ?_, hnotified, ?_⟩, ?_, ?_, ?_⟩
  · rw [hverdict]
    exact hjudge.1
  · rw [hverdict]
    exact hjudge.2
  · rw [hticked.outcome_eq, hreview]
  · change (n.agent.tick n.host).2.2.advertiser.pending = false
    rw [hadvertiser]
    exact hn.pending_eq
  · change (n.agent.tick n.host).2.1.engine.steering.detour = none
    rw [hticked.engine_eq, hreview]
    exact hrelease
  · change (n.agent.tick n.host).2.2.routes.routes = []
    rw [hticked.routes_eq, hreview]
    exact hn.routes_eq

end MeshNode

/-- An event after which links that delivered all still do. -/
def MeshEvent.Healthy : MeshEvent → Prop
  | .setDelivery _ _ d => d = .always
  | _ => True

instance : DecidablePred MeshEvent.Healthy
  | .setDelivery _ _ d => inferInstanceAs (Decidable (d = .always))
  | .reseed _ | .build _ | .evict _ _ | .step => isTrue trivial

namespace Mesh

open MeshNode

variable {m : Mesh}

theorem lossless_empty : empty.Lossless := fun _ _ => by simp [delivery, empty]

theorem links_apply {event : MeshEvent} (he : ∀ a b d, event ≠ .setDelivery a b d) :
    (m.apply event).2.links = m.links := by
  cases event with
  | setDelivery a b d => exact absurd rfl (he a b d)
  | reseed seed => rfl
  | step => exact links_step m
  | build plan =>
    rw [apply_build]
    cases hd : m.design plan with
    | error e => simp only [build, hd]
    | ok node =>
      rw [(build_of_design hd).2]
      split <;> rfl
  | evict id neighbor =>
    cases hev : m.evict id neighbor with
    | error e => simp only [apply, hev]
    | ok result =>
      obtain ⟨node, node', -, -, hresult⟩ := evict_eq_ok hev
      simp only [apply, hev, hresult]

theorem Lossless.apply (h : m.Lossless) {event : MeshEvent} (he : event.Healthy) :
    (m.apply event).2.Lossless := by
  intro a b
  by_cases hset : ∀ a b d, event ≠ .setDelivery a b d
  · rw [delivery, links_apply hset]
    exact h a b
  · push Not at hset
    obtain ⟨c, c', d, rfl⟩ := hset
    obtain rfl : d = .always := he
    cases hs : m.setDelivery c c' .always with
    | error e => simpa only [Mesh.apply, hs] using h a b
    | ok m' =>
      simp only [Mesh.apply, hs]
      rw [setDelivery_eq_ok hs, delivery, Std.HashMap.getD_insert]
      split
      · rfl
      · exact h a b

theorem congestedSenders_eq_nil (h : ∀ n ∈ m.nodes, n.host.advertiser.pending = false) :
    m.congestedSenders = [] := by
  unfold congestedSenders
  rw [List.filterMap_eq_nil_iff]
  intro n hn
  have hpending : n.advertise.1 = false := h n (Array.mem_toList_iff.1 hn)
  rw [hpending]
  rfl

/-- Where no advertisement waits nobody hears anything. -/
theorem advertise_of_silent (h : ∀ n ∈ m.nodes, n.host.advertiser.pending = false) :
    m.advertise.nodes = m.nodes.map fun n => n.advertise.2 := by
  unfold advertise
  rw [congestedSenders_eq_nil h]
  rfl

/-- No node of a lossless mesh has a reason to react for the first time. -/
theorem unmoved_step (hlinks : m.Lossless) (hrest : ∀ n ∈ m.nodes, n.AtRest)
    (h : ∀ n ∈ m.nodes, n.Straight) :
    (∀ tick ∈ m.step.1.ticks, tick.2.Unmoved) ∧ ∀ n ∈ m.step.2.nodes, n.Straight := by
  have htold : ∀ told ∈ m.reported.nodes, told.Straight ∧ told.agent.isRunning = true ∧
      (∀ entry ∈ told.host.neighbors.entries, entry.congested = false) := by
    intro told htold
    obtain ⟨i, hi⟩ := Array.mem_iff_getElem?.1 htold
    obtain ⟨old, hold, hkeeps⟩ := (keeps_reported m).2 i told hi
    have holdrest := hrest old (Array.mem_of_getElem? hold)
    refine ⟨(h old (Array.mem_of_getElem? hold)).keeps hkeeps, ?_, ?_⟩
    · rw [Agent.isRunning, hkeeps.engine_eq]
      exact holdrest.running
    · rw [hkeeps.host_eq]
      exact holdrest.unflagged
  -- Nobody advertises, so the nodes end their interval with the flags that they had.
  have hreports : ∀ n ∈ m.reported.advertise.nodes,
      ∃ report, n.tick.1 = some report ∧ report.Unmoved ∧ n.tick.2.Straight := by
    intro n hn
    rw [advertise_of_silent fun told hmem => (htold told hmem).1.pending_eq] at hn
    obtain ⟨told, hmem, rfl⟩ := Array.mem_map.1 hn
    obtain ⟨hstraight, hrunning, hflags⟩ := htold told hmem
    have hle := expected_le_received hlinks (fun n hn => (hrest n hn).counters_eq) told hmem
    exact Straight.tick ⟨rfl, hstraight.detour_eq, hstraight.routes_eq⟩ hrunning hle hflags
  refine ⟨?_, ?_⟩
  · intro tick htick
    rw [(step_eq m).1, ticks_eq] at htick
    obtain ⟨n, hn, hmap⟩ := List.mem_filterMap.1 htick
    obtain ⟨report, hreport, hunmoved, -⟩ := hreports n (Array.mem_toList_iff.1 hn)
    rw [hreport] at hmap
    injection hmap with hmap
    rw [← hmap]
    exact hunmoved
  · intro n' hn'
    rw [(step_eq m).2, nodes_tick] at hn'
    obtain ⟨n, hn, rfl⟩ := Array.mem_map.1 hn'
    obtain ⟨report, -, -, hstraight⟩ := hreports n hn
    exact hstraight

theorem straight_apply (hlinks : m.Lossless) (hrest : ∀ n ∈ m.nodes, n.AtRest)
    (h : ∀ n ∈ m.nodes, n.Straight) (event : MeshEvent) :
    ∀ n ∈ (m.apply event).2.nodes, n.Straight := by
  by_cases he : event = .step
  · subst he
    exact (unmoved_step hlinks hrest h).2
  · refine forall_of_apply (fun _ _ _ hn hmet => hn.meet hmet) (fun _ _ _ _ hn hev => hn.evict hev)
      (fun m plan node hd => ?_) h he
    obtain ⟨-, -, config, agent, table, ha, -, rfl⟩ := design_eq_ok hd
    rw [Agent.ofConfig_eq_ok ha]
    exact ⟨rfl, rfl, rfl⟩

/-- What stays true of a mesh while its links lose nothing. -/
structure Untroubled (m : Mesh) : Prop where
  lossless : m.Lossless
  atRest : ∀ n ∈ m.nodes, n.AtRest
  straight : ∀ n ∈ m.nodes, n.Straight

theorem untroubled_applyAll {events : List MeshEvent} (h : ∀ event ∈ events, event.Healthy) :
    (empty.applyAll events).Untroubled := by
  have hrun : ∀ m : Mesh, m.Untroubled → (m.applyAll events).Untroubled := by
    induction events with
    | nil => exact fun _ hm => hm
    | cons event events ih =>
      intro m hm
      refine ih (fun e hmem => h e (List.mem_cons_of_mem _ hmem)) (m.apply event).2 ?_
      exact ⟨hm.lossless.apply (h event List.mem_cons_self), atRest_apply hm.atRest event,
        straight_apply hm.lossless hm.atRest hm.straight event⟩
  exact hrun empty ⟨lossless_empty, fun n hn => absurd hn (by simp [empty]),
    fun n hn => absurd hn (by simp [empty])⟩

theorem lost_apply (hlinks : m.Lossless) (event : MeshEvent) {i : Nat} {n n' : MeshNode}
    (hn : m.nodes[i]? = some n) (hn' : (m.apply event).2.nodes[i]? = some n')
    (hp : n.parent ≠ none) : n'.lost = n.lost := by
  by_cases he : event = .step
  · subst he
    obtain ⟨old, hold, hlost⟩ := lost_step hlinks hn'
    rw [hn] at hold
    obtain rfl : n = old := Option.some.inj hold
    exact hlost hp
  · have hrests : ∀ {kept : Array MeshNode}, Pointwise Rests m.nodes kept →
        kept[i]? = some n' → n'.lost = n.lost := by
      intro kept hkept hi
      obtain ⟨old, hold, hr⟩ := hkept.2 i n' hi
      rw [hn] at hold
      obtain rfl : n = old := Option.some.inj hold
      exact congrArg PacketAccount.lost hr.account_eq
    cases (joined_apply m he).2 with
    | none rests => exact hrests rests hn'
    | one kept rests node _ _ _ nodes_eq =>
      -- The new node stands behind all others.
      have hi : i < kept.size := rests.1 ▸ (Array.getElem?_eq_some_iff.1 hn).1
      rw [nodes_eq, Array.getElem?_push, if_neg (Nat.ne_of_lt hi)] at hn'
      exact hrests rests hn'

/-- As long as no link ever lost a packet, every node ends each interval without congestion, neither
its own nor around it, notifies nobody and has no detour; no node holds a route besides the one to
its parent; and only nodes without a parent lose packets. -/
theorem healthy_mesh_never_reacts {events : List MeshEvent} (h : ∀ event ∈ events, event.Healthy) :
    let m := empty.applyAll events
    m.step.1.ticks.map Prod.fst = m.nodes.toList.map MeshNode.id ∧
      (∀ tick ∈ m.step.1.ticks, tick.2.Unmoved) ∧
      (∀ n ∈ m.nodes, n.host.routes.routes = []) ∧
      ∀ event : MeshEvent, event.Healthy → ∀ (i : Nat) (n n' : MeshNode), m.nodes[i]? = some n →
        (m.apply event).2.nodes[i]? = some n' → n.parent ≠ none → n'.lost = n.lost := by
  intro m
  have hm : m.Untroubled := untroubled_applyAll h
  refine ⟨?_, (unmoved_step hm.lossless hm.atRest hm.straight).1,
    fun n hn => (hm.straight n hn).routes_eq,
    fun event _ i n n' hn hn' hp => lost_apply hm.lossless event hn hn' hp⟩
  rw [(step_eq m).1, ids_ticks (running_advertise hm.atRest), ids_advertise]

/-- Nodes that send more packets than any counter can hold, one of them with reports that its parent
drops, and a node that has lost its parent. -/
def loaded : List MeshEvent :=
  [.build ⟨none, [], 0, none⟩, .build ⟨some ⟨0⟩, [], 0xffffffff, none⟩,
    .build ⟨some ⟨1⟩, [⟨0⟩], 0xffffffff, some { Config.standard with optionType := ⟨0x0b⟩ }⟩,
    .build ⟨some ⟨1⟩, [], 7, none⟩, .setDelivery ⟨1⟩ ⟨0⟩ .always, .evict ⟨3⟩ ⟨1⟩, .step]

theorem healthy_mesh_never_reacts_loaded :
    let m := empty.applyAll loaded
    (∀ event ∈ loaded, event.Healthy) ∧
      m.step.1.ticks.map Prod.fst = [⟨0⟩, ⟨1⟩, ⟨2⟩, ⟨3⟩] ∧
      (∀ tick ∈ m.step.1.ticks, tick.2.Unmoved) ∧ ∀ n ∈ m.nodes, n.host.routes.routes = [] := by
  intro m
  have h : ∀ event ∈ loaded, event.Healthy := by decide
  obtain ⟨hids, hticks, hroutes, -⟩ := healthy_mesh_never_reacts h
  have hnodes : m.nodes.toList.map MeshNode.id = [⟨0⟩, ⟨1⟩, ⟨2⟩, ⟨3⟩] := by
    -- The nodes are those before the interval, whose packets need not be sent to count them.
    change (empty.applyAll (loaded.take 6)).step.2.nodes.toList.map MeshNode.id = _
    rw [ids_step]
    decide +kernel
  exact ⟨h, hids.trans hnodes, hticks, hroutes⟩

end Mesh

end CongestionRouting
