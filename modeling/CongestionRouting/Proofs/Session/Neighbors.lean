import CongestionRouting.Proofs.Agent.Steps
import CongestionRouting.Proofs.Neighbor.Consistent
import CongestionRouting.Proofs.Session.History

namespace CongestionRouting

namespace Occurrence

/-- The handle under which a neighbor came into the table. -/
def issued? : Occurrence → Option NeighborHandle
  | ⟨.host (.insertNeighbor _ _), .handle h⟩ => h
  | _ => none

def released? : Occurrence → Option NeighborHandle
  | ⟨.host (.removeNeighbor h), .entry (some _)⟩ => some h
  | _ => none

/-- Whether the host asked the table for a change and was refused it. -/
def refused : Occurrence → Bool
  | ⟨.host (.removeNeighbor _), .entry none⟩ => true
  | ⟨.host (.setCongested _ _), .flag false⟩ => true
  | ⟨.host _, .tableFailure _⟩ => true
  | _ => false

end Occurrence

/-- All that can happen to a neighbor table in one event. -/
inductive TableStep : NeighborTable → Occurrence → NeighborTable → Prop
  | enter {t t' : NeighborTable} {address : Address} {routingParent : Bool} {h : NeighborHandle}
      (hi : t.insert address routingParent = .ok (h, t')) :
      TableStep t ⟨.host (.insertNeighbor address routingParent), .handle (some h)⟩ t'
  | leave {t : NeighborTable} {h : NeighborHandle} {entry : Neighbor} (hg : t.get? h = some entry) :
      TableStep t ⟨.host (.removeNeighbor h), .entry (some entry)⟩ (t.remove h).2
  | retouch {t t' : NeighborTable} {o : Occurrence} (hi : o.issued? = none)
      (hr : o.released? = none) (ht : t.Retouches t') : TableStep t o t'

theorem TableStep.consistent {t t' : NeighborTable} {o : Occurrence} (hs : TableStep t o t')
    (ht : t.Consistent) : t'.Consistent ∧ t'.capacity = t.capacity := by
  cases hs with
  | enter hi => exact ⟨ht.insert hi, (ht.admits_insert hi).capacity_eq⟩
  | leave hg =>
    refine ⟨ht.remove _, ?_⟩
    simp only [NeighborTable.remove, hg]
  | retouch hi hr hretouch => exact ⟨ht.retouch hretouch, hretouch.capacity_eq⟩

theorem TableStep.orderly {t t' : NeighborTable} {o : Occurrence} (hs : TableStep t o t')
    (ht : t.Orderly) : t'.Orderly := by
  cases hs with
  | enter hi => exact ht.insert hi
  | leave hg => exact ht.remove _
  | retouch hi hr hretouch => exact hretouch.orderly ht

section Cores

variable {ρ α τ : Type} [RouteStore ρ] [Advertiser α] [IntervalTimer τ]

theorem Engine.retouches_tick (e : Engine) (host : Host NeighborTable ρ α τ) :
    host.neighbors.Retouches (e.tick host).2.2.neighbors := by
  unfold Engine.tick
  cases e.clock.running with
  | false => exact .refl _
  | true => exact .clearFlags _

theorem Engine.retouches_step (e : Engine) (host : Host NeighborTable ρ α τ) (event : EngineEvent) :
    host.neighbors.Retouches (e.step host event).2.2.neighbors := by
  cases event with
  | tick => exact e.retouches_tick host
  | start | stop | count _ | reseed _ | forget _ | request | withdraw _ | endInterval | judge
  | ask _ _ | select _ _ _ => exact .refl _

theorem Agent.retouches_step (a : Agent) (host : Host NeighborTable ρ α τ) (event : AgentEvent) :
    host.neighbors.Retouches (a.step host event).2.2.neighbors := by
  cases event with
  | tick =>
    have hengine := a.engine.retouches_tick host
    simp only [Agent.step, Agent.tick]
    rcases ht : a.engine.tick host with ⟨_ | report, engine, next⟩ <;> rwa [ht] at hengine
  | signal sender =>
    have hflag : host.neighbors.Retouches (afterSignal sender host).neighbors := .recordSignal _ sender
    simp only [Agent.step]
    rcases a.receiveSignal_cases sender host with ⟨tally, heq, -⟩ | ⟨tally, -, heq, -⟩
    · rw [heq]
      exact hflag
    · rw [heq]
      exact hflag
  | start | stop | count _ | reseed _ | forget _ | makeReport | receiveReport _ _ => exact .refl _

end Cores

namespace Session

variable {s : Session NeighborTable}

theorem tableStep_host (s : Session NeighborTable) (event : HostEvent) :
    TableStep s.host.neighbors ⟨.host event, (s.step (.host event)).1⟩
      (s.step (.host event)).2.host.neighbors := by
  cases event with
  | insertNeighbor address routingParent =>
    simp only [step, Host.step, TableHolder.table]
    cases hi : s.host.neighbors.insert address routingParent with
    | error e => exact .retouch rfl rfl (.refl _)
    | ok placed => exact .enter hi
  | removeNeighbor h =>
    simp only [step, Host.step, TableHolder.table, Host.replaceTable, TableHolder.withTable]
    cases hg : s.host.neighbors.get? h with
    | none =>
      simp only [NeighborTable.remove, hg]
      exact .retouch rfl rfl (.refl _)
    | some entry =>
      have hanswer : (s.host.neighbors.remove h).1 = some entry := by
        simp only [NeighborTable.remove, hg]
      rw [hanswer]
      exact .leave hg
  | setRoutingParent h value =>
    simp only [step, Host.step, TableHolder.table]
    cases hset : s.host.neighbors.setRoutingParent h value with
    | error e => exact .retouch rfl rfl (.refl _)
    | ok table => exact .retouch rfl rfl (.setRoutingParent hset)
  | setPreferredParent h =>
    simp only [step, Host.step, TableHolder.table]
    cases hset : s.host.neighbors.setPreferredParent h with
    | error e => exact .retouch rfl rfl (.refl _)
    | ok table => exact .retouch rfl rfl (.setPreferredParent hset)
  | setCongested h value => exact .retouch rfl rfl (.setCongested _ h value)
  | clearFlags => exact .retouch rfl rfl (.clearFlags _)
  | recordSignal sender => exact .retouch rfl rfl (.recordSignal _ sender)
  | addRoute _ _ | raiseFlag =>
    simp only [step, Host.step]
    split <;> exact .retouch rfl rfl (.refl _)
  | viewNeighbor _ | findNeighbor _ | guardFlags _ | removeRoute _ | findRoute _ | takeFlag
  | setFailure _ | setTimer _ | rearmTimer | stopTimer => exact .retouch rfl rfl (.refl _)

theorem tableStep (s : Session NeighborTable) (event : SessionEvent) :
    TableStep s.host.neighbors ⟨event, (s.step event).1⟩ (s.step event).2.host.neighbors := by
  cases event with
  | host event => exact s.tableStep_host event
  | agent event =>
    refine .retouch rfl rfl ?_
    unfold step
    cases s.core with
    | agent a => exact a.retouches_step s.host event
    | absent | engine e => exact .refl _
  | engine event =>
    refine .retouch rfl rfl ?_
    unfold step
    cases s.core with
    | engine e => exact e.retouches_step s.host event
    | absent | agent a => exact .refl _

theorem consistent_run (ht : s.host.neighbors.Consistent) (events : List SessionEvent) :
    (s.run events).host.neighbors.Consistent ∧
      (s.run events).host.neighbors.capacity = s.host.neighbors.capacity := by
  induction events generalizing s with
  | nil => exact ⟨ht, rfl⟩
  | cons event events ih =>
    obtain ⟨hnext, hcapacity⟩ := (s.tableStep event).consistent ht
    obtain ⟨hrun, heq⟩ := ih hnext
    exact ⟨hrun, heq.trans hcapacity⟩

theorem orderly_run (ht : s.host.neighbors.Orderly) (events : List SessionEvent) :
    (s.run events).host.neighbors.Orderly := by
  induction events generalizing s with
  | nil => exact ht
  | cons event events ih => exact ih ((s.tableStep event).orderly ht)

theorem step_of_refused {event : SessionEvent}
    (hr : Occurrence.refused ⟨event, (s.step event).1⟩ = true) : (s.step event).2 = s := by
  -- Only the host asks for changes, and only five of its calls to the table can be refused.
  cases event with
  | agent event | engine event => cases hr
  | host event =>
    cases event with
    | insertNeighbor _ _ | setRoutingParent _ _ | setPreferredParent _ =>
      simp only [step, Host.step] at hr ⊢
      split at hr
      · cases hr
      · rfl
    | removeNeighbor h =>
      simp only [step, Host.step, TableHolder.table] at hr ⊢
      cases hg : s.host.neighbors.get? h with
      | none =>
        simp only [NeighborTable.remove, hg]
        rfl
      | some entry =>
        simp only [NeighborTable.remove, hg] at hr
        cases hr
    | setCongested h value =>
      have hset : Neighborhood.setCongested s.host.neighbors h value =
        s.host.neighbors.setCongested h value := rfl
      simp only [step, Host.step, hset, NeighborTable.setCongested] at hr ⊢
      split at hr
      · cases hr
      · next hc => rw [if_neg hc]
    | addRoute _ _ | raiseFlag =>
      simp only [step, Host.step] at hr
      split at hr <;> cases hr
    | viewNeighbor _ | findNeighbor _ | clearFlags | guardFlags _ | recordSignal _ | removeRoute _
    | findRoute _ | takeFlag | setFailure _ | setTimer _ | rearmTimer | stopTimer => cases hr

/-- A new neighbor is refused for its address or for want of room. Otherwise it is there, and its
handle stands for it. -/
theorem insertNeighbor_cases (ht : s.host.neighbors.Consistent) (address : Address)
    (routingParent : Bool) :
    let t := s.host.neighbors
    let event : SessionEvent := .host (.insertNeighbor address routingParent)
    ((s.step event).1 = .tableFailure (.duplicate address) ↔ address ∈ t.addresses) ∧
      ((s.step event).1 = .tableFailure (.full t.capacity) ↔
        address ∉ t.addresses ∧ t.size = t.capacity) ∧
      (address ∉ t.addresses ∧ t.size ≠ t.capacity → ∃ h, (s.step event).1 = .handle (some h) ∧
        (s.step event).2.host.neighbors.get? h = some ⟨address, routingParent, false⟩) := by
  have hinsert := ht.insert_eq address routingParent
  simp only [step, Host.step, TableHolder.table]
  by_cases hmem : address ∈ s.host.neighbors.addresses
  · rw [if_pos hmem] at hinsert
    simp [hinsert, hmem]
  · rw [if_neg hmem] at hinsert
    by_cases hfull : s.host.neighbors.size = s.host.neighbors.capacity
    · rw [if_pos hfull] at hinsert
      simp [hinsert, hmem, hfull]
    · rw [if_neg hfull] at hinsert
      refine ⟨by simp [hinsert, hmem], by simp [hinsert, hfull], fun _ => ?_⟩
      rw [hinsert]
      exact ⟨_, rfl, (ht.admits_insert hinsert).get?_self⟩

/-- Whatever happens in a session, its neighbor table stays consistent. So the vacant slots are each
listed once, the entries are counted and listed once each in the order of their slots, an address leads
to the handle that stands for it, and a neighbor is refused for its address, or else because every place
is taken. What is refused changes nothing. -/
theorem run_table_consistent {capacity : Nat} (hc : capacity ≤ UInt32.size) (routes : RouteList)
    (core : SessionCore) (events : List SessionEvent) :
    let s : Session NeighborTable := (start (.empty capacity) routes core).run events
    let t := s.host.neighbors
    t.Consistent ∧ t.capacity = capacity ∧
      (t.vacant.map UInt32.toNat).Perm
        ((List.range t.slots.length).filter fun i => (t.entryAt i).isNone) ∧
      t.size = t.entries.length ∧ t.size ≤ capacity ∧ t.addresses.Nodup ∧
      t.handles.Pairwise (fun h g => h.index < g.index) ∧
      t.handles.map t.get? = t.entries.map some ∧
      (∀ h, h ∈ t.handles ↔ ∃ entry, t.get? h = some entry) ∧
      (∀ address h, t.lookup address = some h ↔
        (t.get? h).map Neighbor.address = some address) ∧
      (∀ address routingParent,
        let event : SessionEvent := .host (.insertNeighbor address routingParent)
        ((s.step event).1 = .tableFailure (.duplicate address) ↔ address ∈ t.addresses) ∧
          ((s.step event).1 = .tableFailure (.full capacity) ↔
            address ∉ t.addresses ∧ t.size = capacity) ∧
          (address ∉ t.addresses ∧ t.size ≠ capacity → ∃ h, (s.step event).1 = .handle (some h) ∧
            (s.step event).2.host.neighbors.get? h = some ⟨address, routingParent, false⟩)) ∧
      ∀ event, Occurrence.refused ⟨event, (s.step event).1⟩ = true → (s.step event).2 = s := by
  intro s t
  obtain ⟨ht, hcapacity⟩ : t.Consistent ∧ t.capacity = capacity := consistent_run (.empty hc) events
  have hinsert := insertNeighbor_cases (s := s) ht
  simp only [show s.host.neighbors = t from rfl, hcapacity] at hinsert
  exact ⟨ht, hcapacity, ht.perm_vacant, ht.size_eq, hcapacity ▸ ht.size_le, ht.nodup_addresses,
    ht.pairwise_handles, ht.map_handles, fun _ => ht.mem_handles_iff,
    fun _ _ => ht.lookup_eq_some_iff, hinsert, fun _ => step_of_refused⟩

/-- A full table has room again once a neighbor has left, and it stays without a preferred parent. -/
theorem run_table_consistent_refilled :
    let hop (n : UInt16) : Address := ⟨#v[0xfe80, 0, 0, 0, 0, 0, 0, n]⟩
    let first : Session NeighborTable := start (.empty 2) (.empty 2) .absent
    let events : List SessionEvent :=
      [.host (.insertNeighbor (hop 1) true), .host (.insertNeighbor (hop 2) true),
        .host (.insertNeighbor (hop 3) true), .host (.setPreferredParent (some ⟨0, 0⟩)),
        .host (.removeNeighbor ⟨0, 0⟩), .host (.removeNeighbor ⟨0, 0⟩)]
    let s := first.run events
    2 ≤ UInt32.size ∧ s.host.neighbors.handles = [⟨1, 0⟩] ∧
      s.host.neighbors.preferredParent = none ∧ s.host.neighbors.Consistent ∧
      (s.step (.host (.insertNeighbor (hop 2) true))).1 = .tableFailure (.duplicate (hop 2)) ∧
      ∃ h, (s.step (.host (.insertNeighbor (hop 3) true))).1 = .handle (some h) ∧
        (s.step (.host (.insertNeighbor (hop 3) true))).2.host.neighbors.get? h =
          some ⟨hop 3, true, false⟩ := by
  intro hop first events s
  have hc : 2 ≤ UInt32.size := by decide
  have hlisted : s.host.neighbors.handles = [⟨1, 0⟩] := by decide
  have hparent : s.host.neighbors.preferredParent = none := by decide
  have hthere : hop 2 ∈ s.host.neighbors.addresses := by decide
  have hnew : hop 3 ∉ s.host.neighbors.addresses := by decide
  have hroom : s.host.neighbors.size ≠ 2 := by decide
  obtain ⟨ht, -, -, -, -, -, -, -, -, -, hinsert, -⟩ :=
    run_table_consistent hc (.empty 2) .absent events
  dsimp only [s, first] at hlisted hparent hthere hnew hroom ⊢
  exact ⟨hc, hlisted, hparent, ht, (hinsert (hop 2) true).1.2 hthere,
    (hinsert (hop 3) true).2.2 ⟨hnew, hroom⟩⟩

end Session

end CongestionRouting
