import CongestionRouting.Proofs.Route.Phase
import CongestionRouting.Proofs.Session.Intervals

namespace CongestionRouting

/-- A detour that can stay: through a routing parent in the table other than the preferred one. -/
structure Detour.Usable (t : NeighborTable) (parent : NeighborHandle) (detour : Detour) : Prop where
  preferredParent_eq : t.preferredParent = some parent
  neighbor_ne : detour.neighbor ≠ parent
  routingParent : ∃ entry, t.get? detour.neighbor = some entry ∧ entry.routingParent = true

namespace Detour.Usable

variable {t : NeighborTable} {parent : NeighborHandle} {detour : Detour}

theorem fit (h : detour.Usable t parent) : detour.Fit t := by
  obtain ⟨entry, hget, hrouting⟩ := h.routingParent
  refine ⟨NeighborTable.contains_of_get? hget, ⟨parent, h.preferredParent_eq, Ne.symm h.neighbor_ne⟩, ?_⟩
  rw [NeighborTable.isRoutingParent_of_get? hget, hrouting]

theorem obstacle_eq (h : detour.Usable t parent) : Steering.obstacle t detour = none := by
  rw [Steering.obstacle_eq, if_pos h.fit]

instance : Decidable (detour.Usable t parent) :=
  decidable_of_iff (t.preferredParent = some parent ∧ detour.neighbor ≠ parent ∧
      ∃ entry ∈ t.get? detour.neighbor, entry.routingParent = true)
    ⟨fun ⟨hp, hne, hr⟩ => ⟨hp, hne, hr⟩, fun ⟨hp, hne, hr⟩ => ⟨hp, hne, hr⟩⟩

theorem recordSignal (h : detour.Usable t parent) (ht : t.Orderly) (sender : Address) :
    detour.Usable (recordSignal sender t).2 parent := by
  obtain ⟨entry, hget, hrouting⟩ := h.routingParent
  refine ⟨?_, h.neighbor_ne, { entry with congested := entry.congested || entry.address = sender },
    ?_, hrouting⟩
  · rw [NeighborTable.preferredParent_recordSignal, h.preferredParent_eq]
  · rw [NeighborTable.get?_recordSignal ht, hget]
    rfl

end Detour.Usable

namespace Phase

variable {h : Hysteresis} {past : History} {p : Phase h} {o : Occurrence}

/-- What an active phase counts are the intervals since the last installation. -/
def Stays (past : History) : Phase h → Prop
  | .active _ intervals => intervals = past.stay
  | _ => True

theorem Stays.quiet (hp : p.Stays past) (hi : o.installs = false) (he : o.endsInterval = false) :
    p.Stays (o :: past) := by
  cases p with
  | idle | held left left_pos left_le => trivial
  | active detour intervals =>
    change intervals = _ at hp
    change intervals = _
    rw [hp, History.stay_cons, hi, he]
    rfl

theorem stays_settle (offer : Offer) (sender : Address) :
    (settle (h := h) offer).Stays
      (⟨.agent (.signal sender), .activation (some offer.activation)⟩ :: past) := by
  cases offer with
  | noParent | noCandidate | refused nextHop => trivial
  | accepted detour =>
    change 0 = _
    rw [History.stay_cons]
    rfl

theorem Stays.request {ν ρ γ : Type} [Neighborhood ν] [RouteStore ρ] [RandomSource γ]
    (hp : p.Stays past) (policy : SelectionPolicy) (priority : RoutePriority) (table : ν)
    (routes : ρ) (random : γ) (sender : Address) :
    (p.request policy priority table routes random).2.Stays
      (⟨.agent (.signal sender),
        .activation (some (p.request policy priority table routes random).1)⟩ :: past) := by
  cases p with
  | idle => exact stays_settle _ sender
  | held left left_pos left_le => trivial
  | active detour intervals =>
    simp only [Phase.request]
    split
    · exact hp.quiet rfl rfl
    · exact stays_settle _ sender

theorem Stays.endInterval {ν : Type} [Neighborhood ν] (hp : p.Stays past) (table : ν)
    (report : TickReport) :
    (p.endInterval table).2.Stays (⟨.agent .tick, .report (some report)⟩ :: past) := by
  have hrecovered : (recovered (h := h)).Stays (⟨.agent .tick, .report (some report)⟩ :: past) := by
    unfold recovered
    split <;> trivial
  cases p with
  | idle => trivial
  | held left left_pos left_le =>
    cases left with
    | zero => trivial
    | succ left =>
      simp only [Phase.endInterval, release]
      split <;> trivial
  | active detour intervals =>
    -- A detour that stays has been there for one interval more.
    have hstay : intervals + 1 = History.stay (⟨.agent .tick, .report (some report)⟩ :: past) := by
      change intervals = _ at hp
      rw [hp, History.stay_cons]
      rfl
    simp only [Phase.endInterval]
    split
    · split
      · exact hstay
      · split
        · exact hstay
        · exact hrecovered
    · trivial

end Phase

namespace Accounts

variable {past : History} {a : Agent} {t : NeighborTable} {parent : NeighborHandle}
  {entry : Neighbor}

theorem parentFlagged_iff (h : Accounts past a t) (hp : t.preferredParent = some parent)
    (hg : t.get? parent = some entry) : ParentFlagged t ↔ past.heard entry.address = true := by
  have hpreferred : Neighborhood.preferredParent t = some parent := hp
  have hcongested : Neighborhood.congested t parent = some entry.congested := by
    change (t.get? parent).map Neighbor.congested = _
    rw [hg]
    rfl
  rw [← h.congested_eq _ entry (NeighborTable.get?_eq_some_iff.1 hg).2]
  simp [ParentFlagged, hpreferred, hcongested]

end Accounts

def Agent.Steered (config : Config) (past : History) (a : Agent) : Prop :=
  ∃ p : Phase config.hysteresis,
    a.engine.steering = p.steering config.policy config.priority ∧ p.Stays past

namespace Agent.Steered

variable {ν ρ α τ : Type} [Neighborhood ν] [RouteStore ρ] {config : Config} {past : History}
  {a a' : Agent} {host : Host ν ρ α τ}

theorem start (hc : Agent.ofConfig config = .ok a) : a.Steered config [] := by
  rw [Agent.ofConfig_eq_ok hc]
  exact ⟨.idle, rfl, trivial⟩

theorem quiet (h : a.Steered config past) {o : Occurrence} (hi : o.installs = false)
    (he : o.endsInterval = false) (hs : a'.engine.steering = a.engine.steering) :
    a'.Steered config (o :: past) := by
  obtain ⟨p, hp, hstays⟩ := h
  exact ⟨p, hs.trans hp, hstays.quiet hi he⟩

theorem withdraw (h : a.Steered config past) (routes : ρ) (reason : WithdrawalReason)
    (o : Occurrence) (hs : a'.engine.steering = (a.engine.steering.withdraw routes reason).2.1) :
    a'.Steered config (o :: past) := by
  obtain ⟨p, hp, hstays⟩ := h
  rw [hp, (Phase.withdraw_steering config.policy config.priority p routes reason).2] at hs
  refine ⟨_, hs, ?_⟩
  cases p with
  | idle | held left left_pos left_le => trivial
  | active detour intervals =>
    simp only [Phase.withdraw, Phase.afterWithdrawal, Phase.recovered]
    split
    · split <;> trivial
    · trivial

theorem receiveSignal (h : a.Steered config past) (sender : Address) :
    (a.receiveSignal sender host).2.1.Steered config
      (⟨.agent (.signal sender), .activation (a.receiveSignal sender host).1⟩ :: past) := by
  rcases a.receiveSignal_cases sender host with ⟨tally, heq, -⟩ | ⟨tally, -, heq, -⟩
  · rw [heq]
    exact h.quiet rfl rfl rfl
  · obtain ⟨p, hp, hstays⟩ := h
    obtain ⟨hanswer, hsteering⟩ := Phase.request_steering config.policy config.priority p
      (afterSignal sender host).neighbors (afterSignal sender host).routes a.engine.random
    rw [← hp] at hanswer hsteering
    rw [heq]
    have hstay := hstays.request config.policy config.priority (afterSignal sender host).neighbors
      (afterSignal sender host).routes a.engine.random sender
    rw [← hanswer] at hstay
    exact ⟨_, hsteering, hstay⟩

variable [Advertiser α] [IntervalTimer τ]

theorem tick (h : a.Steered config past) :
    (a.tick host).2.1.Steered config (⟨.agent .tick, .report (a.tick host).1⟩ :: past) := by
  cases hr : a.isRunning with
  | false =>
    rw [Agent.tick_of_stopped hr]
    exact h.quiet rfl rfl rfl
  | true =>
    obtain ⟨report, hreport, hticked⟩ := Agent.tick_of_running host hr
    obtain ⟨p, hp, hstays⟩ := h
    obtain ⟨-, hsteering⟩ := Phase.endInterval_steering config.policy config.priority p
      host.neighbors host.routes
    rw [← hp] at hsteering
    rw [hreport]
    refine ⟨_, ?_, hstays.endInterval host.neighbors report⟩
    rw [hticked.engine_eq, hsteering]

theorem step (h : a.Steered config past) (event : AgentEvent) :
    (a.step host event).2.1.Steered config
      (⟨.agent event, (a.step host event).1⟩ :: past) := by
  cases event with
  | tick => exact h.tick
  | signal sender => exact h.receiveSignal sender
  | stop => exact h.withdraw host.routes .shutdown _ rfl
  | forget neighbor =>
    by_cases hn : a.engine.steering.detour.map Detour.neighbor = some neighbor
    · refine h.withdraw host.routes .alternateEvicted _ ?_
      simp only [Agent.step, Agent.forget, Engine.forget, Steering.forget, hn, if_true]
    · refine h.quiet rfl rfl ?_
      simp only [Agent.step, Agent.forget, Engine.forget, Steering.forget, hn, if_false]
  | receiveReport message offset =>
    refine h.quiet rfl rfl ?_
    simp only [Agent.step, Agent.receiveReport]
    split <;> rfl
  | start | count _ | reseed _ | makeReport => exact h.quiet rfl rfl rfl

/-- The review of a detour that can stay goes by what was heard of the parent, and by the time that
the detour has been there. -/
theorem endInterval_usable (h : a.Steered config past) {t : NeighborTable}
    (haccounts : Accounts past a t) {detour : Detour} {parent : NeighborHandle} {entry : Neighbor}
    (hd : a.engine.steering.detour = some detour) (hu : detour.Usable t parent)
    (hg : t.get? parent = some entry) (routes : ρ) :
    (a.engine.steering.endInterval t routes).1 =
        (if past.heard entry.address then .kept
        else if past.stay + 1 < config.hysteresis.minActiveIntervals.toNat then .deferred
        else .withdrawn .parentUncongested) ∧
      (a.engine.steering.endInterval t routes).2.1.detour =
        if past.heard entry.address = true ∨
          past.stay + 1 < config.hysteresis.minActiveIntervals.toNat then some detour else none := by
  obtain ⟨p, hp, hstays⟩ := h
  obtain ⟨hanswer, hsteering⟩ :=
    Phase.endInterval_steering config.policy config.priority p t routes
  have hparent := haccounts.parentFlagged_iff hu.preferredParent_eq hg
  rw [hp] at hd
  rw [hp, hanswer, hsteering]
  cases p with
  | idle | held left left_pos left_le => exact absurd hd nofun
  | active active intervals =>
    obtain rfl : active = detour := Option.some.inj hd
    obtain rfl : intervals = past.stay := hstays
    simp only [Phase.endInterval, hu.fit, hparent, if_true]
    cases past.heard entry.address with
    | true => simp [Phase.steering]
    | false =>
      by_cases hmin : past.stay + 1 < config.hysteresis.minActiveIntervals.toNat
      · simp [hmin, Phase.steering]
      · have hrecovered : ((Phase.recovered (h := config.hysteresis)).steering config.policy
            config.priority).detour = none := by
          unfold Phase.recovered
          split <;> rfl
        simp [hmin, hrecovered]

end Agent.Steered

namespace Session

variable {rule : CongestionRule} {config : Config} {past : History} {s : Session NeighborTable}

def Steered (config : Config) (past : History) (s : Session NeighborTable) : Prop :=
  ∃ a, s.core = .agent a ∧ a.Steered config past

theorem steered_step (hs : s.Steered config past) (event : SessionEvent) :
    (s.step event).2.Steered config (⟨event, (s.step event).1⟩ :: past) := by
  obtain ⟨a, hcore, h⟩ := hs
  cases event with
  | host event => exact ⟨a, hcore, h.quiet rfl rfl rfl⟩
  | agent event =>
    simp only [step, hcore]
    exact ⟨_, rfl, h.step event⟩
  | engine event =>
    simp only [step, hcore]
    exact ⟨a, hcore, h.quiet rfl rfl rfl⟩

theorem steered_run (hs : s.Steered config past) (events : List SessionEvent) :
    (s.run events).Steered config (s.history past events) := by
  induction events generalizing s past with
  | nil => exact hs
  | cons event events ih => exact ih (steered_step hs event)

/-- The parent is heard in every interval, and meanwhile the detour stays usable, the agent is not
stopped, and it is not told that the neighbor has left. -/
def Sustains (detour : Detour) (s : Session NeighborTable) (past : History) :
    List SessionEvent → Prop
  | [] => True
  | event :: events =>
    let o : Occurrence := ⟨event, (s.step event).1⟩
    (event.meddles = false ∧ event ≠ .agent .stop ∧ event ≠ .agent (.forget detour.neighbor)) ∧
    (∃ parent ∈ s.host.neighbors.preferredParent, ∃ entry ∈ s.host.neighbors.get? parent,
      detour.Usable s.host.neighbors parent ∧
        (o.endsInterval = true → past.heard entry.address = true)) ∧
    (s.step event).2.Sustains detour (o :: past) events

instance decidableSustains (detour : Detour) (s : Session NeighborTable) (past : History) :
    (events : List SessionEvent) → Decidable (s.Sustains detour past events)
  | [] => isTrue trivial
  | event :: events =>
    have := decidableSustains detour (s.step event).2 (⟨event, (s.step event).1⟩ :: past) events
    inferInstanceAs (Decidable (_ ∧ _ ∧ _))

/-- The agent has the detour, after so many activations and deactivations. -/
def Holds (detour : Detour) (activations deactivations : Nat) (s : Session NeighborTable) : Prop :=
  ∃ a ∈ s.agent?, a.engine.steering.detour = some detour ∧
    a.tally.activations = activations ∧ a.tally.deactivations = deactivations

instance (detour : Detour) (activations deactivations : Nat) :
    Decidable (s.Holds detour activations deactivations) :=
  inferInstanceAs (Decidable (∃ a ∈ s.agent?, _))

variable {detour : Detour} {activations deactivations : Nat} {parent : NeighborHandle}
  {entry : Neighbor}

theorem holds_signal (hs : s.Accounted rule past) (hh : s.Holds detour activations deactivations)
    (hu : detour.Usable s.host.neighbors parent) (sender : Address) :
    (s.step (.agent (.signal sender))).2.Holds detour activations deactivations := by
  obtain ⟨a, hagent, hd, hactivations, hdeactivations⟩ := id hh
  have hcore := agent?_eq_some_iff.1 hagent
  obtain ⟨a', hcore', -, haccounts⟩ := hs
  simp only [step, hcore, Agent.step]
  rcases a.receiveSignal_cases sender s.host with
    ⟨tally, heq, hup, hdown⟩ | ⟨tally, -, heq, hup, hdown⟩
  · rw [heq]
    exact ⟨_, rfl, hd, hup.trans hactivations, hdown.trans hdeactivations⟩
  · -- The request finds the detour in order.
    have hobstacle : Steering.obstacle (Agent.afterSignal sender s.host).neighbors detour = none :=
      (hu.recordSignal haccounts.orderly sender).obstacle_eq
    have hrequest : a.engine.request (Agent.afterSignal sender s.host) =
        (.alreadyActive, a.engine, Agent.afterSignal sender s.host) := by
      simp only [Engine.request, Steering.request, hd, hobstacle]
    rw [heq, hrequest]
    exact ⟨_, rfl, hd, hup.trans hactivations, hdown.trans hdeactivations⟩

theorem holds_tick (hs : s.Accounted rule past) (hsteered : s.Steered config past)
    (hh : s.Holds detour activations deactivations)
    (hu : detour.Usable s.host.neighbors parent) (hg : s.host.neighbors.get? parent = some entry)
    (hheard : Occurrence.endsInterval ⟨.agent .tick, (s.step (.agent .tick)).1⟩ = true →
      past.heard entry.address = true) :
    (s.step (.agent .tick)).2.Holds detour activations deactivations := by
  obtain ⟨a, hagent, hd, hactivations, hdeactivations⟩ := id hh
  have hcore := agent?_eq_some_iff.1 hagent
  obtain ⟨a', hcore', -, haccounts⟩ := hs
  obtain ⟨a'', hcore'', h⟩ := hsteered
  obtain rfl : a = a' := SessionCore.agent.inj (hcore.symm.trans hcore')
  obtain rfl : a = a'' := SessionCore.agent.inj (hcore.symm.trans hcore'')
  simp only [step, hcore, Agent.step] at hheard ⊢
  cases hr : a.isRunning with
  | false =>
    rw [Agent.tick_of_stopped hr]
    exact ⟨a, rfl, hd, hactivations, hdeactivations⟩
  | true =>
    obtain ⟨report, hreport, hticked⟩ := Agent.tick_of_running s.host hr
    -- The parent was heard, so the detour is kept and nothing is counted.
    obtain ⟨houtcome, hdetour⟩ := h.endInterval_usable haccounts hd hu hg s.host.routes
    rw [hreport] at hheard
    rw [hheard rfl] at houtcome hdetour
    have hkept : report.outcome = .kept := hticked.outcome_eq.trans houtcome
    refine ⟨_, rfl, ?_, ?_, ?_⟩
    · rw [hticked.engine_eq]
      exact hdetour
    · rw [hticked.tally_eq]
      exact hactivations
    · rw [hticked.tally_eq, Tally.addTick, hkept]
      exact hdeactivations

theorem holds_step (hs : s.Accounted rule past) (hsteered : s.Steered config past)
    (hh : s.Holds detour activations deactivations) {event : SessionEvent}
    (hstop : event ≠ .agent .stop) (hforget : event ≠ .agent (.forget detour.neighbor))
    (hu : detour.Usable s.host.neighbors parent) (hg : s.host.neighbors.get? parent = some entry)
    (hheard : Occurrence.endsInterval ⟨event, (s.step event).1⟩ = true →
      past.heard entry.address = true) :
    (s.step event).2.Holds detour activations deactivations := by
  obtain ⟨a, hagent, hd, hactivations, hdeactivations⟩ := id hh
  have hcore := agent?_eq_some_iff.1 hagent
  cases event with
  | host event => exact ⟨a, hagent, hd, hactivations, hdeactivations⟩
  | engine event =>
    simp only [step, hcore]
    exact ⟨a, hagent, hd, hactivations, hdeactivations⟩
  | agent event =>
    cases event with
    | stop => exact absurd rfl hstop
    | tick => exact holds_tick hs hsteered hh hu hg hheard
    | signal sender => exact holds_signal hs hh hu sender
    | forget neighbor =>
      have hne : a.engine.steering.detour.map Detour.neighbor ≠ some neighbor := by
        rw [hd]
        intro heq
        exact hforget (by rw [← Option.some.inj heq])
      simp only [step, hcore, Agent.step, Agent.forget, Engine.forget, Steering.forget, hne, if_false]
      exact ⟨_, rfl, hd, hactivations, hdeactivations⟩
    | receiveReport message offset =>
      simp only [step, hcore, Agent.step, Agent.receiveReport]
      split <;> exact ⟨_, rfl, hd, hactivations, hdeactivations⟩
    | start | count _ | reseed _ | makeReport =>
      simp only [step, hcore, Agent.step]
      exact ⟨_, rfl, hd, hactivations, hdeactivations⟩

theorem holds_run {events : List SessionEvent} (hs : s.Accounted rule past)
    (hsteered : s.Steered config past) (hh : s.Holds detour activations deactivations)
    (hsustains : s.Sustains detour past events) :
    (s.run events).Holds detour activations deactivations := by
  induction events generalizing s past with
  | nil => exact hh
  | cons event events ih =>
    obtain ⟨⟨hmeddles, hstop, hforget⟩, ⟨parent, -, entry, hg, hu, hheard⟩, hrest⟩ := hsustains
    exact ih (accounted_step hs hmeddles) (steered_step hsteered event)
      (holds_step hs hsteered hh hstop hforget hu hg hheard) hrest

/-- At the end of an interval a usable detour is kept exactly if its parent was heard in the interval,
since it was entered; otherwise it is given the time that the hysteresis asks for, and then it goes.
So a parent that is heard in every interval keeps the detour as it is, and without such a time one
silent interval takes it away. -/
theorem detour_lifetime {config : Config} {agent : Agent} {events : List SessionEvent}
    (hc : Agent.ofConfig config = .ok agent) (he : ∀ event ∈ events, event.meddles = false)
    (capacity : Nat) (routes : RouteList) :
    let first : Session NeighborTable := start (.empty capacity) routes (.agent agent)
    let s := first.run events
    let past := first.history [] events
    ∃ a, s.core = .agent a ∧ ∀ detour, a.engine.steering.detour = some detour →
      (∀ parent, a.isRunning = true → detour.Usable s.host.neighbors parent →
        ∃ entry report a', s.host.neighbors.get? parent = some entry ∧
          (s.step (.agent .tick)).1 = .report (some report) ∧
          (s.step (.agent .tick)).2.core = .agent a' ∧
          (report.outcome = .kept ↔ past.heard entry.address = true) ∧
          (past.heard entry.address = false → report.outcome =
            if past.stay + 1 < config.hysteresis.minActiveIntervals.toNat then .deferred
            else .withdrawn .parentUncongested) ∧
          (past.heard entry.address = false → config.hysteresis.minActiveIntervals ≤ 1 →
            report.outcome = .withdrawn .parentUncongested ∧ a'.engine.steering.detour = none)) ∧
      (∀ later, s.Sustains detour past later →
        (s.run later).Holds detour a.tally.activations a.tally.deactivations) := by
  intro first s past
  have haccounted : s.Accounted ⟨config.threshold, config.composition⟩ past :=
    accounted_run (accounted_start hc capacity routes) he
  have hsteered : s.Steered config past := steered_run ⟨agent, rfl, .start hc⟩ events
  clear_value s past
  obtain ⟨a, hcore, -, haccounts⟩ := id haccounted
  refine ⟨a, hcore, fun detour hd => ⟨fun parent hr hu => ?_, fun later hsustains => ?_⟩⟩
  · obtain ⟨a', hcore', h⟩ := hsteered
    obtain rfl : a = a' := SessionCore.agent.inj (hcore.symm.trans hcore')
    obtain ⟨entry, hg⟩ := haccounts.orderly.preferredParent_live parent hu.preferredParent_eq
    obtain ⟨report, hreport, hticked⟩ := Agent.tick_of_running s.host hr
    obtain ⟨houtcome, hdetour⟩ := h.endInterval_usable haccounts hd hu hg s.host.routes
    rw [← hticked.outcome_eq] at houtcome
    refine ⟨entry, report, (a.tick s.host).2.1, hg, ?_, ?_, ?_, fun hsilent => ?_,
      fun hsilent hmin => ?_⟩
    · simp only [step, hcore, Agent.step, hreport]
    · simp only [step, hcore, Agent.step]
    · rw [houtcome]
      cases past.heard entry.address with
      | true => simp
      | false =>
        rw [if_neg Bool.false_ne_true]
        split <;> simp
    · rw [houtcome, hsilent]
      rfl
    · have hnot : ¬past.stay + 1 < config.hysteresis.minActiveIntervals.toNat := by
        have : config.hysteresis.minActiveIntervals.toNat ≤ 1 := hmin
        omega
      constructor
      · rw [houtcome, hsilent, if_neg Bool.false_ne_true, if_neg hnot]
      · rw [hticked.engine_eq, hdetour, hsilent, if_neg (by simp [hnot])]
  · have hholds : s.Holds detour a.tally.activations a.tally.deactivations :=
      ⟨a, agent?_eq_some_iff.2 hcore, hd, rfl, rfl⟩
    exact holds_run haccounted hsteered hholds hsustains

/-- A detour that is kept while its parent signals, and goes with the first silent interval. -/
theorem detour_lifetime_recovering :
    let hop (n : UInt16) : Address := ⟨#v[0xfe80, 0, 0, 0, 0, 0, 0, n]⟩
    let agent : Agent := ⟨.standard, .ofConfig .standard, .zero, none⟩
    let first : Session NeighborTable := start (.empty 4) (.empty 2) (.agent agent)
    let events : List SessionEvent :=
      [.host (.insertNeighbor (hop 1) true), .host (.insertNeighbor (hop 2) true),
        .host (.setPreferredParent (some ⟨0, 0⟩)), .agent .start, .agent (.signal (hop 1))]
    let later : List SessionEvent := [.agent .tick, .agent (.signal (hop 1)), .agent .tick]
    let detour : Detour := ⟨⟨1, 0⟩, hop 2⟩
    Agent.ofConfig .standard = .ok agent ∧
      (∀ event ∈ events ++ later, event.meddles = false) ∧
      (first.run events).Holds detour 1 0 ∧
      (first.run events).Sustains detour (first.history [] events) later ∧
      ((first.run events).run later).Holds detour 1 0 ∧
      ∃ report, ((first.run (events ++ later)).step (.agent .tick)).1 = .report (some report) ∧
        report.outcome = .withdrawn .parentUncongested := by
  intro hop agent first events later detour
  have hc : Agent.ofConfig .standard = .ok agent := rfl
  have he : ∀ event ∈ events ++ later, event.meddles = false := by decide
  have hholds : (first.run events).Holds detour 1 0 := by decide
  have hsustains : (first.run events).Sustains detour (first.history [] events) later := by decide
  obtain ⟨a, hcore, hdetour⟩ :=
    detour_lifetime hc (fun event hmem => he event (List.mem_append_left _ hmem)) 4 (.empty 2)
  have hkept : ((first.run events).run later).Holds detour 1 0 := by
    obtain ⟨a', hagent, hd, hactivations, hdeactivations⟩ := id hholds
    obtain rfl : a = a' := SessionCore.agent.inj (hcore.symm.trans (agent?_eq_some_iff.1 hagent))
    have hrun := (hdetour detour hd).2 later hsustains
    rwa [hactivations, hdeactivations] at hrun
  refine ⟨hc, he, hholds, hsustains, hkept, ?_⟩
  -- The interval after these events is a silent one.
  obtain ⟨a, hcore, hdetour⟩ := detour_lifetime hc he 4 (.empty 2)
  have hholds : (first.run (events ++ later)).Holds detour 1 0 := by decide
  obtain ⟨a', hagent, hd, -⟩ := hholds
  obtain rfl : a = a' := SessionCore.agent.inj (hcore.symm.trans (agent?_eq_some_iff.1 hagent))
  have hr : a.isRunning = true := by
    have hsome : (first.run (events ++ later)).agent?.map Agent.isRunning = some true := by decide
    rw [agent?_eq_some_iff.2 hcore] at hsome
    exact Option.some.inj hsome
  obtain ⟨entry, report, _, hg, hreport, -, -, -, hwithdrawn⟩ :=
    (hdetour detour hd).1 ⟨0, 0⟩ hr (by decide)
  have hentry : (first.run (events ++ later)).host.neighbors.get? ⟨0, 0⟩ =
      some ⟨hop 1, true, false⟩ := by decide
  dsimp only [first] at hentry
  obtain rfl : entry = ⟨hop 1, true, false⟩ := Option.some.inj (hg.symm.trans hentry)
  exact ⟨report, hreport, (hwithdrawn (by decide) (by decide)).1⟩

end Session

end CongestionRouting
