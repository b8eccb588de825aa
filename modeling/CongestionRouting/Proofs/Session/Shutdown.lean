import CongestionRouting.Proofs.Agent.Eviction
import CongestionRouting.Proofs.Session.Damping
import CongestionRouting.Proofs.Session.SharedRoutes

namespace CongestionRouting

def SessionEvent.drivesTimer : SessionEvent → Bool
  | .host (.setTimer _) | .host .rearmTimer | .host .stopTimer => true
  | _ => false

theorem recordSignal_cases {ν : Type} [Neighborhood ν] (sender : Address) (table : ν) :
    (recordSignal sender table).2 = table ∨
      ∃ h, Neighborhood.lookup table sender = some h ∧
        (recordSignal sender table).2 = (Neighborhood.setCongested table h true).2 := by
  unfold recordSignal
  cases hl : Neighborhood.lookup table sender with
  | none => exact .inl rfl
  | some h =>
    refine .inr ⟨h, rfl, ?_⟩
    simp only
    rcases Neighborhood.setCongested table h true with ⟨_ | _, flagged⟩
    · rfl
    · simp only
      split <;> rfl

/-- Every route in the list is one that the host keeps there, or that of the detour. -/
def RouteList.Attributed (kept : List DefaultRoute) (s : Steering) (t : RouteList) : Prop :=
  ∀ route ∈ t.routes, route ∈ kept ++ s.ownRoutes

namespace RouteList.Attributed

variable {kept : List DefaultRoute} {s : Steering} {t t' : RouteList}

theorem hostInsert (h : Attributed kept s t) {nextHop : Address} {p : RoutePriority}
    (hi : t.insert nextHop p = .ok t') : Attributed (kept ++ [⟨nextHop, p⟩]) s t' := by
  obtain ⟨-, rfl⟩ := insert_eq_ok_iff.1 hi
  intro route hmem
  have hold := h route
  simp only [List.mem_append, List.mem_singleton] at hmem hold ⊢
  tauto

theorem hostErase (h : Attributed kept s t) (nextHop : Address) :
    Attributed (kept.filter fun route => route.nextHop ≠ nextHop) s (t.erase nextHop) := by
  intro route hmem
  obtain ⟨hroute, hne⟩ := List.mem_filter.1 hmem
  rcases List.mem_append.1 (h route hroute) with hkept | hown
  · exact List.mem_append_left _ (List.mem_filter.2 ⟨hkept, hne⟩)
  · exact List.mem_append_right _ hown

theorem drop (h : Attributed kept s t) {detour : Detour} (hd : s.detour = some detour) :
    Attributed kept { s with detour := none } (t.erase detour.nextHop) := by
  intro route hmem
  obtain ⟨hroute, hne⟩ := List.mem_filter.1 hmem
  rcases List.mem_append.1 (h route hroute) with hkept | hown
  · exact List.mem_append_left _ hkept
  · simp only [Steering.ownRoutes, hd, Option.map_some, Option.toList_some, List.mem_singleton] at hown
    subst hown
    simp at hne

theorem install {ν γ : Type} [Neighborhood ν] [RandomSource γ] (h : Attributed kept s t)
    (hd : s.detour = none) (table : ν) (random : γ) :
    Attributed kept (s.install table t random).2.1 (s.install table t random).2.2.1 := by
  rcases Steering.install_cases s table t random with
    ⟨detour, -, hs, hadd, -⟩ | ⟨hs, ht | ⟨nextHop, hadd⟩⟩
  · rw [hs, (insert_eq_ok_iff.1 (add_eq_true hadd)).2]
    intro route hmem
    have hold := h route
    simp only [Steering.ownRoutes, hd, Option.map_none, Option.toList_none, List.append_nil] at hold
    simp only [Steering.ownRoutes, Option.map_some, Option.toList_some, List.mem_append] at hmem ⊢
    exact hmem.imp_left hold
  · rw [hs, ht]
    exact h
  · rw [hs, add_eq_false hadd]
    exact h

theorem steeringInvariant (ν γ : Type) [Neighborhood ν] [RandomSource γ] (kept : List DefaultRoute) :
    SteeringInvariant γ (fun _ : ν => True) (Attributed kept) where
  drop hd h := h.drop hd
  install random _ hd h := h.install hd _ random
  count _ _ _ h := h

end RouteList.Attributed

namespace Agent

/-- An agent and a timer that nobody else drives. -/
structure Drives (interval : DetectionInterval) (past : History) (a : Agent) (timer : CountingTimer) :
    Prop where
  interval_eq : a.engine.clock.interval = interval
  armed_eq : timer.armed = a.isRunning
  period_eq : a.isRunning = true → timer.period = some interval.duration
  rearms_eq : timer.rearms = past.intervals
  ticks_eq : a.engine.clock.ticks = UInt64.ofNat past.intervals
  detour_eq : a.isRunning = false → a.engine.steering.detour = none

variable {ν ρ α : Type} [Neighborhood ν] [RouteStore ρ] {interval : DetectionInterval} {past : History}
  {a a' : Agent} {timer : CountingTimer} {host : Host ν ρ α CountingTimer} {o : Occurrence}

namespace Drives

theorem start {config : Config} (hc : Agent.ofConfig config = .ok a) :
    a.Drives config.interval [] .idle := by
  rw [ofConfig_eq_ok hc]
  exact ⟨rfl, rfl, nofun, rfl, rfl, fun _ => rfl⟩

theorem quiet (h : a.Drives interval past timer) (ho : o.endsInterval = false)
    (hclock : a'.engine.clock = a.engine.clock)
    (hdetour : a.isRunning = false → a'.engine.steering.detour = none) :
    a'.Drives interval (o :: past) timer := by
  have hrunning : a'.isRunning = a.isRunning := congrArg IntervalClock.running hclock
  have hintervals : History.intervals (o :: past) = past.intervals := by
    rw [History.intervals_cons, ho]
    rfl
  refine ⟨?_, ?_, ?_, ?_, ?_, ?_⟩
  · rw [hclock, h.interval_eq]
  · rw [hrunning, h.armed_eq]
  · rw [hrunning]
    exact h.period_eq
  · rw [hintervals, h.rearms_eq]
  · rw [hintervals, hclock, h.ticks_eq]
  · rw [hrunning]
    exact hdetour

omit [Neighborhood ν] in
theorem stop (h : a.Drives interval past host.timer) :
    (a.stop host).1.Drives interval (⟨.agent .stop, .done⟩ :: past) (a.stop host).2.timer where
  interval_eq := h.interval_eq
  armed_eq := rfl
  period_eq := nofun
  rearms_eq := h.rearms_eq.trans (by rw [History.intervals_cons]; rfl)
  ticks_eq := h.ticks_eq.trans (by rw [History.intervals_cons]; rfl)
  detour_eq _ := Steering.detour_withdraw ..

theorem receiveSignal (h : a.Drives interval past host.timer) (sender : Address) (answer : Answer) :
    (a.receiveSignal sender host).2.1.Drives interval (⟨.agent (.signal sender), answer⟩ :: past)
      (a.receiveSignal sender host).2.2.timer := by
  rcases a.receiveSignal_counts sender host with ⟨n, heq⟩ | ⟨hr, heq⟩
  · rw [heq]
    exact h.quiet rfl rfl h.detour_eq
  · rw [heq]
    exact h.quiet rfl rfl fun hstopped => absurd (hr.symm.trans hstopped) nofun

variable [Advertiser α]

theorem tick (h : a.Drives interval past host.timer) :
    (a.tick host).2.1.Drives interval (⟨.agent .tick, .report (a.tick host).1⟩ :: past)
      (a.tick host).2.2.timer := by
  cases hreport : (a.tick host).1 with
  | none =>
    rw [tick_of_none hreport]
    exact h.quiet rfl rfl h.detour_eq
  | some report =>
    have hticked := ticked_of_report hreport
    obtain ⟨hr, -, -, htimer⟩ := clock_of_tick hreport
    -- While the agent runs the timer has a period, so it is rearmed and counts that.
    have hrearmed : (a.tick host).2.2.timer = ⟨some interval.duration, true, host.timer.rearms + 1⟩ := by
      have hperiod := h.period_eq hr
      rw [htimer]
      change host.timer.rearm = _
      rw [CountingTimer.rearm, if_pos (by rw [hperiod]; rfl), hperiod]
    have hrunning : (a.tick host).2.1.isRunning = true := by
      rw [isRunning, hticked.engine_eq]
      exact hr
    refine ⟨?_, ?_, fun _ => ?_, ?_, ?_, fun hstopped => absurd (hrunning.symm.trans hstopped) nofun⟩
    · rw [hticked.engine_eq]
      exact h.interval_eq
    · rw [hrearmed, hrunning]
    · rw [hrearmed]
    · rw [hrearmed, History.intervals_cons, h.rearms_eq]
      rfl
    · rw [hticked.engine_eq, History.intervals_cons]
      change a.engine.clock.ticks + 1 = _
      rw [h.ticks_eq, ← UInt64.ofNat_one, ← UInt64.ofNat_add]
      rfl

theorem step (h : a.Drives interval past host.timer) (event : AgentEvent) :
    (a.step host event).2.1.Drives interval (⟨.agent event, (a.step host event).1⟩ :: past)
      (a.step host event).2.2.timer := by
  cases event with
  | start =>
    refine ⟨h.interval_eq, rfl, fun _ => ?_, ?_, ?_, nofun⟩
    · change some a.engine.clock.interval.duration = _
      rw [h.interval_eq]
    · rw [History.intervals_cons]
      exact h.rearms_eq
    · rw [History.intervals_cons]
      exact h.ticks_eq
  | stop => exact h.stop
  | tick => exact h.tick
  | signal sender => exact h.receiveSignal sender _
  | forget neighbor =>
    refine h.quiet rfl rfl fun hr => ?_
    -- A stopped agent has no detour that could leave with the neighbor.
    have hnone : a.engine.steering.detour.map Detour.neighbor ≠ some neighbor := by
      rw [h.detour_eq hr]
      exact nofun
    simp only [Agent.step, forget_of_ne hnone]
    exact h.detour_eq hr
  | receiveReport message offset =>
    simp only [Agent.step, Agent.receiveReport]
    split <;> exact h.quiet rfl rfl h.detour_eq
  | count _ | reseed _ | makeReport => exact h.quiet rfl rfl h.detour_eq

end Drives

end Agent

theorem Agent.receiveSignal_of_stopped {ν ρ α τ : Type} [Neighborhood ν] [RouteStore ρ] {a : Agent}
    (hr : a.isRunning = false) (sender : Address) (host : Host ν ρ α τ) :
    ∃ n ≤ 1, a.receiveSignal sender host =
      (none, { a with tally := { a.tally with signalsReceived := a.tally.signalsReceived + n } },
        afterSignal sender host) := by
  unfold receiveSignal afterSignal
  rcases recordSignal sender host.neighbors with ⟨source, neighbors⟩
  cases source with
  | unknown => exact ⟨0, Nat.zero_le 1, rfl⟩
  | neighbor h => exact ⟨1, Nat.le_refl 1, rfl⟩
  | preferredParent h =>
    refine ⟨1, Nat.le_refl 1, ?_⟩
    simp only [hr, Bool.not_false, if_true]

/-- Only a withdrawal because of a recovery begins a suppression, and none ends one. -/
theorem Steering.suppression_withdraw {ρ : Type} [RouteStore ρ] (s : Steering) (routes : ρ)
    (reason : WithdrawalReason) (hr : reason ≠ .parentUncongested) :
    (s.withdraw routes reason).2.1.suppressed = s.suppressed ∧
      (s.withdraw routes reason).2.1.holdDown = s.holdDown := by
  cases hd : s.detour with
  | none =>
    unfold withdraw
    rw [hd]
    exact ⟨rfl, rfl⟩
  | some detour =>
    rw [withdraw_eq_cleared hd routes reason hr]
    exact ⟨rfl, rfl⟩

theorem Agent.stop_of_inactive {ν ρ α τ : Type} [RouteStore ρ] [IntervalTimer τ] {a : Agent}
    (hd : a.engine.steering.detour = none) (host : Host ν ρ α τ) :
    (a.stop host).1.engine.steering = a.engine.steering ∧ (a.stop host).2.routes = host.routes := by
  have hwithdraw : a.engine.steering.withdraw host.routes .shutdown =
      (none, a.engine.steering, host.routes) := by
    unfold Steering.withdraw
    rw [hd]
  simp only [stop, Engine.withdraw, hwithdraw]
  exact ⟨rfl, rfl⟩

namespace Session

variable {ν : Type} [TableHolder ν] {interval : DetectionInterval} {kept : List DefaultRoute}
  {past : History} {s : Session ν} {a : Agent}

/-- The agent alone drives the timer, and each route is accounted for. -/
def Driven (interval : DetectionInterval) (kept : List DefaultRoute) (past : History) (s : Session ν) :
    Prop :=
  ∃ a, s.core = .agent a ∧ a.Drives interval past s.host.timer ∧
    s.host.routes.Attributed kept a.engine.steering

theorem driven_hostStep (hs : s.Driven interval kept past) {event : HostEvent}
    (he : (SessionEvent.host event).drivesTimer = false) :
    (s.step (.host event)).2.Driven interval (keep kept (.host event) (s.step (.host event)).1)
      (⟨.host event, (s.step (.host event)).1⟩ :: past) := by
  obtain ⟨a, hcore, hdrives, hroutes⟩ := hs
  have hquiet := fun answer => hdrives.quiet (o := ⟨.host event, answer⟩) rfl rfl hdrives.detour_eq
  cases event with
  | setTimer _ | rearmTimer | stopTimer => exact absurd he nofun
  | addRoute nextHop p =>
    simp only [step, Host.step]
    cases hi : s.host.routes.insert nextHop p with
    | error e => exact ⟨a, hcore, hquiet _, hroutes⟩
    | ok routes => exact ⟨a, hcore, hquiet _, hroutes.hostInsert hi⟩
  | removeRoute nextHop => exact ⟨a, hcore, hquiet _, hroutes.hostErase nextHop⟩
  | insertNeighbor _ _ | setRoutingParent _ _ | setPreferredParent _ | raiseFlag =>
    simp only [step, Host.step]
    split <;> exact ⟨a, hcore, hquiet _, hroutes⟩
  | removeNeighbor _ | viewNeighbor _ | findNeighbor _ | setCongested _ _ | clearFlags | guardFlags _
  | recordSignal _ | findRoute _ | takeFlag | setFailure _ => exact ⟨a, hcore, hquiet _, hroutes⟩

theorem driven_step (hs : s.Driven interval kept past) {event : SessionEvent}
    (he : event.drivesTimer = false) :
    (s.step event).2.Driven interval (keep kept event (s.step event).1)
      (⟨event, (s.step event).1⟩ :: past) := by
  cases event with
  | host event => exact driven_hostStep hs he
  | agent event =>
    obtain ⟨a, hcore, hdrives, hroutes⟩ := hs
    have hinv := RouteList.Attributed.steeringInvariant ν ChaCha kept
    simp only [step, hcore]
    exact ⟨_, rfl, hdrives.step event, Agent.step_keeps hinv event (fun _ => trivial) hroutes⟩
  | engine event =>
    obtain ⟨a, hcore, hdrives, hroutes⟩ := hs
    simp only [step, hcore]
    exact ⟨a, hcore, hdrives.quiet rfl rfl hdrives.detour_eq, hroutes⟩

theorem driven_run {events : List SessionEvent} (hs : s.Driven interval kept past)
    (he : ∀ event ∈ events, event.drivesTimer = false) :
    (s.run events).Driven interval (s.keptRoutes kept events) (s.history past events) := by
  induction events generalizing s kept past with
  | nil => exact hs
  | cons event events ih =>
    exact ih (driven_step hs (he event List.mem_cons_self)) fun e hmem =>
      he e (List.mem_cons_of_mem _ hmem)

/-- What a stopped agent makes of an event: nothing of a tick and of an eviction, and of a signal no more
than to set the flag of its sender and to count it. Whatever it is told but to start, it leaves the
routes alone. -/
structure Dormant (s : Session ν) (a : Agent) : Prop where
  core_eq : s.core = .agent a
  tick_eq : s.step (.agent .tick) = (.report none, s)
  forget_eq : ∀ h, s.step (.agent (.forget h)) = (.flag false, s)
  signal_eq : ∀ sender, ∃ neighbors n,
    (neighbors = s.host.neighbors ∨ ∃ h, Neighborhood.lookup s.host.neighbors sender = some h ∧
      neighbors = (Neighborhood.setCongested s.host.neighbors h true).2) ∧ n ≤ 1 ∧
    s.step (.agent (.signal sender)) = (.activation none,
      ⟨{ s.host with neighbors := neighbors },
        .agent { a with tally := { a.tally with signalsReceived := a.tally.signalsReceived + n } }⟩)
  routes_eq : ∀ event, event ≠ .start → (s.step (.agent event)).2.host.routes = s.host.routes

theorem dormant_of_stopped (hcore : s.core = .agent a) (hr : a.isRunning = false)
    (hd : a.engine.steering.detour = none) : s.Dormant a := by
  obtain ⟨host, core⟩ := s
  obtain rfl : core = .agent a := hcore
  have hforget (h : NeighborHandle) : a.forget h host = (false, a, host) :=
    Agent.forget_of_ne (by rw [hd]; exact nofun)
  refine ⟨rfl, ?_, fun h => ?_, fun sender => ?_, fun event he => ?_⟩
  · simp only [step, Agent.step, Agent.tick_of_stopped hr]
  · simp only [step, Agent.step, hforget]
  · obtain ⟨n, hn, hsignal⟩ := Agent.receiveSignal_of_stopped hr sender host
    refine ⟨(CongestionRouting.recordSignal sender host.neighbors).2, n,
      recordSignal_cases sender host.neighbors, hn, ?_⟩
    simp only [step, Agent.step, hsignal]
    rfl
  · cases event with
    | start => exact absurd rfl he
    | stop => exact (Agent.stop_of_inactive hd host).2
    | tick => simp only [step, Agent.step, Agent.tick_of_stopped hr]
    | signal sender =>
      obtain ⟨n, -, hsignal⟩ := Agent.receiveSignal_of_stopped hr sender host
      simp only [step, Agent.step, hsignal]
      rfl
    | forget h => simp only [step, Agent.step, hforget]
    | count _ | reseed _ | makeReport | receiveReport _ _ => rfl

/-- The session has a stopped agent with that record, and the record has no detour. -/
def Stopped (steering : Steering) (s : Session ν) : Prop :=
  steering.detour = none ∧
    ∃ a, s.core = .agent a ∧ a.isRunning = false ∧ a.engine.steering = steering

variable {steering : Steering}

/-- Only a start ends a stop. -/
theorem stopped_step (hs : s.Stopped steering) {event : SessionEvent} (he : event ≠ .agent .start) :
    (s.step event).2.Stopped steering := by
  obtain ⟨hd, a, hcore, hr, hsteering⟩ := hs
  refine ⟨hd, ?_⟩
  subst hsteering
  -- Nothing that a dormant agent is told reaches the record.
  cases event with
  | host event =>
    simp only [step, hcore]
    exact ⟨a, rfl, hr, rfl⟩
  | engine event =>
    simp only [step, hcore]
    exact ⟨a, rfl, hr, rfl⟩
  | agent event =>
    have hdormant := dormant_of_stopped hcore hr hd
    cases event with
    | start => exact absurd rfl he
    | tick =>
      rw [hdormant.tick_eq]
      exact ⟨a, hcore, hr, rfl⟩
    | forget h =>
      rw [hdormant.forget_eq h]
      exact ⟨a, hcore, hr, rfl⟩
    | signal sender =>
      obtain ⟨neighbors, n, -, -, hsignal⟩ := hdormant.signal_eq sender
      rw [hsignal]
      exact ⟨_, rfl, hr, rfl⟩
    | stop =>
      simp only [step, hcore]
      exact ⟨_, rfl, rfl, (Agent.stop_of_inactive hd s.host).1⟩
    | receiveReport message offset =>
      simp only [step, hcore, Agent.step, Agent.receiveReport]
      split <;> exact ⟨_, rfl, hr, rfl⟩
    | count _ | reseed _ | makeReport =>
      simp only [step, hcore]
      exact ⟨_, rfl, hr, rfl⟩

theorem stop_of_core (hcore : s.core = .agent a) :
    ∃ a', (s.step (.agent .stop)).2.core = .agent a' ∧ a'.isRunning = false ∧
      a'.engine.steering.suppressed = a.engine.steering.suppressed ∧
      a'.engine.steering.holdDown = a.engine.steering.holdDown := by
  simp only [step, hcore]
  exact ⟨_, rfl, rfl, a.engine.steering.suppression_withdraw s.host.routes .shutdown (by decide)⟩

theorem stopped_run {events : List SessionEvent} (hs : s.Stopped steering)
    (he : .agent .start ∉ events) : (s.run events).Stopped steering := by
  induction events generalizing s with
  | nil => exact hs
  | cons event events ih =>
    obtain ⟨hne, hrest⟩ := List.ne_and_not_mem_of_not_mem_cons he
    exact ih (stopped_step hs hne.symm) hrest

/-- An agent that alone drives the timer has it armed exactly while it runs, with the period of its
configuration, and rearmed at the end of each interval. A stop leaves its hold-down as it is. While it is
stopped it has no detour, and no route but those of the host is installed; until it is started it stays
dormant, and its hold-down as it is, whatever happens. -/
theorem shutdown_lasts {config : Config} {agent : Agent} (neighbors : ν) (routes : RouteList)
    {events : List SessionEvent} (hc : Agent.ofConfig config = .ok agent)
    (he : ∀ event ∈ events, event.drivesTimer = false) :
    let first := start neighbors routes (.agent agent)
    let s := first.run events
    ∃ a, s.core = .agent a ∧
      s.host.timer.armed = a.isRunning ∧
      (a.isRunning = true → s.host.timer.period = some config.interval.duration) ∧
      s.host.timer.rearms = (first.history [] events).intervals ∧
      a.engine.clock.ticks = UInt64.ofNat s.host.timer.rearms ∧
      (∃ a', (s.step (.agent .stop)).2.core = .agent a' ∧ a'.isRunning = false ∧
        a'.engine.steering.suppressed = a.engine.steering.suppressed ∧
        a'.engine.steering.holdDown = a.engine.steering.holdDown) ∧
      (a.isRunning = false →
        a.isActive = false ∧
        (∀ route ∈ s.host.routes.routes, route ∈ first.keptRoutes routes.routes events) ∧
        ∀ later, .agent .start ∉ later →
          ∃ a', (s.run later).Dormant a' ∧ a'.isRunning = false ∧
            a'.engine.steering = a.engine.steering) := by
  intro first s
  have hfirst : first.Driven config.interval routes.routes [] :=
    ⟨agent, rfl, .start hc, fun _ hmem => List.mem_append_left _ hmem⟩
  obtain ⟨a, hcore, hdrives, hroutes⟩ := driven_run hfirst he
  refine ⟨a, hcore, hdrives.armed_eq, hdrives.period_eq, hdrives.rearms_eq,
    hdrives.ticks_eq.trans (congrArg _ hdrives.rearms_eq.symm), stop_of_core hcore, fun hr => ?_⟩
  have hd := hdrives.detour_eq hr
  refine ⟨?_, fun route hmem => ?_, fun later hlater => ?_⟩
  · rw [Agent.isActive, Steering.isActive, hd]
    rfl
  · have hattributed := hroutes route hmem
    rwa [Steering.ownRoutes, hd, Option.map_none, Option.toList_none, List.append_nil] at hattributed
  · have hstopped : s.Stopped a.engine.steering := ⟨hd, a, hcore, hr, rfl⟩
    obtain ⟨-, a', hcore', hr', hsteering⟩ := stopped_run hstopped hlater
    exact ⟨a', dormant_of_stopped hcore' hr' (by rw [hsteering, hd]), hr', hsteering⟩

/-- The detour was withdrawn because the parent recovered, and two intervals of suppression are left at
the stop. Late ticks and signals do not shorten them. -/
theorem shutdown_lasts_suppressed :
    let hop (n : UInt16) : Address := ⟨#v[0xfe80, 0, 0, 0, 0, 0, 0, n]⟩
    let config : Config := { Config.standard with hysteresis := ⟨1, 3⟩ }
    let agent : Agent := ⟨config, .ofConfig config, .zero, none⟩
    let first : Session NeighborTable := start (.empty 4) (.empty 2) (.agent agent)
    let events : List SessionEvent :=
      [.host (.insertNeighbor (hop 1) true), .host (.insertNeighbor (hop 2) true),
        .host (.setPreferredParent (some ⟨0, 0⟩)), .host (.addRoute (hop 7) ⟨2⟩), .agent .start,
        .agent (.signal (hop 1)), .agent .tick, .agent .tick, .agent .tick, .agent .stop]
    let later : List SessionEvent :=
      [.agent .tick, .agent (.signal (hop 1)), .agent (.forget ⟨1, 0⟩), .agent .tick, .agent .stop]
    let s := first.run events
    Agent.ofConfig config = .ok agent ∧ (∀ event ∈ events, event.drivesTimer = false) ∧
      .agent .start ∉ later ∧ s.host.timer = ⟨some config.interval.duration, false, 3⟩ ∧
      s.host.routes.routes = [⟨hop 7, ⟨2⟩⟩] ∧
      ∃ a, (s.run later).Dormant a ∧ a.engine.steering.suppressed = true ∧
        a.engine.steering.holdDown = 2 := by
  intro hop config agent first events later s
  have hc : Agent.ofConfig config = .ok agent := by
    dsimp only [config, agent]
    rfl
  have he : ∀ event ∈ events, event.drivesTimer = false := by decide
  have hlater : .agent .start ∉ later := by decide
  have htimer : s.host.timer = ⟨some config.interval.duration, false, 3⟩ := by decide
  have hheld : s.agent?.map (fun a =>
      (a.isRunning, a.engine.steering.suppressed, a.engine.steering.holdDown)) =
      some (false, true, 2) := by decide
  refine ⟨hc, he, hlater, htimer, by decide, ?_⟩
  obtain ⟨a, hcore, -, -, -, -, -, hstopped⟩ :=
    shutdown_lasts (.empty 4 : NeighborTable) (.empty 2) hc he
  dsimp only [s, first] at hheld ⊢
  rw [agent?_eq_some_iff.2 hcore] at hheld
  obtain ⟨hr, hheld⟩ := Prod.mk.inj (Option.some.inj hheld)
  obtain ⟨hsuppressed, hleft⟩ := Prod.mk.inj hheld
  obtain ⟨-, -, hlasts⟩ := hstopped hr
  obtain ⟨a', hdormant, -, hsteering⟩ := hlasts later hlater
  exact ⟨a', hdormant, by rw [hsteering, hsuppressed], by rw [hsteering, hleft]⟩

end Session

end CongestionRouting
