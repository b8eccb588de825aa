import CongestionRouting.Proofs.Node.Failures

namespace CongestionRouting

def AgentEvent.isTraffic : AgentEvent → Bool
  | .count _ | .makeReport | .receiveReport _ _ => true
  | _ => false

def NodeEvent.isTraffic {ν ρ α τ : Type} : NodeEvent ν ρ α τ → Bool
  | .agent event => event.isTraffic
  | .host _ => false

structure TickReport.SteersAlike (report report' : TickReport) : Prop where
  tick_eq : report'.tick = report.tick
  elapsed_eq : report'.elapsed = report.elapsed
  outcome_eq : report'.outcome = report.outcome

inductive Answer.SteersAlike : Answer → Answer → Prop where
  | same (answer : Answer) : SteersAlike answer answer
  | report {report report' : TickReport} (h : report.SteersAlike report') :
    SteersAlike (.report (some report)) (.report (some report'))

/-- The same of all that an agent needs to know for its detour. -/
structure Agent.SteersAlike (a a' : Agent) : Prop where
  steering_eq : a'.engine.steering = a.engine.steering
  clock_eq : a'.engine.clock = a.engine.clock
  random_eq : a'.engine.random = a.engine.random

variable {ν ρ α β τ : Type}

structure Node.SteersAlike (s : Node ν ρ α τ) (s' : Node ν ρ β τ) : Prop where
  agent : s.agent.SteersAlike s'.agent
  host : s.host.Agrees s'.host

theorem Node.SteersAlike.symm {s : Node ν ρ α τ} {s' : Node ν ρ β τ} (hs : s.SteersAlike s') :
    s'.SteersAlike s :=
  ⟨⟨hs.agent.steering_eq.symm, hs.agent.clock_eq.symm, hs.agent.random_eq.symm⟩,
    ⟨hs.host.neighbors_eq.symm, hs.host.routes_eq.symm, hs.host.timer_eq.symm⟩⟩

def Node.EntrySteersAlike (entry : Option Answer × Node ν ρ α τ)
    (entry' : Option Answer × Node ν ρ β τ) : Prop :=
  Option.Rel Answer.SteersAlike entry.1 entry'.1 ∧ entry.2.SteersAlike entry'.2

namespace Agent

variable [Neighborhood ν] [RouteStore ρ] [Advertiser α] [IntervalTimer τ] {a a' : Agent}
  {host : Host ν ρ α τ} {host' : Host ν ρ β τ} {event : AgentEvent}

theorem steersAlike_of_configs {config config' : Config} (hc : ofConfig config = .ok a)
    (hc' : ofConfig config' = .ok a') (hpolicy : config'.policy = config.policy)
    (hpriority : config'.priority = config.priority)
    (hhysteresis : config'.hysteresis = config.hysteresis)
    (hinterval : config'.interval = config.interval) (hseed : config'.seed = config.seed) :
    a.SteersAlike a' := by
  rw [ofConfig_eq_ok hc, ofConfig_eq_ok hc']
  refine ⟨?_, ?_, ?_⟩
  · simp only [Engine.ofConfig, hpolicy, hpriority, hhysteresis]
  · simp only [Engine.ofConfig, hinterval]
  · simp only [Engine.ofConfig, hseed]

/-- Traffic is counted, and that is all. -/
theorem step_of_traffic (he : event.isTraffic = true) :
    a.SteersAlike (a.step host event).2.1 ∧ (a.step host event).2.2 = host := by
  cases event with
  | receiveReport message offset =>
    simp only [step, receiveReport]
    split <;> exact ⟨⟨rfl, rfl, rfl⟩, trivial⟩
  | count _ | makeReport => exact ⟨⟨rfl, rfl, rfl⟩, rfl⟩
  | start | stop | tick | signal _ | forget _ | reseed _ => cases he

variable [Advertiser β]

/-- The detour is reviewed before anything is made of the verdict. -/
theorem tick_steersAlike (ha : a.SteersAlike a') (hhost : host.Agrees host') :
    (Answer.report (a.tick host).1).SteersAlike (.report (a'.tick host').1) ∧
      (a.tick host).2.1.SteersAlike (a'.tick host').2.1 ∧
      (a.tick host).2.2.Agrees (a'.tick host').2.2 := by
  have hrunning : a'.isRunning = a.isRunning := by rw [isRunning, ha.clock_eq, isRunning]
  cases hr : a.isRunning with
  | false =>
    rw [tick_of_stopped hr, tick_of_stopped (hrunning.trans hr)]
    exact ⟨.same _, ha, hhost⟩
  | true =>
    obtain ⟨report, hreport, hticked⟩ := tick_of_running host hr
    obtain ⟨report', hreport', hticked'⟩ := tick_of_running host' (hrunning.trans hr)
    obtain ⟨-, hnumber, helapsed, htimer⟩ := clock_of_tick hreport
    obtain ⟨-, hnumber', helapsed', htimer'⟩ := clock_of_tick hreport'
    -- The review is that of the record, the table and the routes, which are the same.
    have hreview : a'.engine.steering.endInterval host'.neighbors host'.routes =
        a.engine.steering.endInterval host.neighbors host.routes := by
      rw [ha.steering_eq, hhost.neighbors_eq, hhost.routes_eq]
    rw [hreport, hreport']
    refine ⟨.report ⟨?_, ?_, ?_⟩, ⟨?_, ?_, ?_⟩, ⟨?_, ?_, ?_⟩⟩
    · rw [hnumber', hnumber, ha.clock_eq]
    · rw [helapsed', helapsed, ha.clock_eq]
    · rw [hticked'.outcome_eq, hticked.outcome_eq, hreview]
    · rw [hticked'.engine_eq, hticked.engine_eq, hreview]
    · rw [hticked'.engine_eq, hticked.engine_eq, ha.clock_eq]
    · rw [hticked'.engine_eq, hticked.engine_eq, ha.random_eq]
    · rw [hticked'.neighbors_eq, hticked.neighbors_eq, hhost.neighbors_eq]
    · rw [hticked'.routes_eq, hticked.routes_eq, hreview]
    · rw [htimer', htimer, hhost.timer_eq]

theorem step_steersAlike (ha : a.SteersAlike a') (hhost : host.Agrees host')
    (he : event.isTraffic = false) :
    (a.step host event).1.SteersAlike (a'.step host' event).1 ∧
      (a.step host event).2.1.SteersAlike (a'.step host' event).2.1 ∧
      (a.step host event).2.2.Agrees (a'.step host' event).2.2 := by
  have htick := tick_steersAlike ha hhost
  obtain ⟨config, ⟨counters, rule, pacer, steering, clock, random⟩, tally, lastVerdict⟩ := a'
  obtain ⟨rfl, rfl, rfl⟩ := ha
  obtain ⟨neighbors, routes, advertiser, timer⟩ := host'
  obtain ⟨rfl, rfl, rfl⟩ := hhost
  cases event with
  | tick => exact htick
  | signal sender =>
    simp only [step, receiveSignal]
    rcases recordSignal sender host.neighbors with ⟨source, table⟩
    cases source with
    | unknown | neighbor _ => exact ⟨.same _, ⟨rfl, rfl, rfl⟩, ⟨rfl, rfl, rfl⟩⟩
    | preferredParent _ =>
      cases hr : a.engine.clock.running with
      | false =>
        simp only [isRunning, hr, Bool.not_false, if_true]
        exact ⟨.same _, ⟨rfl, rfl, rfl⟩, ⟨rfl, rfl, rfl⟩⟩
      | true =>
        simp only [isRunning, hr, Bool.not_true, Bool.false_eq_true, if_false]
        exact ⟨.same _, ⟨rfl, rfl, rfl⟩, ⟨rfl, rfl, rfl⟩⟩
  | count _ | makeReport | receiveReport _ _ => cases he
  | start | stop | reseed _ | forget _ => exact ⟨.same _, ⟨rfl, rfl, rfl⟩, ⟨rfl, rfl, rfl⟩⟩

end Agent

namespace Node

variable [Neighborhood ν] [RouteStore ρ] [Advertiser α] [Advertiser β] [IntervalTimer τ]
  {s : Node ν ρ α τ} {s' : Node ν ρ β τ}

/-- The answers to all events but traffic, each with the node after it. -/
def course (s : Node ν ρ α τ) : List (NodeEvent ν ρ α τ) → List (Option Answer × Node ν ρ α τ)
  | [] => []
  | event :: events =>
    let (answer, next) := s.step event
    if event.isTraffic then next.course events else (answer, next) :: next.course events

theorem course_append (s : Node ν ρ α τ) (events later : List (NodeEvent ν ρ α τ)) :
    s.course (events ++ later) = s.course events ++ (s.run events).course later := by
  induction events generalizing s with
  | nil => rfl
  | cons event events ih =>
    simp only [List.cons_append, course, ih]
    cases event.isTraffic <;> rfl

omit [Advertiser β] in
/-- Traffic takes a node nowhere. -/
theorem SteersAlike.traffic_left (hs : s.SteersAlike s') {event : NodeEvent ν ρ α τ}
    (he : event.isTraffic = true) : (s.step event).2.SteersAlike s' := by
  cases event with
  | host change => exact absurd he nofun
  | agent event =>
    obtain ⟨hagent, hhost⟩ : s.agent.SteersAlike (s.agent.step s.host event).2.1 ∧
        (s.step (.agent event)).2.host = s.host := Agent.step_of_traffic he
    refine ⟨⟨?_, ?_, ?_⟩, by rw [hhost]; exact hs.host⟩
    · exact hs.agent.steering_eq.trans hagent.steering_eq.symm
    · exact hs.agent.clock_eq.trans hagent.clock_eq.symm
    · exact hs.agent.random_eq.trans hagent.random_eq.symm

omit [Advertiser α] in
theorem SteersAlike.traffic_run (hs : s.SteersAlike s') {events : List (NodeEvent ν ρ β τ)}
    (he : ∀ event ∈ events, event.isTraffic = true) :
    s.SteersAlike (s'.run events) ∧ s'.course events = [] := by
  induction events generalizing s' with
  | nil => exact ⟨hs, rfl⟩
  | cons event events ih =>
    have hevent := he event List.mem_cons_self
    obtain ⟨hrun, hcourse⟩ := ih (hs.symm.traffic_left hevent).symm fun e hmem =>
      he e (List.mem_cons_of_mem _ hmem)
    refine ⟨hrun, ?_⟩
    simp only [course, hevent, if_true]
    exact hcourse

theorem step_steersAlike (hs : s.SteersAlike s') {event : NodeEvent ν ρ α τ}
    {event' : NodeEvent ν ρ β τ} (he : event.Agrees event') (hn : event.isTraffic = false) :
    EntrySteersAlike (s.step event) (s'.step event') := by
  cases he with
  | agent event =>
    obtain ⟨hanswer, hagent, hhost⟩ := Agent.step_steersAlike hs.agent hs.host hn
    exact ⟨.some hanswer, hagent, hhost⟩
  | host h => exact ⟨.none, hs.agent, h _ _ hs.host⟩

theorem course_steersAlike (hs : s.SteersAlike s') {events : List (NodeEvent ν ρ α τ)}
    {events' : List (NodeEvent ν ρ β τ)}
    (he : List.Forall₂ NodeEvent.Agrees (events.filter fun event => !event.isTraffic)
      (events'.filter fun event => !event.isTraffic)) :
    List.Forall₂ EntrySteersAlike (s.course events) (s'.course events') := by
  induction events generalizing s s' events' with
  | nil =>
    -- What is left of the other run is traffic.
    have htraffic : ∀ event ∈ events', event.isTraffic = true := by
      rw [List.filter_nil, List.forall₂_nil_left_iff, List.filter_eq_nil_iff] at he
      simpa using he
    rw [(hs.traffic_run htraffic).2]
    exact .nil
  | cons event events ih =>
    cases ht : event.isTraffic with
    | true =>
      rw [List.filter_cons_of_neg (by simp [ht])] at he
      simp only [course, ht, if_true]
      exact ih (hs.traffic_left ht) he
    | false =>
      -- The other run comes to the same event behind some traffic of its own.
      rw [List.filter_cons_of_pos (by simp [ht]), List.forall₂_cons_left_iff] at he
      obtain ⟨event', later, hagrees, hlater, hfilter⟩ := he
      obtain ⟨traffic, rest, rfl, htraffic, hn, rfl⟩ := List.filter_eq_cons_iff.1 hfilter
      have htraffic : ∀ event ∈ traffic, event.isTraffic = true := by simpa using htraffic
      have hn : event'.isTraffic = false := by simpa using hn
      obtain ⟨hrun, hnone⟩ := hs.traffic_run htraffic
      have hstep := step_steersAlike hrun hagrees ht
      rw [course_append, hnone, List.nil_append]
      simp only [course, ht, hn, Bool.false_eq_true, if_false]
      exact .cons hstep (ih hstep.2 hlater)

/-- Two agents with one policy, priority, hysteresis, interval and seed, on hosts that differ at most in
their advertisers, and told the same but for their traffic: they answer the same signals with the same
activations, end each interval with the same outcome, and their detours, random sources, neighbors and
routes are the same after each event that both are told of. -/
theorem traffic_steers_nothing {config config' : Config} {agent agent' : Agent}
    {host : Host ν ρ α τ} {host' : Host ν ρ β τ} (hc : Agent.ofConfig config = .ok agent)
    (hc' : Agent.ofConfig config' = .ok agent') (hpolicy : config'.policy = config.policy)
    (hpriority : config'.priority = config.priority)
    (hhysteresis : config'.hysteresis = config.hysteresis)
    (hinterval : config'.interval = config.interval) (hseed : config'.seed = config.seed)
    (hhost : host.Agrees host') {events : List (NodeEvent ν ρ α τ)} {events' : List (NodeEvent ν ρ β τ)}
    (he : List.Forall₂ NodeEvent.Agrees (events.filter fun event => !event.isTraffic)
      (events'.filter fun event => !event.isTraffic)) :
    List.Forall₂ EntrySteersAlike (course ⟨agent, host⟩ events) (course ⟨agent', host'⟩ events') :=
  course_steersAlike
    ⟨Agent.steersAlike_of_configs hc hc' hpolicy hpriority hhysteresis hinterval hseed, hhost⟩ he

/-- One node counts packets that it misses, and notifies. The other one has no traffic, other thresholds
and another pace, and does not. -/
theorem traffic_steers_nothing_counted :
    let hop (n : UInt16) : Address := ⟨#v[0xfe80, 0, 0, 0, 0, 0, 0, n]⟩
    let config : Config :=
      { Config.standard with
        composition := .selfOnly, pacing := ⟨.ofSeconds 64, .ofSeconds 128⟩, optionType := ⟨0x0b⟩ }
    let agent : Agent := ⟨.standard, .ofConfig .standard, .zero, none⟩
    let agent' : Agent := ⟨config, .ofConfig config, .zero, none⟩
    let host : SessionHost NeighborTable := ⟨.empty 4, .empty 2, .lowered, .idle⟩
    let s : Node NeighborTable RouteList UnreliableFlag CountingTimer := ⟨agent, host⟩
    let s' : Node NeighborTable RouteList UnreliableFlag CountingTimer := ⟨agent', host⟩
    let setup : List (NodeEvent NeighborTable RouteList UnreliableFlag CountingTimer) :=
      [.ofHost (.insertNeighbor (hop 1) true), .ofHost (.insertNeighbor (hop 2) true),
        .ofHost (.setPreferredParent (some ⟨0, 0⟩)), .agent .start, .agent (.signal (hop 1))]
    let traffic : List (NodeEvent NeighborTable RouteList UnreliableFlag CountingTimer) :=
      [.agent (.receiveReport [0x0a, 2, 0, 10] 0), .agent (.count (.received 1)), .agent .makeReport]
    let events := setup ++ traffic ++ [.agent .tick, .agent .tick]
    let events' := setup ++ [.agent .tick, .agent .tick]
    Agent.ofConfig .standard = .ok agent ∧ Agent.ofConfig config = .ok agent' ∧ host.Agrees host ∧
      List.Forall₂ NodeEvent.Agrees (events.filter fun event => !event.isTraffic)
        (events'.filter fun event => !event.isTraffic) ∧
      (s.run events).agent.tally.notifications = 1 ∧
      (s'.run events').agent.tally.notifications = 0 ∧
      (s.run events).agent.tally.deactivations = 1 ∧
      List.Forall₂ EntrySteersAlike (s.course events) (s'.course events') := by
  intro hop config agent agent' host s s' setup traffic events events'
  have hc : Agent.ofConfig .standard = .ok agent := rfl
  have hc' : Agent.ofConfig config = .ok agent' := by
    dsimp only [config, agent']
    rfl
  have hhost : host.Agrees host := ⟨rfl, rfl, rfl⟩
  have he : List.Forall₂ NodeEvent.Agrees (events.filter fun event => !event.isTraffic)
      (events'.filter fun event => !event.isTraffic) :=
    .cons (NodeEvent.ofHost_agrees _) (.cons (NodeEvent.ofHost_agrees _)
      (.cons (NodeEvent.ofHost_agrees _) (.cons (.agent _) (.cons (.agent _) (.cons (.agent _)
        (.cons (.agent _) .nil))))))
  exact ⟨hc, hc', hhost, he, by decide, by decide, by decide,
    traffic_steers_nothing hc hc' rfl rfl rfl rfl rfl hhost he⟩

end Node

end CongestionRouting
