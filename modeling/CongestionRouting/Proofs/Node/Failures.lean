import CongestionRouting.Proofs.Neighbor.Backing
import CongestionRouting.Proofs.Node.Notifications

namespace CongestionRouting

/-- An advertiser and the answers it gave, the last at the end. -/
structure AdvertiserLog (α : Type) where
  advertiser : α
  answers : List (Except AdvertiserError Unit)

instance {α : Type} [Advertiser α] : Advertiser (AdvertiserLog α) where
  schedule log :=
    let (answer, advertiser) := Advertiser.schedule log.advertiser
    (answer, ⟨advertiser, log.answers ++ [answer]⟩)

theorem AdvertiserLog.answers_schedule {α : Type} [Advertiser α] (log : AdvertiserLog α) :
    (Advertiser.schedule log).2.answers = log.answers ++ [(Advertiser.schedule log).1] := rfl

namespace TickReport

/-- The report of an interval in which the advertiser gave that answer, or was not asked. -/
def Tells (report : TickReport) : Option (Except AdvertiserError Unit) → Prop
  | none => report.notified = false ∧ report.errors = []
  | some (.ok ()) => report.notified = true ∧ report.errors = []
  | some (.error cause) => report.notified = false ∧ report.errors = [⟨cause⟩]

/-- The same report, but for what became of the notification. -/
structure Agrees (report report' : TickReport) : Prop where
  tick_eq : report'.tick = report.tick
  elapsed_eq : report'.elapsed = report.elapsed
  verdict_eq : report'.verdict = report.verdict
  outcome_eq : report'.outcome = report.outcome
  asks_eq : report'.asks = report.asks

end TickReport

inductive Answer.Agrees : Answer → Answer → Prop where
  | same (answer : Answer) : Agrees answer answer
  | report {report report' : TickReport} (h : report.Agrees report') :
    Agrees (.report (some report)) (.report (some report'))

structure Agent.Agrees (a a' : Agent) : Prop where
  config_eq : a'.config = a.config
  engine_eq : a'.engine = a.engine
  tally_eq : a'.tally = { a.tally with
    notifications := a'.tally.notifications
    notificationFailures := a'.tally.notificationFailures }
  lastVerdict_eq : a'.lastVerdict = a.lastVerdict

variable {ν ρ α β τ : Type}

structure Host.Agrees (host : Host ν ρ α τ) (host' : Host ν ρ β τ) : Prop where
  neighbors_eq : host'.neighbors = host.neighbors
  routes_eq : host'.routes = host.routes
  timer_eq : host'.timer = host.timer

structure Node.Agrees (s : Node ν ρ α τ) (s' : Node ν ρ β τ) : Prop where
  agent : s.agent.Agrees s'.agent
  host : s.host.Agrees s'.host

/-- The same answer and the same node after it, but for what became of notifications. -/
def Node.EntryAgrees (entry : Option Answer × Node ν ρ α τ) (entry' : Option Answer × Node ν ρ β τ) :
    Prop :=
  Option.Rel Answer.Agrees entry.1 entry'.1 ∧ entry.2.Agrees entry'.2

/-- The agent is told the same; the host changes the same, but for its advertiser. -/
inductive NodeEvent.Agrees : NodeEvent ν ρ α τ → NodeEvent ν ρ β τ → Prop where
  | agent (event : AgentEvent) : Agrees (.agent event) (.agent event)
  | host {change : Host ν ρ α τ → Host ν ρ α τ} {change' : Host ν ρ β τ → Host ν ρ β τ}
    (h : ∀ host host', host.Agrees host' → (change host).Agrees (change' host')) :
    Agrees (.host change) (.host change')

namespace Agent

theorem Agrees.refl (a : Agent) : a.Agrees a := ⟨rfl, rfl, rfl, rfl⟩

theorem Agrees.eq_recount {a a' : Agent} (h : a.Agrees a') : ∃ sent failed, a' =
    { a with tally := { a.tally with notifications := sent, notificationFailures := failed } } := by
  obtain ⟨hconfig, hengine, htally, hverdict⟩ := h
  refine ⟨a'.tally.notifications, a'.tally.notificationFailures, ?_⟩
  rw [← htally, ← hconfig, ← hengine, ← hverdict]

variable [Neighborhood ν] [RouteStore ρ] [Advertiser α] [Advertiser β] [IntervalTimer τ]
  {a a' : Agent} {host : Host ν ρ α τ} {host' : Host ν ρ β τ}

/-- Whether the advertiser is asked, and how the pacer goes on, does not depend on the advertiser. -/
theorem report_agrees (ha : a.Agrees a') (hhost : host.Agrees host') {report report' : TickReport}
    (ht : (a.tick host).1 = some report) (ht' : (a'.tick host').1 = some report') :
    report.Agrees report' ∧
      (a'.tick host').2.1.engine.pacer = (a.tick host).2.1.engine.pacer := by
  have hticked := ticked_of_report ht
  have hticked' := ticked_of_report ht'
  obtain ⟨-, htick, helapsed, -⟩ := clock_of_tick ht
  obtain ⟨-, htick', helapsed', -⟩ := clock_of_tick ht'
  have hasks := (hticked.asks_eq helapsed).1
  have hasks' := (hticked'.asks_eq helapsed').1
  rw [ha.engine_eq] at htick' helapsed' hasks'
  have hsame : report'.elapsed = report.elapsed := helapsed'.trans helapsed.symm
  have hverdict : report'.verdict = report.verdict := by
    rw [hticked'.verdict_eq, hticked.verdict_eq, ha.engine_eq, hhost.neighbors_eq]
  have hpoll : report'.poll = report.poll := by rw [TickReport.poll, hsame, hverdict, TickReport.poll]
  rw [hpoll, ← hasks, Prod.mk.injEq] at hasks'
  refine ⟨⟨htick'.trans htick.symm, hsame, hverdict, ?_, hasks'.1⟩, hasks'.2⟩
  rw [hticked'.outcome_eq, hticked.outcome_eq, ha.engine_eq, hhost.neighbors_eq, hhost.routes_eq]

/-- An interval ends for both or for none, and what does not concern the notification ends alike. -/
theorem tick_agrees (ha : a.Agrees a') (hhost : host.Agrees host') :
    (Answer.report (a.tick host).1).Agrees (.report (a'.tick host').1) ∧
      (a.tick host).2.1.Agrees (a'.tick host').2.1 ∧ (a.tick host).2.2.Agrees (a'.tick host').2.2 := by
  have hrunning : a'.isRunning = a.isRunning := by rw [isRunning, ha.engine_eq, isRunning]
  cases hr : a.isRunning with
  | false =>
    rw [tick_of_stopped hr, tick_of_stopped (hrunning.trans hr)]
    exact ⟨.same _, ha, hhost⟩
  | true =>
    obtain ⟨report, hreport, hticked⟩ := tick_of_running host hr
    obtain ⟨report', hreport', hticked'⟩ := tick_of_running host' (hrunning.trans hr)
    rw [hreport, hreport']
    obtain ⟨hagrees, hpacer⟩ := report_agrees ha hhost hreport hreport'
    refine ⟨.report hagrees, ⟨?_, ?_, ?_, ?_⟩, ⟨?_, ?_, ?_⟩⟩
    · rw [hticked'.config_eq, hticked.config_eq, ha.config_eq]
    · rw [hticked'.engine_eq, hticked.engine_eq, hpacer, ha.engine_eq, hhost.neighbors_eq,
        hhost.routes_eq]
    · rw [hticked'.tally_eq, hticked.tally_eq, ha.tally_eq]
      simp only [Tally.addTick, hagrees.outcome_eq]
    · rw [lastVerdict_of_tick hreport', lastVerdict_of_tick hreport, hagrees.verdict_eq]
    · rw [hticked'.neighbors_eq, hticked.neighbors_eq, hhost.neighbors_eq]
    · rw [hticked'.routes_eq, hticked.routes_eq, ha.engine_eq, hhost.neighbors_eq, hhost.routes_eq]
    · rw [(clock_of_tick hreport').2.2.2, (clock_of_tick hreport).2.2.2, hhost.timer_eq]

theorem step_agrees (ha : a.Agrees a') (hhost : host.Agrees host') (event : AgentEvent) :
    (a.step host event).1.Agrees (a'.step host' event).1 ∧
      (a.step host event).2.1.Agrees (a'.step host' event).2.1 ∧
      (a.step host event).2.2.Agrees (a'.step host' event).2.2 := by
  have htick := tick_agrees ha hhost
  obtain ⟨sent, failed, rfl⟩ := ha.eq_recount
  obtain ⟨neighbors, routes, advertiser, timer⟩ := host'
  obtain ⟨rfl, rfl, rfl⟩ := hhost
  cases event with
  | tick => exact htick
  | signal sender =>
    simp only [step, receiveSignal]
    rcases recordSignal sender host.neighbors with ⟨source, table⟩
    cases source with
    | unknown | neighbor _ => exact ⟨.same _, ⟨rfl, rfl, rfl, rfl⟩, ⟨rfl, rfl, rfl⟩⟩
    | preferredParent _ =>
      cases hr : a.engine.clock.running with
      | false =>
        simp only [isRunning, hr, Bool.not_false, if_true]
        exact ⟨.same _, ⟨rfl, rfl, rfl, rfl⟩, ⟨rfl, rfl, rfl⟩⟩
      | true =>
        simp only [isRunning, hr, Bool.not_true, Bool.false_eq_true, if_false]
        refine ⟨.same _, ⟨rfl, rfl, ?_, rfl⟩, ⟨rfl, rfl, rfl⟩⟩
        simp only [Engine.request, isActive, Tally.addActivation]
        split <;> rfl
  | receiveReport message offset =>
    simp only [step, receiveReport]
    split <;> exact ⟨.same _, ⟨rfl, rfl, rfl, rfl⟩, ⟨rfl, rfl, rfl⟩⟩
  | start | stop | count _ | reseed _ | forget _ | makeReport =>
    exact ⟨.same _, ⟨rfl, rfl, rfl, rfl⟩, ⟨rfl, rfl, rfl⟩⟩

theorem tells_of_tick {host : Host ν ρ (AdvertiserLog α) τ} {report : TickReport}
    (ht : (a.tick host).1 = some report) :
    ∃ call, (a.tick host).2.2.advertiser.answers = host.advertiser.answers ++ Option.toList call ∧
      report.Tells call := by
  rcases (ticked_of_report ht).call_cases.2 with ⟨-, hsame, hnotified, herrors⟩ |
    ⟨-, hschedule, hnotified, herrors⟩ | ⟨cause, -, hschedule, hnotified, herrors⟩
  · refine ⟨none, ?_, hnotified, herrors⟩
    rw [hsame, Option.toList_none, List.append_nil]
  · have hanswers := host.advertiser.answers_schedule
    rw [hschedule] at hanswers
    exact ⟨some (.ok ()), hanswers, hnotified, herrors⟩
  · have hanswers := host.advertiser.answers_schedule
    rw [hschedule] at hanswers
    exact ⟨some (.error cause), hanswers, hnotified, herrors⟩

end Agent

/-- An interval begins: nothing received or expected yet, no flag set, and the timer armed again, once.
All else that is known of the neighbors stays, and so does what was sent and not yet reported. -/
structure Agent.Renews (a a' : Agent) (host host' : Host NeighborTable ρ α τ) [IntervalTimer τ] : Prop where
  counters_eq : a'.engine.counters = { a.engine.counters with received := 0, expected := 0 }
  get?_eq : ∀ h, host'.neighbors.get? h =
    (host.neighbors.get? h).map fun entry => { entry with congested := false }
  handles_eq : host'.neighbors.handles = host.neighbors.handles
  preferredParent_eq : host'.neighbors.preferredParent = host.neighbors.preferredParent
  timer_eq : host'.timer = IntervalTimer.rearm host.timer

theorem Agent.renews_of_tick [RouteStore ρ] [Advertiser α] [IntervalTimer τ] {a : Agent}
    {host : Host NeighborTable ρ α τ} {report : TickReport} (ht : (a.tick host).1 = some report) :
    a.Renews (a.tick host).2.1 host (a.tick host).2.2 := by
  have hticked := ticked_of_report ht
  have hneighbors : (a.tick host).2.2.neighbors = host.neighbors.clearFlags := hticked.neighbors_eq
  refine ⟨?_, fun h => ?_, ?_, ?_, (clock_of_tick ht).2.2.2⟩
  · rw [hticked.engine_eq, PacketCounters.restart]
  · rw [hneighbors, NeighborTable.get?_clearFlags]
  · rw [hneighbors, (NeighborTable.Retouches.clearFlags _).handles_eq]
  · rw [hneighbors, NeighborTable.clearFlags]

theorem Host.Agrees.step [TableHolder ν] {host host' : SessionHost ν} (h : host.Agrees host')
    (event : HostEvent) : (host.step event).2.Agrees (host'.step event).2 := by
  obtain ⟨neighbors, routes, advertiser, timer⟩ := host
  obtain ⟨neighbors', routes', advertiser', timer'⟩ := host'
  obtain ⟨rfl, rfl, rfl⟩ := h
  cases event with
  | insertNeighbor _ _ | setRoutingParent _ _ | setPreferredParent _ | addRoute _ _ =>
    simp only [Host.step]
    split <;> exact ⟨rfl, rfl, rfl⟩
  | raiseFlag =>
    simp only [Host.step]
    split <;> split <;> exact ⟨rfl, rfl, rfl⟩
  | _ => exact ⟨rfl, rfl, rfl⟩

theorem NodeEvent.ofHost_agrees [TableHolder ν] (event : HostEvent) :
    (ofHost (ν := ν) event).Agrees (ofHost event) :=
  .host fun _ _ h => h.step event

namespace Node

variable [Neighborhood ν] [RouteStore ρ] [Advertiser α] [Advertiser β] [IntervalTimer τ]
  {s : Node ν ρ α τ} {s' : Node ν ρ β τ}

theorem step_agrees (hs : s.Agrees s') {event : NodeEvent ν ρ α τ} {event' : NodeEvent ν ρ β τ}
    (he : event.Agrees event') :
    Option.Rel Answer.Agrees (s.step event).1 (s'.step event').1 ∧
      (s.step event).2.Agrees (s'.step event').2 := by
  cases he with
  | agent event =>
    obtain ⟨hanswer, hagent, hhost⟩ := Agent.step_agrees hs.agent hs.host event
    exact ⟨.some hanswer, hagent, hhost⟩
  | host h => exact ⟨.none, hs.agent, h _ _ hs.host⟩

theorem trace_agrees (hs : s.Agrees s') {events : List (NodeEvent ν ρ α τ)}
    {events' : List (NodeEvent ν ρ β τ)} (he : List.Forall₂ NodeEvent.Agrees events events') :
    List.Forall₂ EntryAgrees (s.trace events) (s'.trace events') := by
  induction he generalizing s s' with
  | nil => exact .nil
  | cons hevent _ ih =>
    have hstep := step_agrees hs hevent
    exact .cons hstep (ih hstep.2)

/-- Two runs of an agent on hosts that differ in their advertisers, whatever these answer, go the same
way in all that does not count notifications. Each interval calls the advertiser once or not at all, as its
report tells; and however the call ended, the next interval begins in the same way. -/
theorem failures_disturb_nothing_else (agent : Agent) {host : Host ν ρ α τ} {host' : Host ν ρ β τ}
    (hhost : host.Agrees host') {events : List (NodeEvent ν ρ α τ)} {events' : List (NodeEvent ν ρ β τ)}
    (he : List.Forall₂ NodeEvent.Agrees events events') :
    List.Forall₂ EntryAgrees (trace ⟨agent, host⟩ events) (trace ⟨agent, host'⟩ events') ∧
    ∀ (a : Agent) (host : Host NeighborTable ρ (AdvertiserLog α) τ) (report : TickReport),
      (a.tick host).1 = some report →
      let a' := (a.tick host).2.1
      let host' := (a.tick host).2.2
      (∃! call : Option (Except AdvertiserError Unit),
        host'.advertiser.answers = host.advertiser.answers ++ call.toList ∧ report.Tells call) ∧
      a.Renews a' host host' := by
  refine ⟨trace_agrees ⟨.refl agent, hhost⟩ he, fun a host report ht => ⟨?_, Agent.renews_of_tick ht⟩⟩
  obtain ⟨call, hanswers, htells⟩ := Agent.tells_of_tick ht
  refine ⟨call, ⟨hanswers, htells⟩, fun other hother => ?_⟩
  have hlist := List.append_cancel_left (hother.1.symm.trans hanswers)
  have hhead := congrArg List.head? hlist
  rwa [Option.head?_toList, Option.head?_toList] at hhead

/-- The same run with an advertiser in order and with one that fails, and a tick with a log. -/
theorem failures_disturb_nothing_else_down :
    let hop (n : UInt16) : Address := ⟨#v[0xfe80, 0, 0, 0, 0, 0, 0, n]⟩
    let agent : Agent := ⟨.standard, .ofConfig .standard, .zero, none⟩
    let host : SessionHost NeighborTable := ⟨.empty 4, .empty 2, .lowered, .idle⟩
    let down : SessionHost NeighborTable := { host with advertiser := ⟨.lowered, some "down"⟩ }
    let events : List (NodeEvent NeighborTable RouteList UnreliableFlag CountingTimer) :=
      [.ofHost (.insertNeighbor (hop 1) true), .ofHost (.insertNeighbor (hop 2) true),
        .ofHost (.setPreferredParent (some ⟨0, 0⟩)), .agent .start, .agent (.signal (hop 1)),
        .agent (.count (.expected 10)), .agent .tick, .agent .tick]
    let first : Node NeighborTable RouteList UnreliableFlag CountingTimer := ⟨agent, host⟩
    let failing : Node NeighborTable RouteList UnreliableFlag CountingTimer := ⟨agent, down⟩
    let counted := (failing.run (events.take 6)).agent
    let logging : Host NeighborTable RouteList (AdvertiserLog UnreliableFlag) CountingTimer :=
      { (failing.run (events.take 6)).host with advertiser := ⟨down.advertiser, []⟩ }
    host.Agrees down ∧ List.Forall₂ NodeEvent.Agrees events events ∧
      (first.run events).agent.tally.notifications = 1 ∧
      (failing.run events).agent.tally.notificationFailures = 1 ∧
      List.Forall₂ EntryAgrees (first.trace events) (failing.trace events) ∧
      ∃ report, (counted.tick logging).1 = some report ∧
        (∃! call : Option (Except AdvertiserError Unit),
          (counted.tick logging).2.2.advertiser.answers = [] ++ call.toList ∧ report.Tells call) ∧
        report.errors = [⟨⟨"down"⟩⟩] ∧
        counted.Renews (counted.tick logging).2.1 logging (counted.tick logging).2.2 := by
  intro hop agent host down events first failing counted logging
  have hhost : host.Agrees down := ⟨rfl, rfl, rfl⟩
  have he : List.Forall₂ NodeEvent.Agrees events events :=
    .cons (NodeEvent.ofHost_agrees _) (.cons (NodeEvent.ofHost_agrees _)
      (.cons (NodeEvent.ofHost_agrees _) (.cons (.agent _) (.cons (.agent _) (.cons (.agent _)
        (.cons (.agent _) (.cons (.agent _) .nil)))))))
  obtain ⟨hagrees, htick⟩ := failures_disturb_nothing_else agent hhost he
  have herrors : (counted.tick logging).1.map TickReport.errors = some [⟨⟨"down"⟩⟩] := by decide
  obtain ⟨report, hreport, hdown⟩ := Option.map_eq_some_iff.1 herrors
  obtain ⟨hcall, hrenews⟩ := htick counted logging report hreport
  exact ⟨hhost, he, by decide, by decide, hagrees, report, hreport, hcall, hdown, hrenews⟩

end Node

end CongestionRouting
