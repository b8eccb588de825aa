import CongestionRouting.Proofs.Agent.Steps
import CongestionRouting.Proofs.Session.History
import CongestionRouting.Proofs.Verdict

namespace CongestionRouting

/-- Events that go past the agent: the host sets or clears flags by itself, or meddles with the
counts. -/
def SessionEvent.meddles : SessionEvent → Bool
  | .host (.setCongested _ _) | .host .clearFlags | .host (.recordSignal _) => true
  | .agent (.count (.expected _)) | .agent (.count .restart) => true
  | _ => false

/-- Nothing that a verdict depends on. -/
structure Occurrence.Idle (o : Occurrence) : Prop where
  endsInterval_eq : o.endsInterval = false
  packets_eq : o.packets = 0
  announced_eq : o.announced = 0
  enters_eq : ∀ address, o.enters address = false
  signals_eq : ∀ address, o.signals address = false

/-- The counts of an agent and the flags of its neighbors are those of the interval under way. -/
structure Accounts (past : History) (a : Agent) (t : NeighborTable) : Prop where
  received_eq : a.engine.counters.received = saturate32 past.packets
  expected_eq : a.engine.counters.expected = saturate32 past.announced
  orderly : t.Orderly
  congested_eq : ∀ i entry, t.entryAt i = some entry → entry.congested = past.heard entry.address

namespace Accounts

variable {past : History} {o : Occurrence} {a a' : Agent} {t t' : NeighborTable}

theorem start {config : Config} (hc : Agent.ofConfig config = .ok a) (capacity : Nat) :
    Accounts [] a (.empty capacity) where
  received_eq := by
    rw [Agent.ofConfig_eq_ok hc]
    rfl
  expected_eq := by
    rw [Agent.ofConfig_eq_ok hc]
    rfl
  orderly := .empty capacity
  congested_eq i entry h := absurd h nofun

/-- What is idle changes no count, and no flag of an entry that stays. -/
theorem idle (h : Accounts past a t) (ho : o.Idle)
    (hreceived : a'.engine.counters.received = a.engine.counters.received)
    (hexpected : a'.engine.counters.expected = a.engine.counters.expected) (ht : t'.Orderly)
    (hentry : ∀ i entry, t'.entryAt i = some entry → ∃ old, t.entryAt i = some old ∧
      entry.address = old.address ∧ entry.congested = old.congested) :
    Accounts (o :: past) a' t' := by
  obtain ⟨hends, hpackets, hannounced, henters, hsignals⟩ := ho
  refine ⟨?_, ?_, ht, fun i entry hi => ?_⟩
  · rw [hreceived, h.received_eq, History.packets_cons, hends, hpackets]
    simp
  · rw [hexpected, h.expected_eq, History.announced_cons, hends, hannounced]
    simp
  · obtain ⟨old, hold, haddress, hcongested⟩ := hentry i entry hi
    rw [hcongested, h.congested_eq i old hold, haddress, History.heard_cons, hends, henters, hsignals]
    simp

theorem idle_same (h : Accounts past a t)
    (hreceived : a'.engine.counters.received = a.engine.counters.received)
    (hexpected : a'.engine.counters.expected = a.engine.counters.expected)
    (ho : o.Idle := by exact ⟨rfl, rfl, rfl, fun _ => rfl, fun _ => rfl⟩) :
    Accounts (o :: past) a' t :=
  h.idle ho hreceived hexpected h.orderly fun _ entry hi => ⟨entry, hi, rfl, rfl⟩

theorem insert (h : Accounts past a t) {address : Address} {routingParent : Bool}
    {handle : NeighborHandle} (hi : t.insert address routingParent = .ok (handle, t')) :
    Accounts (⟨.host (.insertNeighbor address routingParent), .handle (some handle)⟩ :: past) a t' := by
  refine ⟨?_, ?_, h.orderly.insert hi, fun j entry hj => ?_⟩
  · rw [h.received_eq, History.packets_cons]
    simp [Occurrence.endsInterval, Occurrence.packets]
  · rw [h.expected_eq, History.announced_cons]
    simp [Occurrence.endsInterval, Occurrence.announced]
  · obtain ⟨i, -, hentry⟩ := h.orderly.entryAt_insert hi
    have hfresh := h.orderly.lookup_eq_none_iff.1 (NeighborTable.insert_eq_ok hi).1
    rw [hentry] at hj
    rw [History.heard_cons]
    split at hj
    · -- The new neighbor has not been heard since it was entered.
      injection hj with hj
      subst hj
      simp [Occurrence.enters]
    · have hne := hfresh j entry hj
      simp [Occurrence.endsInterval, Occurrence.enters, Occurrence.signals, Ne.symm hne,
        h.congested_eq j entry hj]

theorem remove (h : Accounts past a t) (handle : NeighborHandle) (answer : Answer) :
    Accounts (⟨.host (.removeNeighbor handle), answer⟩ :: past) a (t.remove handle).2 := by
  refine h.idle ⟨rfl, rfl, rfl, fun _ => rfl, fun _ => rfl⟩ rfl rfl (h.orderly.remove handle) ?_
  intro i entry hi
  cases hg : t.get? handle with
  | none =>
    rw [NeighborTable.remove_of_stale hg] at hi
    exact ⟨entry, hi, rfl, rfl⟩
  | some old =>
    rw [NeighborTable.entryAt_remove hg] at hi
    split at hi
    · exact absurd hi nofun
    · exact ⟨entry, hi, rfl, rfl⟩

theorem setRoutingParent (h : Accounts past a t) {handle : NeighborHandle} {value : Bool}
    (hs : t.setRoutingParent handle value = .ok t') :
    Accounts (⟨.host (.setRoutingParent handle value), .done⟩ :: past) a t' :=
  h.idle ⟨rfl, rfl, rfl, fun _ => rfl, fun _ => rfl⟩ rfl rfl (h.orderly.setRoutingParent hs)
    fun _ _ hi => NeighborTable.exists_of_setRoutingParent hs hi

theorem setPreferredParent (h : Accounts past a t) {handle : Option NeighborHandle}
    (hs : t.setPreferredParent handle = .ok t') :
    Accounts (⟨.host (.setPreferredParent handle), .done⟩ :: past) a t' := by
  refine h.idle ⟨rfl, rfl, rfl, fun _ => rfl, fun _ => rfl⟩ rfl rfl (h.orderly.setPreferredParent hs)
    fun i entry hi => ⟨entry, ?_, rfl, rfl⟩
  rwa [NeighborTable.entryAt, NeighborTable.slots_setPreferredParent hs] at hi

theorem signal (h : Accounts past a t) (sender : Address) (answer : Answer)
    (hcounters : a'.engine.counters = a.engine.counters) :
    Accounts (⟨.agent (.signal sender), answer⟩ :: past) a' (recordSignal sender t).2 := by
  refine ⟨?_, ?_, h.orderly.recordSignal sender, fun i entry hi => ?_⟩
  · rw [hcounters, h.received_eq, History.packets_cons]
    simp [Occurrence.endsInterval, Occurrence.packets]
  · rw [hcounters, h.expected_eq, History.announced_cons]
    simp [Occurrence.endsInterval, Occurrence.announced]
  · rw [h.orderly.entryAt_recordSignal] at hi
    obtain ⟨old, hold, rfl⟩ := Option.map_eq_some_iff.1 hi
    rw [History.heard_cons]
    simp [Occurrence.endsInterval, Occurrence.enters, Occurrence.signals,
      h.congested_eq i old hold, Bool.or_comm, eq_comm]

theorem arrive (h : Accounts past a t) (n : Nat) (answer : Answer) :
    Accounts (⟨.agent (.count (.received n)), answer⟩ :: past) (a.addReceived n) t := by
  refine ⟨?_, ?_, h.orderly, fun i entry hi => ?_⟩
  · change saturate32 (a.engine.counters.received.toNat + n) = _
    rw [h.received_eq, saturate32_add, History.packets_cons, Nat.add_comm]
    rfl
  · change a.engine.counters.expected = _
    rw [h.expected_eq, History.announced_cons]
    simp [Occurrence.endsInterval, Occurrence.announced]
  · rw [History.heard_cons, h.congested_eq i entry hi]
    simp [Occurrence.endsInterval, Occurrence.enters, Occurrence.signals]

theorem receiveReport (h : Accounts past a t) (message : List UInt8) (offset : Nat) :
    Accounts (⟨.agent (.receiveReport message offset), .count (a.receiveReport message offset).1⟩ ::
      past) (a.receiveReport message offset).2 t := by
  unfold Agent.receiveReport
  split
  · next option _ =>
    refine ⟨?_, ?_, h.orderly, fun i entry hi => ?_⟩
    · change a.engine.counters.received = _
      rw [h.received_eq, History.packets_cons]
      simp [Occurrence.endsInterval, Occurrence.packets]
    · change saturate32 (a.engine.counters.expected.toNat + option.count.toNat) = _
      rw [h.expected_eq, saturate32_add, History.announced_cons, Nat.add_comm]
      rfl
    · rw [History.heard_cons, h.congested_eq i entry hi]
      simp [Occurrence.endsInterval, Occurrence.enters, Occurrence.signals]
  · exact h.idle_same rfl rfl

theorem endInterval (h : Accounts past a t) (report : TickReport)
    (hcounters : a'.engine.counters = a.engine.counters.restart) :
    Accounts (⟨.agent .tick, .report (some report)⟩ :: past) a' t.clearFlags := by
  refine ⟨?_, ?_, h.orderly.clearFlags, fun i entry hi => ?_⟩
  · rw [hcounters, History.packets_cons]
    rfl
  · rw [hcounters, History.announced_cons]
    rfl
  · rw [NeighborTable.entryAt_clearFlags] at hi
    obtain ⟨old, -, rfl⟩ := Option.map_eq_some_iff.1 hi
    rw [History.heard_cons]
    rfl

end Accounts

namespace Session

variable {rule : CongestionRule} {past : History} {s : Session NeighborTable}

/-- The session has an agent with a rule, whose accounts are those of the interval under way. -/
def Accounted (rule : CongestionRule) (past : History) (s : Session NeighborTable) : Prop :=
  ∃ a, s.core = .agent a ∧ a.engine.rule = rule ∧ Accounts past a s.host.neighbors

theorem accounted_start {config : Config} {agent : Agent} (hc : Agent.ofConfig config = .ok agent)
    (capacity : Nat) (routes : RouteList) :
    (start (.empty capacity) routes (.agent agent) : Session NeighborTable).Accounted
      ⟨config.threshold, config.composition⟩ [] := by
  refine ⟨agent, rfl, ?_, .start hc capacity⟩
  rw [Agent.ofConfig_eq_ok hc]
  rfl

theorem accounted_hostStep (hs : s.Accounted rule past) {event : HostEvent}
    (he : (SessionEvent.host event).meddles = false) :
    (s.step (.host event)).2.Accounted rule (⟨.host event, (s.step (.host event)).1⟩ :: past) := by
  obtain ⟨a, hcore, hrule, h⟩ := hs
  cases event with
  | setCongested _ _ | clearFlags | recordSignal _ => exact absurd he nofun
  | insertNeighbor address routingParent =>
    simp only [step, Host.step, TableHolder.table]
    cases hi : s.host.neighbors.insert address routingParent with
    | error e => exact ⟨a, hcore, hrule, h.idle_same rfl rfl⟩
    | ok placed => exact ⟨a, hcore, hrule, h.insert hi⟩
  | removeNeighbor handle => exact ⟨a, hcore, hrule, h.remove handle _⟩
  | setRoutingParent handle value =>
    simp only [step, Host.step, TableHolder.table]
    cases hset : s.host.neighbors.setRoutingParent handle value with
    | error e => exact ⟨a, hcore, hrule, h.idle_same rfl rfl⟩
    | ok table => exact ⟨a, hcore, hrule, h.setRoutingParent hset⟩
  | setPreferredParent handle =>
    simp only [step, Host.step, TableHolder.table]
    cases hset : s.host.neighbors.setPreferredParent handle with
    | error e => exact ⟨a, hcore, hrule, h.idle_same rfl rfl⟩
    | ok table => exact ⟨a, hcore, hrule, h.setPreferredParent hset⟩
  | addRoute _ _ | raiseFlag =>
    simp only [step, Host.step]
    split <;> exact ⟨a, hcore, hrule, h.idle_same rfl rfl⟩
  | viewNeighbor _ | findNeighbor _ | guardFlags _ | removeRoute _ | findRoute _ | takeFlag
  | setFailure _ | setTimer _ | rearmTimer | stopTimer =>
    exact ⟨a, hcore, hrule, h.idle_same rfl rfl⟩

theorem accounted_agentStep (hs : s.Accounted rule past) {event : AgentEvent}
    (he : (SessionEvent.agent event).meddles = false) :
    (s.step (.agent event)).2.Accounted rule (⟨.agent event, (s.step (.agent event)).1⟩ :: past) := by
  obtain ⟨a, hcore, hrule, h⟩ := hs
  simp only [step, hcore]
  cases event with
  | tick =>
    simp only [Agent.step]
    cases hr : a.isRunning with
    | false =>
      rw [Agent.tick_of_stopped hr]
      exact ⟨a, rfl, hrule, h.idle_same rfl rfl⟩
    | true =>
      obtain ⟨report, hreport, hticked⟩ := Agent.tick_of_running s.host hr
      rw [hreport]
      refine ⟨_, rfl, (congrArg Engine.rule hticked.engine_eq).trans hrule, ?_⟩
      -- A tick clears the flags and the counts, and the past of the interval begins anew with it.
      have hcounters : (a.tick s.host).2.1.engine.counters = a.engine.counters.restart := by
        rw [hticked.engine_eq]
      have hend := h.endInterval report hcounters
      rw [hticked.neighbors_eq]
      exact hend
  | signal sender =>
    simp only [Agent.step]
    rcases a.receiveSignal_cases sender s.host with ⟨tally, heq, -⟩ | ⟨tally, -, heq, -⟩
    · rw [heq]
      exact ⟨_, rfl, hrule, h.signal sender _ rfl⟩
    · rw [heq]
      exact ⟨_, rfl, hrule, h.signal sender _ rfl⟩
  | count event =>
    cases event with
    | expected _ | restart => cases he
    | received n => exact ⟨_, rfl, hrule, h.arrive n _⟩
    | sent _ | takeSent =>
      exact ⟨_, rfl, hrule, h.idle_same rfl rfl⟩
  | receiveReport message offset =>
    refine ⟨_, rfl, Eq.trans ?_ hrule, h.receiveReport message offset⟩
    change (a.receiveReport message offset).2.engine.rule = a.engine.rule
    unfold Agent.receiveReport
    split <;> rfl
  | start | stop | reseed _ | forget _ | makeReport =>
    exact ⟨_, rfl, hrule, h.idle_same rfl rfl⟩

theorem accounted_step (hs : s.Accounted rule past) {event : SessionEvent} (he : event.meddles = false) :
    (s.step event).2.Accounted rule (⟨event, (s.step event).1⟩ :: past) := by
  cases event with
  | host event => exact accounted_hostStep hs he
  | agent event => exact accounted_agentStep hs he
  | engine event =>
    obtain ⟨a, hcore, hrule, h⟩ := hs
    simp only [step, hcore]
    exact ⟨a, hcore, hrule, h.idle_same rfl rfl⟩

theorem accounted_run {events : List SessionEvent} (hs : s.Accounted rule past)
    (he : ∀ event ∈ events, event.meddles = false) :
    (s.run events).Accounted rule (s.history past events) := by
  induction events generalizing s past with
  | nil => exact hs
  | cons event events ih =>
    exact ih (accounted_step hs (he event List.mem_cons_self)) fun e hmem =>
      he e (List.mem_cons_of_mem _ hmem)

theorem Accounted.tick (hs : s.Accounted rule past) :
    ∃ a, s.core = .agent a ∧
      (a.isRunning = false → (s.step (.agent .tick)).1 = .report none) ∧
      (a.isRunning = true → ∃ report, (s.step (.agent .tick)).1 = .report (some report) ∧
        report.verdict.received.toNat = min past.packets 0xffffffff ∧
        report.verdict.expected.toNat = min past.announced 0xffffffff ∧
        (rule.threshold.threshold report.verdict.expected ≤ report.verdict.received →
          report.verdict.total = s.host.neighbors.entries.length ∧
          report.verdict.congested =
            s.host.neighbors.entries.countP fun entry => past.heard entry.address)) := by
  obtain ⟨a, hcore, rfl, h⟩ := hs
  refine ⟨a, hcore, fun hr => ?_, fun hr => ?_⟩
  · simp only [step, hcore, Agent.step, Agent.tick_of_stopped hr]
  · obtain ⟨report, hreport, hticked⟩ := Agent.tick_of_running s.host hr
    have hverdict := hticked.verdict_eq
    unfold Engine.judge at hverdict
    refine ⟨report, ?_, ?_, ?_, fun hle => ?_⟩
    · simp only [step, hcore, Agent.step, hreport]
    · rw [hverdict, CongestionRule.received_judge, h.received_eq, toNat_saturate32]
    · rw [hverdict, CongestionRule.expected_judge, h.expected_eq, toNat_saturate32]
    · rw [hverdict, CongestionRule.expected_judge, CongestionRule.received_judge] at hle
      have henough := mt ThresholdRatio.lt_threshold_iff.2 (UInt32.not_lt.2 hle)
      rw [hverdict, CongestionRule.judge_of_enough _ henough h.orderly]
      refine ⟨rfl, (NeighborTable.length_flagged _).trans (List.countP_congr fun entry hmem => ?_)⟩
      obtain ⟨i, hi⟩ := NeighborTable.mem_entries_iff.1 hmem
      rw [h.congested_eq i entry hi]

/-- A running agent judges each interval by the packets, the reports and the signals that came since
the interval before it ended, whatever happened to the neighbors meanwhile. -/
theorem verdict_covers_interval {config : Config} {agent : Agent} {events : List SessionEvent}
    (hc : Agent.ofConfig config = .ok agent) (he : ∀ event ∈ events, event.meddles = false)
    (capacity : Nat) (routes : RouteList) :
    let first : Session NeighborTable := start (.empty capacity) routes (.agent agent)
    let s := first.run events
    let past := first.history [] events
    ∃ a, s.core = .agent a ∧
      (a.isRunning = false → (s.step (.agent .tick)).1 = .report none) ∧
      (a.isRunning = true → ∃ report, (s.step (.agent .tick)).1 = .report (some report) ∧
        report.verdict.received.toNat = min past.packets 0xffffffff ∧
        report.verdict.expected.toNat = min past.announced 0xffffffff ∧
        (config.threshold.threshold report.verdict.expected ≤ report.verdict.received →
          report.verdict.total = s.host.neighbors.entries.length ∧
          report.verdict.congested =
            s.host.neighbors.entries.countP fun entry => past.heard entry.address)) := by
  exact (accounted_run (accounted_start hc capacity routes) he).tick

/-- A neighbor that is removed and entered again has to signal again, and what comes to a stopped
agent counts. -/
theorem verdict_covers_interval_reentered :
    let hop (n : UInt16) : Address := ⟨#v[0xfe80, 0, 0, 0, 0, 0, 0, n]⟩
    let agent : Agent := ⟨.standard, .ofConfig .standard, .zero, none⟩
    let first : Session NeighborTable := start (.empty 4) (.empty 2) (.agent agent)
    let events : List SessionEvent :=
      [.host (.insertNeighbor (hop 1) true), .host (.insertNeighbor (hop 2) true),
        .agent .start, .agent (.signal (hop 1)), .agent .tick, .agent (.signal (hop 1)),
        .agent (.signal (hop 2)), .agent (.count (.received 3)), .host (.removeNeighbor ⟨1, 0⟩),
        .host (.insertNeighbor (hop 2) true), .agent .stop, .agent .tick,
        .agent (.count (.received 2)), .agent (.receiveReport [0x0a, 2, 0, 9] 0), .agent .start]
    Agent.ofConfig .standard = .ok agent ∧ (∀ event ∈ events, event.meddles = false) ∧
      ∃ report, ((first.run events).step (.agent .tick)).1 = .report (some report) ∧
        report.verdict.received.toNat = 5 ∧ report.verdict.expected.toNat = 9 ∧
        report.verdict.total = 2 ∧ report.verdict.congested = 1 := by
  intro hop agent first events
  have hc : Agent.ofConfig .standard = .ok agent := rfl
  have he : ∀ event ∈ events, event.meddles = false := by decide
  obtain ⟨a, hcore, -, hrun⟩ := verdict_covers_interval hc he 4 (.empty 2)
  have hr : a.isRunning = true := by
    have hsome : (first.run events).agent?.map Agent.isRunning = some true := by decide
    rw [agent?_eq_some_iff.2 hcore] at hsome
    exact Option.some.inj hsome
  obtain ⟨report, hreport, hreceived, hexpected, hcounts⟩ := hrun hr
  have hnine : report.verdict.expected = 9 := UInt32.toNat_inj.1 (hexpected.trans (by decide))
  have hfive : report.verdict.received = 5 := UInt32.toNat_inj.1 (hreceived.trans (by decide))
  obtain ⟨htotal, hcongested⟩ := hcounts (by rw [hnine, hfive]; decide)
  exact ⟨hc, he, report, hreport, hreceived.trans (by decide), hexpected.trans (by decide),
    htotal.trans (by decide), hcongested.trans (by decide)⟩

end Session

end CongestionRouting
