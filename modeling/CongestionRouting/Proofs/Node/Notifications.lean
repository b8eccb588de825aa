import CongestionRouting.Proofs.Agent.Steps
import CongestionRouting.Proofs.Node.Runs

namespace CongestionRouting

namespace Agent

variable {ν ρ α τ : Type} [Neighborhood ν] [RouteStore ρ] {config : Config} {past : History}
  {a a' : Agent} {host host' : Host ν ρ α τ}

section Advertised

variable [Advertiser α]

theorem Ticked.asks_eq {report : TickReport} (h : Ticked a host report a' host')
    (helapsed : report.elapsed = a.engine.clock.advance.elapsed) :
    (report.asks, a'.engine.pacer) =
        a.engine.pacer.ask report.poll.now report.poll.congested ∧
      report.notified.toNat + report.errors.length = report.asks.toNat := by
  obtain ⟨hpacer, hcall⟩ := h.call_cases
  rw [← helapsed] at hpacer hcall
  simp only [TickReport.poll, TickReport.asks]
  rcases hcall with ⟨hdue, -, hnotified, herrors⟩ | ⟨hdue, -, hnotified, herrors⟩ |
    ⟨cause, hdue, -, hnotified, herrors⟩ <;>
  · rw [hnotified, herrors]
    exact ⟨Prod.ext hdue.symm hpacer, rfl⟩

end Advertised

/-- The pacer, the clock and the counts of notifications, as the past of an agent tells. -/
structure Polled (config : Config) (past : History) (a : Agent) : Prop where
  interval_eq : a.engine.clock.interval = config.interval
  elapsed_eq : a.engine.clock.elapsed = (past.reports.head?.map TickReport.elapsed).getD .zero
  pacer_eq : a.engine.pacer = (Pacer.start config.pacing).after past.polls
  log_eq : (Pacer.start config.pacing).log past.polls =
    past.reports.reverse.map fun report => (report.poll, report.asks)
  asks_eq : a.tally.notifications + a.tally.notificationFailures =
    past.reports.countP TickReport.asks

namespace Polled

theorem start (hc : Agent.ofConfig config = .ok a) : a.Polled config [] := by
  rw [Agent.ofConfig_eq_ok hc]
  exact ⟨rfl, rfl, rfl, rfl, rfl⟩

theorem quiet (h : a.Polled config past) {o : Occurrence} (ho : o.report? = none)
    (hpacer : a'.engine.pacer = a.engine.pacer)
    (hinterval : a'.engine.clock.interval = a.engine.clock.interval)
    (helapsed : a'.engine.clock.elapsed = a.engine.clock.elapsed)
    (hsent : a'.tally.notifications = a.tally.notifications)
    (hrefused : a'.tally.notificationFailures = a.tally.notificationFailures) :
    a'.Polled config (o :: past) := by
  have hreports : History.reports (o :: past) = past.reports := History.reports_cons_of_none ho
  have hpolls : History.polls (o :: past) = past.polls := by
    rw [History.polls, hreports, History.polls]
  exact {
    interval_eq := hinterval.trans h.interval_eq
    elapsed_eq := by rw [helapsed, hreports, h.elapsed_eq]
    pacer_eq := by rw [hpacer, hpolls, h.pacer_eq]
    log_eq := by rw [hpolls, hreports, h.log_eq]
    asks_eq := by rw [hsent, hrefused, hreports, h.asks_eq] }

theorem report [Advertiser α] (h : a.Polled config past) {report : TickReport}
    (hticked : Ticked a host report a' host')
    (helapsed : report.elapsed = a.engine.clock.advance.elapsed) :
    a'.Polled config (⟨.agent .tick, .report (some report)⟩ :: past) := by
  obtain ⟨hasks, hcount⟩ := hticked.asks_eq helapsed
  have hreports : History.reports (⟨.agent .tick, .report (some report)⟩ :: past) =
      report :: past.reports := History.reports_cons_of_some rfl
  have hpolls : History.polls (⟨.agent .tick, .report (some report)⟩ :: past) =
      past.polls ++ [report.poll] := History.polls_cons_of_some rfl
  rw [h.pacer_eq] at hasks
  refine ⟨?_, ?_, ?_, ?_, ?_⟩
  · rw [hticked.engine_eq]
    exact h.interval_eq
  · rw [hticked.engine_eq, hreports]
    exact helapsed.symm
  · rw [hpolls, Pacer.after_append, Pacer.after_singleton, ← hasks]
  · rw [hpolls, hreports, Pacer.log_append, Pacer.log_singleton, h.log_eq, ← hasks,
      List.reverse_cons, List.map_append]
    rfl
  · rw [hticked.tally_eq, hreports, countP_cons_toNat, ← h.asks_eq, ← hcount]
    simp only [Tally.addTick]
    omega

theorem receiveSignal (h : a.Polled config past) (sender : Address) :
    (a.receiveSignal sender host).2.1.Polled config
      (⟨.agent (.signal sender), .activation (a.receiveSignal sender host).1⟩ :: past) := by
  rcases a.receiveSignal_counts sender host with ⟨n, heq⟩ | ⟨-, heq⟩
  · rw [heq]
    exact h.quiet rfl rfl rfl rfl rfl rfl
  · rw [heq]
    refine h.quiet rfl rfl rfl rfl ?_ ?_ <;> simp only [Tally.addActivation] <;> split <;> rfl

theorem step [Advertiser α] [IntervalTimer τ] (h : a.Polled config past) (event : AgentEvent) :
    (a.step host event).2.1.Polled config (⟨.agent event, (a.step host event).1⟩ :: past) := by
  cases event with
  | tick =>
    cases hreport : (a.tick host).1 with
    | none =>
      simp only [Agent.step, tick_of_none hreport]
      exact h.quiet rfl rfl rfl rfl rfl rfl
    | some report =>
      have hclock := clock_of_tick hreport
      simp only [Agent.step, hreport]
      exact h.report (ticked_of_report hreport) hclock.2.2.1
  | signal sender => exact h.receiveSignal sender
  | receiveReport message offset =>
    simp only [Agent.step, Agent.receiveReport]
    split <;> exact h.quiet rfl rfl rfl rfl rfl rfl
  | start | stop | count _ | reseed _ | forget _ | makeReport =>
    exact h.quiet rfl rfl rfl rfl rfl rfl

end Polled

end Agent

/-- Without congestion nothing is due. -/
theorem Pacer.congested_of_due {p : Pacer} {polls : List Poll} {poll : Poll}
    (h : (poll, true) ∈ p.log polls) : poll.congested = true := by
  induction polls generalizing p with
  | nil => exact absurd h List.not_mem_nil
  | cons first polls ih =>
    have hlog : p.log (first :: polls) = (first, (p.ask first.now first.congested).1) ::
        (p.ask first.now first.congested).2.log polls := rfl
    rw [hlog] at h
    rcases List.mem_cons.1 h with heq | hmem
    · obtain ⟨rfl, hdue⟩ := Prod.mk.inj heq
      cases hcongested : poll.congested with
      | true => rfl
      | false =>
        rw [hcongested, ask_uncongested] at hdue
        exact absurd hdue nofun
    · exact ih hmem

theorem Agent.Polled.congested_of_asks {config : Config} {past : History} {a : Agent}
    (h : a.Polled config past) :
    ∀ report ∈ past.reports, report.asks = true → report.verdict.selfCongested = true := by
  intro report hmem hasks
  have hlogged : (report.poll, report.asks) ∈ (Pacer.start config.pacing).log past.polls := by
    rw [h.log_eq]
    exact List.mem_map_of_mem (List.mem_reverse.2 hmem)
  rw [hasks] at hlogged
  exact Pacer.congested_of_due hlogged

namespace Node

variable {ν ρ α τ : Type} [Neighborhood ν] [RouteStore ρ] [Advertiser α] [IntervalTimer τ]
  {config : Config} {s : Node ν ρ α τ} {past : History}

theorem polled_run (h : s.agent.Polled config past) (events : List (NodeEvent ν ρ α τ)) :
    (s.run events).agent.Polled config (s.history past events) :=
  run_induction (fun _ _ _ event hp => hp.step event) h events

end Node

end CongestionRouting
