import CongestionRouting.Proofs.Agent.Steps
import CongestionRouting.Proofs.Node.Retry

namespace CongestionRouting

namespace Duration

/-- Adding to a sum that was cut off is cutting off the whole sum. -/
theorem saturatingAdd_saturate (n : Nat) (d : Duration) :
    (saturate n).saturatingAdd d = saturate (n + d.nanos) := by
  apply ext_nanos
  rw [saturatingAdd, nanos_saturate, nanos_saturate, nanos_saturate]
  omega

end Duration

/-- The clock after so many intervals. -/
structure IntervalClock.Counts (interval : DetectionInterval) (n : Nat) (clock : IntervalClock) : Prop where
  interval_eq : clock.interval = interval
  elapsed_eq : clock.elapsed = .saturate (n * interval.duration.nanos)
  ticks_eq : clock.ticks = UInt64.ofNat n

namespace IntervalClock.Counts

variable {interval : DetectionInterval} {n : Nat} {clock : IntervalClock}

theorem stopped (interval : DetectionInterval) : (IntervalClock.stopped interval).Counts interval 0 :=
  ⟨rfl, by rw [Nat.zero_mul]; rfl, rfl⟩

theorem advance (h : clock.Counts interval n) : clock.advance.Counts interval (n + 1) where
  interval_eq := h.interval_eq
  elapsed_eq := by
    rw [IntervalClock.advance, h.elapsed_eq, h.interval_eq, Duration.saturatingAdd_saturate,
      Nat.succ_mul]
  ticks_eq := by
    rw [IntervalClock.advance, h.ticks_eq, UInt64.ofNat_add]
    rfl

theorem running (h : clock.Counts interval n) (running : Bool) :
    { clock with running := running }.Counts interval n :=
  ⟨h.interval_eq, h.elapsed_eq, h.ticks_eq⟩

end IntervalClock.Counts

namespace Agent

variable {ν ρ α τ : Type} [Neighborhood ν] [RouteStore ρ] [Advertiser α] [IntervalTimer τ]
  {interval : DetectionInterval} {past : History} {a : Agent} {host : Host ν ρ α τ}

/-- The clock counts the reports of an agent. -/
def Timed (interval : DetectionInterval) (past : History) (a : Agent) : Prop :=
  a.engine.clock.Counts interval past.reports.length

theorem Timed.step (h : a.Timed interval past) (event : AgentEvent) :
    (a.step host event).2.1.Timed interval (⟨.agent event, (a.step host event).1⟩ :: past) := by
  cases event with
  | tick =>
    cases hreport : (a.tick host).1 with
    | none =>
      simp only [Agent.step, tick_of_none hreport]
      exact h
    | some report =>
      have hclock : (a.tick host).2.1.engine.clock = a.engine.clock.advance := by
        rw [(ticked_of_report hreport).engine_eq]
      simp only [Agent.step, hreport, Timed, hclock]
      exact IntervalClock.Counts.advance h
  | start => exact IntervalClock.Counts.running h true
  | stop => exact IntervalClock.Counts.running h false
  | signal sender =>
    have hclock : (a.receiveSignal sender host).2.1.engine.clock = a.engine.clock := by
      rcases a.receiveSignal_counts sender host with ⟨n, heq⟩ | ⟨-, heq⟩
      · rw [heq]
      · rw [heq]
        rfl
    simp only [Agent.step, Timed, hclock]
    exact h
  | receiveReport message offset =>
    simp only [Agent.step, Agent.receiveReport]
    split <;> exact h
  | count _ | reseed _ | forget _ | makeReport => exact h

end Agent

namespace Node

variable {ν ρ α τ : Type} [Neighborhood ν] [RouteStore ρ] [Advertiser α] [IntervalTimer τ]
  {config : Config} {s : Node ν ρ α τ}

theorem timed_run (hc : Agent.ofConfig config = .ok s.agent) (events : List (NodeEvent ν ρ α τ)) :
    (s.run events).agent.Timed config.interval (s.history [] events) := by
  have hstart : s.agent.Timed config.interval [] := by
    rw [Agent.ofConfig_eq_ok hc]
    exact IntervalClock.Counts.stopped config.interval
  exact run_induction (fun _ _ _ event hpast => hpast.step event) hstart events

theorem elapsed_of_timed {interval : DetectionInterval} {past : History} {a : Agent}
    (h : a.Timed interval past) (hroom : past.reports.length < UInt64.size) :
    a.engine.clock.ticks.toNat = past.reports.length ∧
      a.engine.clock.elapsed.nanos =
        min (a.engine.clock.ticks.toNat * interval.duration.nanos) Duration.longest.nanos := by
  have hticks : a.engine.clock.ticks.toNat = past.reports.length := by
    rw [h.ticks_eq, UInt64.toNat_ofNat_of_lt' hroom]
  rw [hticks, h.elapsed_eq, Duration.nanos_saturate]
  exact ⟨rfl, rfl⟩

end Node

/-- Whatever length is taken for an interval: its exponent is read off exactly if the interval is made from
it. Parameters that are else in order are accepted exactly with an interval that is made from an exponent, and
the zero interval and all others are told apart in the refusal. An agent that was accepted keeps the time by
that exponent in every run, and whenever it is started the timer is set to it. -/
theorem DetectionInterval.exponent_exact (d : Duration) :
    let interval : DetectionInterval := ⟨d⟩
    let used := ∃ n ≤ maxExponent, ofExponent n = .ok interval
    (∀ n, interval.exponent = some n ↔ ofExponent n = .ok interval) ∧
    (∀ others : Config, (∃ i, { others with interval := i }.check = .ok ()) →
      let config : Config := { others with interval := interval }
      (config.check = .ok () ↔ used) ∧
        (config.check = .error .zeroInterval ↔ d = .zero) ∧
        (config.check = .error (.intervalNotPowerOfTwo interval) ↔ d ≠ .zero ∧ ¬used)) ∧
    ∀ {ν ρ α τ : Type} [Neighborhood ν] [RouteStore ρ] [Advertiser α] [IntervalTimer τ]
      {config : Config} {first : Node ν ρ α τ}, config.interval = interval →
      Agent.ofConfig config = .ok first.agent →
      ∃ n, interval.exponent = some n ∧ ∀ events : List (NodeEvent ν ρ α τ),
        let past := first.history [] events
        let later := first.run events
        let clock := later.agent.engine.clock
        (past.reports.length < UInt64.size → clock.ticks.toNat = past.reports.length ∧
          clock.elapsed.nanos = min (clock.ticks.toNat * (2 ^ n * Duration.nanosPerSecond))
            Duration.longest.nanos) ∧
        (later.step (.agent .start)).2.host.timer =
          IntervalTimer.set later.host.timer (.ofSeconds (UInt64.ofNat (2 ^ n))) := by
  intro interval used
  refine ⟨fun n => exponent_eq_some_iff_ofExponent, ?_, ?_⟩
  · intro others hothers config
    exact Config.check_cases_of_others (c := config) hothers
  · intro ν ρ α τ _ _ _ _ config first hinterval hc
    obtain ⟨n, hn⟩ := Option.ne_none_iff_exists'.1
      (Config.check_eq_ok (Agent.ofConfig_eq_ok_iff.1 hc).1).1
    obtain ⟨hmax, hnanos⟩ := exponent_eq_some_iff.1 hn
    refine ⟨n, hinterval ▸ hn, ?_⟩
    intro events past later clock
    have htimed : later.agent.Timed config.interval past := Node.timed_run hc events
    constructor
    · intro hroom
      rw [← hnanos]
      exact Node.elapsed_of_timed htimed hroom
    · have hduration : clock.interval.duration = .ofSeconds (UInt64.ofNat (2 ^ n)) := by
        rw [htimed.interval_eq]
        exact Duration.ext_nanos (hnanos.trans (nanos_ofSeconds_pow hmax).symm)
      rw [← hduration]
      rfl

/-- An agent with intervals of 32 seconds is stopped for one of three, and started again. -/
theorem DetectionInterval.exponent_exact_restarted :
    let config : Config := .standard
    let agent : Agent := ⟨config, .ofConfig config, .zero, none⟩
    let host : SessionHost NeighborTable := ⟨.empty 1, .empty 1, ⟨.lowered, none⟩, .idle⟩
    let first : Node NeighborTable RouteList UnreliableFlag CountingTimer := ⟨agent, host⟩
    let events : List (NodeEvent NeighborTable RouteList UnreliableFlag CountingTimer) :=
      [.agent .start, .agent .tick, .agent .stop, .agent .tick, .agent .start, .agent .tick]
    (∃ i, { config with interval := i }.check = .ok ()) ∧ config.check = .ok () ∧
      Agent.ofConfig config = .ok first.agent ∧
      (first.history [] events).reports.length < UInt64.size ∧
      ∃ n, config.interval.exponent = some n ∧
        (first.run events).agent.engine.clock.ticks.toNat = 2 ∧
        (first.run events).agent.engine.clock.elapsed.nanos =
          min (2 * (2 ^ n * Duration.nanosPerSecond)) Duration.longest.nanos ∧
        ((first.run events).step (.agent .start)).2.host.timer =
          IntervalTimer.set (first.run events).host.timer (.ofSeconds (UInt64.ofNat (2 ^ n))) := by
  intro config agent host first events
  have hothers : ∃ i, { config with interval := i }.check = .ok () := ⟨config.interval, by decide⟩
  have hlength : (first.history [] events).reports.length = 2 := by decide
  have hroom : (first.history [] events).reports.length < UInt64.size := by
    rw [hlength]
    decide
  obtain ⟨hexponent, hcheck, hruns⟩ := DetectionInterval.exponent_exact (.ofSeconds 32)
  have hused : DetectionInterval.ofExponent 5 = .ok ⟨.ofSeconds 32⟩ := by decide
  have haccepted : config.check = .ok () := (hcheck config hothers).1.2 ⟨5, by decide, hused⟩
  have hc : Agent.ofConfig config = .ok first.agent := Agent.ofConfig_eq_ok_iff.2 ⟨haccepted, rfl⟩
  obtain ⟨n, hn, hrun⟩ := @hruns _ _ _ _ _ _ _ _ config first rfl hc
  obtain ⟨htime, htimer⟩ := hrun events
  obtain ⟨hticks, helapsed⟩ := htime hroom
  rw [hticks, hlength] at helapsed
  exact ⟨hothers, haccepted, hc, hroom, n, hn, hticks.trans hlength, helapsed, htimer⟩

end CongestionRouting
