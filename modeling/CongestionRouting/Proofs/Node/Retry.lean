import CongestionRouting.Proofs.Interval.Exponent
import CongestionRouting.Proofs.Node.Notifications

namespace CongestionRouting

namespace Duration

/-- Of two spans later, one is over when the other one is, or the clock is at its end. -/
theorem saturatingAdd_le_iff (start a b : Duration) :
    start.saturatingAdd a ≤ start.saturatingAdd b ↔ a ≤ b ∨ start.saturatingAdd b = longest := by
  have hend : start.saturatingAdd b = longest ↔ longest.nanos ≤ start.nanos + b.nanos := by
    constructor
    · intro heq
      have hnanos := congrArg nanos heq
      rw [saturatingAdd, nanos_saturate] at hnanos
      omega
    · intro hle
      apply ext_nanos
      rw [saturatingAdd, nanos_saturate]
      exact Nat.min_eq_right hle
  rw [hend, le_iff, le_iff, saturatingAdd, saturatingAdd, nanos_saturate, nanos_saturate]
  omega

end Duration

theorem DetectionInterval.nanos_le {i : DetectionInterval} (h : i.exponent ≠ none) :
    i.duration.nanos ≤ 2 ^ maxExponent * Duration.nanosPerSecond := by
  obtain ⟨n, hn⟩ := Option.ne_none_iff_exists'.1 h
  obtain ⟨hmax, hnanos⟩ := exponent_eq_some_iff.1 hn
  rw [hnanos]
  exact Nat.mul_le_mul_right _ (Nat.pow_le_pow_right (by decide) hmax)

theorem ThresholdRatio.threshold_denominator (r : ThresholdRatio) :
    r.threshold r.denominator = r.numerator := by
  rw [← UInt32.toNat_inj, toNat_threshold]
  exact Nat.mul_div_cancel_left _ (r.numerator_pos.trans_le r.numerator_le)

theorem PacketCounters.expected_addExpected {c : PacketCounters} (h : c.expected = 0) (n : UInt32) :
    (c.addExpected n.toNat).expected = n := by
  rw [addExpected, h, UInt32.toNat_zero, Nat.zero_add]
  exact saturate32_toNat n

theorem UnreliableFlag.schedule_failing {f : UnreliableFlag} (h : f.failure ≠ none) :
    ∃ cause, Advertiser.schedule f = (.error cause, f) := by
  obtain ⟨message, hm⟩ := Option.ne_none_iff_exists'.1 h
  refine ⟨⟨message⟩, ?_⟩
  simp only [Advertiser.schedule, schedule, hm]

namespace Pacing

variable {p : Pacing} {d : Duration}

/-- There is no wait, or none longer than the longest. -/
theorem wait_le (h : p.minInterval = .zero ∨ p.maxInterval ≤ d) (n : Nat) : p.wait n ≤ d := by
  rcases h with hzero | hmax
  · rw [Duration.le_iff, nanos_wait, hzero]
    change min (0 * 2 ^ (n - 1)) _ ≤ _
    rw [Nat.zero_mul, Nat.zero_min]
    exact Nat.zero_le _
  · exact Nat.le_trans (wait_le_maxInterval p n) hmax

/-- Doubling a wait often enough exceeds any span, unless the longest wait is reached before. -/
theorem lt_wait {n : Nat} (hmin : p.minInterval ≠ .zero) (hmax : d < p.maxInterval)
    (hn : d.nanos < 2 ^ (n - 1)) : d < p.wait n := by
  have hpos : 0 < p.minInterval.nanos :=
    Nat.pos_of_ne_zero fun hzero => hmin (Duration.ext_nanos hzero)
  rw [Duration.lt_iff, nanos_wait, Nat.lt_min]
  exact ⟨hn.trans_le (Nat.le_mul_of_pos_left _ hpos), hmax⟩

end Pacing

theorem Config.check_eq_ok {c : Config} (h : c.check = .ok ()) :
    c.interval.exponent ≠ none ∧ c.pacing.minInterval ≤ c.pacing.maxInterval := by
  unfold check at h
  split at h
  · exact absurd h nofun
  · split at h
    · exact absurd h nofun
    · next hexponent =>
      split at h
      · exact absurd h nofun
      · split at h
        · exact absurd h nofun
        · next hrange => exact ⟨hexponent, Nat.le_of_not_lt hrange⟩

theorem Agent.ofConfig_eq_ok_iff {c : Config} {a : Agent} :
    Agent.ofConfig c = .ok a ↔ c.check = .ok () ∧ a = ⟨c, .ofConfig c, .zero, none⟩ := by
  constructor
  · intro h
    refine ⟨?_, ofConfig_eq_ok h⟩
    unfold ofConfig at h
    cases hcheck : c.check with
    | error e => simp [hcheck, Except.map] at h
    | ok u => rfl
  · rintro ⟨hcheck, rfl⟩
    rw [ofConfig, hcheck]
    rfl

namespace History

theorem reports_append (later past : History) :
    reports (later ++ past) = later.reports ++ past.reports :=
  List.filterMap_append

theorem sentInEpisode_reports (reports : List TickReport) :
    Pacer.sentInEpisode (reports.reverse.map fun report => (report.poll, report.asks)) =
      (reports.takeWhile fun report => report.verdict.selfCongested).countP TickReport.asks := by
  rw [Pacer.sentInEpisode, List.rtakeWhile, ← List.map_reverse, List.reverse_reverse,
    List.takeWhile_map, List.countP_reverse, List.countP_map]
  rfl

theorem asked_eq_length {past : History}
    (h : ∀ report ∈ past.reports, report.verdict.selfCongested = true ∧ report.asks = true) :
    past.asked = past.reports.length := by
  rw [asked, List.takeWhile_eq_self_iff.2 fun report hmem => (h report hmem).1,
    List.countP_eq_length.2 fun report hmem => (h report hmem).2]

end History

/-- After an interval that asked, the pacer waits as long as the number of that notification tells. -/
theorem Agent.Polled.nextAllowed_eq {config : Config} {past : History} {a : Agent}
    (h : a.Polled config past) (hp : config.pacing.minInterval ≤ config.pacing.maxInterval)
    {report : TickReport} {earlier : List TickReport} (hreports : past.reports = report :: earlier)
    (hasks : report.asks = true) :
    a.engine.pacer.nextAllowed = report.elapsed.saturatingAdd (config.pacing.wait past.asked) := by
  have hlast : past.reports.reverse.map (fun report => (report.poll, report.asks)) =
      earlier.reverse.map (fun report => (report.poll, report.asks)) ++ [(report.poll, true)] := by
    rw [hreports, List.reverse_cons, List.map_append, List.map_singleton, hasks]
  have hlog := h.log_eq.trans hlast
  have hnext := Pacer.nextAllowed_of_sent hp hlog
  rw [← hlog, Pacer.map_fst_log, ← h.pacer_eq, h.log_eq, History.sentInEpisode_reports] at hnext
  exact hnext

theorem Agent.asks_of_tick {ν ρ α τ : Type} [Neighborhood ν] [RouteStore ρ] [Advertiser α]
    [IntervalTimer τ] {a : Agent} {host : Host ν ρ α τ} {report : TickReport}
    (ht : (a.tick host).1 = some report) (hcongested : report.verdict.selfCongested = true) :
    report.asks = decide (a.engine.pacer.nextAllowed ≤ report.elapsed) := by
  have hask := congrArg Prod.fst ((ticked_of_report ht).asks_eq (clock_of_tick ht).2.2.1).1
  simp only [TickReport.poll, hcongested, Pacer.ask_congested] at hask
  exact hask

namespace Node

variable {ν ρ α τ : Type} [Neighborhood ν] [RouteStore ρ] [Advertiser α] [IntervalTimer τ]
  {config : Config}

/-- After some events an interval ends whose notification is refused, and the next interval that ends,
after some more events, is one with congestion. -/
structure Refuses (first : Node ν ρ α τ) (earlier between : List (NodeEvent ν ρ α τ))
    (refusal next : TickReport) : Prop where
  refusal_eq : ((first.run earlier).agent.tick (first.run earlier).host).1 = some refusal
  refused : refusal.errors ≠ []
  reports_eq : ((first.run (earlier ++ [.agent .tick])).history [] between).reports = []
  next_eq : ((first.run (earlier ++ .agent .tick :: between)).agent.tick
    (first.run (earlier ++ .agent .tick :: between)).host).1 = some next
  congested : next.verdict.selfCongested = true

/-- The next interval asks again exactly if the wait after the refused notification is over by then. -/
theorem Refuses.asks_iff {first : Node ν ρ α τ} {earlier between : List (NodeEvent ν ρ α τ)}
    {refusal next : TickReport} (hc : Agent.ofConfig config = .ok first.agent)
    (h : Refuses first earlier between refusal next) :
    next.asks = true ↔ config.pacing.wait (History.asked (first.history [] (earlier ++ [.agent .tick]))) ≤
      config.interval.duration ∨ next.elapsed = .longest := by
  obtain ⟨hrefusal, hrefused, hbetween, hnext, hcongested⟩ := h
  rw [← List.singleton_append, ← List.append_assoc, run_append] at hnext
  have hasks : refusal.asks = true := by
    rw [TickReport.asks, List.isEmpty_eq_false_iff.2 hrefused, Bool.not_false, Bool.or_true]
  have hpast : (first.history [] (earlier ++ [.agent .tick])).reports =
      refusal :: (first.history [] earlier).reports := by
    rw [history_append]
    exact History.reports_cons_of_some hrefusal
  have hpolled := polled_run (.start hc) (earlier ++ [.agent .tick])
  generalize first.history [] (earlier ++ [.agent .tick]) = past at hpast hpolled ⊢
  generalize first.run (earlier ++ [.agent .tick]) = s at hpolled hbetween hnext
  -- Until the next interval ends, the pacer stays as it is.
  have hlater := polled_run hpolled between
  have hreports : (s.history past between).reports = refusal :: (first.history [] earlier).reports := by
    rw [history_eq_append, History.reports_append, hbetween, hpast]
    rfl
  have hallowed :=
    hlater.nextAllowed_eq (Config.check_eq_ok (Agent.ofConfig_eq_ok_iff.1 hc).1).2 hreports hasks
  have hend := hlater.elapsed_eq
  rw [hreports] at hend
  obtain ⟨-, -, helapsed, -⟩ := Agent.clock_of_tick hnext
  have hnow : next.elapsed = refusal.elapsed.saturatingAdd config.interval.duration := by
    rw [helapsed, IntervalClock.advance, hend, hlater.interval_eq]
    rfl
  rw [Agent.asks_of_tick hnext hcongested, decide_eq_true_iff, hallowed, hnow,
    Duration.saturatingAdd_le_iff, History.asked, History.asked, hreports, hpast]

/-- The agent is started and, for so many intervals and in the one under way, expects packets of which
none comes. -/
def famine (count : UInt32) : Nat → List (NodeEvent ν ρ α τ)
  | 0 => [.agent .start, .agent (.count (.expected count))]
  | n + 1 => famine count n ++ [.agent .tick, .agent (.count (.expected count))]

/-- A running agent that received nothing of what it expects, on a host with a failure. -/
structure Starved (config : Config) (n : Nat) (s : Node ν ρ UnreliableFlag τ) : Prop where
  running : s.agent.isRunning = true
  rule_eq : s.agent.engine.rule = ⟨config.threshold, config.composition⟩
  received_eq : s.agent.engine.counters.received = 0
  expected_eq : s.agent.engine.counters.expected = config.threshold.denominator
  interval_eq : s.agent.engine.clock.interval = config.interval
  elapsed_le : s.agent.engine.clock.elapsed.nanos ≤ n * config.interval.duration.nanos
  failing : s.host.advertiser.failure ≠ none

namespace Starved

variable {n : Nat} {s : Node ν ρ UnreliableFlag τ}

theorem start (hc : Agent.ofConfig config = .ok s.agent) (hf : s.host.advertiser.failure ≠ none) :
    (s.run (famine config.threshold.denominator 0)).Starved config 0 := by
  obtain ⟨agent, host⟩ := s
  obtain rfl := Agent.ofConfig_eq_ok hc
  exact ⟨rfl, rfl, rfl, PacketCounters.expected_addExpected rfl _, rfl, Nat.zero_le _, hf⟩

theorem tick (h : s.Starved config n) :
    ∃ report, (s.agent.tick s.host).1 = some report ∧ report.verdict.selfCongested = true ∧
      report.elapsed.nanos ≤ (n + 1) * config.interval.duration.nanos ∧
      (report.asks = true → report.errors ≠ []) ∧
      (s.agent.tick s.host).2.2.advertiser = s.host.advertiser := by
  obtain ⟨report, hreport, hticked⟩ := Agent.tick_of_running s.host h.running
  obtain ⟨cause, hschedule⟩ := UnreliableFlag.schedule_failing h.failing
  refine ⟨report, hreport, ?_, ?_, ?_⟩
  · have hfew : (0 : UInt32) < config.threshold.numerator := config.threshold.numerator_pos
    simp only [hticked.verdict_eq, Engine.judge, h.rule_eq, CongestionRule.judge, h.received_eq,
      h.expected_eq, ThresholdRatio.threshold_denominator, if_pos hfew]
  · have hle := h.elapsed_le
    rw [(Agent.clock_of_tick hreport).2.2.1, IntervalClock.advance, Duration.saturatingAdd,
      Duration.nanos_saturate, h.interval_eq, Nat.add_mul]
    omega
  · rcases hticked.call_cases.2 with ⟨-, hsame, hnotified, herrors⟩ | ⟨-, hok, -⟩ |
      ⟨cause, -, hrefused, -, herrors⟩
    · refine ⟨fun hasks => ?_, hsame⟩
      rw [TickReport.asks, hnotified, herrors] at hasks
      exact absurd hasks Bool.false_ne_true
    · rw [hschedule] at hok
      cases hok
    · rw [hschedule] at hrefused
      refine ⟨fun _ => ?_, (congrArg Prod.snd hrefused).symm⟩
      rw [herrors]
      exact List.cons_ne_nil _ _

theorem round (h : s.Starved config n) :
    (s.run [.agent .tick, .agent (.count (.expected config.threshold.denominator))]).Starved config
      (n + 1) := by
  obtain ⟨report, hreport, -, helapsed, -, hadvertiser⟩ := h.tick
  have hticked := Agent.ticked_of_report hreport
  have hclock := (Agent.clock_of_tick hreport).2.2.1
  change Starved config (n + 1) ⟨{ (s.agent.tick s.host).2.1 with
    engine := { (s.agent.tick s.host).2.1.engine with
      counters := (s.agent.tick s.host).2.1.engine.counters.addExpected
        config.threshold.denominator.toNat } },
    (s.agent.tick s.host).2.2⟩
  -- The tick clears the counts; then as many packets are expected as in the interval before.
  refine ⟨?_, ?_, ?_, ?_, ?_, ?_, ?_⟩
  · change (s.agent.tick s.host).2.1.engine.clock.running = true
    rw [hticked.engine_eq]
    exact h.running
  · change (s.agent.tick s.host).2.1.engine.rule = _
    rw [hticked.engine_eq]
    exact h.rule_eq
  · change (s.agent.tick s.host).2.1.engine.counters.received = 0
    rw [hticked.engine_eq]
    rfl
  · refine PacketCounters.expected_addExpected ?_ _
    rw [hticked.engine_eq]
    rfl
  · change (s.agent.tick s.host).2.1.engine.clock.interval = _
    rw [hticked.engine_eq]
    exact h.interval_eq
  · change (s.agent.tick s.host).2.1.engine.clock.elapsed.nanos ≤ _
    rw [hticked.engine_eq, ← hclock]
    exact helapsed
  · change (s.agent.tick s.host).2.2.advertiser.failure ≠ none
    rw [hadvertiser]
    exact h.failing

theorem famine (hc : Agent.ofConfig config = .ok s.agent) (hf : s.host.advertiser.failure ≠ none)
    (n : Nat) : (s.run (Node.famine config.threshold.denominator n)).Starved config n := by
  induction n with
  | zero => exact .start hc hf
  | succ n ih =>
    rw [Node.famine, run_append]
    exact ih.round

end Starved

end Node

/-- In every run, whatever notification is refused, the next interval with congestion asks again. -/
def Agent.Retries (agent : Agent) : Prop :=
  ∀ {ν ρ α τ : Type} [Neighborhood ν] [RouteStore ρ] [Advertiser α] [IntervalTimer τ]
    (host : Host ν ρ α τ) (earlier between : List (NodeEvent ν ρ α τ)) (refusal next : TickReport),
    Node.Refuses ⟨agent, host⟩ earlier between refusal next → next.asks = true

namespace Node

variable {ν ρ τ : Type} [Neighborhood ν] [RouteStore ρ] [IntervalTimer τ] {config : Config}
  {first : Node ν ρ UnreliableFlag τ}

theorem refuses_of_famine (hc : Agent.ofConfig config = .ok first.agent)
    (hf : first.host.advertiser.failure ≠ none) {n : Nat} {refusal : TickReport}
    (hrefusal : ((first.run (famine config.threshold.denominator n)).agent.tick
      (first.run (famine config.threshold.denominator n)).host).1 = some refusal)
    (hasks : refusal.asks = true) :
    ∃ next, next.elapsed.nanos ≤ (n + 2) * config.interval.duration.nanos ∧
      Refuses first (famine config.threshold.denominator n)
        [.agent (.count (.expected config.threshold.denominator))] refusal next := by
  obtain ⟨report, hreport, -, -, herrors, -⟩ := (Starved.famine hc hf n).tick
  obtain rfl : refusal = report := Option.some.inj (hrefusal.symm.trans hreport)
  obtain ⟨next, hnext, hcongested, helapsed, -⟩ := (Starved.famine hc hf (n + 1)).tick
  exact ⟨next, helapsed, hrefusal, herrors hasks, rfl, hnext, hcongested⟩

theorem asks_of_famine (hc : Agent.ofConfig config = .ok first.agent)
    (hf : first.host.advertiser.failure ≠ none) (hretries : first.agent.Retries) (n : Nat) :
    let s := first.run (famine config.threshold.denominator n)
    let past := first.history [] (famine config.threshold.denominator n)
    past.reports.length = n ∧
      (∀ report ∈ past.reports, report.verdict.selfCongested = true ∧ report.asks = true) ∧
      ∃ report, (s.agent.tick s.host).1 = some report ∧ report.asks = true := by
  induction n with
  | zero =>
    refine ⟨rfl, nofun, ?_⟩
    obtain ⟨report, hreport, hcongested, -⟩ := (Starved.famine hc hf 0).tick
    have hnextAllowed : (first.run (famine config.threshold.denominator 0)).agent.engine.pacer.nextAllowed =
        .zero := by
      change first.agent.engine.pacer.nextAllowed = .zero
      rw [Agent.ofConfig_eq_ok hc]
      rfl
    refine ⟨report, hreport, ?_⟩
    rw [Agent.asks_of_tick hreport hcongested, decide_eq_true_iff, hnextAllowed]
    exact Nat.zero_le _
  | succ n ih =>
    obtain ⟨hlength, hall, refusal, hrefusal, hasks⟩ := ih
    have hcongested : refusal.verdict.selfCongested = true := by
      obtain ⟨report, hreport, hcongested, -⟩ := (Starved.famine hc hf n).tick
      rwa [Option.some.inj (hrefusal.symm.trans hreport)]
    -- The refusal of this interval has the next one ask again.
    obtain ⟨next, -, hrefuses⟩ := refuses_of_famine hc hf hrefusal hasks
    have hreports : (first.history [] (famine config.threshold.denominator (n + 1))).reports =
        refusal :: (first.history [] (famine config.threshold.denominator n)).reports := by
      rw [famine, history_append]
      exact (History.reports_cons_of_none rfl).trans (History.reports_cons_of_some hrefusal)
    dsimp only
    rw [hreports]
    exact ⟨congrArg Nat.succ hlength, List.forall_mem_cons.2 ⟨⟨hcongested, hasks⟩, hall⟩, next,
      hrefuses.next_eq, hretries first.host _ _ refusal next hrefuses⟩

/-- The waits of a long famine outgrow the interval, unless they are bounded by it, and then an interval
does not ask. -/
theorem not_retries {agent : Agent} (hc : Agent.ofConfig config = .ok agent)
    (hmin : config.pacing.minInterval ≠ .zero)
    (hmax : config.interval.duration < config.pacing.maxInterval) : ¬agent.Retries := by
  intro hretries
  let host : SessionHost NeighborTable := ⟨.empty 0, .empty 0, ⟨.lowered, some "down"⟩, .idle⟩
  let first : Node NeighborTable RouteList UnreliableFlag CountingTimer := ⟨agent, host⟩
  have hf : first.host.advertiser.failure ≠ none := nofun
  have hfirst : Agent.ofConfig config = .ok first.agent := hc
  have hinterval := DetectionInterval.nanos_le (Config.check_eq_ok (Agent.ofConfig_eq_ok_iff.1 hc).1).1
  -- The longest interval has less than 2 ^ 45 nanoseconds, so the wait after 46 refusals exceeds it.
  obtain ⟨-, -, refusal, hrefusal, hasks⟩ := asks_of_famine hfirst hf hretries 45
  obtain ⟨next, helapsed, hrefuses⟩ := refuses_of_famine hfirst hf hrefusal hasks
  obtain ⟨hlength, hall, -⟩ := asks_of_famine hfirst hf hretries 46
  have hpast : (first.history [] (famine config.threshold.denominator 46)).reports =
      (first.history [] (famine config.threshold.denominator 45 ++ [.agent .tick])).reports := by
    rw [famine, history_append, history_append]
    exact History.reports_cons_of_none rfl
  have hasked :
      History.asked (first.history [] (famine config.threshold.denominator 45 ++ [.agent .tick])) = 46 := by
    rw [← hlength, ← History.asked_eq_length hall, History.asked, History.asked, hpast]
  rcases (hrefuses.asks_iff hfirst).1 (hretries host _ _ refusal next hrefuses) with hwait | hend
  · rw [hasked] at hwait
    have hshort : config.interval.duration.nanos < 2 ^ (46 - 1) :=
      Nat.lt_of_le_of_lt hinterval (by decide)
    exact absurd hwait (Nat.not_le.2 (Pacing.lt_wait hmin hmax hshort))
  · rw [hend] at helapsed
    have hlong : (45 + 2) * (2 ^ DetectionInterval.maxExponent * Duration.nanosPerSecond) <
        Duration.longest.nanos := by decide
    omega

end Node

/-- After an interval whose notification was refused, the next one with congestion asks again if the wait
is over by then that the number of the refused notification in its episode tells, or the clock is at its
end. This is so in every run exactly if there is no wait or none that is longer than an interval. -/
theorem Agent.refused_asked_again_iff {config : Config} {agent : Agent}
    (hc : Agent.ofConfig config = .ok agent) :
    (∀ {ν ρ α τ : Type} [Neighborhood ν] [RouteStore ρ] [Advertiser α] [IntervalTimer τ]
      (host : Host ν ρ α τ) (earlier between : List (NodeEvent ν ρ α τ)) (refusal next : TickReport),
      Node.Refuses ⟨agent, host⟩ earlier between refusal next →
      let number := History.asked (Node.history ⟨agent, host⟩ [] (earlier ++ [.agent .tick]))
      (next.asks = true ↔
        config.pacing.wait number ≤ config.interval.duration ∨ next.elapsed = .longest)) ∧
    (agent.Retries ↔ config.pacing.minInterval = .zero ∨
      config.pacing.maxInterval ≤ config.interval.duration) := by
  refine ⟨fun host earlier between refusal next h => h.asks_iff hc, fun hretries => ?_,
    fun hpacing => ?_⟩
  · by_contra hlong
    obtain ⟨hmin, hmax⟩ := not_or.1 hlong
    exact Node.not_retries hc hmin (Nat.lt_of_not_le hmax) hretries
  · intro ν ρ α τ _ _ _ _ host earlier between refusal next h
    exact (h.asks_iff hc).2 (.inl (Pacing.wait_le hpacing _))

/-- A shortest wait as long as an interval: the first notification of an episode, if refused, is asked
for again right away, but not every later one is. -/
theorem Agent.refused_asked_again_iff_first :
    let config : Config := { Config.standard with pacing := ⟨.ofSeconds 32, .ofSeconds 256⟩ }
    let agent : Agent := ⟨config, .ofConfig config, .zero, none⟩
    let host : SessionHost NeighborTable := ⟨.empty 1, .empty 1, ⟨.lowered, some "down"⟩, .idle⟩
    let earlier : List (NodeEvent NeighborTable RouteList UnreliableFlag CountingTimer) :=
      Node.famine 10 0
    let between : List (NodeEvent NeighborTable RouteList UnreliableFlag CountingTimer) :=
      [.ofHost (.setFailure none), .agent (.count (.expected 10))]
    let verdict : Verdict := ⟨true, false, 0, 10, 5, 0, 0⟩
    let refusal : TickReport := ⟨1, .ofSeconds 32, verdict, false, .inactive, [⟨⟨"down"⟩⟩]⟩
    let next : TickReport := ⟨2, .ofSeconds 64, verdict, true, .inactive, []⟩
    Agent.ofConfig config = .ok agent ∧ Node.Refuses ⟨agent, host⟩ earlier between refusal next ∧
      next.asks = true ∧ ¬agent.Retries := by
  intro config agent host earlier between verdict refusal next
  have hc : Agent.ofConfig config = .ok agent := Agent.ofConfig_eq_ok_iff.2 ⟨by decide, rfl⟩
  have hrefuses : Node.Refuses ⟨agent, host⟩ earlier between refusal next :=
    ⟨by decide, by decide, by decide, by decide, by decide⟩
  obtain ⟨hagain, hretries⟩ := Agent.refused_asked_again_iff hc
  exact ⟨hc, hrefuses, (hagain host earlier between refusal next hrefuses).2 (.inl (by decide)),
    fun h => absurd (hretries.1 h) (by decide)⟩

/-- A shortest wait of two intervals: the first notification is refused, and the next interval is one with
congestion in which the advertiser, in order again, is not asked. -/
theorem Agent.refused_notification_lapses :
    let config : Config := { Config.standard with pacing := ⟨.ofSeconds 64, .ofSeconds 256⟩ }
    let agent : Agent := ⟨config, .ofConfig config, .zero, none⟩
    let host : SessionHost NeighborTable := ⟨.empty 1, .empty 1, ⟨.lowered, some "down"⟩, .idle⟩
    let earlier : List (NodeEvent NeighborTable RouteList UnreliableFlag CountingTimer) :=
      Node.famine 10 0
    let between : List (NodeEvent NeighborTable RouteList UnreliableFlag CountingTimer) :=
      [.ofHost (.setFailure none), .agent (.count (.expected 10))]
    let verdict : Verdict := ⟨true, false, 0, 10, 5, 0, 0⟩
    let refusal : TickReport := ⟨1, .ofSeconds 32, verdict, false, .inactive, [⟨⟨"down"⟩⟩]⟩
    let next : TickReport := ⟨2, .ofSeconds 64, verdict, false, .inactive, []⟩
    Agent.ofConfig config = .ok agent ∧ Node.Refuses ⟨agent, host⟩ earlier between refusal next ∧
      next.asks = false ∧ ¬agent.Retries := by
  intro config agent host earlier between verdict refusal next
  have hc : Agent.ofConfig config = .ok agent := Agent.ofConfig_eq_ok_iff.2 ⟨by decide, rfl⟩
  have hrefuses : Node.Refuses ⟨agent, host⟩ earlier between refusal next :=
    ⟨by decide, by decide, by decide, by decide, by decide⟩
  exact ⟨hc, hrefuses, rfl,
    fun h => absurd (h host earlier between refusal next hrefuses) Bool.false_ne_true⟩

end CongestionRouting
