import CongestionRouting.Agent

namespace CongestionRouting.Agent

variable {ν ρ α τ : Type} [Neighborhood ν] [RouteStore ρ] {a : Agent} {host : Host ν ρ α τ}

section Tick

variable [Advertiser α] [IntervalTimer τ]

/-- The end of an interval of a running agent: the verdict and the review of the detour are those of
the state before, then the flags are cleared and the counts start anew. -/
structure Ticked (a : Agent) (host : Host ν ρ α τ) (report : TickReport) (a' : Agent)
    (host' : Host ν ρ α τ) : Prop where
  verdict_eq : report.verdict = a.engine.judge host.neighbors
  outcome_eq : report.outcome = (a.engine.steering.endInterval host.neighbors host.routes).1
  notify_eq : (report.notified, report.errors, a'.engine.pacer, host'.advertiser) =
    Engine.notify a.engine.pacer a.engine.clock.advance.elapsed report.verdict.selfCongested
      host.advertiser
  engine_eq : a'.engine = { a.engine with
    counters := a.engine.counters.restart
    pacer := a'.engine.pacer
    steering := (a.engine.steering.endInterval host.neighbors host.routes).2.1
    clock := a.engine.clock.advance }
  config_eq : a'.config = a.config
  tally_eq : a'.tally = a.tally.addTick report
  neighbors_eq : host'.neighbors = Neighborhood.clearFlags host.neighbors
  routes_eq : host'.routes = (a.engine.steering.endInterval host.neighbors host.routes).2.2

theorem tick_of_running (host : Host ν ρ α τ) (hr : a.isRunning = true) :
    ∃ report, (a.tick host).1 = some report ∧
      Ticked a host report (a.tick host).2.1 (a.tick host).2.2 := by
  have hclock : a.engine.clock.running = true := hr
  unfold tick Engine.tick
  simp only [hclock, Bool.not_true, Bool.false_eq_true, if_false]
  exact ⟨_, rfl, rfl, rfl, rfl, rfl, rfl, rfl, rfl, rfl⟩

theorem tick_of_stopped (hr : a.isRunning = false) : a.tick host = (none, a, host) := by
  have hclock : a.engine.clock.running = false := hr
  unfold tick Engine.tick
  simp only [hclock, Bool.not_false, if_true]

theorem tick_of_none (ht : (a.tick host).1 = none) : a.tick host = (none, a, host) := by
  cases hr : a.isRunning with
  | false => exact tick_of_stopped hr
  | true =>
    obtain ⟨report, hreport, -⟩ := tick_of_running host hr
    exact absurd (hreport.symm.trans ht) nofun

theorem clock_of_tick {report : TickReport} (ht : (a.tick host).1 = some report) :
    a.isRunning = true ∧ report.tick = a.engine.clock.ticks + 1 ∧
      report.elapsed = a.engine.clock.advance.elapsed ∧
      (a.tick host).2.2.timer = IntervalTimer.rearm host.timer := by
  cases hr : a.isRunning with
  | false =>
    rw [tick_of_stopped hr] at ht
    exact absurd ht nofun
  | true =>
    have hclock : a.engine.clock.running = true := hr
    unfold tick Engine.tick at ht ⊢
    simp only [hclock, Bool.not_true, Bool.false_eq_true, if_false] at ht ⊢
    injection ht with ht
    subst ht
    exact ⟨trivial, rfl, rfl, trivial⟩

theorem number_of_tick {report : TickReport} (ht : (a.tick host).1 = some report) :
    report.tick = a.engine.clock.ticks + 1 :=
  (clock_of_tick ht).2.1

theorem ticked_of_report {report : TickReport} (ht : (a.tick host).1 = some report) :
    Ticked a host report (a.tick host).2.1 (a.tick host).2.2 := by
  obtain ⟨report', hreport, hticked⟩ := tick_of_running host (clock_of_tick ht).1
  obtain rfl : report' = report := Option.some.inj (hreport.symm.trans ht)
  exact hticked

theorem lastVerdict_of_tick {report : TickReport} (ht : (a.tick host).1 = some report) :
    (a.tick host).2.1.lastVerdict = some report.verdict := by
  unfold tick at ht ⊢
  generalize a.engine.tick host = ticked at ht ⊢
  obtain ⟨_ | ended, engine, host'⟩ := ticked
  · exact absurd ht nofun
  · obtain rfl : ended = report := Option.some.inj ht
    rfl

theorem config_tick (a : Agent) (host : Host ν ρ α τ) : (a.tick host).2.1.config = a.config := by
  unfold tick
  split <;> rfl

end Tick

/-- The advertiser is called once if the pacer says so, and otherwise not. The report tells of the call. -/
theorem Ticked.call_cases [Advertiser α] {host' : Host ν ρ α τ} {report : TickReport} {a' : Agent}
    (h : Ticked a host report a' host') :
    let asked := a.engine.pacer.ask a.engine.clock.advance.elapsed report.verdict.selfCongested
    a'.engine.pacer = asked.2 ∧
      ((asked.1 = false ∧ host'.advertiser = host.advertiser ∧
          report.notified = false ∧ report.errors = []) ∨
        (asked.1 = true ∧ Advertiser.schedule host.advertiser = (.ok (), host'.advertiser) ∧
          report.notified = true ∧ report.errors = []) ∨
        ∃ cause, asked.1 = true ∧
          Advertiser.schedule host.advertiser = (.error cause, host'.advertiser) ∧
          report.notified = false ∧ report.errors = [⟨cause⟩]) := by
  have hnotify := h.notify_eq
  unfold Engine.notify at hnotify
  generalize a.engine.pacer.ask a.engine.clock.advance.elapsed report.verdict.selfCongested = asked
    at hnotify ⊢
  obtain ⟨_ | _, pacer⟩ := asked
  · simp only [Prod.mk.injEq] at hnotify
    obtain ⟨hnotified, herrors, hpacer, hadvertiser⟩ := hnotify
    exact ⟨hpacer, .inl ⟨rfl, hadvertiser, hnotified, herrors⟩⟩
  · generalize Advertiser.schedule host.advertiser = scheduled at hnotify ⊢
    obtain ⟨⟨cause⟩ | ⟨⟨⟩⟩, advertiser⟩ := scheduled <;>
      simp only [Prod.mk.injEq] at hnotify <;>
      obtain ⟨hnotified, herrors, hpacer, rfl⟩ := hnotify
    · exact ⟨hpacer, .inr (.inr ⟨cause, rfl, rfl, hnotified, herrors⟩)⟩
    · exact ⟨hpacer, .inr (.inl ⟨rfl, rfl, hnotified, herrors⟩)⟩

/-- An advertisement waits from the notification on. -/
theorem Ticked.pending_eq {host host' : Host ν ρ AdvertisedFlag τ} {report : TickReport} {a' : Agent}
    (h : Ticked a host report a' host') :
    host'.advertiser.pending = (host.advertiser.pending || report.notified) := by
  rcases h.call_cases.2 with ⟨-, hsame, hnotified, -⟩ | ⟨-, hschedule, hnotified, -⟩ |
    ⟨cause, -, hschedule, -⟩
  · rw [hnotified, hsame, Bool.or_false]
  · have hraised : host'.advertiser = host.advertiser.raise := (congrArg Prod.snd hschedule).symm
    rw [hnotified, hraised, Bool.or_true]
    rfl
  · cases hschedule

def afterSignal (sender : Address) (host : Host ν ρ α τ) : Host ν ρ α τ :=
  { host with neighbors := (recordSignal sender host.neighbors).2 }

/-- A signal that leads to no answer is counted at most. Another one is counted, and has a running
agent ask for a detour. -/
theorem receiveSignal_counts (a : Agent) (sender : Address) (host : Host ν ρ α τ) :
    (∃ n, a.receiveSignal sender host =
      (none, { a with tally := { a.tally with signalsReceived := a.tally.signalsReceived + n } },
        afterSignal sender host)) ∨
    (a.isRunning = true ∧ a.receiveSignal sender host =
      (some (a.engine.request (afterSignal sender host)).1,
        { a with
          engine := (a.engine.request (afterSignal sender host)).2.1
          tally := Tally.addActivation
            { a.tally with signalsReceived := a.tally.signalsReceived + 1 } a.isActive
            (a.engine.request (afterSignal sender host)).1 },
        (a.engine.request (afterSignal sender host)).2.2)) := by
  unfold receiveSignal afterSignal
  rcases recordSignal sender host.neighbors with ⟨source, neighbors⟩
  cases source with
  | unknown => exact .inl ⟨0, rfl⟩
  | neighbor h => exact .inl ⟨1, rfl⟩
  | preferredParent h =>
    cases a.isRunning with
    | false => exact .inl ⟨1, rfl⟩
    | true => exact .inr ⟨rfl, rfl⟩

/-- Beyond its flag a signal counts for nothing, or has a running agent ask for a detour. -/
theorem receiveSignal_cases (a : Agent) (sender : Address) (host : Host ν ρ α τ) :
    (∃ tally : Tally, a.receiveSignal sender host =
        (none, { a with tally := tally }, afterSignal sender host) ∧
      tally.activations = a.tally.activations ∧ tally.deactivations = a.tally.deactivations) ∨
    (∃ tally : Tally, a.isRunning = true ∧ a.receiveSignal sender host =
        (some (a.engine.request (afterSignal sender host)).1,
          { a with
            engine := (a.engine.request (afterSignal sender host)).2.1
            tally := tally.addActivation a.isActive
              (a.engine.request (afterSignal sender host)).1 },
          (a.engine.request (afterSignal sender host)).2.2) ∧
      tally.activations = a.tally.activations ∧ tally.deactivations = a.tally.deactivations) := by
  rcases a.receiveSignal_counts sender host with ⟨n, heq⟩ | ⟨hr, heq⟩
  · exact .inl ⟨_, heq, rfl, rfl⟩
  · exact .inr ⟨_, hr, heq, rfl, rfl⟩

end CongestionRouting.Agent
