import CongestionRouting.Proofs.Session.Lifetime

namespace CongestionRouting

namespace Occurrence

/-- The number of an interval at whose end the detour was withdrawn because the parent recovered. -/
def recovery? : Occurrence → Option Nat
  | ⟨.agent .tick, .report (some report)⟩ =>
    if report.outcome = .withdrawn .parentUncongested then some report.tick.toNat else none
  | _ => none

theorem recovery?_eq_none {o : Occurrence} (he : o.endsInterval = false) : o.recovery? = none := by
  unfold recovery?
  split
  · exact absurd he nofun
  · rfl

end Occurrence

namespace History

def intervals (past : History) : Nat := past.countP Occurrence.endsInterval

def recoveries (past : History) : List Nat := past.filterMap Occurrence.recovery?

variable {past : History} {o : Occurrence}

theorem intervals_cons (o : Occurrence) (past : History) :
    intervals (o :: past) = past.intervals + o.endsInterval.toNat := by
  unfold intervals
  cases he : o.endsInterval <;> simp [he]

theorem recoveries_cons (o : Occurrence) (past : History) :
    recoveries (o :: past) = o.recovery?.toList ++ past.recoveries := by
  unfold recoveries
  cases hr : o.recovery? <;> simp [hr]

end History

/-- The intervals between two recoveries that each take away a detour. -/
def Hysteresis.gap (h : Hysteresis) : Nat :=
  h.holdDownIntervals.toNat + max 1 h.minActiveIntervals.toNat

def SteeringEvent.isEnd {ν ρ γ : Type} : SteeringEvent ν ρ γ → Bool
  | .endInterval _ _ => true
  | _ => false

namespace Phase

variable {h : Hysteresis}

/-- How many intervals have to end, at the least, before a recovery of the parent can take a detour
away. -/
def wait : Phase h → Nat
  | .idle => max 1 h.minActiveIntervals.toNat
  | .held left _ _ => left + max 1 h.minActiveIntervals.toNat
  | .active _ intervals => max 1 (h.minActiveIntervals.toNat - intervals)

theorem wait_recovered : (recovered (h := h)).wait = h.gap := by
  unfold recovered
  split
  · rfl
  · next hpos =>
    -- Without hold-down the idle phase follows at once.
    have : h.holdDownIntervals.toNat = 0 := Nat.eq_zero_of_not_pos hpos
    simp only [wait, Hysteresis.gap]
    omega

theorem wait_settle (offer : Offer) : (settle (h := h) offer).wait = (idle (h := h)).wait := by
  cases offer <;> rfl

theorem wait_active_le (detour : Detour) (intervals : Nat) :
    (active (h := h) detour intervals).wait ≤ (idle (h := h)).wait := by
  simp only [wait]
  omega

theorem wait_afterWithdrawal (reason : WithdrawalReason) :
    (idle (h := h)).wait ≤ (afterWithdrawal (h := h) reason).wait := by
  unfold afterWithdrawal
  split
  · rw [wait_recovered]
    exact Nat.le_add_left _ _
  · exact Nat.le_refl _

theorem wait_le_release (p : Phase h) : p.wait ≤ p.release.wait + 1 := by
  cases p with
  | idle | active detour intervals => exact Nat.le_succ _
  | held left left_pos left_le =>
    cases left with
    | zero => exact absurd left_pos (Nat.lt_irrefl 0)
    | succ left =>
      simp only [release]
      split <;> simp only [wait] <;> omega

section Steps

variable {ν ρ γ : Type} [Neighborhood ν] [RouteStore ρ] [RandomSource γ]

/-- The end of an interval shortens the wait by one at the most. -/
theorem wait_le_endInterval (p : Phase h) (table : ν) :
    p.wait ≤ (p.endInterval table).2.wait + 1 := by
  cases p with
  | idle | held left left_pos left_le => exact wait_le_release _
  | active detour intervals =>
    have hidle := wait_active_le (h := h) detour intervals
    have hrecovered := wait_afterWithdrawal (h := h) .parentUncongested
    have hnext : (active (h := h) detour intervals).wait ≤
        (active (h := h) detour (intervals + 1)).wait + 1 := by
      simp only [wait]
      omega
    -- Without its detour the phase has at least as long to wait.
    rw [afterWithdrawal, if_pos rfl] at hrecovered
    simp only [endInterval]
    split
    · split
      · exact hnext
      · split
        · exact hnext
        · exact Nat.le_succ_of_le (Nat.le_trans hidle hrecovered)
    · exact Nat.le_succ_of_le hidle

/-- A recovery takes a detour away only when there is no more to wait for. -/
theorem endInterval_recovered {p : Phase h} {table : ν}
    (hp : (p.endInterval table).1 = .withdrawn .parentUncongested) :
    p.wait = 1 ∧ (p.endInterval table).2 = recovered := by
  cases p with
  | idle | held left left_pos left_le => simp [endInterval] at hp
  | active detour intervals =>
    by_cases hfit : detour.Fit table
    · simp only [endInterval, if_pos hfit] at hp ⊢
      by_cases hflag : ParentFlagged table
      · simp [hflag] at hp
      · by_cases hmin : intervals + 1 < h.minActiveIntervals.toNat
        · simp [hflag, hmin] at hp
        · rw [if_neg hflag, if_neg hmin]
          refine ⟨?_, rfl⟩
          simp only [wait]
          omega
    · simp only [endInterval, if_neg hfit, IntervalOutcome.withdrawn.injEq] at hp
      exact absurd hp (detour.defect_ne_parentUncongested table)

theorem wait_le_step (policy : SelectionPolicy) (priority : RoutePriority) (p : Phase h)
    {event : SteeringEvent ν ρ γ} (he : event.isEnd = false) :
    p.wait ≤ (p.step policy priority event).2.wait := by
  cases event with
  | endInterval table routes => exact absurd he nofun
  | request table routes random =>
    cases p with
    | idle => exact Nat.le_of_eq (wait_settle _).symm
    | held left left_pos left_le => exact Nat.le_refl _
    | active detour intervals =>
      simp only [step, request]
      split
      · exact Nat.le_refl _
      · rw [wait_settle]
        exact wait_active_le detour intervals
  | withdraw routes reason =>
    cases p with
    | idle | held left left_pos left_le => exact Nat.le_refl _
    | active detour intervals =>
      exact Nat.le_trans (wait_active_le detour intervals) (wait_afterWithdrawal reason)
  | forget neighbor routes =>
    cases p with
    | idle | held left left_pos left_le => exact Nat.le_refl _
    | active detour intervals =>
      simp only [step, forget]
      split
      · exact wait_active_le detour intervals
      · exact Nat.le_refl _

end Steps

/-- The recoveries of the past lie apart, and the next one has to wait as well. -/
structure Damps (past : History) (p : Phase h) : Prop where
  apart : past.recoveries.Pairwise fun later earlier => earlier + h.gap ≤ later
  waits : ∀ n ∈ past.recoveries, n + h.gap ≤ past.intervals + p.wait

namespace Damps

variable {past : History} {p p' : Phase h} {o : Occurrence}

theorem quiet (hp : p.Damps past) (he : o.endsInterval = false) (hw : p.wait ≤ p'.wait) :
    p'.Damps (o :: past) := by
  have hrecoveries : History.recoveries (o :: past) = past.recoveries := by
    rw [History.recoveries_cons, Occurrence.recovery?_eq_none he]
    rfl
  have hintervals : History.intervals (o :: past) = past.intervals := by
    rw [History.intervals_cons, he]
    rfl
  refine ⟨hrecoveries ▸ hp.apart, fun n hn => ?_⟩
  rw [hintervals]
  exact Nat.le_trans (hp.waits n (hrecoveries ▸ hn)) (Nat.add_le_add_left hw _)

theorem endInterval {ν : Type} [Neighborhood ν] (hp : p.Damps past) (table : ν)
    {report : TickReport} (htick : report.tick.toNat = past.intervals + 1)
    (houtcome : report.outcome = (p.endInterval table).1) :
    (p.endInterval table).2.Damps (⟨.agent .tick, .report (some report)⟩ :: past) := by
  have hintervals : History.intervals (⟨.agent .tick, .report (some report)⟩ :: past) =
      past.intervals + 1 := by
    rw [History.intervals_cons]
    rfl
  have hwait := p.wait_le_endInterval table
  by_cases hr : report.outcome = .withdrawn .parentUncongested
  · -- The new recovery comes when the earlier ones have been waited for.
    obtain ⟨hdue, hrecovered⟩ := endInterval_recovered (houtcome ▸ hr)
    have hrecoveries : History.recoveries (⟨.agent .tick, .report (some report)⟩ :: past) =
        (past.intervals + 1) :: past.recoveries := by
      simp only [History.recoveries_cons, Occurrence.recovery?, if_pos hr, htick,
        Option.toList_some, List.singleton_append]
    have hapart : ∀ n ∈ past.recoveries, n + h.gap ≤ past.intervals + 1 := fun n hn =>
      hdue ▸ hp.waits n hn
    refine ⟨hrecoveries ▸ List.pairwise_cons.2 ⟨hapart, hp.apart⟩, fun n hn => ?_⟩
    rw [hintervals, hrecovered, wait_recovered]
    rcases List.mem_cons.1 (hrecoveries ▸ hn) with rfl | hn
    · exact Nat.le_refl _
    · exact Nat.le_trans (hapart n hn) (Nat.le_add_right _ _)
  · have hrecoveries : History.recoveries (⟨.agent .tick, .report (some report)⟩ :: past) =
        past.recoveries := by
      simp only [History.recoveries_cons, Occurrence.recovery?, if_neg hr, Option.toList_none,
        List.nil_append]
    refine ⟨hrecoveries ▸ hp.apart, fun n hn => ?_⟩
    have := hp.waits n (hrecoveries ▸ hn)
    rw [hintervals]
    omega

end Damps

end Phase

/-- The agent steers in a phase that damps, and it numbers the intervals. -/
def Agent.Damped (config : Config) (past : History) (a : Agent) : Prop :=
  a.engine.clock.ticks = UInt64.ofNat past.intervals ∧
    ∃ p : Phase config.hysteresis,
      a.engine.steering = p.steering config.policy config.priority ∧ p.Damps past

namespace Agent.Damped

variable {ν ρ α τ : Type} [Neighborhood ν] [RouteStore ρ] {config : Config} {past : History}
  {a a' : Agent} {host : Host ν ρ α τ} {o : Occurrence}

theorem start (hc : Agent.ofConfig config = .ok a) : a.Damped config [] := by
  rw [Agent.ofConfig_eq_ok hc]
  exact ⟨rfl, .idle, rfl, .nil, fun _ hn => absurd hn List.not_mem_nil⟩

theorem ticks_cons (ht : a.engine.clock.ticks = UInt64.ofNat past.intervals)
    (he : o.endsInterval = false) :
    a.engine.clock.ticks = UInt64.ofNat (History.intervals (o :: past)) := by
  rw [History.intervals_cons, he, ht]
  rfl

theorem rest (hd : a.Damped config past) (he : o.endsInterval = false)
    (hs : a'.engine.steering = a.engine.steering)
    (ht : a'.engine.clock.ticks = a.engine.clock.ticks) : a'.Damped config (o :: past) := by
  obtain ⟨hticks, p, hp, hdamps⟩ := hd
  exact ⟨ticks_cons (ht.trans hticks) he, p, hs.trans hp, hdamps.quiet he (Nat.le_refl _)⟩

theorem turn (hd : a.Damped config past) (event : SteeringEvent ν ρ ChaCha)
    (hevent : event.isEnd = false) (he : o.endsInterval = false)
    (hs : a'.engine.steering = (a.engine.steering.step event).2)
    (ht : a'.engine.clock.ticks = a.engine.clock.ticks) : a'.Damped config (o :: past) := by
  obtain ⟨hticks, p, hp, hdamps⟩ := hd
  rw [hp, Phase.step_steering] at hs
  exact ⟨ticks_cons (ht.trans hticks) he, _, hs, hdamps.quiet he (Phase.wait_le_step _ _ _ hevent)⟩

theorem receiveSignal (hd : a.Damped config past) (sender : Address) :
    (a.receiveSignal sender host).2.1.Damped config
      (⟨.agent (.signal sender), .activation (a.receiveSignal sender host).1⟩ :: past) := by
  rcases a.receiveSignal_cases sender host with ⟨tally, heq, -⟩ | ⟨tally, -, heq, -⟩
  · rw [heq]
    exact hd.rest rfl rfl rfl
  · rw [heq]
    exact hd.turn (.request (afterSignal sender host).neighbors (afterSignal sender host).routes
      a.engine.random) rfl rfl rfl rfl

variable [Advertiser α] [IntervalTimer τ]

theorem tick (hd : a.Damped config past)
    (hbound : History.intervals (⟨.agent .tick, .report (a.tick host).1⟩ :: past) < UInt64.size) :
    (a.tick host).2.1.Damped config (⟨.agent .tick, .report (a.tick host).1⟩ :: past) := by
  cases hr : a.isRunning with
  | false =>
    rw [Agent.tick_of_stopped hr]
    exact hd.rest rfl rfl rfl
  | true =>
    obtain ⟨hticks, p, hp, hdamps⟩ := hd
    obtain ⟨report, hreport, hticked⟩ := Agent.tick_of_running host hr
    obtain ⟨houtcome, hsteering⟩ :=
      Phase.endInterval_steering config.policy config.priority p host.neighbors host.routes
    rw [← hp] at houtcome hsteering
    have hlt : past.intervals + 1 < UInt64.size := by
      rwa [hreport, History.intervals_cons] at hbound
    have hnumber : a.engine.clock.ticks + 1 = UInt64.ofNat (past.intervals + 1) := by
      rw [hticks, UInt64.ofNat_add]
      rfl
    -- So few intervals have ended that their number in the report is the true one.
    have htick : report.tick.toNat = past.intervals + 1 := by
      rw [number_of_tick hreport, hnumber, UInt64.toNat_ofNat_of_lt' hlt]
    rw [hreport]
    refine ⟨?_, _, ?_, hdamps.endInterval host.neighbors htick (hticked.outcome_eq.trans houtcome)⟩
    · rw [hticked.engine_eq, History.intervals_cons]
      exact hnumber
    · rw [hticked.engine_eq, hsteering]

theorem step (hd : a.Damped config past) (event : AgentEvent)
    (hbound : History.intervals (⟨.agent event, (a.step host event).1⟩ :: past) < UInt64.size) :
    (a.step host event).2.1.Damped config (⟨.agent event, (a.step host event).1⟩ :: past) := by
  cases event with
  | tick => exact hd.tick hbound
  | signal sender => exact hd.receiveSignal sender
  | stop => exact hd.turn (ν := ν) (.withdraw host.routes .shutdown) rfl rfl rfl rfl
  | forget neighbor => exact hd.turn (ν := ν) (.forget neighbor host.routes) rfl rfl rfl rfl
  | receiveReport message offset =>
    simp only [Agent.step, Agent.receiveReport]
    split <;> exact hd.rest rfl rfl rfl
  | start | count _ | reseed _ | makeReport => exact hd.rest rfl rfl rfl

end Agent.Damped

namespace Session

variable {ν : Type} [TableHolder ν] {config : Config} {past : History} {s : Session ν}

def Damped (config : Config) (past : History) (s : Session ν) : Prop :=
  ∃ a, s.core = .agent a ∧ a.Damped config past

theorem damped_step (hd : s.Damped config past) (event : SessionEvent)
    (hbound : History.intervals (⟨event, (s.step event).1⟩ :: past) < UInt64.size) :
    (s.step event).2.Damped config (⟨event, (s.step event).1⟩ :: past) := by
  obtain ⟨a, hcore, h⟩ := hd
  cases event with
  | host event => exact ⟨a, hcore, h.rest rfl rfl rfl⟩
  | agent event =>
    simp only [step, hcore] at hbound ⊢
    exact ⟨_, rfl, h.step event hbound⟩
  | engine event =>
    simp only [step, hcore]
    exact ⟨a, hcore, h.rest rfl rfl rfl⟩

theorem damped_run (hd : s.Damped config past) {events : List SessionEvent}
    (hbound : (s.history past events).intervals < UInt64.size) :
    (s.run events).Damped config (s.history past events) := by
  induction events generalizing s past with
  | nil => exact hd
  | cons event events ih =>
    have hnext : History.intervals (⟨event, (s.step event).1⟩ :: past) < UInt64.size :=
      Nat.lt_of_le_of_lt ((s.step event).2.suffix_history _ events).sublist.countP_le hbound
    exact ih (damped_step hd event hnext) hbound

/-- The ends of intervals at which a recovered parent takes away a detour lie so far apart as the
hold-down time and the least stay of a detour together, whatever else happens in between. -/
theorem recoveries_apart {config : Config} {agent : Agent} (hc : Agent.ofConfig config = .ok agent)
    (neighbors : ν) (routes : RouteList) (events : List SessionEvent) :
    let past := (start neighbors routes (.agent agent)).history [] events
    past.intervals < UInt64.size →
      past.recoveries.Pairwise fun later earlier =>
        earlier + (config.hysteresis.holdDownIntervals.toNat +
          max 1 config.hysteresis.minActiveIntervals.toNat) ≤ later := by
  intro past hbound
  obtain ⟨a, -, -, p, -, hdamps⟩ := damped_run ⟨agent, rfl, .start hc⟩ hbound
  exact hdamps.apart

/-- The parent signals at once when the suppression is over, and falls silent at once. -/
theorem recoveries_apart_tight :
    let hop (n : UInt16) : Address := ⟨#v[0xfe80, 0, 0, 0, 0, 0, 0, n]⟩
    let config : Config := { Config.standard with hysteresis := ⟨2, 1⟩ }
    let agent : Agent := ⟨config, .ofConfig config, .zero, none⟩
    let first : Session NeighborTable := start (.empty 4) (.empty 2) (.agent agent)
    let events : List SessionEvent :=
      [.host (.insertNeighbor (hop 1) true), .host (.insertNeighbor (hop 2) true),
        .host (.setPreferredParent (some ⟨0, 0⟩)), .agent .start, .agent (.signal (hop 1)),
        .agent .tick, .agent .tick, .agent (.signal (hop 1)), .agent .tick,
        .agent (.signal (hop 1)), .agent .tick, .agent .tick]
    let past := first.history [] events
    Agent.ofConfig config = .ok agent ∧ past.intervals < UInt64.size ∧ past.recoveries = [5, 2] ∧
      past.recoveries.Pairwise fun later earlier => earlier + (1 + max 1 2) ≤ later := by
  intro hop config agent first events past
  have hc : Agent.ofConfig config = .ok agent := by
    dsimp only [config, agent]
    rfl
  have hbound : past.intervals < UInt64.size := by decide
  have hrecoveries : past.recoveries = [5, 2] := by decide
  exact ⟨hc, hbound, hrecoveries, recoveries_apart hc (.empty 4 : NeighborTable) (.empty 2) events
    hbound⟩

end Session

end CongestionRouting
