import CongestionRouting.Proofs.Node.Notifications
import CongestionRouting.Proofs.Route.Installation

namespace CongestionRouting

namespace Occurrence

/-- Whether a signal had the agent ask for a detour. -/
def requests : Occurrence → Bool
  | ⟨.agent (.signal _), .activation (some _)⟩ => true
  | _ => false

def findsDetour : Occurrence → Bool
  | ⟨.agent (.signal _), .activation (some .alreadyActive)⟩ => true
  | _ => false

variable {o : Occurrence}

theorem installs_eq_false (h : o.requests = false) : o.installs = false := by
  unfold installs
  split
  · exact absurd h nofun
  · rfl

theorem findsDetour_eq_false (h : o.requests = false) : o.findsDetour = false := by
  unfold findsDetour
  split
  · exact absurd h nofun
  · rfl

end Occurrence

namespace Steering

variable {ν ρ γ : Type} [Neighborhood ν] [RouteStore ρ] [RandomSource γ]

theorem isSome_withdraw (s : Steering) (routes : ρ) (reason : WithdrawalReason) :
    (s.withdraw routes reason).1.isSome = s.isActive ∧
      (s.withdraw routes reason).2.1.isActive = false := by
  constructor
  · unfold withdraw isActive
    cases s.detour <;> rfl
  · rw [isActive, detour_withdraw]
    rfl

theorem forget_cases (s : Steering) (h : NeighborHandle) (routes : ρ) :
    ((s.forget h routes).1 = true ∧ s.isActive = true ∧ (s.forget h routes).2.1.isActive = false) ∨
    ((s.forget h routes).1 = false ∧ (s.forget h routes).2.1 = s) := by
  unfold forget
  split
  · next hn =>
    obtain ⟨detour, hd, -⟩ := Option.map_eq_some_iff.1 hn
    obtain ⟨hsome, hidle⟩ := isSome_withdraw s routes .alternateEvicted
    have hactive : s.isActive = true := by rw [isActive, hd]; rfl
    exact .inl ⟨hsome.trans hactive, hactive, hidle⟩
  · exact .inr ⟨rfl, rfl⟩

theorem endInterval_cases (s : Steering) (table : ν) (routes : ρ) :
    ((∃ reason, (s.endInterval table routes).1 = .withdrawn reason) ∧ s.isActive = true ∧
      (s.endInterval table routes).2.1.isActive = false) ∨
    ((∀ reason, (s.endInterval table routes).1 ≠ .withdrawn reason) ∧
      (s.endInterval table routes).2.1.isActive = s.isActive) := by
  unfold endInterval
  cases hd : s.detour with
  | none =>
    refine .inr ⟨by simp, ?_⟩
    simp only [releaseHoldDown]
    split <;> rfl
  | some detour =>
    have hactive : s.isActive = true := by rw [isActive, hd]; rfl
    simp only
    split
    · next reason _ =>
      exact .inl ⟨⟨reason, rfl⟩, hactive, (isSome_withdraw s routes reason).2⟩
    · split
      · exact .inr ⟨by simp, hactive.symm⟩
      · split
        · exact .inr ⟨by simp, hactive.symm⟩
        · exact .inl ⟨⟨_, rfl⟩, hactive, (isSome_withdraw _ routes .parentUncongested).2⟩

end Steering

/-- A request that found no detour in order is an activation or is skipped, and a detour that there was is
given up. -/
theorem Tally.addActivation_cases (t : Tally) (wasActive : Bool) {activation : Activation}
    (hne : activation ≠ .alreadyActive) :
    let t' := t.addActivation wasActive activation
    t'.activations = t.activations + activation.isInstalled.toNat ∧
      t'.deactivations = t.deactivations + wasActive.toNat ∧
      t'.activations + t'.activationsSkipped = t.activations + t.activationsSkipped + 1 ∧
      t'.signalsReceived = t.signalsReceived := by
  cases activation with
  | alreadyActive => exact absurd rfl hne
  | installed _ => exact ⟨rfl, rfl, Nat.add_right_comm _ _ _, rfl⟩
  | suppressed | noParent | noCandidate | routeRejected _ => exact ⟨rfl, rfl, rfl, rfl⟩

namespace Agent

/-- Activations, deactivations and requests are accounted for. -/
structure Balanced (past : History) (a : Agent) : Prop where
  activations_eq : a.tally.activations = past.countP Occurrence.installs
  balance_eq : a.tally.activations = a.tally.deactivations + a.isActive.toNat
  requests_eq : past.countP Occurrence.requests =
    a.tally.activations + a.tally.activationsSkipped + past.countP Occurrence.findsDetour
  requests_le : past.countP Occurrence.requests ≤ a.tally.signalsReceived

namespace Balanced

variable {ν ρ α τ : Type} [RouteStore ρ] {config : Config} {past : History} {a a' : Agent}
  {host : Host ν ρ α τ} {o : Occurrence}

theorem start (hc : Agent.ofConfig config = .ok a) : a.Balanced [] := by
  rw [Agent.ofConfig_eq_ok hc]
  exact ⟨rfl, rfl, rfl, Nat.le_refl 0⟩

theorem quiet (h : a.Balanced past) (ho : o.requests = false)
    (hactivations : a'.tally.activations = a.tally.activations)
    (hskipped : a'.tally.activationsSkipped = a.tally.activationsSkipped)
    (hsignals : a.tally.signalsReceived ≤ a'.tally.signalsReceived)
    (hbalance : a'.tally.deactivations + a'.isActive.toNat =
      a.tally.deactivations + a.isActive.toNat) :
    a'.Balanced (o :: past) := by
  have hinstalls := Occurrence.installs_eq_false ho
  have hfinds := Occurrence.findsDetour_eq_false ho
  refine ⟨?_, ?_, ?_, ?_⟩
  · rw [hactivations, countP_cons_toNat, hinstalls]
    exact h.activations_eq
  · rw [hactivations, hbalance, h.balance_eq]
  · rw [hactivations, hskipped, countP_cons_toNat, countP_cons_toNat, ho, hfinds]
    exact h.requests_eq
  · rw [countP_cons_toNat, ho]
    exact h.requests_le.trans hsignals

theorem withdraw (h : a.Balanced past) (ho : o.requests = false) (reason : WithdrawalReason)
    (hsteering : a'.engine.steering = (a.engine.steering.withdraw host.routes reason).2.1)
    (htally : a'.tally = a.tally.addDeactivation
      (a.engine.steering.withdraw host.routes reason).1.isSome) :
    a'.Balanced (o :: past) := by
  obtain ⟨hsome, hidle⟩ := a.engine.steering.isSome_withdraw host.routes reason
  have hactive : a'.isActive = false := by rw [isActive, hsteering, hidle]
  refine h.quiet ho ?_ ?_ ?_ ?_
  · rw [htally]; rfl
  · rw [htally]; rfl
  · rw [htally]; exact Nat.le_refl _
  · rw [htally, hactive, hsome]; rfl

theorem forget (h : a.Balanced past) (neighbor : NeighborHandle) (answer : Answer) :
    (a.forget neighbor host).2.1.Balanced (⟨.agent (.forget neighbor), answer⟩ :: past) := by
  refine h.quiet rfl rfl rfl (Nat.le_refl _) ?_
  simp only [Agent.forget, Engine.forget, Tally.addDeactivation, isActive]
  rcases a.engine.steering.forget_cases neighbor host.routes with
    ⟨hwithdrawn, hactive, hidle⟩ | ⟨hkept, hsame⟩
  · rw [hwithdrawn, hidle, hactive]; rfl
  · rw [hkept, hsame]; rfl

/-- A request that finds no detour in order is an activation or is skipped, and gives up the detour
there was. -/
theorem request (h : a.Balanced past) (sender : Address) {activation : Activation}
    (hactive : (activation = .alreadyActive ∧ a'.isActive = a.isActive) ∨
      (activation ≠ .alreadyActive ∧ a'.isActive = activation.isInstalled))
    (htally : a'.tally = Tally.addActivation
      { a.tally with signalsReceived := a.tally.signalsReceived + 1 } a.isActive activation) :
    a'.Balanced (⟨.agent (.signal sender), .activation (some activation)⟩ :: past) := by
  rcases hactive with ⟨rfl, hsame⟩ | ⟨hne, hinstalled⟩
  · refine ⟨?_, ?_, ?_, ?_⟩
    · rw [htally, countP_cons_toNat]
      exact h.activations_eq
    · rw [htally, hsame]
      exact h.balance_eq
    · rw [htally, countP_cons_toNat, countP_cons_toNat, h.requests_eq]
      rfl
    · rw [htally, countP_cons_toNat]
      exact Nat.succ_le_succ h.requests_le
  · obtain ⟨hactivations, hgiven, hmade, hsignals⟩ := Tally.addActivation_cases
      { a.tally with signalsReceived := a.tally.signalsReceived + 1 } a.isActive hne
    rw [← htally] at hactivations hgiven hmade hsignals
    -- Only one of the answers says that a detour was found in order.
    have hfinds : (⟨.agent (.signal sender), .activation (some activation)⟩ : Occurrence).findsDetour =
        false := by
      cases activation with
      | alreadyActive => exact absurd rfl hne
      | installed _ | suppressed | noParent | noCandidate | routeRejected _ => rfl
    refine ⟨?_, ?_, ?_, ?_⟩
    · rw [hactivations, countP_cons_toNat]
      exact congrArg (· + activation.isInstalled.toNat) h.activations_eq
    · rw [hactivations, hgiven, hinstalled]
      exact congrArg (· + activation.isInstalled.toNat) h.balance_eq
    · rw [hmade, countP_cons_toNat, countP_cons_toNat, hfinds, h.requests_eq]
      exact Nat.add_right_comm _ _ _
    · rw [hsignals, countP_cons_toNat]
      exact Nat.succ_le_succ h.requests_le

variable [Neighborhood ν]

theorem receiveSignal (h : a.Balanced past) (sender : Address) :
    (a.receiveSignal sender host).2.1.Balanced
      (⟨.agent (.signal sender), .activation (a.receiveSignal sender host).1⟩ :: past) := by
  rcases a.receiveSignal_counts sender host with ⟨n, heq⟩ | ⟨-, heq⟩
  · rw [heq]
    exact h.quiet rfl rfl rfl (Nat.le_add_right _ _) rfl
  · rw [heq]
    refine h.request sender ?_ rfl
    rcases a.engine.steering.request_cases (afterSignal sender host).neighbors
      (afterSignal sender host).routes a.engine.random with ⟨hfound, -, hsame⟩ | ⟨hne, hactive⟩
    · exact .inl ⟨hfound, congrArg Steering.isActive hsame⟩
    · exact .inr ⟨hne, hactive⟩

variable [Advertiser α] [IntervalTimer τ]

theorem tick (h : a.Balanced past) :
    (a.tick host).2.1.Balanced (⟨.agent .tick, .report (a.tick host).1⟩ :: past) := by
  cases hreport : (a.tick host).1 with
  | none =>
    simp only [tick_of_none hreport]
    exact h.quiet rfl rfl rfl (Nat.le_refl _) rfl
  | some report =>
    have hticked := ticked_of_report hreport
    refine h.quiet rfl ?_ ?_ ?_ ?_
    · rw [hticked.tally_eq]; rfl
    · rw [hticked.tally_eq]; rfl
    · rw [hticked.tally_eq]; exact Nat.le_refl _
    · rw [hticked.tally_eq, isActive, hticked.engine_eq, Tally.addTick, hticked.outcome_eq, isActive]
      rcases a.engine.steering.endInterval_cases host.neighbors host.routes with
        ⟨⟨reason, hwithdrawn⟩, hactive, hidle⟩ | ⟨hkept, hsame⟩
      · rw [hwithdrawn, hidle, hactive]; rfl
      · simp only [hsame]
        rfl

theorem step (h : a.Balanced past) (event : AgentEvent) :
    (a.step host event).2.1.Balanced (⟨.agent event, (a.step host event).1⟩ :: past) := by
  cases event with
  | tick => exact h.tick
  | signal sender => exact h.receiveSignal sender
  | stop =>
    have hsteering : (a.stop host).1.engine.steering =
      (a.engine.steering.withdraw host.routes .shutdown).2.1 := rfl
    exact h.withdraw rfl .shutdown hsteering rfl
  | forget neighbor => exact h.forget neighbor _
  | receiveReport message offset =>
    simp only [Agent.step, Agent.receiveReport]
    split <;> exact h.quiet rfl rfl rfl (Nat.le_refl _) rfl
  | start | count _ | reseed _ | makeReport => exact h.quiet rfl rfl rfl (Nat.le_refl _) rfl

end Balanced

end Agent

namespace Node

variable {ν ρ α τ : Type} [Neighborhood ν] [RouteStore ρ] [Advertiser α] [IntervalTimer τ]

/-- On any host, whatever it does in between: every installed detour is taken away once or is still
there; a request installs a detour, finds one in order or is skipped; and each interval for which the
pacer, asked for all intervals so far, had a notification due, sent it or failed to. -/
theorem tally_balances {config : Config} {agent : Agent} (hc : Agent.ofConfig config = .ok agent)
    (host : Host ν ρ α τ) (events : List (NodeEvent ν ρ α τ)) :
    let first : Node ν ρ α τ := ⟨agent, host⟩
    let a := (first.run events).agent
    let past := first.history [] events
    let due := ((Pacer.start config.pacing).log past.polls).countP Prod.snd
    a.tally.activations = a.tally.deactivations + (if a.isActive then 1 else 0) ∧
      a.tally.activations = past.countP Occurrence.installs ∧
      past.countP Occurrence.requests =
        a.tally.activations + a.tally.activationsSkipped + past.countP Occurrence.findsDetour ∧
      past.countP Occurrence.requests ≤ a.tally.signalsReceived ∧
      a.tally.notifications + a.tally.notificationFailures = due ∧
      due ≤ past.reports.countP fun report => report.verdict.selfCongested := by
  intro first a past due
  have hpolled : a.Polled config past := polled_run (s := first) (.start hc) events
  have hbalanced : a.Balanced past :=
    run_induction (s := first) (P := fun past a => a.Balanced past)
      (fun _ _ _ event h => h.step event) (.start hc) events
  have hdue : due = past.reports.countP TickReport.asks := by
    dsimp only [due]
    rw [hpolled.log_eq, List.countP_map, List.countP_reverse]
    rfl
  refine ⟨?_, hbalanced.activations_eq, hbalanced.requests_eq, hbalanced.requests_le,
    hpolled.asks_eq.trans hdue.symm, ?_⟩
  · rw [hbalanced.balance_eq]
    cases a.isActive <;> rfl
  · rw [hdue]
    exact List.countP_mono_left hpolled.congested_of_asks

/-- A detour that goes with its neighbor, a request for which there is no other one, a second detour that
is found in order twice, and a notification that is refused before one is sent. -/
theorem tally_balances_mixed :
    let hop (n : UInt16) : Address := ⟨#v[0xfe80, 0, 0, 0, 0, 0, 0, n]⟩
    let agent : Agent := ⟨.standard, .ofConfig .standard, .zero, none⟩
    let host : SessionHost NeighborTable := ⟨.empty 4, .empty 2, .lowered, .idle⟩
    let first : Node NeighborTable RouteList UnreliableFlag CountingTimer := ⟨agent, host⟩
    let events : List (NodeEvent NeighborTable RouteList UnreliableFlag CountingTimer) :=
      [.ofHost (.insertNeighbor (hop 1) true), .ofHost (.insertNeighbor (hop 2) true),
        .ofHost (.setPreferredParent (some ⟨0, 0⟩)), .agent .start,
        .agent (.signal (hop 1)), .agent (.signal (hop 1)),
        .ofHost (.removeNeighbor ⟨1, 0⟩), .agent (.forget ⟨1, 0⟩), .agent (.signal (hop 1)),
        .ofHost (.insertNeighbor (hop 3) true), .agent (.signal (hop 1)),
        .ofHost (.setFailure (some "down")), .agent (.count (.expected 10)), .agent .tick,
        .ofHost (.setFailure none), .agent (.signal (hop 1)), .agent (.count (.expected 10)),
        .agent .tick]
    let a := (first.run events).agent
    let past := first.history [] events
    Agent.ofConfig .standard = .ok agent ∧ a.isActive = true ∧
      a.tally = { Tally.zero with
        notifications := 1, notificationFailures := 1, signalsReceived := 5
        activations := 2, activationsSkipped := 1, deactivations := 1 } ∧
      past.countP Occurrence.requests = 5 ∧ past.countP Occurrence.findsDetour = 2 ∧
      a.tally.notifications + a.tally.notificationFailures =
        ((Pacer.start Config.standard.pacing).log past.polls).countP Prod.snd := by
  intro hop agent host first events a past
  have hc : Agent.ofConfig .standard = .ok agent := rfl
  obtain ⟨-, -, -, -, hdue, -⟩ := tally_balances hc host events
  refine ⟨hc, by decide, by decide, by decide, by decide, ?_⟩
  dsimp only [a, past, first]
  exact hdue

end Node

end CongestionRouting
