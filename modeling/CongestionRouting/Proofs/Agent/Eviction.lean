import CongestionRouting.Proofs.Agent.Steps
import CongestionRouting.Proofs.Route.Installation
import CongestionRouting.Session.AgentEvent

namespace CongestionRouting

/-- Whether the agent, by its answer, took a look at its detour. -/
def AgentEvent.reviews : AgentEvent → Answer → Bool
  | .stop, _ => true
  | .tick, .report (some _) => true
  | .signal _, .activation (some _) => true
  | _, _ => false

namespace Steering

variable {ν ρ γ : Type} [Neighborhood ν] [RouteStore ρ] [RandomSource γ] {s : Steering}
  {detour : Detour} {table : ν}

def cleared (s : Steering) : Steering := { s with detour := none, activeIntervals := 0 }

theorem withdraw_eq_cleared (hd : s.detour = some detour) (routes : ρ) (reason : WithdrawalReason)
    (hr : reason ≠ .parentUncongested) :
    s.withdraw routes reason =
      (some detour.nextHop, s.cleared, RouteStore.remove routes detour.nextHop) := by
  have hstarts : s.startsHoldDown reason = false := by simp [startsHoldDown, hr]
  simp only [withdraw, hd, hstarts, Bool.false_eq_true, if_false]
  rfl

theorem forget_eq_cleared (hd : s.detour = some detour) (routes : ρ) :
    s.forget detour.neighbor routes =
      (true, s.cleared, RouteStore.remove routes detour.nextHop) := by
  have hwithdraw := withdraw_eq_cleared hd routes .alternateEvicted (by decide)
  simp only [forget, hd, Option.map_some, if_true, hwithdraw]
  rfl

theorem obstacle_of_gone (hg : Neighborhood.contains table detour.neighbor = false) :
    obstacle table detour = some .alternateEvicted := by
  simp only [obstacle, hg, Bool.not_false, if_true]

/-- A request makes up for what was not told. -/
theorem request_cleared (hd : s.detour = some detour)
    (hg : Neighborhood.contains table detour.neighbor = false) (routes : ρ) (random : γ) :
    s.cleared.request table (RouteStore.remove routes detour.nextHop) random =
      s.request table routes random := by
  have hwithdraw := withdraw_eq_cleared hd routes .alternateEvicted (by decide)
  simp only [request, hd, obstacle_of_gone hg, hwithdraw]
  rfl

theorem endInterval_of_gone (hd : s.detour = some detour)
    (hg : Neighborhood.contains table detour.neighbor = false) (routes : ρ) :
    s.endInterval table routes = (.withdrawn .alternateEvicted, s.cleared,
      RouteStore.remove routes detour.nextHop) := by
  have hwithdraw := withdraw_eq_cleared hd routes .alternateEvicted (by decide)
  simp only [endInterval, hd, obstacle_of_gone hg, hwithdraw]

/-- Beside a detour there is no suppression, so without it an interval ends with no change. -/
theorem endInterval_cleared (hs : s.suppressed = false) (table : ν) (routes : ρ) :
    s.cleared.endInterval table routes = (.inactive, s.cleared, routes) := by
  have hcleared : s.cleared.suppressed = false := hs
  have hidle : s.cleared.detour = none := rfl
  simp only [endInterval, hidle, releaseHoldDown, hcleared, Bool.false_eq_true, if_false]

end Steering

def Host.without {ν ρ α τ : Type} [RouteStore ρ] (detour : Detour) (host : Host ν ρ α τ) :
    Host ν ρ α τ :=
  { host with routes := RouteStore.remove host.routes detour.nextHop }

/-- It is the same whether a deactivation is counted at once, or with the activation after it. -/
theorem Tally.addActivation_given (t : Tally) {activation : Activation}
    (ha : activation ≠ .alreadyActive) :
    (t.addDeactivation true).addActivation false activation = t.addActivation true activation := by
  cases activation with
  | alreadyActive => exact absurd rfl ha
  | installed _ | suppressed | noParent | noCandidate | routeRejected _ => rfl

namespace Agent

def cleared (a : Agent) : Agent :=
  { a with
    engine := { a.engine with steering := a.engine.steering.cleared }
    tally := a.tally.addDeactivation true }

variable {ν ρ α τ : Type} [RouteStore ρ] {a : Agent} {host : Host ν ρ α τ} {detour : Detour}
  {h : NeighborHandle}

theorem forget_of_ne (hn : a.engine.steering.detour.map Detour.neighbor ≠ some h) :
    a.forget h host = (false, a, host) := by
  simp only [forget, Engine.forget, Steering.forget, hn, if_false]
  rfl

theorem forget_eq_cleared (hd : a.engine.steering.detour = some detour) :
    a.forget detour.neighbor host = (true, a.cleared, host.without detour) := by
  simp only [forget, Engine.forget, Steering.forget_eq_cleared hd]
  rfl

/-- A stop leaves no detour, whether its neighbor is still there or not. -/
theorem stop_cleared [IntervalTimer τ] (hd : a.engine.steering.detour = some detour) :
    a.cleared.stop (host.without detour) = a.stop host := by
  have hwithdraw := Steering.withdraw_eq_cleared hd host.routes .shutdown (by decide)
  simp only [stop, Engine.withdraw, hwithdraw]
  rfl

variable [Neighborhood ν]

/-- A signal of the preferred parent to a running agent makes up for what was not told. Another one
does nothing about it. -/
theorem receiveSignal_cleared (hd : a.engine.steering.detour = some detour) (sender : Address)
    (hg : Neighborhood.contains (afterSignal sender host).neighbors detour.neighbor = false) :
    a.cleared.receiveSignal sender (host.without detour) = a.receiveSignal sender host ∨
      (a.receiveSignal sender host).1 = none ∧
        (a.receiveSignal sender host).2.1.engine.steering.detour = some detour ∧
        a.cleared.receiveSignal sender (host.without detour) =
          (none, (a.receiveSignal sender host).2.1.cleared,
            (a.receiveSignal sender host).2.2.without detour) := by
  change Neighborhood.contains (recordSignal sender host.neighbors).2 _ = _ at hg
  have hneighbors : (host.without detour).neighbors = host.neighbors := rfl
  have hrunning : a.cleared.isRunning = a.isRunning := rfl
  unfold receiveSignal
  simp only [hneighbors, hrunning]
  rcases hrecord : recordSignal sender host.neighbors with ⟨source, neighbors⟩
  rw [hrecord] at hg
  cases source with
  | unknown | neighbor h => exact .inr ⟨rfl, hd, rfl⟩
  | preferredParent h =>
    cases a.isRunning with
    | false => exact .inr ⟨rfl, hd, rfl⟩
    | true =>
      have hrequest := Steering.request_cleared hd hg host.routes a.engine.random
      have hfound : (a.engine.steering.request neighbors host.routes a.engine.random).1 ≠
          .alreadyActive := by
        rw [← hrequest]
        exact Steering.install_ne_alreadyActive (γ := ChaCha) a.engine.steering.cleared _ _ _
      have hactive : a.isActive = true := by simp [isActive, Steering.isActive, hd]
      -- The attempts are the same. The deactivation was counted before the one, and is with the other.
      refine .inl ?_
      simp only [Bool.not_true, Bool.false_eq_true, if_false, Engine.request]
      dsimp only [cleared, Host.without]
      rw [hrequest, hactive, ← Tally.addActivation_given _ hfound]
      rfl

variable [Advertiser α] [IntervalTimer τ]

theorem tick_cleared (hd : a.engine.steering.detour = some detour)
    (hg : Neighborhood.contains host.neighbors detour.neighbor = false)
    (hs : a.engine.steering.suppressed = false) (hr : a.isRunning = true) :
    (a.cleared.tick (host.without detour)).2 = (a.tick host).2 := by
  have hclock : a.engine.clock.running = true := hr
  have hclock' : a.cleared.engine.clock.running = true := hr
  have hgone := Steering.endInterval_of_gone hd hg host.routes
  have hcleared := Steering.endInterval_cleared hs host.neighbors (host.without detour).routes
  simp only [tick, Engine.tick, hclock, hclock', Bool.not_true, Bool.false_eq_true, if_false]
  dsimp only [cleared, Host.without] at hcleared ⊢
  rw [hcleared, hgone]
  rfl

/-- An agent that was told of the eviction and one that was not review their detours at the same
time, and are the same from then on. Until then they differ by the detour alone. -/
theorem step_cleared (hd : a.engine.steering.detour = some detour)
    (hg : Neighborhood.contains host.neighbors detour.neighbor = false)
    (hsignal : ∀ sender,
      Neighborhood.contains (afterSignal sender host).neighbors detour.neighbor = false)
    (hs : a.engine.steering.suppressed = false) (event : AgentEvent) :
    let told := a.cleared.step (host.without detour) event
    let untold := a.step host event
    event.reviews told.1 = event.reviews untold.1 ∧
      (told.2 = untold.2 ∨ event.reviews untold.1 = false ∧
        untold.2.1.engine.steering.detour = some detour ∧
        told.2 = (untold.2.1.cleared, untold.2.2.without detour)) := by
  intro told untold
  cases event with
  | stop => exact ⟨rfl, .inl (stop_cleared hd)⟩
  | tick =>
    cases hr : a.isRunning with
    | false =>
      have htold : a.cleared.tick (host.without detour) = _ := tick_of_stopped hr
      simp only [told, untold, step, tick_of_stopped hr, htold]
      exact ⟨trivial, .inr ⟨rfl, hd, trivial⟩⟩
    | true =>
      have hsame := tick_cleared hd hg hs hr
      obtain ⟨report, hreport, -⟩ := tick_of_running host hr
      obtain ⟨report', hreport', -⟩ := tick_of_running (a := a.cleared) (host.without detour) hr
      simp only [told, untold, step, hreport, hreport', hsame]
      exact ⟨rfl, .inl trivial⟩
  | signal sender =>
    simp only [told, untold, step]
    rcases receiveSignal_cleared hd sender (hsignal sender) with heq | ⟨hnone, hdetour, heq⟩
    · rw [heq]
      exact ⟨rfl, .inl rfl⟩
    · rw [heq, hnone]
      exact ⟨rfl, .inr ⟨rfl, hdetour, rfl⟩⟩
  | forget g =>
    refine ⟨rfl, ?_⟩
    simp only [told, untold, step]
    have htold : a.cleared.forget g (host.without detour) = _ := forget_of_ne nofun
    by_cases hn : detour.neighbor = g
    · -- The agent that was not told is told now.
      subst hn
      rw [htold, forget_eq_cleared hd]
      exact .inl rfl
    · rw [htold, forget_of_ne (by rw [hd]; exact fun heq => hn (Option.some.inj heq))]
      exact .inr ⟨rfl, hd, rfl⟩
  | receiveReport message offset =>
    refine ⟨rfl, .inr ⟨rfl, ?_⟩⟩
    simp only [told, untold, step, receiveReport]
    have hconfig : a.cleared.config = a.config := rfl
    rw [hconfig]
    split <;> exact ⟨hd, rfl⟩
  | start | count _ | reseed _ | makeReport => exact ⟨rfl, .inr ⟨rfl, hd, rfl⟩⟩

end Agent

end CongestionRouting
