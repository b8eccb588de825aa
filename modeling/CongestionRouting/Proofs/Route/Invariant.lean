import CongestionRouting.Proofs.Route.Installation
import CongestionRouting.Session.AgentEvent

namespace CongestionRouting

variable {ν ρ γ α τ : Type} [Neighborhood ν] [RouteStore ρ] [RandomSource γ]

/-- `P` is kept by steering wherever the neighbor tables satisfy `T`. -/
structure SteeringInvariant (γ : Type) [RandomSource γ] (T : ν → Prop)
    (P : Steering → ρ → Prop) : Prop where
  drop {s : Steering} {routes : ρ} {detour : Detour} : s.detour = some detour → P s routes →
    P { s with detour := none } (RouteStore.remove routes detour.nextHop)
  install {s : Steering} {table : ν} {routes : ρ} (random : γ) : T table → s.detour = none →
    P s routes →
    P (s.install table routes random).2.1 (s.install table routes random).2.2.1
  count {s : Steering} {routes : ρ} (suppressed : Bool) (intervals holdDown : UInt32) :
    P s routes →
    P { s with suppressed := suppressed, activeIntervals := intervals, holdDown := holdDown } routes

namespace SteeringInvariant

variable {T : ν → Prop} {P : Steering → ρ → Prop} (inv : SteeringInvariant γ T P)

include inv

theorem withdraw {s : Steering} {routes : ρ} (reason : WithdrawalReason) (hp : P s routes) :
    P (s.withdraw routes reason).2.1 (s.withdraw routes reason).2.2 := by
  unfold Steering.withdraw
  cases hd : s.detour with
  | none => exact hp
  | some detour =>
    have hdrop := inv.drop hd hp
    simp only
    split
    · exact inv.count true 0 s.hysteresis.holdDownIntervals hdrop
    · exact inv.count s.suppressed 0 s.holdDown hdrop

theorem request {s : Steering} {table : ν} {routes : ρ} (random : γ) (ht : T table)
    (hp : P s routes) :
    P (s.request table routes random).2.1 (s.request table routes random).2.2.1 := by
  unfold Steering.request
  cases hd : s.detour with
  | none => exact inv.install random ht hd hp
  | some detour =>
    simp only
    split
    · exact hp
    · next reason _ =>
      exact inv.install random ht (Steering.detour_withdraw s routes reason) (inv.withdraw reason hp)

theorem endInterval {s : Steering} {routes : ρ} (table : ν) (hp : P s routes) :
    P (s.endInterval table routes).2.1 (s.endInterval table routes).2.2 := by
  unfold Steering.endInterval
  cases hd : s.detour with
  | none =>
    simp only [Steering.releaseHoldDown]
    split
    · exact inv.count _ s.activeIntervals _ hp
    · exact hp
  | some detour =>
    simp only
    split
    · next reason _ => exact inv.withdraw reason hp
    · have hcount := inv.count s.suppressed (saturate32 (s.activeIntervals.toNat + 1)) s.holdDown hp
      rw [hd] at hcount
      split
      · exact hcount
      · split
        · exact hcount
        · exact inv.withdraw .parentUncongested hcount

theorem forget {s : Steering} {routes : ρ} (h : NeighborHandle) (hp : P s routes) :
    P (s.forget h routes).2.1 (s.forget h routes).2.2 := by
  unfold Steering.forget
  split
  · exact inv.withdraw .alternateEvicted hp
  · exact hp

end SteeringInvariant

namespace Agent

variable {T : ν → Prop} {P : Steering → ρ → Prop} (inv : SteeringInvariant ChaCha T P)
  {a : Agent} {host : Host ν ρ α τ}

include inv

theorem forget_keeps (h : NeighborHandle) (hp : P a.engine.steering host.routes) :
    P (a.forget h host).2.1.engine.steering (a.forget h host).2.2.routes :=
  inv.forget h hp

theorem receiveSignal_keeps (sender : Address) (ht : T (recordSignal sender host.neighbors).2)
    (hp : P a.engine.steering host.routes) :
    P (a.receiveSignal sender host).2.1.engine.steering (a.receiveSignal sender host).2.2.routes := by
  unfold receiveSignal
  rcases hr : recordSignal sender host.neighbors with ⟨source, neighbors⟩
  rw [hr] at ht
  cases source with
  | unknown => exact hp
  | neighbor h => exact hp
  | preferredParent h =>
    simp only
    split
    · exact hp
    · exact inv.request a.engine.random ht hp

variable [IntervalTimer τ]

theorem stop_keeps (hp : P a.engine.steering host.routes) :
    P (a.stop host).1.engine.steering (a.stop host).2.routes :=
  inv.withdraw .shutdown hp

variable [Advertiser α]

theorem tick_keeps (hp : P a.engine.steering host.routes) :
    P (a.tick host).2.1.engine.steering (a.tick host).2.2.routes := by
  unfold tick Engine.tick
  by_cases hrun : a.engine.clock.running = true
  · simp only [hrun, Bool.not_true, Bool.false_eq_true, if_false]
    exact inv.endInterval host.neighbors hp
  · simp only [hrun, Bool.not_false, if_true]
    exact hp

theorem step_keeps (event : AgentEvent) (ht : ∀ sender, T (recordSignal sender host.neighbors).2)
    (hp : P a.engine.steering host.routes) :
    P (a.step host event).2.1.engine.steering (a.step host event).2.2.routes := by
  cases event with
  | start => exact hp
  | stop => exact stop_keeps inv hp
  | tick => exact tick_keeps inv hp
  | count event => exact hp
  | reseed seed => exact hp
  | forget h => exact forget_keeps inv h hp
  | signal sender => exact receiveSignal_keeps inv sender (ht sender) hp
  | makeReport => exact hp
  | receiveReport message offset =>
    simp only [step, receiveReport]
    split <;> exact hp

end Agent

end CongestionRouting
