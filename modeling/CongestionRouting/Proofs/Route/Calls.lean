import CongestionRouting.Proofs.Route.Invariant
import CongestionRouting.Proofs.Route.Phase

namespace CongestionRouting

inductive RouteCall where
  | add (nextHop : Address) (priority : RoutePriority) (accepted : Bool)
  | remove (nextHop : Address)
  deriving DecidableEq

namespace RouteCall

/-- All but an addition that was refused. -/
def changes : RouteCall → Bool
  | .add _ _ accepted => accepted
  | .remove _ => true

/-- The calls for a route that comes and goes. -/
def stay (priority : RoutePriority) (nextHop : Address) : List RouteCall :=
  [.add nextHop priority true, .remove nextHop]

end RouteCall

/-- A keeper of routes, and the calls that were made to it, the last at the end. -/
structure RouteLog (ρ : Type) where
  store : ρ
  calls : List RouteCall

/-- The calls for the routes that came and went, and for that of the detour. -/
structure RouteCall.Paired (priority : RoutePriority) (s : Steering) (calls : List RouteCall) :
    Prop where
  priority_eq : s.priority = priority
  changes_eq : ∃ gone : List Address, calls.filter changes = gone.flatMap (stay priority) ++
    (s.detour.map fun detour => .add detour.nextHop priority true).toList
  priority_of_add : ∀ nextHop p accepted, .add nextHop p accepted ∈ calls → p = priority

variable {ν ρ γ : Type} [Neighborhood ν] [RouteStore ρ] [RandomSource γ]

namespace RouteLog

def start (store : ρ) : RouteLog ρ := ⟨store, []⟩

instance : RouteStore (RouteLog ρ) where
  add log nextHop priority :=
    let (accepted, store) := RouteStore.add log.store nextHop priority
    (accepted, ⟨store, log.calls ++ [.add nextHop priority accepted]⟩)
  remove log nextHop := ⟨RouteStore.remove log.store nextHop, log.calls ++ [.remove nextHop]⟩

theorem add_eq (log : RouteLog ρ) (nextHop : Address) (priority : RoutePriority) :
    RouteStore.add log nextHop priority =
      ((RouteStore.add log.store nextHop priority).1, ⟨(RouteStore.add log.store nextHop priority).2,
        log.calls ++ [.add nextHop priority (RouteStore.add log.store nextHop priority).1]⟩) := rfl

theorem calls_add {log log' : RouteLog ρ} {nextHop : Address} {priority : RoutePriority}
    {accepted : Bool} (h : RouteStore.add log nextHop priority = (accepted, log')) :
    log'.calls = log.calls ++ [.add nextHop priority accepted] := by
  simp only [add_eq, Prod.mk.injEq] at h
  obtain ⟨rfl, rfl⟩ := h
  rfl

end RouteLog

namespace Steering

section Store

variable (s : Steering) (table : ν) (log : RouteLog ρ)

theorem withdraw_store (reason : WithdrawalReason) : s.withdraw log.store reason =
    ((s.withdraw log reason).1, (s.withdraw log reason).2.1, (s.withdraw log reason).2.2.store) := by
  unfold withdraw
  cases s.detour <;> rfl

theorem install_store (random : γ) : s.install table log.store random =
    ((s.install table log random).1, (s.install table log random).2.1,
      (s.install table log random).2.2.1.store, (s.install table log random).2.2.2) := by
  unfold install
  split
  · rfl
  · split
    · rfl
    · simp only
      split
      · rfl
      · next detour _ =>
        rw [RouteLog.add_eq log]
        rcases RouteStore.add log.store detour.nextHop s.priority with ⟨_ | _, store⟩ <;> rfl

theorem request_store (random : γ) : s.request table log.store random =
    ((s.request table log random).1, (s.request table log random).2.1,
      (s.request table log random).2.2.1.store, (s.request table log random).2.2.2) := by
  unfold request
  split
  · exact install_store s table log random
  · split
    · rfl
    · next reason _ =>
      rw [withdraw_store s log reason]
      exact install_store _ table _ random

theorem endInterval_store : s.endInterval table log.store =
    ((s.endInterval table log).1, (s.endInterval table log).2.1,
      (s.endInterval table log).2.2.store) := by
  unfold endInterval
  split
  · rfl
  · split
    · next reason _ =>
      rw [withdraw_store s log reason]
    · simp only
      split
      · rfl
      · split
        · rfl
        · rw [withdraw_store _ log .parentUncongested]

theorem forget_store (h : NeighborHandle) : s.forget h log.store =
    ((s.forget h log).1, (s.forget h log).2.1, (s.forget h log).2.2.store) := by
  unfold forget
  split
  · rw [withdraw_store s log .alternateEvicted]
  · rfl

end Store

/-- The calls that an event makes to the keeper that comes with it. -/
def calls (s : Steering) : SteeringEvent ν ρ γ → List RouteCall
  | .request table routes random => (s.request table (RouteLog.start routes) random).2.2.1.calls
  | .withdraw routes reason => (s.withdraw (RouteLog.start routes) reason).2.2.calls
  | .endInterval table routes => (s.endInterval table (RouteLog.start routes)).2.2.calls
  | .forget neighbor routes => (s.forget neighbor (RouteLog.start routes)).2.2.calls

def allCalls (s : Steering) : List (SteeringEvent ν ρ γ) → List RouteCall
  | [] => []
  | event :: events => s.calls event ++ (s.step event).2.allCalls events

end Steering

namespace RouteCall.Paired

open Steering

variable {priority : RoutePriority} {s : Steering} {before calls : List RouteCall}

theorem priority_of_append (h : Paired priority s calls) (added : Address) (answer : Bool) :
    ∀ nextHop p accepted, .add nextHop p accepted ∈ calls ++ [.add added priority answer] →
      p = priority := by
  intro nextHop p accepted hmem
  rcases List.mem_append.1 hmem with hold | hnew
  · exact h.priority_of_add nextHop p accepted hold
  · simp only [List.mem_singleton, RouteCall.add.injEq] at hnew
    exact hnew.2.1

theorem refuse (h : Paired priority s calls) (nextHop : Address) :
    Paired priority s (calls ++ [.add nextHop priority false]) := by
  obtain ⟨gone, hgone⟩ := h.changes_eq
  refine ⟨h.priority_eq, ⟨gone, ?_⟩, h.priority_of_append nextHop false⟩
  rw [List.filter_append, hgone]
  exact List.append_nil _

theorem accept (h : Paired priority s calls) (hd : s.detour = none) (detour : Detour)
    (intervals : UInt32) :
    Paired priority { s with detour := some detour, activeIntervals := intervals }
      (calls ++ [.add detour.nextHop priority true]) := by
  obtain ⟨gone, hgone⟩ := h.changes_eq
  refine ⟨h.priority_eq, ⟨gone, ?_⟩, h.priority_of_append detour.nextHop true⟩
  rw [hd, Option.map_none, Option.toList_none, List.append_nil] at hgone
  rw [List.filter_append, hgone]
  rfl

theorem remove (h : Paired priority s calls) {detour : Detour} (hd : s.detour = some detour) :
    Paired priority { s with detour := none } (calls ++ [.remove detour.nextHop]) := by
  obtain ⟨gone, hgone⟩ := h.changes_eq
  refine ⟨h.priority_eq, ⟨gone ++ [detour.nextHop], ?_⟩, fun hop p accepted hmem => ?_⟩
  · rw [List.filter_append, hgone, hd, List.flatMap_append, List.append_assoc]
    simp only [Option.map_some, Option.toList_some, Option.map_none, Option.toList_none,
      List.append_nil]
    rfl
  · rcases List.mem_append.1 hmem with hold | hnew
    · exact h.priority_of_add hop p accepted hold
    · exact absurd (List.mem_singleton.1 hnew) nofun

/-- Behind any calls before, steering goes on in pairs. -/
theorem invariant (ν ρ γ : Type) [Neighborhood ν] [RouteStore ρ] [RandomSource γ]
    (priority : RoutePriority) (before : List RouteCall) :
    SteeringInvariant γ (fun _ : ν => True)
      fun s (log : RouteLog ρ) => Paired priority s (before ++ log.calls) where
  drop {s log detour} hd h := by
    change Paired priority _ (before ++ (log.calls ++ [.remove detour.nextHop]))
    rw [← List.append_assoc]
    exact h.remove hd
  install {s table log} random _ hd h := by
    rcases install_cases s table log random with
      ⟨detour, -, hs, hadd, -⟩ | ⟨hs, heq | ⟨nextHop, hadd⟩⟩
    · have hcalls := RouteLog.calls_add hadd
      rw [h.priority_eq] at hcalls
      rw [hs, hcalls, ← List.append_assoc]
      exact h.accept hd detour 0
    · rw [hs, heq]
      exact h
    · have hcalls := RouteLog.calls_add hadd
      rw [h.priority_eq] at hcalls
      rw [hs, hcalls, ← List.append_assoc]
      exact h.refuse nextHop
  count _ _ _ h := ⟨h.priority_eq, h.changes_eq, h.priority_of_add⟩

theorem step (h : Paired priority s before) (event : SteeringEvent ν ρ γ) :
    Paired priority (s.step event).2 (before ++ s.calls event) := by
  have inv := invariant ν ρ γ priority before
  have hstart (routes : ρ) : Paired priority s (before ++ (RouteLog.start routes).calls) := by
    rwa [RouteLog.start, List.append_nil]
  -- What steering does with a keeper it does with one that logs, so its calls are read off there.
  cases event with
  | request table routes random =>
    have hkeep : Paired priority (s.request table (RouteLog.start routes) random).2.1
        (before ++ (s.request table (RouteLog.start routes) random).2.2.1.calls) :=
      inv.request random trivial (hstart routes)
    have hs := congrArg (·.2.1) (request_store s table (.start routes) random)
    change Paired priority (s.request table routes random).2.1 _
    exact hs ▸ hkeep
  | withdraw routes reason =>
    have hkeep := inv.withdraw reason (hstart routes)
    have hs := congrArg (·.2.1) (withdraw_store s (.start routes) reason)
    change Paired priority (s.withdraw routes reason).2.1 _
    exact hs ▸ hkeep
  | endInterval table routes =>
    have hkeep := inv.endInterval table (hstart routes)
    have hs := congrArg (·.2.1) (endInterval_store s table (.start routes))
    change Paired priority (s.endInterval table routes).2.1 _
    exact hs ▸ hkeep
  | forget neighbor routes =>
    have hkeep := inv.forget neighbor (hstart routes)
    have hs := congrArg (·.2.1) (forget_store s (.start routes) neighbor)
    change Paired priority (s.forget neighbor routes).2.1 _
    exact hs ▸ hkeep

theorem run (h : Paired priority s before) (events : List (SteeringEvent ν ρ γ)) :
    Paired priority (respond Steering.step s events).2 (before ++ s.allCalls events) := by
  induction events generalizing s before with
  | nil => rwa [allCalls, List.append_nil]
  | cons event events ih =>
    rw [allCalls, ← List.append_assoc]
    exact ih (h.step event)

end RouteCall.Paired

theorem RouteCall.getLast?_gone (priority : RoutePriority) (gone : List Address)
    (nextHop : Address) (p : RoutePriority) :
    (gone.flatMap (stay priority)).getLast? ≠ some (.add nextHop p true) := by
  rcases List.eq_nil_or_concat gone with rfl | ⟨earlier, last, rfl⟩
  · exact nofun
  · have hlast : (earlier.concat last).flatMap (stay priority) =
        (earlier.flatMap (stay priority) ++ [.add last priority true]) ++ [.remove last] := by
      simp [stay]
    rw [hlast, List.getLast?_concat]
    exact fun heq => absurd (Option.some.inj heq) nofun

namespace Steering

/-- With neighbor tables and a keeper of routes that answer as they like, the calls of a run are those
for routes that came and went, one after the other, and for that of the detour, if there is one. Each
addition, refused ones included, is asked for with the one priority. -/
theorem routes_paired (policy : SelectionPolicy) (priority : RoutePriority) (h : Hysteresis)
    (events : List (SteeringEvent ν ρ γ)) :
    let s := (respond step (start policy priority h) events).2
    let calls := (start policy priority h).allCalls events
    (∃ gone : List Address, calls.filter RouteCall.changes =
        gone.flatMap (fun nextHop => [.add nextHop priority true, .remove nextHop]) ++
          (s.detour.map fun detour => .add detour.nextHop priority true).toList) ∧
      (∀ nextHop p accepted, .add nextHop p accepted ∈ calls → p = priority) ∧
      (s.isActive = true ↔
        ∃ nextHop p, (calls.filter RouteCall.changes).getLast? = some (.add nextHop p true)) := by
  intro s calls
  have hstart : RouteCall.Paired priority (start policy priority h) [] :=
    ⟨rfl, ⟨[], rfl⟩, fun _ _ _ hmem => absurd hmem List.not_mem_nil⟩
  have hpaired : RouteCall.Paired priority s calls := hstart.run events
  obtain ⟨gone, hgone⟩ := hpaired.changes_eq
  refine ⟨⟨gone, hgone⟩, hpaired.priority_of_add, ?_⟩
  rw [hgone, isActive]
  cases s.detour with
  | none =>
    rw [Option.map_none, Option.toList_none, List.append_nil]
    exact ⟨nofun, fun ⟨nextHop, p, heq⟩ =>
      absurd heq (RouteCall.getLast?_gone priority gone nextHop p)⟩
  | some detour =>
    rw [Option.map_some, Option.toList_some, List.getLast?_concat]
    exact ⟨fun _ => ⟨detour.nextHop, priority, rfl⟩, fun _ => rfl⟩

end Steering

end CongestionRouting
