import CongestionRouting.Proofs.Route.Sharing
import CongestionRouting.Session

namespace CongestionRouting

def SessionEvent.removedHop? : SessionEvent → Option Address
  | .host (.removeRoute nextHop) => some nextHop
  | _ => none

namespace Session

variable {ν : Type} [TableHolder ν]

def agent? (s : Session ν) : Option Agent :=
  match s.core with
  | .agent a => some a
  | _ => none

omit [TableHolder ν] in
theorem agent?_eq_some_iff {s : Session ν} {a : Agent} : s.agent? = some a ↔ s.core = .agent a := by
  unfold agent?
  cases s.core <;> simp

def detourHop? (s : Session ν) : Option Address :=
  s.agent?.bind fun a => a.engine.steering.detour.map Detour.nextHop

/-- The host removes no route that is the agent's. -/
def Permits (s : Session ν) (event : SessionEvent) : Prop :=
  event.removedHop? = none ∨ event.removedHop? ≠ s.detourHop?

instance (s : Session ν) (event : SessionEvent) : Decidable (s.Permits event) :=
  inferInstanceAs (Decidable (_ ∨ _))

def Permitted (s : Session ν) : List SessionEvent → Prop
  | [] => True
  | event :: events => s.Permits event ∧ (s.step event).2.Permitted events

instance decidablePermitted (s : Session ν) : (events : List SessionEvent) →
    Decidable (s.Permitted events)
  | [] => isTrue trivial
  | event :: events =>
    have := decidablePermitted (s.step event).2 events
    inferInstanceAs (Decidable (_ ∧ _))

def run (s : Session ν) (events : List SessionEvent) : Session ν :=
  events.foldl (fun s event => (s.step event).2) s

/-- What an event, by its answer, makes of the routes that the host added and did not remove. -/
def keep (kept : List DefaultRoute) : SessionEvent → Answer → List DefaultRoute
  | .host (.addRoute nextHop priority), .done => kept ++ [⟨nextHop, priority⟩]
  | .host (.removeRoute nextHop), _ => kept.filter fun route => route.nextHop ≠ nextHop
  | _, _ => kept

/-- The routes that the host added with success and did not remove since. -/
def keptRoutes (s : Session ν) (kept : List DefaultRoute) : List SessionEvent → List DefaultRoute
  | [] => kept
  | event :: events => (s.step event).2.keptRoutes (keep kept event (s.step event).1) events

def Sharing (priority : RoutePriority) (capacity : Nat) (kept : List DefaultRoute)
    (s : Session ν) : Prop :=
  ∃ a, s.core = .agent a ∧
    RouteList.Sharing priority capacity kept a.engine.steering s.host.routes

variable {priority : RoutePriority} {capacity : Nat} {kept : List DefaultRoute} {s : Session ν}

/-- The host's own calls change the list as the account of its routes says. -/
theorem sharing_hostStep (hs : s.Sharing priority capacity kept) (event : HostEvent)
    (hp : s.Permits (.host event)) :
    (s.step (.host event)).2.Sharing priority capacity
      (keep kept (.host event) (s.step (.host event)).1) := by
  obtain ⟨a, hcore, hshare⟩ := hs
  cases event with
  | addRoute nextHop p =>
    simp only [step, Host.step]
    cases hi : s.host.routes.insert nextHop p with
    | error e => exact ⟨a, hcore, hshare⟩
    | ok routes => exact ⟨a, hcore, hshare.hostInsert hi⟩
  | removeRoute nextHop =>
    -- The removal is permitted, so it is not of the next hop of the detour.
    refine ⟨a, hcore, hshare.hostErase fun detour hd heq => ?_⟩
    have hhop : s.detourHop? = some nextHop := by
      simp only [detourHop?, agent?, hcore, Option.bind_some, hd, Option.map_some, heq]
    rcases hp with hnone | hne
    · exact absurd hnone nofun
    · exact hne hhop.symm
  | insertNeighbor address routingParent =>
    simp only [step, Host.step]
    split <;> exact ⟨a, hcore, hshare⟩
  | setRoutingParent h value =>
    simp only [step, Host.step]
    split <;> exact ⟨a, hcore, hshare⟩
  | setPreferredParent h =>
    simp only [step, Host.step]
    split <;> exact ⟨a, hcore, hshare⟩
  | raiseFlag =>
    simp only [step, Host.step]
    split <;> exact ⟨a, hcore, hshare⟩
  | removeNeighbor _ | viewNeighbor _ | findNeighbor _ | setCongested _ _ | clearFlags
  | guardFlags _ | recordSignal _ | findRoute _ | takeFlag | setFailure _ | setTimer _
  | rearmTimer | stopTimer => exact ⟨a, hcore, hshare⟩

theorem sharing_step (hs : s.Sharing priority capacity kept) (event : SessionEvent)
    (hp : s.Permits event) :
    (s.step event).2.Sharing priority capacity (keep kept event (s.step event).1) := by
  cases event with
  | host event => exact sharing_hostStep hs event hp
  | agent event =>
    obtain ⟨a, hcore, hshare⟩ := hs
    have hinv := RouteList.Sharing.steeringInvariant ν ChaCha priority capacity kept
    simp only [step, hcore]
    exact ⟨_, rfl, Agent.step_keeps hinv event (fun _ => trivial) hshare⟩
  | engine event =>
    obtain ⟨a, hcore, hshare⟩ := hs
    simp only [step, hcore]
    exact ⟨a, hcore, hshare⟩

theorem sharing_run (events : List SessionEvent) (hs : s.Sharing priority capacity kept)
    (hp : s.Permitted events) :
    (s.run events).Sharing priority capacity (s.keptRoutes kept events) := by
  induction events generalizing s kept with
  | nil => exact hs
  | cons event events ih => exact ih (sharing_step hs event hp.1) hp.2

/-- A session of an agent whose routes are empty at first, after any events in which the host leaves
the agent's route alone: the list holds the host's routes, and that of the detour if there is one. -/
theorem run_routes_perm {config : Config} {agent : Agent} (neighbors : ν) (capacity : Nat)
    (events : List SessionEvent) (hc : Agent.ofConfig config = .ok agent)
    (hp : (start neighbors (.empty capacity) (.agent agent)).Permitted events) :
    let s := (start neighbors (.empty capacity) (.agent agent)).run events
    let kept := (start neighbors (.empty capacity) (.agent agent)).keptRoutes [] events
    ∃ a, s.core = .agent a ∧
      (a.isActive = true ↔ ∃ detour, a.engine.steering.detour = some detour) ∧
      s.host.routes.routes.Perm (kept ++
        (a.engine.steering.detour.map fun detour => ⟨detour.nextHop, config.priority⟩).toList) ∧
      (s.host.routes.routes.map DefaultRoute.nextHop).Nodup ∧
      s.host.routes.routes.length ≤ capacity ∧
      ∀ route ∈ kept, s.host.routes.get? route.nextHop = some route := by
  have hstart : (start neighbors (.empty capacity) (.agent agent)).Sharing config.priority
      capacity [] := by
    refine ⟨agent, rfl, ?_⟩
    rw [Agent.ofConfig_eq_ok hc]
    exact RouteList.Sharing.start _ _ _ _
  obtain ⟨a, hcore, hshare⟩ := sharing_run events hstart hp
  refine ⟨a, hcore, Option.isSome_iff_exists, ?_, hshare.nodup, hshare.length_le,
    fun route hmem => hshare.get?_kept hmem⟩
  have hperm := hshare.perm
  rwa [Steering.ownRoutes, hshare.priority_eq] at hperm

/-- The host takes both places of the list, gives one back to the agent, and is refused the next hop
of the detour. -/
theorem run_routes_perm_contended :
    let hop (n : UInt16) : Address := ⟨#v[0xfe80, 0, 0, 0, 0, 0, 0, n]⟩
    let agent : Agent := ⟨.standard, .ofConfig .standard, .zero, none⟩
    let session : Session NeighborTable := start (.empty 4) (.empty 2) (.agent agent)
    let events : List SessionEvent :=
      [.host (.insertNeighbor (hop 1) true), .host (.insertNeighbor (hop 2) true),
        .host (.setPreferredParent (some ⟨0, 0⟩)), .agent .start,
        .host (.addRoute (hop 7) ⟨3⟩), .host (.addRoute (hop 8) ⟨3⟩), .agent (.signal (hop 1)),
        .host (.removeRoute (hop 8)), .agent (.signal (hop 1)), .host (.addRoute (hop 2) ⟨3⟩)]
    Agent.ofConfig .standard = .ok agent ∧ session.Permitted events ∧
      session.keptRoutes [] events = [⟨hop 7, ⟨3⟩⟩] ∧
      (session.run events).detourHop? = some (hop 2) ∧
      ∃ a, (session.run events).core = .agent a ∧
        (session.run events).host.routes.routes.Perm (session.keptRoutes [] events ++
          (a.engine.steering.detour.map fun detour =>
            ⟨detour.nextHop, Config.standard.priority⟩).toList) := by
  intro hop agent session events
  have hc : Agent.ofConfig .standard = .ok agent := rfl
  have hp : session.Permitted events := by decide
  obtain ⟨a, hcore, -, hperm, -⟩ := run_routes_perm (.empty 4 : NeighborTable) 2 events hc hp
  refine ⟨hc, hp, by decide, by decide, a, hcore, ?_⟩
  dsimp only [session]
  exact hperm

end Session

end CongestionRouting
