import CongestionRouting.Proofs.Agent.Eviction
import CongestionRouting.Proofs.Session.Handles
import CongestionRouting.Proofs.Session.Lifetime

namespace CongestionRouting

def Occurrence.reviews : Occurrence → Bool
  | ⟨.agent event, answer⟩ => event.reviews answer
  | _ => false

def SessionEvent.changesRoutes : SessionEvent → Bool
  | .host (.addRoute _ _) => true
  | .host (.removeRoute _) => true
  | _ => false

namespace Session

variable {config : Config} {past : History} {s told : Session NeighborTable} {h : NeighborHandle}

/-- The agent of the one session was told of an eviction that took its detour, that of the other one
was not. -/
def Ahead (h : NeighborHandle) (told s : Session NeighborTable) : Prop :=
  ∃ a detour, s.core = .agent a ∧ a.engine.steering.detour = some detour ∧
    detour.neighbor = h ∧ told = ⟨s.host.without detour, .agent a.cleared⟩

theorem ahead_forget (hs : s.Steered config past) (h : NeighborHandle) :
    (s.step (.agent (.forget h))).2 = s ∨ Ahead h (s.step (.agent (.forget h))).2 s := by
  obtain ⟨a, hcore, -⟩ := hs
  simp only [step, hcore, Agent.step]
  by_cases hn : a.engine.steering.detour.map Detour.neighbor = some h
  · obtain ⟨detour, hd, rfl⟩ := Option.map_eq_some_iff.1 hn
    rw [Agent.forget_eq_cleared hd]
    exact .inr ⟨a, detour, hcore, hd, rfl, rfl⟩
  · rw [Agent.forget_of_ne hn, ← hcore]
    exact .inl rfl

/-- The host does the same with and without the route of the detour. -/
theorem step_without (host : SessionHost NeighborTable) (detour : Detour) {event : HostEvent}
    (he : SessionEvent.changesRoutes (.host event) = false) :
    ((host.without detour).step event).2 = (host.step event).2.without detour := by
  have hneighbors : (host.without detour).neighbors = host.neighbors := rfl
  cases event with
  | addRoute _ _ | removeRoute _ => exact absurd he nofun
  | insertNeighbor _ _ | setRoutingParent _ _ | setPreferredParent _ =>
    simp only [Host.step, hneighbors]
    split <;> rfl
  | raiseFlag =>
    have hadvertiser : (host.without detour).advertiser = host.advertiser := rfl
    simp only [Host.step, hadvertiser]
    split <;> rfl
  | removeNeighbor _ | viewNeighbor _ | findNeighbor _ | setCongested _ _ | clearFlags
  | guardFlags _ | recordSignal _ | findRoute _ | takeFlag | setFailure _ | setTimer _
  | rearmTimer | stopTimer => rfl

theorem suppressed_of_detour (hs : s.Steered config past) {a : Agent} (hcore : s.core = .agent a)
    {detour : Detour} (hd : a.engine.steering.detour = some detour) :
    a.engine.steering.suppressed = false := by
  obtain ⟨a', hcore', p, hp, -⟩ := hs
  obtain rfl : a = a' := SessionCore.agent.inj (hcore.symm.trans hcore')
  rw [hp] at hd ⊢
  cases p with
  | idle | active detour intervals => rfl
  | held left left_pos left_le => exact absurd hd nofun

theorem ahead_step (hs : s.Steered config past) (hg : s.host.neighbors.get? h = none)
    (ha : Ahead h told s) {event : SessionEvent} (he : event.changesRoutes = false) :
    Occurrence.reviews ⟨event, (told.step event).1⟩ =
        Occurrence.reviews ⟨event, (s.step event).1⟩ ∧
      ((told.step event).2 = (s.step event).2 ∨
        Occurrence.reviews ⟨event, (s.step event).1⟩ = false ∧
          Ahead h (told.step event).2 (s.step event).2) := by
  obtain ⟨a, detour, hcore, hd, rfl, rfl⟩ := ha
  cases event with
  | host event =>
    refine ⟨rfl, .inr ⟨rfl, a, detour, hcore, hd, rfl, ?_⟩⟩
    simp only [step, step_without s.host detour he]
  | agent event =>
    have hgone : Neighborhood.contains s.host.neighbors detour.neighbor = false := by
      change ((s.host.neighbors.get? detour.neighbor).map Neighbor.address).isSome = false
      rw [hg]
      rfl
    -- A signal may set a flag, but it brings no neighbor back.
    have hsignal : ∀ sender, Neighborhood.contains
        (Agent.afterSignal sender s.host).neighbors detour.neighbor = false := fun sender => by
      have hretouch := NeighborTable.Retouches.recordSignal s.host.neighbors sender
      change ((NeighborTable.get? _ detour.neighbor).map Neighbor.address).isSome = false
      rw [Agent.afterSignal, hretouch.address_get?, hg]
      rfl
    obtain ⟨hreviews, hcases⟩ :=
      Agent.step_cleared hd hgone hsignal (suppressed_of_detour hs hcore hd) event
    simp only [step, hcore]
    refine ⟨hreviews, ?_⟩
    let seat : Agent × SessionHost NeighborTable → Session NeighborTable := fun p =>
      ⟨p.2, .agent p.1⟩
    rcases hcases with heq | ⟨hnot, hdetour, heq⟩
    · exact .inl (congrArg seat heq)
    · exact .inr ⟨hnot, _, detour, rfl, hdetour, rfl, congrArg seat heq⟩
  | engine event =>
    simp only [step, hcore]
    exact ⟨trivial, .inr ⟨rfl, a, detour, hcore, hd, rfl, rfl⟩⟩

/-- Over a run, a session that is ahead is caught up with for good, or still ahead. -/
theorem ahead_run (hs : s.Steered config past) (hc : Counted past s.host.neighbors)
    (hbehind : Superseded past h) (ha : Ahead h told s) {events : List SessionEvent}
    (he : ∀ event ∈ events, event.changesRoutes = false)
    (hr : (s.history past events).releases h.index.toNat < UInt32.size) :
    told.run events = s.run events ∨ Ahead h (told.run events) (s.run events) := by
  induction events generalizing s told past with
  | nil => exact .inr ha
  | cons event events ih =>
    have hpast := Nat.lt_of_le_of_lt (s.releases_le_history past (event :: events) _) hr
    obtain ⟨-, heq | ⟨-, hnext⟩⟩ :=
      ahead_step hs (hc.get?_eq_none hbehind hpast) ha (he event List.mem_cons_self)
    · exact .inl (congrArg (run · events) heq)
    · exact ih (steered_step hs event) (hc.step (s.tableStep event)) (hbehind.cons _) hnext
        (fun event' hmem => he event' (List.mem_cons_of_mem _ hmem)) hr

/-- A session whose agent is told of the removal of a neighbor is ahead of the other one, if at all,
and in both the handle of the neighbor stands for nothing any more. -/
theorem ahead_run_of_removed (hs : s.Steered config past) (hc : Counted past s.host.neighbors)
    {entry : Neighbor} (hg : s.host.neighbors.get? h = some entry) {events : List SessionEvent}
    (he : ∀ event ∈ events, event.changesRoutes = false) :
    let gone : SessionEvent := .host (.removeNeighbor h)
    let untold := s.run (gone :: events)
    let told := s.run (gone :: .agent (.forget h) :: events)
    (s.history past (gone :: events)).releases h.index.toNat < UInt32.size →
      (told = untold ∨ Ahead h told untold) ∧ untold.host.neighbors.get? h = none := by
  intro gone untold told hr
  have hbehind := superseded_of_removed hc hg
    (Nat.lt_of_le_of_lt (s.releases_le_history past (gone :: events) _) hr)
  have hsteered := steered_step hs gone
  have hcounted := hc.step (s.tableStep gone)
  refine ⟨?_, get?_run_of_superseded hcounted hbehind hr⟩
  rcases ahead_forget hsteered h with heq | hahead
  · exact .inl (congrArg (run · events) heq)
  · exact ahead_run hsteered hcounted hbehind hahead he hr

theorem review_of_ahead (hs : s.Steered config past) (hg : s.host.neighbors.get? h = none)
    (ha : told = s ∨ Ahead h told s) (event : SessionEvent) :
    Occurrence.reviews ⟨event, (told.step event).1⟩ =
        Occurrence.reviews ⟨event, (s.step event).1⟩ ∧
      (Occurrence.reviews ⟨event, (s.step event).1⟩ = true →
        (told.step event).2 = (s.step event).2) := by
  rcases ha with rfl | ha
  · exact ⟨rfl, fun _ => rfl⟩
  by_cases he : event.changesRoutes = false
  · obtain ⟨hreviews, heq | ⟨hnot, -⟩⟩ := ahead_step hs hg ha he
    · exact ⟨hreviews, fun _ => heq⟩
    · exact ⟨hreviews, fun hr => absurd (hr.symm.trans hnot) nofun⟩
  · cases event with
    | host event => exact ⟨rfl, fun hr => absurd hr nofun⟩
    | agent event | engine event => exact absurd rfl he

/-- Whether an agent is told of the removal of a neighbor or not makes no difference once it has
reviewed its detour. From the next such review on, the sessions are the same and give the same
answers. -/
theorem eager_eviction_eq_lazy {config : Config} {agent : Agent}
    (hc : Agent.ofConfig config = .ok agent) (capacity : Nat) (routes : RouteList)
    (earlier events : List SessionEvent) (h : NeighborHandle) :
    let first : Session NeighborTable := start (.empty capacity) routes (.agent agent)
    let gone : SessionEvent := .host (.removeNeighbor h)
    let untold := first.run (earlier ++ [gone])
    let told := first.run (earlier ++ [gone, .agent (.forget h)])
    (∃ entry, (first.run earlier).host.neighbors.get? h = some entry) →
      (∀ event ∈ events, event.changesRoutes = false) →
      (first.history [] (earlier ++ gone :: events)).releases h.index.toNat < UInt32.size →
      ∀ event,
        Occurrence.reviews ⟨event, ((told.run events).step event).1⟩ =
            Occurrence.reviews ⟨event, ((untold.run events).step event).1⟩ ∧
          (Occurrence.reviews ⟨event, ((untold.run events).step event).1⟩ = true →
            told.run (events ++ [event]) = untold.run (events ++ [event]) ∧
            ∀ later, (told.run (events ++ [event])).trace later =
              (untold.run (events ++ [event])).trace later) := by
  intro first gone untold told ⟨entry, hg⟩ he hr event
  rw [history_append] at hr
  have hsteered : (first.run earlier).Steered config (first.history [] earlier) :=
    steered_run ⟨agent, rfl, .start hc⟩ earlier
  have hcounted : Counted (first.history [] earlier) (first.run earlier).host.neighbors :=
    counted_run (.empty capacity) earlier
  -- Up to the review the one session is ahead of the other by the detour, if at all.
  obtain ⟨hrun, hgone⟩ := ahead_run_of_removed hsteered hcounted hg he hr
  have huntold : untold.run events = (first.run earlier).run (gone :: events) :=
    congrArg (run · events) (run_append ..)
  have htold : told.run events = (first.run earlier).run (gone :: .agent (.forget h) :: events) :=
    congrArg (run · events) (run_append ..)
  rw [← huntold] at hrun hgone
  rw [← htold] at hrun
  obtain ⟨hreviews, hsame⟩ : Occurrence.reviews ⟨event, ((told.run events).step event).1⟩ =
        Occurrence.reviews ⟨event, ((untold.run events).step event).1⟩ ∧
      (Occurrence.reviews ⟨event, ((untold.run events).step event).1⟩ = true →
        ((told.run events).step event).2 = ((untold.run events).step event).2) :=
    review_of_ahead (huntold ▸ steered_run hsteered (gone :: events)) hgone hrun event
  refine ⟨hreviews, fun hreview => ?_⟩
  have hnext : told.run (events ++ [event]) = untold.run (events ++ [event]) := by
    rw [run_append, run_append]
    exact hsame hreview
  exact ⟨hnext, fun later => by rw [hnext]⟩

/-- An alternate parent is replaced by another neighbor in its slot. An agent that was not told finds
out when it next asks for a detour. -/
theorem eager_eviction_eq_lazy_replaced :
    let hop (n : UInt16) : Address := ⟨#v[0xfe80, 0, 0, 0, 0, 0, 0, n]⟩
    let agent : Agent := ⟨.standard, .ofConfig .standard, .zero, none⟩
    let first : Session NeighborTable := start (.empty 4) (.empty 2) (.agent agent)
    let earlier : List SessionEvent :=
      [.host (.insertNeighbor (hop 1) true), .host (.insertNeighbor (hop 2) true),
        .host (.setPreferredParent (some ⟨0, 0⟩)), .agent .start, .agent (.signal (hop 1))]
    let gone : SessionEvent := .host (.removeNeighbor ⟨1, 0⟩)
    let events : List SessionEvent := [.host (.insertNeighbor (hop 3) true)]
    let untold := first.run (earlier ++ [gone])
    let told := first.run (earlier ++ [gone, .agent (.forget ⟨1, 0⟩)])
    let signal : SessionEvent := .agent (.signal (hop 1))
    Agent.ofConfig .standard = .ok agent ∧
      (∃ entry, (first.run earlier).host.neighbors.get? ⟨1, 0⟩ = some entry) ∧
      (∀ event ∈ events, event.changesRoutes = false) ∧
      (∀ i, (first.history [] (earlier ++ gone :: events)).releases i < UInt32.size) ∧
      (told.run events).detourHop? = none ∧ (untold.run events).detourHop? = some (hop 2) ∧
      (untold.run (events ++ [signal])).detourHop? = some (hop 3) ∧
      told.run (events ++ [signal]) = untold.run (events ++ [signal]) ∧
      (told.run (events ++ [signal])).trace [.agent .tick] =
        (untold.run (events ++ [signal])).trace [.agent .tick] := by
  intro hop agent first earlier gone events untold told signal
  have hc : Agent.ofConfig .standard = .ok agent := rfl
  have hg : ∃ entry, (first.run earlier).host.neighbors.get? ⟨1, 0⟩ = some entry :=
    ⟨⟨hop 2, true, false⟩, by decide⟩
  have he : ∀ event ∈ events, event.changesRoutes = false := by decide
  have hlength : (first.history [] (earlier ++ gone :: events)).length < UInt32.size := by decide
  have hr : ∀ i, (first.history [] (earlier ++ gone :: events)).releases i < UInt32.size := fun i =>
    Nat.lt_of_le_of_lt List.countP_le_length hlength
  have hreview : Occurrence.reviews ⟨signal, ((untold.run events).step signal).1⟩ = true := by decide
  have htold : (told.run events).detourHop? = none := by decide
  have huntold : (untold.run events).detourHop? = some (hop 2) := by decide
  have hreplaced : (untold.run (events ++ [signal])).detourHop? = some (hop 3) := by decide
  dsimp only [first, untold, told, gone] at hg hr hreview htold huntold hreplaced ⊢
  obtain ⟨hsame, hlater⟩ :=
    (eager_eviction_eq_lazy hc 4 (.empty 2) earlier events ⟨1, 0⟩ hg he (hr _) signal).2 hreview
  exact ⟨hc, hg, he, hr, htold, huntold, hreplaced, hsame, hlater _⟩

end Session

end CongestionRouting
