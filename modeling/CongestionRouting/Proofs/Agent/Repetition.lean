import CongestionRouting.Proofs.Route.Requests
import CongestionRouting.Proofs.Session.Resolution

namespace CongestionRouting

theorem recordSignal_recordSignal (sender : Address) (t : NeighborTable) :
    recordSignal sender (recordSignal sender t).2 = recordSignal sender t := by
  have hretouch : t.Retouches (recordSignal sender t).2 := .recordSignal t sender
  have hlookup := hretouch.lookup_eq sender
  cases hl : t.lookup sender with
  | none => rw [NeighborTable.recordSignal_of_unknown hl, NeighborTable.recordSignal_of_unknown hl]
  | some h =>
    rw [hl] at hlookup
    rw [NeighborTable.recordSignal_of_lookup hlookup, NeighborTable.recordSignal_of_lookup hl,
      NeighborTable.modifyEntry_modifyEntry]
    rfl

namespace Activation

/-- Whether there is a detour once the answer is given. -/
def stands : Activation → Bool
  | .installed _ | .alreadyActive => true
  | _ => false

/-- The answer when the same is asked again. -/
def again : Activation → Activation
  | .installed _ => .alreadyActive
  | a => a

theorem again_of_stands {a : Activation} (h : a.stands = true) : a.again = .alreadyActive := by
  cases a with
  | installed _ | alreadyActive => rfl
  | suppressed | noParent | noCandidate | routeRejected _ => cases h

theorem again_of_not_stands {a : Activation} (h : a.stands = false) : a.again = a := by
  cases a with
  | installed _ | alreadyActive => cases h
  | suppressed | noParent | noCandidate | routeRejected _ => rfl

end Activation

namespace Steering

variable {ρ γ : Type} [RouteStore ρ] [RandomSource γ] {s : Steering} {t : NeighborTable}

theorem exists_clear_of_stands {routes : ρ} {random : γ}
    (h : (s.request t routes random).1.stands = true) :
    ∃ detour, (s.request t routes random).2.1.detour = some detour ∧ obstacle t detour = none := by
  have hactive : (s.request t routes random).2.1.isActive = true := by
    rcases s.request_cases t routes random with ⟨-, hactive, hsame⟩ | ⟨hne, hactive⟩
    · rw [hsame, hactive]
    · rw [hactive]
      cases hanswer : (s.request t routes random).1 with
      | installed _ => rfl
      | alreadyActive => exact absurd hanswer hne
      | suppressed | noParent | noCandidate | routeRejected _ =>
        rw [hanswer] at h
        cases h
  obtain ⟨detour, hd⟩ := Option.isSome_iff_exists.1 hactive
  refine ⟨detour, hd, ?_⟩
  rcases offered_or_obstacle_of_request hd with hoffered | hclear
  · obtain ⟨parent, husable⟩ := Detour.Usable.of_offered hoffered
    exact husable.obstacle_eq
  · exact hclear

theorem obstacle_of_not_stands {routes : ρ} {random : γ}
    (h : (s.request t routes random).1.stands = false) :
    ∀ detour, s.detour = some detour → obstacle t detour ≠ none := by
  intro detour hd hclear
  rw [request_of_clear hd hclear] at h
  cases h

/-- Without a detour after it, a request has taken out the old one and done nothing else. -/
theorem request_of_not_stands {store : RouteList} {random : γ} (hs : s.policy = .deterministic)
    (h : (s.request t store random).1.stands = false) :
    s.request t store random =
      ((s.request t store random).1, s.idled, s.remaining store, random) := by
  have ho := obstacle_of_not_stands h
  rw [request_of_obstacle ho] at h ⊢
  have hrandom : (s.idled.install t (s.remaining store) random).2.2.2 = random := by
    rcases s.idled.random_install t (s.remaining store) random with ⟨-, hsame⟩ | ⟨-, -, parent, -, hafter⟩
    · exact hsame
    · rw [hafter, s.idled_eq.1, hs]
      rfl
  rcases s.idled.install_cases t (s.remaining store) random with
    ⟨detour, hanswer, -⟩ | ⟨hsame, hroutes⟩
  · rw [hanswer] at h
    cases h
  · have hstore : (s.idled.install t (s.remaining store) random).2.2.1 = s.remaining store := by
      rcases hroutes with hkept | ⟨nextHop, hadd⟩
      · exact hkept
      · exact RouteList.add_eq_false hadd
    exact Prod.ext rfl (Prod.ext hsame (Prod.ext hstore hrandom))

theorem request_again_of_stands {routes : ρ} {random : γ}
    (h : (s.request t routes random).1.stands = true) :
    let once := s.request t routes random
    once.2.1.request t once.2.2.1 once.2.2.2 = (once.1.again, once.2) := by
  intro once
  obtain ⟨detour, hd, hclear⟩ := exists_clear_of_stands h
  rw [request_of_clear hd hclear, Activation.again_of_stands h]

/-- What a request leaves is left alone by the next one. -/
theorem request_again (hs : s.policy = .deterministic) (store : RouteList) (random : γ) :
    let once := s.request t store random
    once.2.1.request t once.2.2.1 once.2.2.2 = (once.1.again, once.2) := by
  intro once
  cases h : (s.request t store random).1.stands with
  | true => exact request_again_of_stands h
  | false =>
    have honce : once = (once.1, s.idled, s.remaining store, random) := request_of_not_stands hs h
    have hidle : s.idled.request t (s.remaining store) random = once := by
      rw [show once = _ from request_of_obstacle (obstacle_of_not_stands h) store random]
      simp only [request, s.detour_idled]
    rw [show once.1.again = once.1 from Activation.again_of_not_stands h, honce]
    exact hidle.trans honce

end Steering

variable {α τ : Type}

theorem Engine.request_again {e : Engine} (host : Host NeighborTable RouteList α τ)
    (h : e.steering.policy = .deterministic ∨ (e.request host).1.stands = true) :
    let once := e.request host
    once.2.1.request once.2.2 = (once.1.again, once.2) := by
  have hsteering := h.elim
    (fun hs => Steering.request_again hs host.routes e.random)
    (fun hstands => Steering.request_again_of_stands hstands)
  simp only [Engine.request, hsteering]

namespace Agent

/-- Signals that come to an agent on its host. -/
def receive (state : Agent × Host NeighborTable RouteList α τ) (sender : Address) :
    Option Activation × Agent × Host NeighborTable RouteList α τ :=
  state.1.receiveSignal sender state.2

/-- A signal finds all as it leaves it, whatever was counted before it. -/
def Settled (a : Agent) (host : Host NeighborTable RouteList α τ) (sender : Address)
    (answer : Option Activation) : Prop :=
  ∀ tally, ∃ tally', receive ({ a with tally := tally }, host) sender =
    (answer, { a with tally := tally' }, host)

variable {a : Agent} {host : Host NeighborTable RouteList α τ} {sender : Address}

theorem Settled.respond_eq {answer : Option Activation} (h : a.Settled host sender answer)
    (n : Nat) (tally : Tally) :
    ∃ tally', respond receive ({ a with tally := tally }, host) (List.replicate n sender) =
      (List.replicate n answer, { a with tally := tally' }, host) := by
  induction n generalizing tally with
  | zero => exact ⟨tally, rfl⟩
  | succ n ih =>
    obtain ⟨counted, hfirst⟩ := h tally
    obtain ⟨tally', hrest⟩ := ih counted
    exact ⟨tally', by simp only [List.replicate_succ, respond, hfirst, hrest]⟩

/-- What a signal leaves is settled, if no random words are taken, or else if there is a detour. -/
theorem settled_receiveSignal (h : a.engine.steering.policy = .deterministic ∨
      ∃ activation, (a.receiveSignal sender host).1 = some activation ∧ activation.stands = true) :
    (a.receiveSignal sender host).2.1.Settled (a.receiveSignal sender host).2.2 sender
      ((a.receiveSignal sender host).1.map Activation.again) := by
  intro tally
  have hrecord := recordSignal_recordSignal sender host.neighbors
  unfold receive
  unfold receiveSignal at h ⊢
  generalize recordSignal sender host.neighbors = recorded at h hrecord ⊢
  obtain ⟨source, neighbors⟩ := recorded
  cases source with
  | unknown =>
    simp only [hrecord]
    exact ⟨tally, rfl⟩
  | neighbor g =>
    simp only [hrecord]
    exact ⟨_, rfl⟩
  | preferredParent g =>
    cases hr : a.isRunning with
    | false =>
      have hclock : a.engine.clock.running = false := hr
      simp only [hrecord, isRunning, hclock, Bool.not_false, if_true]
      exact ⟨_, rfl⟩
    | true =>
      have hclock : a.engine.clock.running = true := hr
      simp only [hr, Bool.not_true, Bool.false_eq_true, if_false, Option.some.injEq] at h ⊢
      have hagain := Engine.request_again (e := a.engine) { host with neighbors := neighbors }
        (h.imp_right fun ⟨activation, heq, hstands⟩ => heq ▸ hstands)
      -- The request leaves the table and the clock as they are.
      have hneighbors : (a.engine.request { host with neighbors := neighbors }).2.2.neighbors =
        neighbors := rfl
      have hkept : (a.engine.request { host with neighbors := neighbors }).2.1.clock.running = true :=
        hclock
      generalize a.engine.request { host with neighbors := neighbors } = once
        at hagain hneighbors hkept ⊢
      obtain ⟨activation, engine, after⟩ := once
      simp only at hagain hneighbors hkept
      subst hneighbors
      simp only [hrecord, isRunning, hkept, Bool.not_true, Bool.false_eq_true, if_false, hagain]
      exact ⟨_, rfl⟩

/-- Of signals that one sender repeats the first one decides. Without random words, all others leave the
engine and the host as it does. They get its answer again, or are told that there is a detour once it has
installed one. With random words so do all signals after one that found or installed a detour. -/
theorem repeated_signal (a : Agent) (host : Host NeighborTable RouteList α τ) (sender : Address)
    (n : Nat) :
    let once := a.receiveSignal sender host
    let result := respond receive (a, host) (List.replicate (n + 1) sender)
    (a.engine.steering.policy = .deterministic →
      ∃ tally, result = (once.1 :: List.replicate n (once.1.map Activation.again),
        { once.2.1 with tally := tally }, once.2.2)) ∧
    (once.1 = some .alreadyActive ∨ (∃ detour, once.1 = some (.installed detour)) →
      ∃ tally, result = (once.1 :: List.replicate n (some .alreadyActive),
        { once.2.1 with tally := tally }, once.2.2)) := by
  intro once result
  have hrest : ∀ answer, once.2.1.Settled once.2.2 sender answer → ∃ tally, result =
      (once.1 :: List.replicate n answer, { once.2.1 with tally := tally }, once.2.2) := by
    intro answer hsettled
    obtain ⟨tally, hrespond⟩ := hsettled.respond_eq n once.2.1.tally
    exact ⟨tally, congrArg (fun rest => (once.1 :: rest.1, rest.2)) hrespond⟩
  refine ⟨fun hs => hrest _ (settled_receiveSignal (.inl hs)), fun hthere => ?_⟩
  obtain ⟨activation, hanswer, hstands⟩ :
      ∃ activation, once.1 = some activation ∧ activation.stands = true := by
    rcases hthere with halready | ⟨detour, hinstalled⟩
    · exact ⟨_, halready, rfl⟩
    · exact ⟨_, hinstalled, rfl⟩
  have hagain : once.1.map Activation.again = some .alreadyActive := by
    rw [hanswer, Option.map_some, Activation.again_of_stands hstands]
  have hsettled : once.2.1.Settled once.2.2 sender (once.1.map Activation.again) :=
    settled_receiveSignal (.inr ⟨activation, hanswer, hstands⟩)
  rw [hagain] at hsettled
  exact hrest _ hsettled

/-- The neighbor of the detour has left, and its slot was taken. The first signal leads the detour to the
newcomer, and the next two find it there. -/
theorem repeated_signal_reused :
    let hop (n : UInt16) : Address := ⟨#v[0xfe80, 0, 0, 0, 0, 0, 0, n]⟩
    let agent : Agent := ⟨.standard, .ofConfig .standard, .zero, none⟩
    let first : Session NeighborTable := .start (.empty 2) (.empty 1) (.agent agent)
    let events : List SessionEvent :=
      [.host (.insertNeighbor (hop 1) true), .host (.insertNeighbor (hop 2) true),
        .host (.setPreferredParent (some ⟨0, 0⟩)), .agent .start, .agent (.signal (hop 1)),
        .host (.removeNeighbor ⟨1, 0⟩), .host (.insertNeighbor (hop 3) true)]
    let s := first.run events
    let a := s.agent?.getD agent
    let once := a.receiveSignal (hop 1) s.host
    let result := respond receive (a, s.host) (List.replicate 3 (hop 1))
    s.core = .agent a ∧ a.engine.steering.policy = .deterministic ∧
      once.1 = some (.installed ⟨⟨1, 1⟩, hop 3⟩) ∧
      (∃ tally, result = ([once.1, some .alreadyActive, some .alreadyActive],
        { once.2.1 with tally := tally }, once.2.2)) ∧
      once.2.2.routes = ⟨[⟨hop 3, agent.config.priority⟩], 1⟩ := by
  intro hop agent first events s a once result
  have hs : a.engine.steering.policy = .deterministic := by decide
  have hinstalled : once.1 = some (.installed ⟨⟨1, 1⟩, hop 3⟩) := by decide
  obtain ⟨tally, hresult⟩ := (repeated_signal a s.host (hop 1) 2).1 hs
  refine ⟨by decide, hs, hinstalled, ⟨tally, ?_⟩, by decide⟩
  dsimp only [once, result] at hinstalled ⊢
  rw [hresult, hinstalled]
  rfl

end Agent

end CongestionRouting
