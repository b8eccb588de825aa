import CongestionRouting.Proofs.Agent.Eviction
import CongestionRouting.Proofs.Route.Choice
import CongestionRouting.Proofs.Route.Phase
import CongestionRouting.Proofs.Route.Sharing

namespace CongestionRouting

/-- Whether an answer was given after a choice among the neighbors. -/
def Activation.chooses : Activation → Bool
  | .alreadyActive | .suppressed | .noParent => false
  | .installed _ | .noCandidate | .routeRejected _ => true

namespace Steering

section Generic

variable {ν ρ γ : Type} [Neighborhood ν] [RouteStore ρ] [RandomSource γ] {s : Steering} {table : ν}
  {detour : Detour}

/-- Without the detour, if there is one. -/
def idled (s : Steering) : Steering :=
  match s.detour with
  | none => s
  | some _ => s.cleared

/-- The routes beside that of the detour. -/
def remaining (s : Steering) (routes : ρ) : ρ :=
  match s.detour with
  | none => routes
  | some detour => RouteStore.remove routes detour.nextHop

theorem detour_idled (s : Steering) : s.idled.detour = none := by
  unfold idled
  cases hd : s.detour with
  | none => exact hd
  | some _ => rfl

theorem idled_eq (s : Steering) : s.idled.policy = s.policy ∧ s.idled.priority = s.priority ∧
    s.idled.suppressed = s.suppressed := by
  unfold idled
  split <;> exact ⟨rfl, rfl, rfl⟩

theorem request_of_clear (hd : s.detour = some detour) (ho : obstacle table detour = none)
    (routes : ρ) (random : γ) :
    s.request table routes random = (.alreadyActive, s, routes, random) := by
  simp only [request, hd, ho]

theorem request_of_obstacle (ho : ∀ detour, s.detour = some detour → obstacle table detour ≠ none)
    (routes : ρ) (random : γ) :
    s.request table routes random = s.idled.install table (s.remaining routes) random := by
  unfold request idled remaining
  cases hd : s.detour with
  | none => rfl
  | some detour =>
    obtain ⟨reason, hreason⟩ := Option.ne_none_iff_exists'.1 (ho detour hd)
    simp only [hreason, withdraw_eq_cleared hd routes reason (obstacle_ne_parentUncongested hreason)]

/-- Words are taken for a choice only, and then as many as the choice takes. -/
theorem random_install (s : Steering) (table : ν) (routes : ρ) (random : γ) :
    let result := s.install table routes random
    (result.1.chooses = false ∧ result.2.2.2 = random) ∨
      (result.1.chooses = true ∧ s.suppressed = false ∧
        ∃ parent, Neighborhood.preferredParent table = some parent ∧
          result.2.2.2 = (Selection.select s.policy table parent random).2) := by
  unfold install
  cases hsuppressed : s.suppressed with
  | true => exact .inl ⟨rfl, rfl⟩
  | false =>
    simp only [Bool.false_eq_true, if_false]
    cases hparent : Neighborhood.preferredParent table with
    | none => exact .inl ⟨rfl, rfl⟩
    | some parent =>
      refine .inr ?_
      simp only
      split
      · exact ⟨rfl, trivial, parent, rfl, rfl⟩
      · split <;> exact ⟨rfl, trivial, parent, rfl, rfl⟩

theorem random_request (s : Steering) (table : ν) (routes : ρ) (random : γ) :
    let result := s.request table routes random
    (result.1.chooses = false ∧ result.2.2.2 = random) ∨
      (result.1.chooses = true ∧ s.suppressed = false ∧
        ∃ parent, Neighborhood.preferredParent table = some parent ∧
          result.2.2.2 = (Selection.select s.policy table parent random).2) := by
  by_cases ho : ∀ detour, s.detour = some detour → obstacle table detour ≠ none
  · rw [request_of_obstacle ho]
    have hinstall := random_install s.idled table (s.remaining routes) random
    rwa [(idled_eq s).1, (idled_eq s).2.2] at hinstall
  · simp only [ne_eq, not_forall, not_not] at ho
    obtain ⟨detour, hd, hclear⟩ := ho
    rw [request_of_clear hd hclear]
    exact .inl ⟨rfl, rfl⟩

end Generic

section Table

variable {s : Steering} {t : NeighborTable} {routes : RouteList} {activation : Activation}

/-- The answer where no detour is recorded and the choice takes no random words: the first obstacle that
there is; or else the detour to be installed. -/
inductive Ruling (s : Steering) (t : NeighborTable) (routes : RouteList) : Activation → Prop
  | suppressed (held : s.suppressed = true) : Ruling s t routes .suppressed
  | noParent (free : s.suppressed = false) (orphaned : t.preferredParent = none) :
      Ruling s t routes .noParent
  | noCandidate {parent : NeighborHandle} (free : s.suppressed = false)
      (preferred : t.preferredParent = some parent) (none : ∀ h entry, ¬t.Alternate parent h entry) :
      Ruling s t routes .noCandidate
  | routeRejected {parent h : NeighborHandle} {entry : Neighbor} (free : s.suppressed = false)
      (preferred : t.preferredParent = some parent) (chosen : t.Chosen parent h)
      (resolves : t.get? h = some entry) (refused : ¬routes.Accepts entry.address s.priority) :
      Ruling s t routes (.routeRejected entry.address)
  | installed {parent h : NeighborHandle} {entry : Neighbor} (free : s.suppressed = false)
      (preferred : t.preferredParent = some parent) (chosen : t.Chosen parent h)
      (resolves : t.get? h = some entry) (accepted : routes.Accepts entry.address s.priority) :
      Ruling s t routes (.installed ⟨h, entry.address⟩)

def record (s : Steering) : Activation → Steering
  | .installed detour => { s with detour := some detour, activeIntervals := 0 }
  | _ => s

def enter (s : Steering) (routes : RouteList) : Activation → RouteList
  | .installed detour => { routes with routes := routes.routes ++ [⟨detour.nextHop, s.priority⟩] }
  | _ => routes

theorem Ruling.exists (ht : t.Orderly) (s : Steering) (routes : RouteList) :
    ∃ activation, s.Ruling t routes activation := by
  cases hsuppressed : s.suppressed with
  | true => exact ⟨_, .suppressed hsuppressed⟩
  | false =>
    cases hparent : t.preferredParent with
    | none => exact ⟨_, .noParent hsuppressed hparent⟩
    | some parent =>
      cases hchoice : Selection.firstUncongested t parent with
      | none =>
        exact ⟨_, .noCandidate hsuppressed hparent
          ((Selection.firstUncongested_eq_none_iff ht).1 hchoice)⟩
      | some h =>
        have hchosen := (Selection.firstUncongested_eq_some_iff ht).1 hchoice
        obtain ⟨entry, halternate⟩ := hchosen.alternate
        by_cases haccepts : routes.Accepts entry.address s.priority
        · exact ⟨_, .installed hsuppressed hparent hchosen halternate.get?_eq haccepts⟩
        · exact ⟨_, .routeRejected hsuppressed hparent hchosen halternate.get?_eq haccepts⟩

variable {γ : Type} [RandomSource γ]

theorem Ruling.install_eq (hr : s.Ruling t routes activation) (ht : t.Orderly)
    (hs : s.policy = .deterministic) (random : γ) :
    s.install t routes random = (activation, s.record activation, s.enter routes activation, random) := by
  have hpreferred : Neighborhood.preferredParent t = t.preferredParent := rfl
  have haddress : ∀ h, Neighborhood.address t h = (t.get? h).map Neighbor.address := fun _ => rfl
  unfold install
  cases hr with
  | suppressed held => simp [held, record, enter]
  | noParent free orphaned => simp [free, hpreferred, orphaned, record, enter]
  | noCandidate free preferred none =>
    have hchoice := (Selection.firstUncongested_eq_none_iff ht).2 none
    simp [free, hpreferred, preferred, hs, Selection.select, hchoice, record, enter]
  | routeRejected free preferred chosen resolves refused =>
    have hchoice := (Selection.firstUncongested_eq_some_iff ht).2 chosen
    simp [free, hpreferred, preferred, hs, Selection.select, hchoice, haddress, resolves,
      RouteList.add_of_not_accepts refused, record, enter]
  | installed free preferred chosen resolves accepted =>
    have hchoice := (Selection.firstUncongested_eq_some_iff ht).2 chosen
    simp [free, hpreferred, preferred, hs, Selection.select, hchoice, haddress, resolves,
      accepted.add_eq, record, enter]

/-- Exactly one answer is due, and it is given. -/
theorem install_eq_iff (ht : t.Orderly) (hs : s.policy = .deterministic) (routes : RouteList)
    (random : γ) : (s.install t routes random).1 = activation ↔ s.Ruling t routes activation := by
  constructor
  · rintro rfl
    obtain ⟨due, hdue⟩ := Ruling.exists ht s routes
    rwa [hdue.install_eq ht hs]
  · intro hr
    rw [hr.install_eq ht hs]

end Table

end Steering

end CongestionRouting
