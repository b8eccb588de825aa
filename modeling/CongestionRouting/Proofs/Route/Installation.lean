import CongestionRouting.Route.Steering

namespace CongestionRouting

variable {ν ρ γ : Type} [Neighborhood ν] [RouteStore ρ] [RandomSource γ]

namespace Selection

theorem isCandidate_of_firstUncongested {table : ν} {preferred h : NeighborHandle}
    (hs : firstUncongested table preferred = some h) : isCandidate table preferred h = true := by
  unfold firstUncongested at hs
  have hmem : h ∈ (Neighborhood.neighbors table).filter (isCandidate table preferred) := by
    rcases Option.or_eq_some_iff.1 hs with hfind | ⟨-, hlast⟩
    · exact List.mem_of_find?_eq_some hfind
    · exact List.mem_of_getLast? hlast
  exact (List.mem_filter.1 hmem).2

theorem isCandidate_of_drawUncongested {table : ν} {preferred h : NeighborHandle}
    {neighbors : List NeighborHandle} {attempts : Nat} {random : γ}
    (hs : (drawUncongested table preferred neighbors attempts random).1 = some h) :
    isCandidate table preferred h = true := by
  induction attempts generalizing random with
  | zero => exact absurd hs nofun
  | succ attempts ih =>
    simp only [drawUncongested] at hs
    split at hs
    · next h' hfilter =>
      obtain ⟨-, hc⟩ := Option.filter_eq_some_iff.1 hfilter
      injection hs with hs
      subst hs
      exact ((Bool.and_eq_true _ _).mp hc).1
    · exact ih hs

theorem isCandidate_of_select {policy : SelectionPolicy} {table : ν} {preferred h : NeighborHandle}
    {random : γ} (hs : (select policy table preferred random).1 = some h) :
    isCandidate table preferred h = true := by
  cases policy with
  | deterministic => exact isCandidate_of_firstUncongested hs
  | randomized attempts =>
    simp only [select] at hs
    split at hs
    · exact absurd hs nofun
    · exact isCandidate_of_drawUncongested hs

end Selection

/-- A detour that can be installed: through a routing parent other than the preferred one, to the
address that it has in the table. -/
structure Detour.Offered (table : ν) (detour : Detour) : Prop where
  other_parent : ∃ parent, Neighborhood.preferredParent table = some parent ∧
    detour.neighbor ≠ parent
  routingParent : Neighborhood.isRoutingParent table detour.neighbor = true
  address_eq : Neighborhood.address table detour.neighbor = some detour.nextHop

namespace Steering

theorem detour_withdraw (s : Steering) (routes : ρ) (reason : WithdrawalReason) :
    (s.withdraw routes reason).2.1.detour = none := by
  unfold Steering.withdraw
  cases hd : s.detour with
  | none => exact hd
  | some detour =>
    simp only
    split <;> rfl

/-- An attempt either installs the route of a detour, or leaves the record alone; the keeper of the
routes is then asked in vain, if at all. -/
theorem install_cases (s : Steering) (table : ν) (routes : ρ) (random : γ) :
    (∃ detour, (s.install table routes random).1 = .installed detour ∧
      (s.install table routes random).2.1 =
        { s with detour := some detour, activeIntervals := 0 } ∧
      RouteStore.add routes detour.nextHop s.priority =
        (true, (s.install table routes random).2.2.1) ∧
      detour.Offered table ∧ s.suppressed = false) ∨
    ((s.install table routes random).2.1 = s ∧
      ((s.install table routes random).2.2.1 = routes ∨
        ∃ nextHop, RouteStore.add routes nextHop s.priority =
          (false, (s.install table routes random).2.2.1))) := by
  unfold install
  cases hsup : s.suppressed with
  | true => exact .inr ⟨rfl, .inl rfl⟩
  | false =>
    simp only [Bool.false_eq_true, if_false]
    cases hpref : Neighborhood.preferredParent table with
    | none => exact .inr ⟨rfl, .inl rfl⟩
    | some parent =>
      simp only
      cases hchoice : (Selection.select s.policy table parent random).1.bind
          fun h => (Neighborhood.address table h).map (Detour.mk h) with
      | none => exact .inr ⟨rfl, .inl rfl⟩
      | some detour =>
        obtain ⟨h, hselect, hmap⟩ := Option.bind_eq_some_iff.1 hchoice
        obtain ⟨nextHop, haddr, rfl⟩ := Option.map_eq_some_iff.1 hmap
        have hcand := Selection.isCandidate_of_select hselect
        simp only [Selection.isCandidate, Bool.and_eq_true, decide_eq_true_eq] at hcand
        simp only
        rcases hadd : RouteStore.add routes nextHop s.priority with ⟨accepted, routes'⟩
        cases accepted with
        | false => exact .inr ⟨rfl, .inr ⟨nextHop, hadd⟩⟩
        | true =>
          exact .inl ⟨⟨h, nextHop⟩, rfl, rfl, hadd,
            ⟨⟨parent, hpref, hcand.1⟩, hcand.2, haddr⟩, trivial⟩

theorem install_ne_alreadyActive (s : Steering) (table : ν) (routes : ρ) (random : γ) :
    (s.install table routes random).1 ≠ .alreadyActive := by
  unfold install
  split
  · exact nofun
  · split
    · exact nofun
    · simp only
      split
      · exact nofun
      · split <;> exact nofun

theorem isActive_install {s : Steering} (hd : s.detour = none) (table : ν) (routes : ρ) (random : γ) :
    (s.install table routes random).2.1.isActive = (s.install table routes random).1.isInstalled := by
  have hidle : s.isActive = false := congrArg Option.isSome hd
  unfold install
  split
  · exact hidle
  · split
    · exact hidle
    · simp only
      split
      · exact hidle
      · split
        · exact hidle
        · rfl

/-- A request finds the detour in order, or else there is a detour after it if it was installed. -/
theorem request_cases (s : Steering) (table : ν) (routes : ρ) (random : γ) :
    ((s.request table routes random).1 = .alreadyActive ∧ s.isActive = true ∧
      (s.request table routes random).2.1 = s) ∨
    ((s.request table routes random).1 ≠ .alreadyActive ∧
      (s.request table routes random).2.1.isActive =
        (s.request table routes random).1.isInstalled) := by
  unfold request
  cases hd : s.detour with
  | none => exact .inr ⟨install_ne_alreadyActive s table routes random, isActive_install hd ..⟩
  | some detour =>
    simp only
    split
    · exact .inl ⟨rfl, congrArg Option.isSome hd, rfl⟩
    · next reason _ =>
      exact .inr ⟨install_ne_alreadyActive _ table _ random,
        isActive_install (detour_withdraw s routes reason) ..⟩

end Steering

end CongestionRouting
