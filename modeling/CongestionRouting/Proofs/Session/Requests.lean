import CongestionRouting.Proofs.Route.Requests
import CongestionRouting.Proofs.Session.Resolution

namespace CongestionRouting

theorem NeighborTable.Orderly.preferredAddress_ne {t : NeighborTable} {parent h : NeighborHandle}
    {entry : Neighbor} (ht : t.Orderly) (hp : t.preferredParent = some parent)
    (ha : t.Alternate parent h entry) : t.preferredAddress ≠ some entry.address := by
  intro hsame
  rw [preferredAddress, hp, Option.bind_some] at hsame
  obtain ⟨found, hfound, haddress⟩ := Option.map_eq_some_iff.1 hsame
  exact ha.neighbor_ne (ht.eq_of_address_eq ha.get?_eq hfound haddress.symm)

namespace Session

variable {ν ρ γ : Type} [Neighborhood ν] [RouteStore ρ] [RandomSource γ]

/-- A request that takes no random words leaves a usable detour alone. One that is not usable is forgotten
and its route taken out. Then the answer is the first obstacle to another detour, and nothing more is
changed; or a detour is installed, whose route stands behind the others and does not lead to the preferred
parent. -/
theorem request_decides (capacity : Nat) (routes : RouteList) (core : SessionCore)
    (events : List SessionEvent) {s : Steering} (hs : s.policy = .deterministic) (store : RouteList)
    (random : γ) :
    let t := ((start (.empty capacity) routes core).run events).host.neighbors
    let result := s.request t store random
    let rest := s.remaining store
    let usable := ∃ detour parent, s.detour = some detour ∧ detour.Usable t parent
    (usable → result = (.alreadyActive, s, store, random)) ∧
      (¬usable →
        (∀ activation, result.1 = activation ↔ s.idled.Ruling t rest activation) ∧
        (∀ detour, result.1 = .installed detour → t.preferredAddress ≠ some detour.nextHop ∧
          result.2 = ({ s.idled with detour := some detour, activeIntervals := 0 },
            { rest with routes := rest.routes ++ [⟨detour.nextHop, s.priority⟩] }, random)) ∧
        (result.1.isInstalled = false → result.2.1.isActive = false ∧
          result.2 = (s.idled, rest, random))) := by
  intro t result rest usable
  have ht : t.Orderly := orderly_run (.empty capacity) events
  refine ⟨?_, fun hunusable => ?_⟩
  · rintro ⟨detour, parent, hd, husable⟩
    exact Steering.request_of_clear hd husable.obstacle_eq store random
  -- Without a usable detour the request is an attempt to install one, from the idle record.
  · have hobstacle : ∀ detour, s.detour = some detour → Steering.obstacle t detour ≠ none := by
      intro detour hd hclear
      obtain ⟨parent, husable⟩ := Detour.Usable.of_obstacle hclear
      exact hunusable ⟨detour, parent, hd, husable⟩
    have hresult : result = s.idled.install t rest random :=
      Steering.request_of_obstacle hobstacle store random
    have hpolicy : s.idled.policy = .deterministic := s.idled_eq.1.trans hs
    have hanswer : ∀ activation, result.1 = activation ↔ s.idled.Ruling t rest activation := by
      intro activation
      rw [hresult]
      exact Steering.install_eq_iff ht hpolicy rest random
    have hafter := ((hanswer _).1 rfl).install_eq ht hpolicy random
    rw [← hresult] at hafter
    refine ⟨hanswer, fun detour hinstalled => ?_, fun hrefused => ?_⟩
    · rw [hinstalled] at hafter
      refine ⟨?_, ?_⟩
      · cases (hanswer _).1 hinstalled with
        | installed free preferred chosen resolves accepted =>
          obtain ⟨entry, halternate⟩ := chosen.alternate
          obtain rfl := Option.some.inj (halternate.get?_eq.symm.trans resolves)
          exact ht.preferredAddress_ne preferred halternate
      · rw [hafter, ← s.idled_eq.2.1]
        rfl
    · have hsame : result.2 = (s.idled, rest, random) := by
        rw [hafter]
        cases hr : result.1 with
        | installed detour =>
          rw [hr] at hrefused
          cases hrefused
        | _ => rfl
      refine ⟨?_, hsame⟩
      rw [hsame, Steering.isActive, s.detour_idled]
      rfl

/-- The neighbor of the detour has left, and its slot was taken. There is room for one route only, and the
request has it lead to the newcomer. -/
theorem request_decides_reused :
    let hop (n : UInt16) : Address := ⟨#v[0xfe80, 0, 0, 0, 0, 0, 0, n]⟩
    let events : List SessionEvent :=
      [.host (.insertNeighbor (hop 1) true), .host (.insertNeighbor (hop 2) true),
        .host (.setPreferredParent (some ⟨0, 0⟩)), .host (.removeNeighbor ⟨1, 0⟩),
        .host (.insertNeighbor (hop 3) true)]
    let t := ((start (.empty 2) (.empty 0) .absent).run events).host.neighbors
    let s : Steering := ⟨.deterministic, ⟨1⟩, .disabled, some ⟨⟨1, 0⟩, hop 2⟩, false, 5, 0⟩
    let store : RouteList := ⟨[⟨hop 2, ⟨1⟩⟩], 1⟩
    let result := s.request t store (ChaCha.ofSeed 0)
    s.policy = .deterministic ∧
      (¬∃ detour parent, s.detour = some detour ∧ detour.Usable t parent) ∧
      result.1 = .installed ⟨⟨1, 1⟩, hop 3⟩ ∧ result.2.1.detour = some ⟨⟨1, 1⟩, hop 3⟩ ∧
      result.2.2.1 = ⟨[⟨hop 3, ⟨1⟩⟩], 1⟩ ∧ t.preferredAddress ≠ some (hop 3) := by
  intro hop events t s store result
  have hunusable : ¬∃ detour parent, s.detour = some detour ∧ detour.Usable t parent := by
    rintro ⟨detour, parent, hd, husable⟩
    obtain rfl := Option.some.inj hd
    obtain ⟨entry, hg, -⟩ := husable.routingParent
    have hstale : t.get? ⟨1, 0⟩ = none := by decide
    exact absurd (hstale.symm.trans hg) nofun
  have hinstalled : result.1 = .installed ⟨⟨1, 1⟩, hop 3⟩ := by decide
  have hrequest := (request_decides 2 (.empty 0) .absent events (s := s) rfl store
    (ChaCha.ofSeed 0)).2 hunusable
  obtain ⟨hne, hafter⟩ := hrequest.2.1 _ hinstalled
  refine ⟨rfl, hunusable, hinstalled, ?_, ?_, hne⟩
  · rw [hafter]
  · rw [hafter]
    rfl

/-- A random choice goes by the entry that a word leads to, in proportion, among those that there are. It
takes words until it hits an alternate without congestion, as many as there are attempts at most, and none
where there is no entry. A request takes the words of its choice, if it comes to choose, and none
otherwise. -/
theorem choice_draws (capacity : Nat) (routes : RouteList) (core : SessionCore)
    (events : List SessionEvent) (parent : NeighborHandle) (attempts : UInt8) (random : γ)
    (s : Steering) (table : ν) (store : ρ) :
    let t := ((start (.empty capacity) routes core).run events).host.neighbors
    let n := t.entries.length
    let result := s.request table store random
    n ≤ UInt32.size ∧ (∀ j, 0 < n → Selection.position n random j < n) ∧
      Selection.Drawn t parent attempts.toNat random
        (Selection.select (.randomized attempts) t parent random) ∧
      ((result.1.chooses = false ∧ result.2.2.2 = random) ∨
        (result.1.chooses = true ∧ s.suppressed = false ∧
          ∃ preferred, Neighborhood.preferredParent table = some preferred ∧
            result.2.2.2 = (Selection.select s.policy table preferred random).2)) := by
  intro t n result
  have ht : t.Orderly := orderly_run (.empty capacity) events
  exact ⟨ht.length_entries_le, fun j hn => Selection.position_lt hn random j,
    Selection.drawn_select ht attempts random, Steering.random_request s table store random⟩

/-- The first word leads to the preferred parent, the second one to a congested neighbor. -/
theorem choice_draws_third :
    let hop (n : UInt16) : Address := ⟨#v[0xfe80, 0, 0, 0, 0, 0, 0, n]⟩
    let events : List SessionEvent :=
      [.host (.insertNeighbor (hop 1) true), .host (.insertNeighbor (hop 2) true),
        .host (.insertNeighbor (hop 3) true), .host (.setPreferredParent (some ⟨0, 0⟩)),
        .host (.setCongested ⟨1, 0⟩ true)]
    let t := ((start (.empty 3) (.empty 0) .absent).run events).host.neighbors
    let source (words : List UInt32) : ChaCha := ⟨.replicate 8 0, 0, words⟩
    let random := source [0, 0x60000000, 0xffffffff, 7]
    let s : Steering := ⟨.randomized 4, ⟨1⟩, .disabled, none, false, 0, 0⟩
    let result := s.request t (.empty 1 : RouteList) random
    Selection.select (.randomized 4) t ⟨0, 0⟩ random = (some ⟨2, 0⟩, source [7]) ∧
      Selection.Drawn t ⟨0, 0⟩ 4 random (some ⟨2, 0⟩, source [7]) ∧ result.1.chooses = true ∧
      result.2.2.2 = source [7] := by
  intro hop events t source random s result
  have hselect : Selection.select (.randomized 4) t ⟨0, 0⟩ random = (some ⟨2, 0⟩, source [7]) := by
    decide
  have hdrawn := (choice_draws 3 (.empty 0) .absent events ⟨0, 0⟩ 4 random s t
    (.empty 1 : RouteList)).2.2.1
  rw [hselect] at hdrawn
  exact ⟨hselect, hdrawn, by decide, by decide⟩

end Session

end CongestionRouting
