import CongestionRouting.Proofs.Neighbor.Backing
import CongestionRouting.Proofs.Session.Handles
import CongestionRouting.Proofs.Session.Lifetime
import CongestionRouting.Proofs.Agent.Eviction

namespace CongestionRouting

namespace NeighborTable

variable {t t' : NeighborTable} {h : NeighborHandle} {address : Address} {routingParent : Bool}

/-- With a capacity of as many slots as there are indexes. -/
def widened (t : NeighborTable) : NeighborTable := { t with capacity := UInt32.size }

theorem Retouches.widened (hr : t.Retouches t') : t.widened.Retouches t'.widened where
  length_slots := hr.length_slots
  generationAt_eq := hr.generationAt_eq
  address_eq := hr.address_eq
  vacant_eq := hr.vacant_eq
  size_eq := hr.size_eq
  capacity_eq := rfl
  preferredParent_live := hr.preferredParent_live

theorem remove_widened (t : NeighborTable) (h : NeighborHandle) :
    (t.remove h).2.widened = (t.widened.remove h).2 := by
  have hget : t.widened.get? h = t.get? h := rfl
  unfold remove
  rw [hget]
  cases t.get? h <;> rfl

theorem place_widened (t : NeighborTable) (entry : Neighbor) :
    t.widened.place entry = ((t.place entry).1, (t.place entry).2.widened) := by
  unfold place widened
  cases t.vacant <;> rfl

theorem length_slots_place (entry : Neighbor) :
    (t.place entry).2.slots.length = t.slots.length + if t.vacant = [] then 1 else 0 := by
  cases hv : t.vacant with
  | cons index vacant =>
    rw [place_of_cons hv]
    simp [fill]
  | nil =>
    rw [place_of_nil hv]
    simp [fill, grown]

theorem Consistent.insert_widened (ht : t.widened.Consistent)
    (hi : t.insert address routingParent = .ok (h, t')) (hl : t'.slots.length ≤ UInt32.size) :
    t.widened.insert address routingParent = .ok (h, t'.widened) := by
  obtain ⟨hnew, -, hplace⟩ := insert_eq_ok_iff.1 hi
  -- The entry took a vacant slot, or a new one with an index, so not all indexes were in use.
  have hroom : t.widened.size < t.widened.capacity := by
    have hslots : t.slots.length = t.size + t.vacant.length := ht.length_slots
    have hlength := length_slots_place (t := t) ⟨address, routingParent, false⟩
    rw [hplace] at hlength
    change t.size < UInt32.size
    cases hv : t.vacant with
    | nil =>
      rw [hv] at hslots hlength
      simp only [List.length_nil, if_true] at hslots hlength
      omega
    | cons index vacant =>
      rw [hv] at hslots hlength
      simp only [List.length_cons, reduceCtorEq, if_false] at hslots hlength
      omega
  exact insert_eq_ok_iff.2 ⟨hnew, hroom, by rw [place_widened, hplace]⟩

end NeighborTable

namespace TableStep

variable {t t' : NeighborTable} {o : Occurrence}

theorem length_slots_le (hs : TableStep t o t') : t.slots.length ≤ t'.slots.length := by
  cases hs with
  | enter hi =>
    rw [(NeighborTable.insert_eq_ok hi).2.2, NeighborTable.length_slots_place]
    exact Nat.le_add_right _ _
  | leave hg => simp [NeighborTable.remove, hg]
  | retouch hi hr ht => exact Nat.le_of_eq ht.length_slots.symm

theorem widened (hs : TableStep t o t') (ht : t.widened.Consistent)
    (hl : t'.slots.length ≤ UInt32.size) : TableStep t.widened o t'.widened := by
  cases hs with
  | enter hi => exact .enter (ht.insert_widened hi hl)
  | leave hg =>
    rw [NeighborTable.remove_widened]
    exact .leave hg
  | retouch hi hr hretouch => exact .retouch hi hr hretouch.widened

end TableStep

/-- The handle stands for the next hop, or is behind. -/
def Detour.Known (past : History) (t : NeighborTable) (detour : Detour) : Prop :=
  (t.get? detour.neighbor).map Neighbor.address = some detour.nextHop ∨
    Superseded past detour.neighbor

namespace Detour.Known

variable {past : History} {t t' : NeighborTable} {o : Occurrence} {detour : Detour}

/-- Its neighbor stays, or leaves; and who comes to the slot after that gets another handle. -/
theorem step (hk : detour.Known past t) (hc : Counted past t) (ht : t.widened.Consistent)
    (hs : TableStep t o t') (hr : ∀ i, past.releases i < UInt32.size)
    (hl : t'.slots.length ≤ UInt32.size) : detour.Known (o :: past) t' := by
  rcases hk with hlive | hbehind
  · obtain ⟨entry, hg, haddress⟩ := Option.map_eq_some_iff.1 hlive
    -- The capacity does not bear on what a handle stands for.
    rcases (hs.widened ht hl).live_or_left ht hg with ⟨-, new, hnew, hsame⟩ | ⟨-, left, rfl⟩
    · have hnew : t'.get? detour.neighbor = some new := hnew
      refine .inl ?_
      rw [hnew, Option.map_some, hsame, haddress]
    · exact .inr (hc.superseded_of_leave hg (hr _) left)
  · exact .inr (hbehind.cons o)

theorem address_eq (hk : detour.Known past t) (hc : Counted past t)
    (hr : ∀ i, past.releases i < UInt32.size) {entry : Neighbor}
    (hg : t.get? detour.neighbor = some entry) : entry.address = detour.nextHop := by
  rcases hk with hlive | hbehind
  · rw [hg] at hlive
    exact Option.some.inj hlive
  · exact absurd (hg.symm.trans (hc.get?_eq_none hbehind (hr _))) nofun

theorem steeringInvariant (ρ : Type) [RouteStore ρ] (past : History) (t : NeighborTable) :
    SteeringInvariant ChaCha t.Retouches
      (fun s (_ : ρ) => ∀ detour, s.detour = some detour → detour.Known past t) where
  drop _ _ := nofun
  count _ _ _ hp := hp
  install {s table routes} random ht hd hp := by
    rcases Steering.install_cases s table routes random with
      ⟨detour, -, hs, -, hoffered, -⟩ | ⟨hs, -⟩
    · rw [hs]
      intro d heq
      injection heq with heq
      subst heq
      exact .inl ((ht.address_get? _).symm.trans hoffered.address_eq)
    · rw [hs]
      exact hp

end Detour.Known

namespace Steering

variable {ν ρ γ : Type} [Neighborhood ν] [RouteStore ρ] [RandomSource γ] {s : Steering} {table : ν}
  {routes : ρ} {detour : Detour}

/-- A detour that is left by a review had no obstacle. -/
theorem obstacle_of_endInterval (hd : (s.endInterval table routes).2.1.detour = some detour) :
    obstacle table detour = none := by
  unfold endInterval at hd
  cases hold : s.detour with
  | none =>
    rw [hold] at hd
    have hkept : s.releaseHoldDown.detour = s.detour := by
      unfold releaseHoldDown
      split <;> rfl
    exact absurd (hold.symm.trans (hkept.symm.trans hd)) nofun
  | some old =>
    rw [hold] at hd
    simp only at hd
    split at hd
    · exact absurd ((detour_withdraw _ _ _).symm.trans hd) nofun
    · next hclear =>
      split at hd
      · exact Option.some.inj hd ▸ hclear
      · split at hd
        · exact Option.some.inj hd ▸ hclear
        · exact absurd ((detour_withdraw _ _ _).symm.trans hd) nofun

theorem offered_of_install {random : γ} (hnone : s.detour = none)
    (hd : (s.install table routes random).2.1.detour = some detour) : detour.Offered table := by
  rcases s.install_cases table routes random with ⟨installed, -, hs, -, hoffered, -⟩ | ⟨hs, -⟩
  · rw [hs] at hd
    exact Option.some.inj hd ▸ hoffered
  · rw [hs, hnone] at hd
    exact absurd hd nofun

theorem offered_or_obstacle_of_request {random : γ}
    (hd : (s.request table routes random).2.1.detour = some detour) :
    detour.Offered table ∨ obstacle table detour = none := by
  unfold request at hd
  cases hold : s.detour with
  | none =>
    rw [hold] at hd
    exact .inl (offered_of_install hold hd)
  | some old =>
    rw [hold] at hd
    simp only at hd
    split at hd
    · next hclear => exact .inr (Option.some.inj (hold.symm.trans hd) ▸ hclear)
    · exact .inl (offered_of_install (detour_withdraw _ _ _) hd)

end Steering

namespace Detour.Usable

variable {t : NeighborTable} {parent : NeighborHandle} {detour : Detour}

theorem of_offered (ho : detour.Offered t) : ∃ parent, detour.Usable t parent := by
  obtain ⟨parent, hparent, hne⟩ := ho.other_parent
  obtain ⟨entry, hg, hrouting, -⟩ := (NeighborTable.Backs.of_offered ho).get?_eq
  exact ⟨parent, hparent, hne, entry, hg, hrouting⟩

theorem of_obstacle (ho : Steering.obstacle t detour = none) : ∃ parent, detour.Usable t parent := by
  unfold Steering.obstacle at ho
  split at ho
  · exact absurd ho nofun
  · split at ho
    · exact absurd ho nofun
    · next parent hparent =>
      split at ho
      · exact absurd ho nofun
      · next hne =>
        split at ho
        · next hrouting =>
          obtain ⟨entry, hg, hentry⟩ := Option.any_eq_true _ _ |>.1 hrouting
          exact ⟨parent, hparent, Ne.symm hne, entry, hg, hentry⟩
        · exact absurd ho nofun

theorem clearFlags (hu : detour.Usable t parent) : detour.Usable t.clearFlags parent := by
  obtain ⟨entry, hg, hrouting⟩ := hu.routingParent
  refine ⟨hu.preferredParent_eq, hu.neighbor_ne, { entry with congested := false }, ?_, hrouting⟩
  rw [NeighborTable.get?_clearFlags, hg]
  rfl

end Detour.Usable

/-- A detour through a routing parent in the table, to the address of that, while another neighbor with
another address is the preferred parent. -/
structure Detour.Sound (t : NeighborTable) (detour : Detour) : Prop where
  usable : ∃ parent, detour.Usable t parent
  address_eq : (t.get? detour.neighbor).map Neighbor.address = some detour.nextHop
  nextHop_ne : t.preferredAddress ≠ some detour.nextHop

/-- No two neighbors have one address, so the preferred parent has another one. -/
theorem Detour.Sound.of_usable {t : NeighborTable} {parent : NeighborHandle} {detour : Detour}
    (hu : detour.Usable t parent) (ht : t.widened.Consistent)
    (haddress : (t.get? detour.neighbor).map Neighbor.address = some detour.nextHop) :
    detour.Sound t := by
  refine ⟨⟨parent, hu⟩, haddress, fun hp => ?_⟩
  have hlookup : t.lookup detour.nextHop = some detour.neighbor := ht.lookup_eq_some_iff.2 haddress
  have hparent : t.preferredParent = t.lookup detour.nextHop := ht.lookup_preferredAddress hp
  rw [hu.preferredParent_eq, hlookup] at hparent
  exact hu.neighbor_ne (Option.some.inj hparent).symm

theorem Agent.usable_of_reviews {ρ α τ : Type} [RouteStore ρ] [Advertiser α] [IntervalTimer τ]
    {a : Agent} {host : Host NeighborTable ρ α τ} {event : AgentEvent} {detour : Detour}
    (hr : event.reviews (a.step host event).1 = true)
    (hd : (a.step host event).2.1.engine.steering.detour = some detour) :
    ∃ parent, detour.Usable (a.step host event).2.2.neighbors parent := by
  -- A stop leaves no detour, a tick has reviewed it, and a signal has asked for it.
  cases event with
  | stop => exact absurd ((Steering.detour_withdraw _ _ _).symm.trans hd) nofun
  | tick =>
    simp only [Agent.step] at hr hd ⊢
    cases hreport : (a.tick host).1 with
    | none =>
      rw [hreport] at hr
      cases hr
    | some report =>
      have hticked := ticked_of_report hreport
      rw [hticked.engine_eq] at hd
      obtain ⟨parent, husable⟩ := Detour.Usable.of_obstacle (Steering.obstacle_of_endInterval hd)
      rw [hticked.neighbors_eq]
      exact ⟨parent, husable.clearFlags⟩
  | signal sender =>
    simp only [Agent.step] at hr hd ⊢
    rcases a.receiveSignal_counts sender host with ⟨n, heq⟩ | ⟨-, heq⟩
    · rw [heq] at hr
      cases hr
    · rw [heq] at hd ⊢
      exact (Steering.offered_or_obstacle_of_request hd).elim Detour.Usable.of_offered
        Detour.Usable.of_obstacle
  | start | count _ | reseed _ | forget _ | makeReport | receiveReport _ _ => cases hr

namespace Session

variable {s : Session NeighborTable} {past : History}

structure Resolving (past : History) (s : Session NeighborTable) : Prop where
  counted : Counted past s.host.neighbors
  consistent : s.host.neighbors.widened.Consistent
  known : ∃ a, s.core = .agent a ∧
    ∀ detour, a.engine.steering.detour = some detour → detour.Known past s.host.neighbors

theorem Resolving.step (hs : s.Resolving past) (event : SessionEvent)
    (hr : ∀ i, past.releases i < UInt32.size)
    (hl : (s.step event).2.host.neighbors.slots.length ≤ UInt32.size) :
    (s.step event).2.Resolving (⟨event, (s.step event).1⟩ :: past) := by
  have htable := s.tableStep event
  -- Against the table before the event; the event may then vacate the slot of the detour.
  have hknown : ∃ a, (s.step event).2.core = .agent a ∧
      ∀ detour, a.engine.steering.detour = some detour → detour.Known past s.host.neighbors := by
    obtain ⟨a, hcore, hknown⟩ := hs.known
    cases event with
    | host event => exact ⟨a, hcore, hknown⟩
    | engine event =>
      simp only [Session.step, hcore]
      exact ⟨a, rfl, hknown⟩
    | agent event =>
      have hinv := Detour.Known.steeringInvariant RouteList past s.host.neighbors
      simp only [Session.step, hcore]
      exact ⟨_, rfl, Agent.step_keeps hinv event (fun sender => .recordSignal _ sender) hknown⟩
  obtain ⟨a, hcore, hknown⟩ := hknown
  exact {
    counted := hs.counted.step htable
    consistent := ((htable.widened hs.consistent hl).consistent hs.consistent).1
    known := ⟨a, hcore, fun detour hd =>
      (hknown detour hd).step hs.counted hs.consistent htable hr hl⟩ }

theorem length_slots_le_run (s : Session NeighborTable) (events : List SessionEvent) :
    s.host.neighbors.slots.length ≤ (s.run events).host.neighbors.slots.length := by
  induction events generalizing s with
  | nil => exact Nat.le_refl _
  | cons event events ih => exact Nat.le_trans (s.tableStep event).length_slots_le (ih _)

theorem Resolving.run (hs : s.Resolving past) {events : List SessionEvent}
    (hr : ∀ i, (s.history past events).releases i < UInt32.size)
    (hl : (s.run events).host.neighbors.slots.length ≤ UInt32.size) :
    (s.run events).Resolving (s.history past events) := by
  induction events generalizing s past with
  | nil => exact hs
  | cons event events ih =>
    -- Neither the releases nor the slots become fewer, so their bounds hold all along.
    have hpast : ∀ i, past.releases i < UInt32.size := fun i =>
      Nat.lt_of_le_of_lt (s.releases_le_history past (event :: events) i) (hr i)
    have hnext := Nat.le_trans ((s.step event).2.length_slots_le_run events) hl
    exact ih (hs.step event hpast hnext) hr hl

/-- The detour that is there after a review, or after a request, is sound. -/
theorem Resolving.review (hs : s.Resolving past) (hr : ∀ i, past.releases i < UInt32.size)
    (hl : s.host.neighbors.slots.length ≤ UInt32.size) {event : AgentEvent}
    (hreviews : event.reviews (s.step (.agent event)).1 = true) :
    ∃ a, (s.step (.agent event)).2.core = .agent a ∧
      ∀ detour, a.engine.steering.detour = some detour →
        detour.Sound (s.step (.agent event)).2.host.neighbors := by
  have hslots : (s.step (.agent event)).2.host.neighbors.slots.length ≤ UInt32.size := by
    obtain ⟨a, hcore, -⟩ := hs.known
    simp only [Session.step, hcore]
    exact Nat.le_trans (Nat.le_of_eq (a.retouches_step s.host event).length_slots) hl
  have hnext := hs.step (.agent event) hr hslots
  have hreleases : ∀ i, History.releases (⟨.agent event, (s.step (.agent event)).1⟩ :: past) i <
      UInt32.size := fun i => by
    rw [History.releases_of_none rfl]
    exact hr i
  obtain ⟨a, hcore, hknown⟩ := hnext.known
  refine ⟨a, hcore, fun detour hd => ?_⟩
  obtain ⟨parent, husable⟩ : ∃ parent, detour.Usable (s.step (.agent event)).2.host.neighbors parent := by
    obtain ⟨before, hbefore, -⟩ := hs.known
    simp only [Session.step, hbefore, SessionCore.agent.injEq] at hreviews hcore ⊢
    subst hcore
    exact Agent.usable_of_reviews hreviews hd
  obtain ⟨entry, hg, -⟩ := husable.routingParent
  refine .of_usable husable hnext.consistent ?_
  rw [hg, Option.map_some, (hknown detour hd).address_eq hnext.counted hreleases hg]

/-- As long as every slot has an index, and none was vacated so often that its generation counted around,
the handle of a detour leads to its next hop or nowhere. When the agent has reviewed its detour or was
asked for one, the detour it has is sound: it leads through a routing parent in the table other than the
preferred one, which there is, and its next hop is not the address of that one. -/
theorem detour_resolves {config : Config} {agent : Agent} (capacity : Nat) (routes : RouteList)
    {events : List SessionEvent} (hc : Agent.ofConfig config = .ok agent) :
    let first : Session NeighborTable := start (.empty capacity) routes (.agent agent)
    let s := first.run events
    (∀ i, (first.history [] events).releases i < UInt32.size) →
      s.host.neighbors.slots.length ≤ UInt32.size →
      ∃ a, s.core = .agent a ∧
        (∀ detour entry, a.engine.steering.detour = some detour →
          s.host.neighbors.get? detour.neighbor = some entry → entry.address = detour.nextHop) ∧
        ∀ event, event.reviews (s.step (.agent event)).1 = true →
          ∃ a', (s.step (.agent event)).2.core = .agent a' ∧
            ∀ detour, a'.engine.steering.detour = some detour →
              detour.Sound (s.step (.agent event)).2.host.neighbors := by
  intro first s hr hl
  have hfirst : first.Resolving [] := by
    refine ⟨.empty capacity, .empty (Nat.le_refl _), agent, rfl, fun detour hd => ?_⟩
    rw [Agent.ofConfig_eq_ok hc] at hd
    exact absurd hd nofun
  have hs : s.Resolving (first.history [] events) := hfirst.run hr hl
  obtain ⟨a, hcore, hknown⟩ := hs.known
  exact ⟨a, hcore, fun detour entry hd hg => (hknown detour hd).address_eq hs.counted hr hg,
    fun event hreviews => hs.review hr hl hreviews⟩

/-- The alternate parent leaves, and a new neighbor comes to its slot. The next signal leads the detour to
that one, by its own handle. -/
theorem detour_resolves_reused :
    let hop (n : UInt16) : Address := ⟨#v[0xfe80, 0, 0, 0, 0, 0, 0, n]⟩
    let agent : Agent := ⟨.standard, .ofConfig .standard, .zero, none⟩
    let first : Session NeighborTable := start (.empty 2) (.empty 2) (.agent agent)
    let events : List SessionEvent :=
      [.host (.insertNeighbor (hop 1) true), .host (.insertNeighbor (hop 2) true),
        .host (.setPreferredParent (some ⟨0, 0⟩)), .agent .start, .agent (.signal (hop 1)),
        .host (.removeNeighbor ⟨1, 0⟩), .host (.insertNeighbor (hop 3) true)]
    let s := first.run events
    let signal : AgentEvent := .signal (hop 1)
    Agent.ofConfig .standard = .ok agent ∧
      (∀ i, (first.history [] events).releases i < UInt32.size) ∧
      s.host.neighbors.slots.length ≤ UInt32.size ∧ s.detourHop? = some (hop 2) ∧
      signal.reviews (s.step (.agent signal)).1 = true ∧
      (s.step (.agent signal)).2.detourHop? = some (hop 3) ∧
      ∃ a, (s.step (.agent signal)).2.core = .agent a ∧
        ∀ detour, a.engine.steering.detour = some detour →
          detour.Sound (s.step (.agent signal)).2.host.neighbors := by
  intro hop agent first events s signal
  have hc : Agent.ofConfig .standard = .ok agent := rfl
  have hlength : (first.history [] events).length < UInt32.size := by decide
  have hr : ∀ i, (first.history [] events).releases i < UInt32.size := fun i =>
    Nat.lt_of_le_of_lt List.countP_le_length hlength
  have hl : s.host.neighbors.slots.length ≤ UInt32.size := by decide
  have hreviews : signal.reviews (s.step (.agent signal)).1 = true := by decide
  refine ⟨hc, hr, hl, by decide, hreviews, by decide, ?_⟩
  dsimp only [s, first] at hl hreviews ⊢
  obtain ⟨a, -, -, hnext⟩ := detour_resolves 2 (.empty 2) hc hr hl
  exact hnext signal hreviews

end Session

end CongestionRouting
