import CongestionRouting.Proofs.Route.Invariant
import Mathlib.Data.List.Nodup

namespace CongestionRouting

namespace RouteList

variable {t t' : RouteList} {nextHop : Address} {priority : RoutePriority}

/-- There is room for a route of that priority, and none to that next hop yet. -/
structure Accepts (t : RouteList) (nextHop : Address) (priority : RoutePriority) : Prop where
  secondary : RoutePriority.primary.level < priority.level
  absent : ∀ route ∈ t.routes, route.nextHop ≠ nextHop
  room : t.routes.length < t.capacity

/-- A route that is accepted stands behind the others. -/
theorem insert_eq_ok_iff : t.insert nextHop priority = .ok t' ↔
    t.Accepts nextHop priority ∧ t' = { t with routes := t.routes ++ [⟨nextHop, priority⟩] } := by
  have hsecondary : priority.isLowerThan .primary = true ↔
      RoutePriority.primary.level < priority.level := decide_eq_true_iff
  have habsent : t.get? nextHop = none ↔ ∀ route ∈ t.routes, route.nextHop ≠ nextHop := by
    simp [get?]
  unfold insert
  constructor
  · intro h
    split at h
    · cases h
    · next hlower =>
      split at h
      · cases h
      · next hnew =>
        split at h
        · next hroom =>
          injection h with h
          exact ⟨⟨hsecondary.1 (by simpa using hlower),
            habsent.1 (Option.not_isSome_iff_eq_none.1 hnew), hroom⟩, h.symm⟩
        · cases h
  · rintro ⟨ha, rfl⟩
    simp [hsecondary.2 ha.secondary, habsent.2 ha.absent, size, ha.room]

theorem add_eq_true (h : RouteStore.add t nextHop priority = (true, t')) :
    t.insert nextHop priority = .ok t' := by
  simp only [RouteStore.add] at h
  split at h
  · next t'' hi =>
    injection h with _ h
    rw [hi, h]
  · simp at h

theorem add_eq_false (h : RouteStore.add t nextHop priority = (false, t')) : t' = t := by
  simp only [RouteStore.add] at h
  split at h
  · simp at h
  · injection h with _ h
    exact h.symm

theorem Accepts.add_eq (ha : t.Accepts nextHop priority) : RouteStore.add t nextHop priority =
    (true, { t with routes := t.routes ++ [⟨nextHop, priority⟩] }) := by
  simp only [RouteStore.add, insert_eq_ok_iff.2 ⟨ha, rfl⟩]

theorem add_of_not_accepts (ha : ¬t.Accepts nextHop priority) :
    RouteStore.add t nextHop priority = (false, t) := by
  rcases hadd : RouteStore.add t nextHop priority with ⟨_ | _, t'⟩
  · rw [add_eq_false hadd]
  · exact absurd (insert_eq_ok_iff.1 (add_eq_true hadd)).1 ha

end RouteList

def Steering.ownRoutes (s : Steering) : List DefaultRoute :=
  (s.detour.map fun detour => ⟨detour.nextHop, s.priority⟩).toList

/-- The routes of the host in a list of some capacity, beside those of steering. -/
structure RouteList.Sharing (priority : RoutePriority) (capacity : Nat) (kept : List DefaultRoute)
    (s : Steering) (t : RouteList) : Prop where
  priority_eq : s.priority = priority
  capacity_eq : t.capacity = capacity
  perm : t.routes.Perm (kept ++ s.ownRoutes)
  nodup : (t.routes.map DefaultRoute.nextHop).Nodup
  length_le : t.routes.length ≤ capacity

namespace RouteList.Sharing

variable {priority : RoutePriority} {capacity : Nat} {kept : List DefaultRoute} {s : Steering}
  {t t' : RouteList}

theorem start (policy : SelectionPolicy) (priority : RoutePriority) (h : Hysteresis)
    (capacity : Nat) : Sharing priority capacity [] (.start policy priority h) (.empty capacity) :=
  ⟨rfl, rfl, .nil, .nil, Nat.zero_le _⟩

/-- A new route at the end of the list, whoever it belongs to. -/
theorem append (h : Sharing priority capacity kept s t) {nextHop : Address} {p : RoutePriority}
    (hi : t.insert nextHop p = .ok t') :
    t'.capacity = capacity ∧ (t'.routes.map DefaultRoute.nextHop).Nodup ∧
      t'.routes.length ≤ capacity := by
  obtain ⟨ha, rfl⟩ := insert_eq_ok_iff.1 hi
  refine ⟨h.capacity_eq, ?_, ?_⟩
  · rw [List.map_append, List.nodup_append]
    refine ⟨h.nodup, List.nodup_singleton _, ?_⟩
    intro hop hmem new hnew
    obtain ⟨route, hroute, rfl⟩ := List.mem_map.1 hmem
    rw [List.mem_singleton.1 hnew]
    exact ha.absent route hroute
  · rw [List.length_append, ← h.capacity_eq]
    exact ha.room

theorem hostInsert (h : Sharing priority capacity kept s t) {nextHop : Address} {p : RoutePriority}
    (hi : t.insert nextHop p = .ok t') :
    Sharing priority capacity (kept ++ [⟨nextHop, p⟩]) s t' := by
  obtain ⟨hcap, hnodup, hlen⟩ := h.append hi
  refine ⟨h.priority_eq, hcap, ?_, hnodup, hlen⟩
  obtain ⟨-, rfl⟩ := insert_eq_ok_iff.1 hi
  let route : DefaultRoute := ⟨nextHop, p⟩
  have hswap : (s.ownRoutes ++ [route]).Perm ([route] ++ s.ownRoutes) := List.perm_append_comm
  have hperm := h.perm.append_right [route]
  rw [List.append_assoc] at hperm ⊢
  exact hperm.trans (hswap.append_left kept)

/-- The host may remove all but the route of the detour. -/
theorem hostErase (h : Sharing priority capacity kept s t) {nextHop : Address}
    (hd : ∀ detour, s.detour = some detour → detour.nextHop ≠ nextHop) :
    Sharing priority capacity (kept.filter fun route => route.nextHop ≠ nextHop) s
      (t.erase nextHop) := by
  have hown : s.ownRoutes.filter (fun route => route.nextHop ≠ nextHop) = s.ownRoutes := by
    apply List.filter_eq_self.2
    intro route hmem
    obtain ⟨detour, hdetour, rfl⟩ := Option.map_eq_some_iff.1 (Option.mem_toList.1 hmem)
    exact decide_eq_true (hd detour hdetour)
  refine ⟨h.priority_eq, h.capacity_eq, ?_, ?_, ?_⟩
  · have hfilter := h.perm.filter fun route => route.nextHop ≠ nextHop
    rwa [List.filter_append, hown] at hfilter
  · exact h.nodup.sublist (List.filter_sublist.map _)
  · exact Nat.le_trans (List.length_filter_le _ _) h.length_le

theorem get?_kept (h : Sharing priority capacity kept s t) {route : DefaultRoute}
    (hmem : route ∈ kept) : t.get? route.nextHop = some route := by
  have hroute : route ∈ t.routes := h.perm.mem_iff.2 (List.mem_append_left _ hmem)
  cases hfind : t.get? route.nextHop with
  | none =>
    have hne := List.find?_eq_none.1 hfind route hroute
    simp at hne
  | some found =>
    have heq : found.nextHop = route.nextHop := by simpa using List.find?_some hfind
    rw [List.inj_on_of_nodup_map h.nodup (List.mem_of_find?_eq_some hfind) hroute heq]

/-- No route of the host leads to the next hop of the detour. -/
theorem nextHop_ne (h : Sharing priority capacity kept s t) {detour : Detour}
    (hd : s.detour = some detour) : ∀ route ∈ kept, route.nextHop ≠ detour.nextHop := by
  have hnodup : ((kept ++ s.ownRoutes).map DefaultRoute.nextHop).Nodup :=
    (h.perm.map DefaultRoute.nextHop).nodup_iff.1 h.nodup
  rw [List.map_append, List.nodup_append] at hnodup
  intro route hmem
  -- The next hops of both lists together are distinct.
  refine hnodup.2.2 _ (List.mem_map_of_mem hmem) _ ?_
  simp [Steering.ownRoutes, hd]

/-- Removing by next hop takes the route of the detour and no other. -/
theorem drop (h : Sharing priority capacity kept s t) {detour : Detour}
    (hd : s.detour = some detour) :
    Sharing priority capacity kept { s with detour := none } (t.erase detour.nextHop) := by
  have hkept : kept.filter (fun route => route.nextHop ≠ detour.nextHop) = kept :=
    List.filter_eq_self.2 fun route hmem => decide_eq_true (h.nextHop_ne hd route hmem)
  refine ⟨h.priority_eq, h.capacity_eq, ?_, ?_, ?_⟩
  · have hfilter := h.perm.filter fun route => route.nextHop ≠ detour.nextHop
    rw [List.filter_append, hkept] at hfilter
    simpa [Steering.ownRoutes, hd, erase] using hfilter
  · exact h.nodup.sublist (List.filter_sublist.map _)
  · exact Nat.le_trans (List.length_filter_le _ _) h.length_le

/-- A new detour adds its route, unless a route to its next hop is there already. -/
theorem install {ν γ : Type} [Neighborhood ν] [RandomSource γ]
    (h : Sharing priority capacity kept s t) (hd : s.detour = none) (table : ν) (random : γ) :
    Sharing priority capacity kept (s.install table t random).2.1
      (s.install table t random).2.2.1 := by
  rcases Steering.install_cases s table t random with
    ⟨detour, -, hs, hadd, -⟩ | ⟨hs, ht | ⟨nextHop, hadd⟩⟩
  · rw [hs]
    have hi := RouteList.add_eq_true hadd
    obtain ⟨hcap, hnodup, hlen⟩ := h.append hi
    refine ⟨h.priority_eq, hcap, ?_, hnodup, hlen⟩
    rw [(insert_eq_ok_iff.1 hi).2]
    simpa [Steering.ownRoutes, hd, h.priority_eq] using
      h.perm.append_right [⟨detour.nextHop, s.priority⟩]
  · rw [hs, ht]
    exact h
  · rw [hs, RouteList.add_eq_false hadd]
    exact h

theorem steeringInvariant (ν γ : Type) [Neighborhood ν] [RandomSource γ] (priority : RoutePriority)
    (capacity : Nat) (kept : List DefaultRoute) :
    SteeringInvariant γ (fun _ : ν => True) (Sharing priority capacity kept) where
  drop hd h := h.drop hd
  install random _ hd h := h.install hd _ random
  count _ _ _ h := ⟨h.priority_eq, h.capacity_eq, h.perm, h.nodup, h.length_le⟩

end RouteList.Sharing

end CongestionRouting
