import CongestionRouting.Proofs.Neighbor.Consistent
import CongestionRouting.Proofs.Route.Invariant

namespace CongestionRouting

def Neighbor.role (entry : Neighbor) : Address × Bool := (entry.address, entry.routingParent)

namespace NeighborTable

variable {t t' : NeighborTable} {h : NeighborHandle} {entry : Neighbor} {address : Address}
  {detour : Detour}

def preferredAddress (t : NeighborTable) : Option Address :=
  t.preferredParent.bind fun h => (t.get? h).map Neighbor.address

/-- The detour leads to the address of a routing parent in the table, which is not the preferred one. -/
structure Backs (t : NeighborTable) (detour : Detour) : Prop where
  preferredParent_ne : t.preferredParent ≠ some detour.neighbor
  get?_eq : ∃ entry, t.get? detour.neighbor = some entry ∧ entry.routingParent = true ∧
    entry.address = detour.nextHop

/-- Nothing but flags changed. -/
structure Reflags (t t' : NeighborTable) : Prop where
  role_eq : ∀ h, (t'.get? h).map Neighbor.role = (t.get? h).map Neighbor.role
  preferredParent_eq : t'.preferredParent = t.preferredParent

theorem get?_clearFlags (h : NeighborHandle) :
    t.clearFlags.get? h = (t.get? h).map fun e => { e with congested := false } := by
  rw [get?_eq, get?_eq, generationAt_clearFlags, entryAt_clearFlags]
  split <;> rfl

namespace Reflags

theorem recordSignal (ht : t.Orderly) (sender : Address) :
    t.Reflags (CongestionRouting.recordSignal sender t).2 := by
  refine ⟨fun h => ?_, preferredParent_recordSignal sender⟩
  rw [get?_recordSignal ht, Option.map_map]
  rfl

theorem clearFlags (t : NeighborTable) : t.Reflags t.clearFlags := by
  refine ⟨fun h => ?_, rfl⟩
  rw [get?_clearFlags, Option.map_map]
  rfl

variable (hr : t.Reflags t')

include hr

theorem preferredAddress_eq : t'.preferredAddress = t.preferredAddress := by
  have haddress : ∀ h, (t'.get? h).map Neighbor.address = (t.get? h).map Neighbor.address := by
    intro h
    have hrole := congrArg (Option.map Prod.fst) (hr.role_eq h)
    rwa [Option.map_map, Option.map_map] at hrole
  simp only [preferredAddress, hr.preferredParent_eq, haddress]

theorem backs (hb : t.Backs detour) : t'.Backs detour := by
  obtain ⟨entry, hg, hrouting, haddress⟩ := hb.get?_eq
  have hrole := hr.role_eq detour.neighbor
  rw [hg] at hrole
  obtain ⟨new, hnew, heq⟩ := Option.map_eq_some_iff.1 hrole
  refine ⟨hr.preferredParent_eq ▸ hb.preferredParent_ne, new, hnew, ?_, ?_⟩
  · exact (congrArg Prod.snd heq).trans hrouting
  · exact (congrArg Prod.fst heq).trans haddress

end Reflags

/-- Whatever detour the table offers it backs. -/
theorem Backs.of_offered (ho : detour.Offered t) : t.Backs detour := by
  obtain ⟨parent, hparent, hne⟩ := ho.other_parent
  obtain ⟨entry, hg, haddress⟩ := Option.map_eq_some_iff.1 ho.address_eq
  have hpreferred : t.preferredParent = some parent := hparent
  have hrouting : entry.routingParent = true := (isRoutingParent_of_get? hg).symm.trans ho.routingParent
  exact ⟨fun heq => hne (Option.some.inj (heq.symm.trans hpreferred)), entry, hg, hrouting, haddress⟩

theorem Backs.obstacle_eq (hb : t.Backs detour) {reason : WithdrawalReason}
    (ho : Steering.obstacle t detour = some reason) : reason = .noParent := by
  obtain ⟨entry, hg, hrouting, -⟩ := hb.get?_eq
  unfold Steering.obstacle at ho
  simp only [contains_of_get? hg, isRoutingParent_of_get? hg, hrouting, Bool.not_true,
    Bool.false_eq_true, if_false, if_true] at ho
  split at ho
  · exact (Option.some.inj ho).symm
  · next parent hpreferred =>
    split at ho
    · next heq => exact absurd (heq ▸ hpreferred) hb.preferredParent_ne
    · exact absurd ho nofun

theorem preferredParent_remove (hg : t.get? h = some entry) :
    (t.remove h).2.preferredParent =
      if t.preferredParent = some h then none else t.preferredParent := by
  simp only [NeighborTable.remove, hg]

/-- A detour stays backed until its own neighbor leaves. -/
theorem Backs.remove (hb : t.Backs detour) (hne : detour.neighbor ≠ h) :
    (t.remove h).2.Backs detour := by
  obtain ⟨entry, hg, hrole⟩ := hb.get?_eq
  refine ⟨?_, entry, get?_remove_of_ne hg hne, hrole⟩
  cases hh : t.get? h with
  | none =>
    rw [remove_of_stale hh]
    exact hb.preferredParent_ne
  | some left =>
    rw [preferredParent_remove hh]
    split
    · exact nofun
    · exact hb.preferredParent_ne

theorem preferredAddress_setPreferredParent (hg : t.get? h = some entry)
    (hs : t.setPreferredParent (some h) = .ok t') : t'.preferredAddress = some entry.address := by
  have hlive : t.contains h = true := by rw [contains, hg]; rfl
  unfold NeighborTable.setPreferredParent at hs
  simp only [hlive, if_true, Except.ok.injEq] at hs
  subst hs
  change (t.get? h).map Neighbor.address = _
  rw [hg, Option.map_some]

namespace Consistent

variable (ht : t.Consistent)

include ht

theorem preferredAddress_insert {routingParent : Bool}
    (hi : t.insert address routingParent = .ok (h, t')) :
    t'.preferredAddress = t.preferredAddress := by
  have hadmits := ht.admits_insert hi
  rw [preferredAddress, preferredAddress, hadmits.preferredParent_eq]
  cases hp : t.preferredParent with
  | none => rfl
  | some parent =>
    obtain ⟨entry, hg⟩ := ht.preferredParent_live parent hp
    rw [Option.bind_some, Option.bind_some, hg, hadmits.get?_of_some hg]

theorem backs_insert {routingParent : Bool} (hi : t.insert address routingParent = .ok (h, t'))
    (hb : t.Backs detour) : t'.Backs detour := by
  have hadmits := ht.admits_insert hi
  obtain ⟨entry, hg, hrole⟩ := hb.get?_eq
  exact ⟨hadmits.preferredParent_eq ▸ hb.preferredParent_ne, entry, hadmits.get?_of_some hg, hrole⟩

theorem lookup_preferredAddress (hp : t.preferredAddress = some address) :
    t.preferredParent = t.lookup address := by
  obtain ⟨parent, hparent, haddress⟩ := Option.bind_eq_some_iff.1 hp
  rw [hparent, ht.lookup_eq_some_iff.2 haddress]

theorem preferredAddress_remove (hl : t.lookup address = some h) :
    (t.remove h).2.preferredAddress =
      if t.preferredAddress = some address then none else t.preferredAddress := by
  obtain ⟨entry, hg, haddress⟩ := Orderly.get?_of_lookup hl
  have hiff : t.preferredParent = some h ↔ t.preferredAddress = some address := by
    constructor
    · intro hp
      rw [preferredAddress, hp, Option.bind_some, hg, Option.map_some, haddress]
    · exact fun hp => (ht.lookup_preferredAddress hp).trans hl
  rw [preferredAddress, preferredParent_remove hg]
  by_cases hp : t.preferredParent = some h
  · rw [if_pos hp, if_pos (hiff.1 hp)]
    rfl
  · rw [if_neg hp, if_neg (fun heq => hp (hiff.2 heq)), preferredAddress]
    cases hparent : t.preferredParent with
    | none => rfl
    | some parent =>
      obtain ⟨kept, hkept⟩ := ht.preferredParent_live parent hparent
      have hne : parent ≠ h := fun heq => hp (hparent.trans (congrArg some heq))
      rw [Option.bind_some, Option.bind_some, hkept, get?_remove_of_ne hkept hne]

end Consistent

end NeighborTable

/-- Steering keeps to detours that the table backs. -/
theorem backingInvariant {ρ : Type} [RouteStore ρ] (t : NeighborTable) :
    SteeringInvariant ChaCha (· = t)
      (fun s (_ : ρ) => ∀ detour, s.detour = some detour → t.Backs detour) where
  drop _ _ := nofun
  count _ _ _ hp := hp
  install {s table routes} random ht hd hp := by
    subst ht
    rcases Steering.install_cases s table routes random with
      ⟨detour, -, hs, -, hoffered, -⟩ | ⟨hs, -⟩
    · rw [hs]
      intro d heq
      injection heq with heq
      exact heq ▸ .of_offered hoffered
    · rw [hs]
      exact hp

end CongestionRouting
