import CongestionRouting.Proofs.Mesh.Resting
import CongestionRouting.Proofs.Neighbor.Packed

namespace CongestionRouting

namespace MeshNode

def known (n : MeshNode) : List Address := n.host.neighbors.addresses

structure Acquainted (n n' : MeshNode) : Prop where
  id_eq : n'.id = n.id
  packed : n'.host.neighbors.Packed
  known_eq : n'.known = n.known

variable {table table' : NeighborTable} {parent : Option NodeId} {ids candidates : List NodeId}

theorem packed_enterParents (ht : table.Packed) (he : enterParents table ids = .ok table') :
    table'.Packed ∧ table'.addresses = table.addresses ++ ids.map NodeId.address := by
  induction ids generalizing table with
  | nil =>
    injection he with he
    subst he
    exact ⟨ht, (List.append_nil _).symm⟩
  | cons id ids ih =>
    obtain ⟨⟨handle, entered⟩, hi, he⟩ := exists_of_bind_eq_ok he
    obtain ⟨hpacked, haddresses⟩ := ih (ht.insert hi) he
    refine ⟨hpacked, ?_⟩
    rw [haddresses, ht.addresses_insert hi, List.append_assoc]
    rfl

theorem packed_uplinkTable (he : uplinkTable parent candidates = .ok table) :
    table.Packed ∧ table.addresses = (parent.toList ++ candidates).map NodeId.address := by
  cases parent with
  | none => exact packed_enterParents .empty he
  | some p =>
    obtain ⟨⟨handle, entered⟩, hi, he⟩ := exists_of_bind_eq_ok he
    obtain ⟨chosen, hs, he⟩ := exists_of_bind_eq_ok he
    obtain ⟨hchosen, hsame⟩ := (NeighborTable.Packed.empty.insert hi).setPreferredParent hs
    obtain ⟨hpacked, haddresses⟩ := packed_enterParents hchosen he
    refine ⟨hpacked, ?_⟩
    rw [haddresses, hsame, NeighborTable.Packed.empty.addresses_insert hi]
    rfl

end MeshNode

namespace Mesh

open MeshNode

variable {m m' : Mesh} {plan : NodePlan} {nodes nodes' : Array MeshNode} {address : Address}
  {ids : List NodeId} {i j : Nat} {n' : MeshNode}

def idAt (i : Nat) : NodeId := ⟨UInt16.ofNat i⟩

def addressAt (i : Nat) : Address := (idAt i).address

theorem addressAt_index (id : NodeId) : addressAt id.index = id.address := by
  rw [addressAt, idAt, NodeId.index, UInt16.ofNat_toNat]

/-- As many nodes as there are identifiers can be told apart. -/
theorem idAt_inj (hi : i < maxNodes) (hj : j < maxNodes) : idAt i = idAt j ↔ i = j := by
  refine ⟨fun h => ?_, congrArg idAt⟩
  have hleft : (UInt16.ofNat i).toNat = i := UInt16.toNat_ofNat_of_lt' hi
  have hright : (UInt16.ofNat j).toNat = j := UInt16.toNat_ofNat_of_lt' hj
  exact hleft.symm.trans ((congrArg NodeId.index h).trans hright)

theorem addressAt_inj (hi : i < maxNodes) (hj : j < maxNodes) :
    addressAt i = addressAt j ↔ i = j := by
  rw [← idAt_inj hi hj]
  exact ⟨NodeId.address_inj, congrArg NodeId.address⟩

/-- The node at the first index hears the advertisements of the node at the second. -/
def Hears (m : Mesh) (i j : Nat) : Prop := ∃ n ∈ m.nodes[i]?, addressAt j ∈ n.known

instance (m : Mesh) : DecidableRel m.Hears :=
  fun i j => inferInstanceAs (Decidable (∃ n ∈ m.nodes[i]?, addressAt j ∈ n.known))

theorem hears_congr (h : Pointwise (fun _ => Acquainted) m.nodes m'.nodes) (i j : Nat) :
    m'.Hears i j ↔ m.Hears i j := by
  constructor
  · rintro ⟨n', hn', hj⟩
    obtain ⟨n, hn, hsame⟩ := h.2 i n' hn'
    exact ⟨n, hn, hsame.known_eq ▸ hj⟩
  · rintro ⟨n, hn, hj⟩
    have hi : i < m'.nodes.size := h.1 ▸ (Array.getElem?_eq_some_iff.1 hn).1
    have hn' := Array.getElem?_eq_getElem hi
    obtain ⟨old, hold, hsame⟩ := h.2 i _ hn'
    rw [Option.mem_def, hold] at hn
    injection hn with hn
    exact ⟨_, hn', hsame.known_eq.symm ▸ hn ▸ hj⟩

theorem size_of_introduce {refusal : Option NeighborError}
    (hi : introduce address ids nodes = (refusal, nodes')) : nodes'.size = nodes.size := by
  have hnodes : (introduce address ids nodes).2 = nodes' := by rw [hi]
  rw [← hnodes, size_introduce]

/-- Once all are told of an address, those who were told know it besides those they knew. -/
theorem known_introduce (hi : introduce address ids nodes = (none, nodes'))
    (hp : ∀ n ∈ nodes, n.host.neighbors.Packed) (hn' : nodes'[i]? = some n') :
    ∃ n, nodes[i]? = some n ∧ n'.host.neighbors.Packed ∧
      ∀ a, a ∈ n'.known ↔ a ∈ n.known ∨ a = address ∧ ∃ id ∈ ids, id.index = i := by
  induction ids generalizing nodes with
  | nil =>
    injection hi with _ hi
    subst hi
    exact ⟨n', hn', hp n' (Array.mem_of_getElem? hn'), by simp⟩
  | cons id ids ih =>
    unfold introduce at hi
    split at hi
    · next hnone =>
      obtain ⟨n, hn, hpacked, hknown⟩ := ih hi hp
      have hne : id.index ≠ i := fun h => Option.some_ne_none n (hn.symm.trans (h ▸ hnone))
      exact ⟨n, hn, hpacked, by simpa [hne] using hknown⟩
    · next node hnode =>
      split at hi
      · cases hi
      · next met hmet =>
        obtain ⟨handle, table, hinsert, rfl⟩ := meet_eq_ok hmet
        have hold := hp node (Array.mem_of_getElem? hnode)
        have hbound := (Array.getElem?_eq_some_iff.1 hnode).1
        have htold : ∀ n ∈ nodes.setIfInBounds id.index (node.withNeighbors table),
            n.host.neighbors.Packed := by
          intro n hn
          rcases Array.mem_or_eq_of_mem_setIfInBounds hn with hn | rfl
          · exact hp n hn
          · exact hold.insert hinsert
        obtain ⟨n, hn, hpacked, hknown⟩ := ih hi htold
        rw [Array.getElem?_setIfInBounds] at hn
        -- Of the tables only that of the first who is told has grown so far.
        by_cases hindex : id.index = i
        · subst hindex
          rw [if_pos rfl, if_pos hbound] at hn
          injection hn with hn
          have haddresses : n.known = node.known ++ [address] :=
            hn ▸ hold.addresses_insert hinsert
          refine ⟨node, hnode, hpacked, fun a => ?_⟩
          simp only [hknown a, haddresses, List.mem_append, List.mem_cons, List.not_mem_nil, or_false,
            exists_eq_or_imp, true_or, and_true]
          tauto
        · rw [if_neg hindex] at hn
          exact ⟨n, hn, hpacked, by simpa [hindex] using hknown⟩

/-- What stays true of a mesh that only grows. -/
structure Mutual (m : Mesh) : Prop where
  size_le : m.nodes.size ≤ maxNodes
  id_eq : ∀ (i : Nat) (n : MeshNode), m.nodes[i]? = some n → n.id = idAt i
  packed : ∀ n ∈ m.nodes, n.host.neighbors.Packed
  known_lt : ∀ n ∈ m.nodes, ∀ a ∈ n.known, ∃ j < m.nodes.size, addressAt j = a
  symm : ∀ i < m.nodes.size, ∀ j < m.nodes.size, m.Hears i j → m.Hears j i

theorem mutual_empty : empty.Mutual :=
  ⟨Nat.zero_le _, fun _ _ hn => absurd hn (by simp [empty]), fun _ hn => absurd hn (by simp [empty]),
    fun _ hn => absurd hn (by simp [empty]), fun _ hi => absurd hi (Nat.not_lt_zero _)⟩

theorem Mutual.congr (hm : m.Mutual) (h : Pointwise (fun _ => Acquainted) m.nodes m'.nodes) :
    m'.Mutual := by
  have hback : ∀ n' ∈ m'.nodes, ∃ n ∈ m.nodes, n.Acquainted n' := by
    intro n' hn'
    obtain ⟨i, hi⟩ := Array.mem_iff_getElem?.1 hn'
    obtain ⟨n, hn, hsame⟩ := h.2 i n' hi
    exact ⟨n, Array.mem_of_getElem? hn, hsame⟩
  refine ⟨h.1 ▸ hm.size_le, fun i n' hn' => ?_, fun n' hn' => ?_, fun n' hn' a ha => ?_,
    fun i hi j hj hhears => ?_⟩
  · obtain ⟨n, hn, hsame⟩ := h.2 i n' hn'
    exact hsame.id_eq.trans (hm.id_eq i n hn)
  · obtain ⟨n, -, hsame⟩ := hback n' hn'
    exact hsame.packed
  · obtain ⟨n, hn, hsame⟩ := hback n' hn'
    rw [h.1]
    exact hm.known_lt n hn a (hsame.known_eq ▸ ha)
  · rw [hears_congr h] at hhears ⊢
    exact hm.symm i (h.1 ▸ hi) j (h.1 ▸ hj) hhears

theorem build_eq_ok {id : NodeId} (hb : m.build plan = (.ok id, m')) :
    ∃ node nodes, m.design plan = .ok node ∧
      introduce m.nextAddress plan.uplinks m.nodes = (none, nodes) ∧
      m' = { m with nodes := nodes.push node } := by
  cases hd : m.design plan with
  | error e =>
    simp only [build, hd] at hb
    cases hb
  | ok node =>
    rw [(build_of_design hd).2] at hb
    split at hb
    · cases hb
    · next nodes hi => exact ⟨node, nodes, rfl, hi, (congrArg Prod.snd hb).symm⟩

theorem known_design {node : MeshNode} (hd : m.design plan = .ok node) :
    node.id = idAt m.nodes.size ∧ node.host.neighbors.Packed ∧
      node.known = plan.uplinks.map NodeId.address := by
  obtain ⟨-, -, config, agent, table, -, ht, rfl⟩ := design_eq_ok hd
  exact ⟨rfl, packed_uplinkTable ht⟩

/-- A new node hears its uplinks and they hear it; between the others nothing changes. -/
theorem hears_push (hm : m.Mutual) {node : MeshNode} (hd : m.design plan = .ok node)
    (hi : introduce m.nextAddress plan.uplinks m.nodes = (none, nodes))
    (hle : i ≤ m.nodes.size) (hle' : j ≤ m.nodes.size) :
    Hears { m with nodes := nodes.push node } i j ↔ i < m.nodes.size ∧ j < m.nodes.size ∧ m.Hears i j ∨
      j = m.nodes.size ∧ (∃ id ∈ plan.uplinks, id.index = i) ∨
      i = m.nodes.size ∧ ∃ id ∈ plan.uplinks, id.index = j := by
  obtain ⟨hroom, huplinks, -⟩ := design_eq_ok hd
  obtain ⟨-, -, hknown⟩ := known_design hd
  have hsize := size_of_introduce hi
  have hnone : ¬∃ id ∈ plan.uplinks, id.index = m.nodes.size := by
    rintro ⟨uplink, hmem, heq⟩
    exact absurd (huplinks uplink hmem) (heq ▸ Nat.lt_irrefl _)
  have hj : j < maxNodes := Nat.lt_of_le_of_lt hle' hroom
  unfold Hears
  simp only [Option.mem_def, Array.getElem?_push, hsize]
  rcases Nat.lt_or_eq_of_le hle with hlt | rfl
  · -- An old node hears the new one if it was told of it, and the others as before.
    obtain ⟨n', hn'⟩ : ∃ n', nodes[i]? = some n' := ⟨_, Array.getElem?_eq_getElem (hsize ▸ hlt)⟩
    obtain ⟨n, hn, -, htold⟩ := known_introduce hi hm.packed hn'
    have hbefore : addressAt j ∈ n.known → j < m.nodes.size := by
      intro hmem
      obtain ⟨k, hk, heq⟩ := hm.known_lt n (Array.mem_of_getElem? hn) _ hmem
      exact (addressAt_inj (Nat.lt_trans hk hroom) hj).1 heq ▸ hk
    have hnext : addressAt j = m.nextAddress ↔ j = m.nodes.size := addressAt_inj hj hroom
    simp only [Nat.ne_of_lt hlt, if_false, hn', Option.some.injEq, exists_eq_left', htold, hnext, hn,
      hlt, true_and, false_and, or_false]
    constructor
    · rintro (hmem | hnew)
      · exact .inl ⟨hbefore hmem, hmem⟩
      · exact .inr hnew
    · rintro (⟨-, hmem⟩ | hnew)
      · exact .inl hmem
      · exact .inr hnew
  · have hindex : ∀ uplink ∈ plan.uplinks, uplink.address = addressAt j ↔ uplink.index = j := by
      intro uplink hmem
      rw [← addressAt_index]
      exact addressAt_inj (Nat.lt_trans (huplinks uplink hmem) hroom) hj
    simp only [if_true, Option.some.injEq, exists_eq_left', hknown, List.mem_map, Nat.lt_irrefl,
      false_and, false_or, hnone, and_false, true_and]
    exact exists_congr fun uplink => and_congr_right fun hmem => hindex uplink hmem

theorem Mutual.build (hm : m.Mutual) {id : NodeId} (hb : m.build plan = (.ok id, m')) :
    m'.Mutual := by
  obtain ⟨node, nodes, hd, hi, rfl⟩ := build_eq_ok hb
  obtain ⟨hroom, huplinks, -⟩ := design_eq_ok hd
  obtain ⟨hid, hpacked, hknown⟩ := known_design hd
  have hsize : (nodes.push node).size = m.nodes.size + 1 := by
    rw [Array.size_push, size_of_introduce hi]
  -- A node is an old one, perhaps with the new address in its table, or the new one.
  have hcases : ∀ {i n'}, (nodes.push node)[i]? = some n' →
      nodes[i]? = some n' ∨ i = m.nodes.size ∧ n' = node := by
    intro i n' hn'
    rw [Array.getElem?_push] at hn'
    split at hn'
    · next hi =>
      injection hn' with hn'
      exact .inr ⟨by rw [Array.size_push] at hsize; omega, hn'.symm⟩
    · exact .inl hn'
  refine ⟨?_, fun i n' hn' => ?_, fun n' hn' => ?_, fun n' hn' a ha => ?_,
    fun i hlt j hlt' hhears => ?_⟩
  · rw [hsize]
    exact hroom
  · rcases hcases hn' with hold | ⟨rfl, rfl⟩
    · have hnodes : (introduce m.nextAddress plan.uplinks m.nodes).2 = nodes := by rw [hi]
      obtain ⟨n, hn, heq, -⟩ := introduce_only_neighbors (hnodes ▸ hold)
      rw [heq]
      exact hm.id_eq i n hn
    · exact hid
  · obtain ⟨i, hget⟩ := Array.mem_iff_getElem?.1 hn'
    rcases hcases hget with hold | ⟨-, rfl⟩
    · obtain ⟨n, -, hp, -⟩ := known_introduce hi hm.packed hold
      exact hp
    · exact hpacked
  · rw [hsize]
    obtain ⟨i, hget⟩ := Array.mem_iff_getElem?.1 hn'
    rcases hcases hget with hold | ⟨-, rfl⟩
    · obtain ⟨n, hn, -, htold⟩ := known_introduce hi hm.packed hold
      rcases (htold a).1 ha with hmem | ⟨rfl, -⟩
      · obtain ⟨j, hj, heq⟩ := hm.known_lt n (Array.mem_of_getElem? hn) a hmem
        exact ⟨j, Nat.lt_succ_of_lt hj, heq⟩
      · exact ⟨m.nodes.size, Nat.lt_succ_self _, rfl⟩
    · rw [hknown] at ha
      obtain ⟨uplink, hmem, rfl⟩ := List.mem_map.1 ha
      exact ⟨uplink.index, Nat.lt_succ_of_lt (huplinks uplink hmem), addressAt_index uplink⟩
  · rw [hsize] at hlt hlt'
    rw [hears_push hm hd hi (Nat.le_of_lt_succ hlt) (Nat.le_of_lt_succ hlt')] at hhears
    rw [hears_push hm hd hi (Nat.le_of_lt_succ hlt') (Nat.le_of_lt_succ hlt)]
    rcases hhears with ⟨hi, hj, hold⟩ | hnew | hnew
    · exact .inl ⟨hj, hi, hm.symm i hi j hj hold⟩
    · exact .inr (.inr hnew)
    · exact .inr (.inl hnew)

end Mesh

end CongestionRouting
