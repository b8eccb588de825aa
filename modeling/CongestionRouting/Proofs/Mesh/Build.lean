import CongestionRouting.Mesh.Event
import CongestionRouting.Proofs.Neighbor.Entries

namespace CongestionRouting

section Success

variable {ε ε' α β : Type} {x : Except ε α} {a : α} {b : β}

theorem exists_of_bind_eq_ok {f : α → Except ε β} (h : (x >>= f) = .ok b) :
    ∃ a, x = .ok a ∧ f a = .ok b := by
  cases x with
  | error e => exact absurd h nofun
  | ok a => exact ⟨a, rfl, h⟩

theorem exists_of_map_eq_ok {f : α → β} (h : x.map f = .ok b) : ∃ a, x = .ok a ∧ b = f a := by
  cases x with
  | error e => exact absurd h nofun
  | ok a =>
    injection h with h
    exact ⟨a, rfl, h.symm⟩

theorem ok_of_mapError_eq_ok {f : ε → ε'} (h : x.mapError f = .ok a) : x = .ok a := by
  cases x with
  | error e => exact absurd h nofun
  | ok a' =>
    injection h with h
    rw [h]

end Success

namespace MeshNode

def withNeighbors (n : MeshNode) (table : NeighborTable) : MeshNode :=
  { n with host := { n.host with neighbors := table } }

theorem meet_eq_ok {n n' : MeshNode} {address : Address} (h : n.meet address = .ok n') :
    ∃ handle table, n.host.neighbors.insert address false = .ok (handle, table) ∧
      n' = n.withNeighbors table := by
  obtain ⟨⟨handle, table⟩, hi, rfl⟩ := exists_of_map_eq_ok h
  exact ⟨handle, table, hi, rfl⟩

theorem size_meet {n n' : MeshNode} {address : Address} (h : n.meet address = .ok n') :
    n'.host.neighbors.size = n.host.neighbors.size + 1 := by
  obtain ⟨handle, table, hi, rfl⟩ := meet_eq_ok h
  obtain ⟨-, -, hplace⟩ := NeighborTable.insert_eq_ok_iff.1 hi
  have htable : table = (n.host.neighbors.place ⟨address, false, false⟩).2 := by rw [hplace]
  rw [htable]
  unfold NeighborTable.place
  split <;> rfl

end MeshNode

namespace Mesh

variable {m m' : Mesh} {plan : NodePlan} {nodes : Array MeshNode} {address : Address}
  {ids : List NodeId}

theorem firstUnknown_eq_none (h : m.firstUnknown ids = none) :
    ∀ id ∈ ids, id.index < m.nodes.size := by
  intro id hmem
  simpa using List.find?_eq_none.1 h id hmem

/-- All that a design depends on. -/
theorem design_eq_ok {node : MeshNode} (h : m.design plan = .ok node) :
    m.nodes.size < maxNodes ∧ (∀ id ∈ plan.uplinks, id.index < m.nodes.size) ∧
      ∃ config agent table, Agent.ofConfig config = .ok agent ∧
        MeshNode.uplinkTable plan.parent plan.candidates = .ok table ∧
        node = .start ⟨UInt16.ofNat m.nodes.size⟩ plan.parent plan.traffic table agent := by
  unfold design at h
  split at h
  · exact absurd h nofun
  · next hsize =>
    split at h
    · exact absurd h nofun
    · next hknown =>
      refine ⟨Nat.lt_of_not_le hsize, firstUnknown_eq_none hknown, ?_⟩
      obtain ⟨agent, ha, h⟩ := exists_of_bind_eq_ok h
      obtain ⟨table, ht, h⟩ := exists_of_bind_eq_ok h
      injection h with h
      exact ⟨_, agent, table, ok_of_mapError_eq_ok ha, ok_of_mapError_eq_ok ht, h.symm⟩

@[simp]
theorem size_introduce : (introduce address ids nodes).2.size = nodes.size := by
  induction ids generalizing nodes with
  | nil => rfl
  | cons id ids ih =>
    unfold introduce
    split
    · exact ih
    · split
      · rfl
      · simp [ih]

/-- What meeting the address keeps, for the nodes that are told of it, introducing it keeps. -/
theorem introduce_induction {Q : Nat → MeshNode → Prop}
    (hmeet : ∀ id ∈ ids, ∀ n n', Q id.index n → n.meet address = .ok n' → Q id.index n')
    (h : ∀ i n, nodes[i]? = some n → Q i n) :
    ∀ i n, (introduce address ids nodes).2[i]? = some n → Q i n := by
  induction ids generalizing nodes with
  | nil => exact h
  | cons id ids ih =>
    have hrest : ∀ id' ∈ ids, ∀ n n', Q id'.index n → n.meet address = .ok n' → Q id'.index n' :=
      fun id' hmem => hmeet id' (List.mem_cons_of_mem _ hmem)
    unfold introduce
    split
    · exact ih hrest h
    · next node hnode =>
      split
      · -- Nobody after the one who refuses is told.
        exact h
      · next node' hmet =>
        apply ih hrest
        intro i n hn
        rw [Array.getElem?_setIfInBounds] at hn
        split at hn
        · next hi =>
          split at hn
          · injection hn with hn
            subst hi hn
            exact hmeet id List.mem_cons_self node node' (h _ node hnode) hmet
          · exact absurd hn nofun
        · exact h i n hn

/-- Only the neighbor tables of the nodes that are told of an address change. -/
theorem introduce_only_neighbors {i : Nat} {n' : MeshNode}
    (hn' : (introduce address ids nodes).2[i]? = some n') :
    ∃ n, nodes[i]? = some n ∧ n' = n.withNeighbors n'.host.neighbors ∧
      (n' = n ∨ ∃ id ∈ ids, id.index = i) := by
  apply introduce_induction (Q := fun i n' => ∃ n, nodes[i]? = some n ∧
    n' = n.withNeighbors n'.host.neighbors ∧ (n' = n ∨ ∃ id ∈ ids, id.index = i)) ?_ ?_ i n' hn'
  · rintro id hmem n n' ⟨old, hold, heq, -⟩ hmet
    obtain ⟨handle, table, -, rfl⟩ := MeshNode.meet_eq_ok hmet
    refine ⟨old, hold, ?_, .inr ⟨id, hmem, rfl⟩⟩
    rw [heq]
    rfl
  · intro i n hn
    exact ⟨n, hn, rfl, .inl rfl⟩

theorem introduce_size_le (address : Address) (ids : List NodeId) {i : Nat} {n : MeshNode}
    (hn : nodes[i]? = some n) :
    ∃ n', (introduce address ids nodes).2[i]? = some n' ∧
      n.host.neighbors.size ≤ n'.host.neighbors.size := by
  have hi : i < (introduce address ids nodes).2.size := by
    rw [size_introduce]
    exact (Array.getElem?_eq_some_iff.1 hn).1
  refine ⟨_, Array.getElem?_eq_getElem hi, ?_⟩
  apply introduce_induction
    (Q := fun j n' => ∀ n, nodes[j]? = some n → n.host.neighbors.size ≤ n'.host.neighbors.size)
    ?_ ?_ i _ (Array.getElem?_eq_getElem hi) n hn
  · intro id _ n n' hle hmet old hold
    rw [MeshNode.size_meet hmet]
    exact Nat.le_succ_of_le (hle old hold)
  · intro j n' hn' n hn
    rw [hn] at hn'
    exact Option.some.inj hn' ▸ Nat.le_refl _

def nextAddress (m : Mesh) : Address := NodeId.address ⟨UInt16.ofNat m.nodes.size⟩

/-- The first uplink of a plan does not take the new address. -/
def FirstRefuses (m : Mesh) (plan : NodePlan) : Prop :=
  ∃ first node cause, plan.uplinks.head? = some first ∧ m.nodes[first.index]? = some node ∧
    node.meet m.nextAddress = .error cause

theorem build_of_design {node : MeshNode} (hd : m.design plan = .ok node) :
    node.id.address = m.nextAddress ∧
      m.build plan =
        match introduce m.nextAddress plan.uplinks m.nodes with
        | (some cause, nodes) => (.error (.neighbor cause), { m with nodes := nodes })
        | (none, nodes) => (.ok node.id, { m with nodes := nodes.push node }) := by
  obtain ⟨-, -, config, agent, table, -, -, hnode⟩ := design_eq_ok hd
  have haddress : node.id.address = m.nextAddress := by rw [hnode]; rfl
  refine ⟨haddress, ?_⟩
  obtain ⟨nodes, links, random, steps⟩ := m
  rcases hi : introduce (nextAddress ⟨nodes, links, random, steps⟩) plan.uplinks nodes with
    ⟨_ | cause, nodes'⟩
  · simp only [build, hd, haddress, hi]
  · simp only [build, hd, haddress, hi]

theorem introduce_of_refused {first : NodeId} {rest : List NodeId} {node : MeshNode}
    {cause : NeighborError} (hn : nodes[first.index]? = some node)
    (hr : node.meet address = .error cause) :
    introduce address (first :: rest) nodes = (some cause, nodes) := by
  simp only [introduce, hn, hr]

/-- Once the first uplink has taken the address its table is larger for good. -/
theorem introduce_ne {first : NodeId} (rest : List NodeId) {node node' : MeshNode}
    (hn : nodes[first.index]? = some node) (hmet : node.meet address = .ok node') :
    (introduce address (first :: rest) nodes).2 ≠ nodes := by
  have hi : first.index < nodes.size := (Array.getElem?_eq_some_iff.1 hn).1
  have hset : (nodes.setIfInBounds first.index node')[first.index]? = some node' := by
    rw [Array.getElem?_setIfInBounds]
    simp [hi]
  -- The others cannot undo it, because tables only grow.
  obtain ⟨last, hlast, hle⟩ := introduce_size_le address rest hset
  intro heq
  simp only [introduce, hn, hmet] at heq
  rw [heq, hn] at hlast
  rw [← Option.some.inj hlast, MeshNode.size_meet hmet] at hle
  exact Nat.not_succ_le_self _ hle

/-- A refused introduction leaves no trace exactly if the first who is told refuses. -/
theorem introduce_refused_iff {nodes' : Array MeshNode} {cause : NeighborError}
    (hi : introduce address ids nodes = (some cause, nodes'))
    (hknown : ∀ id ∈ ids, id.index < nodes.size) :
    nodes' = nodes ↔ ∃ first node refusal, ids.head? = some first ∧
      nodes[first.index]? = some node ∧ node.meet address = .error refusal := by
  cases ids with
  | nil => exact absurd hi nofun
  | cons first rest =>
    obtain ⟨node, hnode⟩ : ∃ node, nodes[first.index]? = some node :=
      ⟨_, Array.getElem?_eq_getElem (hknown first List.mem_cons_self)⟩
    cases hmet : node.meet address with
    | error refusal =>
      rw [introduce_of_refused hnode hmet] at hi
      injection hi with _ hi
      exact iff_of_true hi.symm ⟨first, node, refusal, rfl, hnode, hmet⟩
    | ok taken =>
      have hne := introduce_ne rest hnode hmet
      rw [hi] at hne
      refine iff_of_false hne ?_
      rintro ⟨first', node', refusal, hhead, hnode', hrefuses⟩
      injection hhead with hhead
      subst hhead
      rw [hnode] at hnode'
      injection hnode' with hnode'
      rw [← hnode', hmet] at hrefuses
      exact absurd hrefuses nofun

/-- A failed build changes nothing but the neighbor tables of the uplinks, and none of them exactly
if the design fails or the first uplink refuses. -/
theorem build_error_unchanged_iff {e : MeshError} (h : m.build plan = (.error e, m')) :
    m'.links = m.links ∧ m'.random = m.random ∧ m'.steps = m.steps ∧
      m'.nodes.size = m.nodes.size ∧
      (∀ i n', m'.nodes[i]? = some n' → ∃ n, m.nodes[i]? = some n ∧
        n' = n.withNeighbors n'.host.neighbors ∧ (n' = n ∨ ∃ id ∈ plan.uplinks, id.index = i)) ∧
      (m' = m ↔ m.design plan = .error e ∨ m.FirstRefuses plan) := by
  cases hd : m.design plan with
  | error e' =>
    have hbuild : m.build plan = (.error e', m) := by simp only [build, hd]
    rw [hbuild] at h
    injection h with he hm
    injection he with he
    subst he hm
    exact ⟨rfl, rfl, rfl, rfl, fun i n hn => ⟨n, hn, rfl, .inl rfl⟩, by simp⟩
  | ok node =>
    obtain ⟨-, hknown, -⟩ := design_eq_ok hd
    rw [(build_of_design hd).2] at h
    rcases hi : introduce m.nextAddress plan.uplinks m.nodes with ⟨refusal, nodes⟩
    rw [hi] at h
    cases refusal with
    | none => exact absurd (congrArg Prod.fst h) nofun
    | some cause =>
      have hnodes : (introduce m.nextAddress plan.uplinks m.nodes).2 = nodes := by rw [hi]
      injection h with _ h
      subst h
      refine ⟨rfl, rfl, rfl, hnodes ▸ size_introduce, ?_, ?_⟩
      · intro i n' hn'
        exact introduce_only_neighbors (hnodes ▸ hn')
      · have hsame : ({ m with nodes := nodes } : Mesh) = m ↔ nodes = m.nodes :=
          ⟨fun heq => congrArg Mesh.nodes heq, fun heq => heq ▸ rfl⟩
        rw [hsame, introduce_refused_iff hi hknown]
        simp only [reduceCtorEq, false_or, FirstRefuses]

theorem apply_build (m : Mesh) (plan : NodePlan) : (m.apply (.build plan)).2 = (m.build plan).2 := by
  rcases hb : m.build plan with ⟨id | e, m'⟩ <;> simp only [apply, hb]

theorem build_of_apply {e : MeshError} (h : (m.apply (.build plan)).1 = .failed e) :
    (m.build plan).1 = .error e := by
  unfold apply at h
  simp only at h
  split at h
  · exact absurd h nofun
  · next heq =>
    injection h with h
    rw [heq, h]

def crowded : List MeshEvent :=
  List.replicate 2 (.build ⟨none, [], 0, none⟩) ++
    List.replicate 16 (.build ⟨some ⟨0⟩, [], 0, none⟩)

/-- The second sink has taken the address when the first one refuses it. -/
theorem build_error_unchanged_iff_crowded :
    let m := empty.applyAll crowded
    let plan : NodePlan := ⟨some ⟨1⟩, [⟨0⟩], 0, none⟩
    m.build plan = (.error (.neighbor (.full 16)), (m.build plan).2) ∧
      ((m.build plan).2 = m ↔
        m.design plan = .error (.neighbor (.full 16)) ∨ m.FirstRefuses plan) := by
  intro m plan
  have he : (m.build plan).1 = .error (.neighbor (.full 16)) :=
    build_of_apply (by decide +kernel)
  have hbuild : m.build plan = (.error (.neighbor (.full 16)), (m.build plan).2) := by rw [← he]
  exact ⟨hbuild, (build_error_unchanged_iff hbuild).2.2.2.2.2⟩

/-- A failed build of a reachable mesh can change it: the same node under the second sink alone is
then refused, where it could have been built before. -/
theorem build_error_can_change :
    ¬ ∀ (events : List MeshEvent) (plan : NodePlan) (e : MeshError),
      ((empty.applyAll events).apply (.build plan)).1 = .failed e →
      ((empty.applyAll events).apply (.build plan)).2 = empty.applyAll events := by
  intro h
  have heq := h crowded ⟨some ⟨1⟩, [⟨0⟩], 0, none⟩ (.neighbor (.full 16)) (by decide +kernel)
  let retry : MeshEvent := .build ⟨some ⟨1⟩, [], 0, none⟩
  have hbefore : ((empty.applyAll crowded).apply retry).1 = .built ⟨18⟩ := by decide +kernel
  have hafter : (((empty.applyAll crowded).apply
      (.build ⟨some ⟨1⟩, [⟨0⟩], 0, none⟩)).2.apply retry).1 =
        .failed (.neighbor (.duplicate (NodeId.address ⟨18⟩))) := by decide +kernel
  rw [heq, hbefore] at hafter
  exact absurd hafter nofun

end Mesh

end CongestionRouting
