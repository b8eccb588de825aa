import CongestionRouting.Proofs.Mesh.Coherence

namespace CongestionRouting

/-- The indices of the nodes that take in what the node sends. -/
def MeshNode.receivers (n : MeshNode) : List Nat :=
  if n.sink then []
  else
    match n.parent with
    | none => []
    | some parent => (parent :: n.alternate.toList).map NodeId.index

theorem MeshNode.Descends.receivers_lt {i : Nat} {n : MeshNode} (hn : n.Descends i) :
    ∀ j ∈ n.receivers, j < i := by
  intro j hj
  unfold receivers at hj
  split at hj
  · exact absurd hj List.not_mem_nil
  · split at hj
    · exact absurd hj List.not_mem_nil
    · next parent hparent =>
      obtain ⟨id, hid, rfl⟩ := List.mem_map.1 hj
      rcases List.mem_cons.1 hid with rfl | halternate
      · exact hn.parent_lt id hparent
      · exact hn.alternate_lt (Option.mem_toList.1 halternate)

namespace Transit

/-- A move, if there are nodes at all indices that it needs. -/
def moveNode? (t : Transit) (index : Nat) : Option Transit :=
  t.mesh.nodes[index]?.bind fun node =>
    if ∀ i ∈ node.receivers, i < t.mesh.nodes.size then some (t.moveNode index) else none

def moveAll? : Nat → Transit → Option Transit
  | 0, t => some t
  | count + 1, t => (t.moveNode? count).bind (moveAll? count)

variable {t : Transit} {index count : Nat}

theorem moveNode?_eq (hd : Descending t.mesh.nodes) (hi : index < t.mesh.nodes.size) :
    t.moveNode? index = some (t.moveNode index) := by
  have hn := Array.getElem?_eq_getElem hi
  have hreceivers : ∀ i ∈ t.mesh.nodes[index].receivers, i < t.mesh.nodes.size :=
    fun i hmem => ((hd index _ hn).receivers_lt i hmem).trans hi
  rw [moveNode?, hn, Option.bind_some, if_pos hreceivers]

theorem moveAll?_eq (hd : Descending t.mesh.nodes) (hcount : count ≤ t.mesh.nodes.size) :
    moveAll? count t = some (moveAll count t) := by
  induction count generalizing t with
  | zero => rfl
  | succ count ih =>
    have hfollow := follows_moveNode t count
    have hrest := ih (hd.of_follows hfollow) (by rw [hfollow.1]; omega)
    rw [moveAll?, moveNode?_eq hd hcount, Option.bind_some, hrest, moveAll]

end Transit

namespace Mesh

open MeshNode

def reportNode? (nodes : Array MeshNode) (index : Nat) : Option (Array MeshNode) :=
  nodes[index]?.bind fun node =>
    if ∀ parent ∈ node.parent, parent.index < nodes.size then some (reportNode nodes index) else none

/-- An interval in which no index leads nowhere. -/
def step? (m : Mesh) : Option (StepReport × Mesh) := do
  let transit ← Transit.moveAll? m.nodes.size ⟨{ m with steps := m.steps + 1 }, 0, 0⟩
  let nodes ← (List.range transit.mesh.nodes.size).foldlM reportNode? transit.mesh.nodes
  let (ticks, m) := ({ transit.mesh with nodes := nodes } : Mesh).advertise.tick
  some (⟨m.steps, transit.delivered, transit.lost, ticks⟩, m)

variable {m : Mesh} {nodes : Array MeshNode} {index : Nat} {indices : List Nat}

theorem reportNode?_eq (hd : Descending nodes) (hi : index < nodes.size) :
    reportNode? nodes index = some (reportNode nodes index) := by
  have hn := Array.getElem?_eq_getElem hi
  have hparent : ∀ parent ∈ nodes[index].parent, parent.index < nodes.size :=
    fun parent hp => ((hd index _ hn).parent_lt parent hp).trans hi
  rw [reportNode?, hn, Option.bind_some, if_pos hparent]

theorem foldlM_reportNode? (hd : Descending nodes) (hi : ∀ index ∈ indices, index < nodes.size) :
    indices.foldlM reportNode? nodes = some (indices.foldl reportNode nodes) := by
  induction indices generalizing nodes with
  | nil => rfl
  | cons index indices ih =>
    have hfollow := (rests_reportNode nodes index).mono fun _ _ _ h => h.follows
    have hrest := ih (hd.of_follows hfollow) fun i hmem => by
      rw [hfollow.1]
      exact hi i (List.mem_cons_of_mem _ hmem)
    rw [List.foldlM_cons, reportNode?_eq hd (hi index List.mem_cons_self), List.foldl_cons]
    exact hrest

/-- Where all send to older nodes an interval never meets an index without a node. -/
theorem step?_eq (hd : Descending m.nodes) : m.step? = some m.step := by
  let start : Transit := ⟨{ m with steps := m.steps + 1 }, 0, 0⟩
  have hmoved : Transit.moveAll? m.nodes.size start = some (Transit.moveAll m.nodes.size start) :=
    Transit.moveAll?_eq hd (Nat.le_refl _)
  have hfollow := Transit.follows_moveAll start m.nodes.size
  have hreported := foldlM_reportNode? (hd.of_follows hfollow) fun i => List.mem_range.1
  unfold step?
  rw [hmoved, Option.bind_eq_bind, Option.bind_some, hreported]
  rfl

/-- In every reachable mesh each node and all that it keeps of its uplinks tell the same, no index that an
interval uses is out of bounds, and no detour is withdrawn because the table had lost its neighbor. -/
theorem coherent_applyAll (events : List MeshEvent) :
    let m := empty.applyAll events
    (∀ (i : Nat) (n : MeshNode), m.nodes[i]? = some n → m.Coherent i n) ∧
      m.step? = some m.step ∧
      ∀ tick ∈ m.step.1.ticks, ∀ reason, tick.2.outcome = .withdrawn reason →
        reason = .parentUncongested ∨ reason = .noParent := by
  have hm := rooted_applyAll events
  refine ⟨fun i n hn => Rooted.coherent hm hn, step?_eq hm.descending, fun tick htick reason ho => ?_⟩
  obtain ⟨i, n, told, heard, report, -, hpasses, rfl⟩ :=
    exists_passes_of_mem (atRest_applyAll events) htick
  exact (hm.advertise hpasses.heard_eq).outcome_tick hpasses.report_eq ho

end Mesh

end CongestionRouting
