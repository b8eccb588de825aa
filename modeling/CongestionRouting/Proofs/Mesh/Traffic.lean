import CongestionRouting.Proofs.Mesh.Coherence

namespace CongestionRouting

/-- A packet that one node sent to another, and whether it arrived. -/
structure Hop where
  sender : NodeId
  receiver : NodeId
  arrived : Bool
  deriving DecidableEq

namespace Hop

def arrivals (hops : List Hop) (id : NodeId) : Nat :=
  hops.countP fun hop => hop.receiver = id && hop.arrived

/-- The number of packets that one node sent to another, whether they arrived or not. -/
def departures (hops : List Hop) (sender receiver : NodeId) : Nat :=
  hops.countP fun hop => hop.sender = sender && hop.receiver = receiver

theorem departures_eq_zero {hops : List Hop} {sender : NodeId} (h : ∀ hop ∈ hops, hop.sender ≠ sender)
    (receiver : NodeId) : departures hops sender receiver = 0 := by
  refine List.countP_eq_zero.2 fun hop hmem => ?_
  simp only [h hop hmem, decide_false, Bool.false_and, Bool.false_eq_true, not_false_eq_true]

end Hop

theorem MeshNode.receive_zero (n : MeshNode) : n.receive 0 = n := by
  simp only [receive, Agent.addReceived, PacketCounters.addReceived, Nat.add_zero, saturate32_toNat]

namespace Dispatch

theorem nextHop_eq (parent : NodeId) (alternate : Option NodeId) (d : Dispatch) :
    (d.nextHop parent alternate).1 = parent ∨ alternate = some (d.nextHop parent alternate).1 := by
  unfold nextHop
  split
  · exact .inl rfl
  · dsimp only
    split
    · exact .inl rfl
    · exact .inr rfl

def hops (link : NodeId → Delivery) (sender parent : NodeId) (alternate : Option NodeId) :
    Nat → Dispatch → List Hop
  | 0, _ => []
  | packets + 1, d =>
    let receiver := (d.nextHop parent alternate).1
    ⟨sender, receiver, ((link receiver).deliver d.random).1⟩ ::
      hops link sender parent alternate packets (d.send link parent alternate)

theorem mem_hops {link : NodeId → Delivery} {sender parent : NodeId} {alternate : Option NodeId}
    {packets : Nat} {d : Dispatch} {hop : Hop}
    (hmem : hop ∈ hops link sender parent alternate packets d) :
    hop.sender = sender ∧ (hop.receiver = parent ∨ alternate = some hop.receiver) := by
  induction packets generalizing d with
  | zero => exact absurd hmem List.not_mem_nil
  | succ packets ih =>
    rcases List.mem_cons.1 hmem with rfl | hmem
    · exact ⟨rfl, nextHop_eq parent alternate d⟩
    · exact ih hmem

def arrivedAt (parent : NodeId) (alternate : Option NodeId) (d : Dispatch) (id : NodeId) : Nat :=
  if parent = id then d.toParent.arrived
  else if alternate = some id then d.toAlternate.arrived
  else 0

/-- The packets that a node sent between two moments, all of which were counted. -/
structure Logged (sender parent : NodeId) (alternate : Option NodeId) (hops : List Hop)
    (d d' : Dispatch) : Prop where
  sent_eq : d'.toParent.sent = d.toParent.sent + Hop.departures hops sender parent
  arrived_eq : ∀ id,
    d'.arrivedAt parent alternate id = d.arrivedAt parent alternate id + Hop.arrivals hops id
  sender_eq : ∀ hop ∈ hops, hop.sender = sender

variable {sender parent a : NodeId} {alternate : Option NodeId} {hops hops' : List Hop}
  {d d' d'' : Dispatch}

theorem Logged.append (h : d.Logged sender parent alternate hops d')
    (h' : d'.Logged sender parent alternate hops' d'') :
    d.Logged sender parent alternate (hops ++ hops') d'' := by
  refine ⟨?_, fun id => ?_, fun hop hmem => ?_⟩
  · rw [h'.sent_eq, h.sent_eq, Hop.departures, Hop.departures, Hop.departures, List.countP_append,
      Nat.add_assoc]
  · rw [h'.arrived_eq, h.arrived_eq, Hop.arrivals, Hop.arrivals, Hop.arrivals, List.countP_append,
      Nat.add_assoc]
  · exact (List.mem_append.1 hmem).elim (h.sender_eq hop) (h'.sender_eq hop)

theorem Logged.send (link : NodeId → Delivery) (d : Dispatch) :
    let hop := (d.nextHop parent alternate).1
    d.Logged sender parent alternate [⟨sender, hop, ((link hop).deliver d.random).1⟩]
      (d.send link parent alternate) := by
  intro hop
  have hgoes : hop = parent ∨ alternate = some hop := nextHop_eq parent alternate d
  have hparent : (d.send link parent alternate).toParent = if hop = parent then
      d.toParent.add ((link hop).deliver d.random).1 else d.toParent := toParent_send ..
  have halternate : (d.send link parent alternate).toAlternate = if hop = parent then d.toAlternate
      else d.toAlternate.add ((link hop).deliver d.random).1 := toAlternate_send ..
  refine ⟨?_, fun id => ?_, by simp⟩
  · rw [hparent]
    by_cases hhop : hop = parent <;> simp [hhop, HopLoad.add, Hop.departures]
  · simp only [arrivedAt, hparent, halternate, Hop.arrivals, List.countP_singleton]
    generalize ((link hop).deliver d.random).1 = arrived
    by_cases hhop : hop = parent
    · by_cases hid : parent = id <;> cases arrived <;> simp [hhop, hid, HopLoad.add]
    · rw [hgoes.resolve_left hhop]
      by_cases hid : hop = id
      · subst hid
        cases arrived <;> simp [Ne.symm hhop, hhop, HopLoad.add]
      · simp [hid, hhop]

theorem Logged.sendAll (link : NodeId → Delivery) (packets : Nat) (d : Dispatch) :
    d.Logged sender parent alternate (d.hops link sender parent alternate packets)
      (Dispatch.sendAll link parent alternate packets d) := by
  induction packets generalizing d with
  | zero => exact ⟨rfl, fun _ => rfl, nofun⟩
  | succ packets ih => exact (Logged.send link d).append (ih _)

theorem arrivedAt_start (random : ChaCha) (parentTurn : Bool) (id : NodeId) :
    (Dispatch.start random parentTurn).arrivedAt parent alternate id = 0 := by
  unfold arrivedAt
  split
  · rfl
  · split <;> rfl

theorem exists_of_getElem?_arrive (hne : alternate ≠ some parent) {nodes : Array MeshNode}
    {id : NodeId} {n' : MeshNode} (hn' : (d.arrive parent alternate nodes)[id.index]? = some n') :
    ∃ n, nodes[id.index]? = some n ∧ n' = n.receive (d.arrivedAt parent alternate id) := by
  unfold arrive at hn'
  cases alternate with
  | none =>
    obtain ⟨n, hn, rfl⟩ := Mesh.exists_of_getElem?_modify hn'
    refine ⟨n, hn, ?_⟩
    simp only [NodeId.index_inj, arrivedAt]
    split
    · rfl
    · exact n.receive_zero.symm
  | some a =>
    obtain ⟨met, hmet, rfl⟩ := Mesh.exists_of_getElem?_modify hn'
    obtain ⟨n, hn, rfl⟩ := Mesh.exists_of_getElem?_modify hmet
    refine ⟨n, hn, ?_⟩
    simp only [NodeId.index_inj, arrivedAt, Option.some.injEq]
    -- Parent and alternate are two nodes, so none of them takes in packets twice.
    by_cases hparent : parent = id
    · have ha : a ≠ id := fun h => hne (congrArg some (h.trans hparent.symm))
      rw [if_neg ha, if_pos hparent, if_pos hparent]
    · rw [if_neg hparent, if_neg hparent]
      split
      · rfl
      · exact n.receive_zero.symm

end Dispatch

namespace MeshNode

/-- The packets that travelled between two moments, as far as a node counts them. -/
structure Metered (hops : List Hop) (n n' : MeshNode) : Prop extends Forwarded n n' where
  received_eq : n'.counters.received =
    saturate32 (n.counters.received.toNat + Hop.arrivals hops n.id)
  departed_eq : ∀ parent, n.parent = some parent → n'.counters.sent =
    saturate32 (n.counters.sent.toNat + Hop.departures hops n.id parent)

variable {hops hops' : List Hop} {n n' n'' : MeshNode}

theorem Metered.idle (h : n.Forwarded n') (hcounters : n'.counters = n.counters) :
    n.Metered [] n' := by
  refine ⟨h, ?_, fun parent _ => ?_⟩ <;> rw [hcounters]
  · exact (saturate32_toNat _).symm
  · exact (saturate32_toNat _).symm

theorem Metered.append (h : n.Metered hops n') (h' : n'.Metered hops' n'') :
    n.Metered (hops ++ hops') n'' := by
  refine ⟨trans_of Forwarded h.toForwarded h'.toForwarded, ?_, fun parent hp => ?_⟩
  · rw [h'.received_eq, h.received_eq, saturate32_add, h.id_eq, Hop.arrivals, Hop.arrivals,
      Hop.arrivals, List.countP_append, Nat.add_assoc]
  · rw [h'.departed_eq parent (h.parent_eq.trans hp), h.departed_eq parent hp, saturate32_add,
      h.id_eq, Hop.departures, Hop.departures, Hop.departures, List.countP_append, Nat.add_assoc]

end MeshNode

namespace Transit

open MeshNode Mesh

variable {t : Transit} {i j : Nat} {mover n n' : MeshNode} {parent : NodeId}

def hopsAt (t : Transit) (index : Nat) : List Hop :=
  match t.mesh.nodes[index]? with
  | none => []
  | some node =>
    if node.sink then []
    else
      match node.parent with
      | none => []
      | some parent =>
        Dispatch.hops (t.mesh.delivery node.id) node.id parent node.alternate node.load
          (.start t.mesh.random node.parentTurn)

/-- The packets that the first nodes of the mesh send, from the last of them on. -/
def hops : Nat → Transit → List Hop
  | 0, _ => []
  | count + 1, t => t.hopsAt count ++ hops count (t.moveNode count)

theorem logged_dispatch (hmover : t.mesh.nodes[i]? = some mover) (hs : mover.sink = false)
    (hp : mover.parent = some parent) :
    (Dispatch.start t.mesh.random mover.parentTurn).Logged mover.id parent mover.alternate
      (t.hopsAt i) (t.dispatch mover parent) := by
  simp only [hopsAt, hmover, hs, hp, Bool.false_eq_true, if_false]
  exact .sendAll (t.mesh.delivery mover.id) mover.load _

theorem hopsAt_eq_nil (h : ∀ mover, t.mesh.nodes[i]? = some mover → mover.sink = false →
    mover.parent = none) : t.hopsAt i = [] := by
  unfold hopsAt
  split
  · rfl
  · next mover hmover =>
    split
    · rfl
    · next hs => simp only [h mover hmover (Bool.eq_false_iff.2 hs)]

theorem eq_of_idle (hidle : ∀ mover, t.mesh.nodes[i]? = some mover → mover.sink = false →
    mover.parent = none) (hn : t.mesh.nodes[j]? = some n)
    (hn' : (t.moveNode i).mesh.nodes[j]? = some n') :
    n' = n ∨ i = j ∧ (n' = n.absorb ∨ n' = n.loseAll) := by
  cases hmover : t.mesh.nodes[i]? with
  | none =>
    rw [moveNode_of_none hmover] at hn'
    exact .inl (Option.some.inj (hn'.symm.trans hn))
  | some mover =>
    cases hs : mover.sink with
    | true =>
      rw [moveNode_of_sink hmover hs] at hn'
      obtain ⟨old, hold, rfl⟩ := exists_of_getElem?_modify hn'
      obtain rfl : old = n := Option.some.inj (hold.symm.trans hn)
      split
      · next hij => exact .inr ⟨hij, .inl rfl⟩
      · exact .inl rfl
    | false =>
      rw [moveNode_of_detached hmover hs (hidle mover hmover hs)] at hn'
      obtain ⟨old, hold, rfl⟩ := exists_of_getElem?_modify hn'
      obtain rfl : old = n := Option.some.inj (hold.symm.trans hn)
      split
      · next hij => exact .inr ⟨hij, .inr rfl⟩
      · exact .inl rfl

theorem counters_of_idle (hidle : ∀ mover, t.mesh.nodes[i]? = some mover → mover.sink = false →
    mover.parent = none) (hn : t.mesh.nodes[j]? = some n)
    (hn' : (t.moveNode i).mesh.nodes[j]? = some n') : n'.counters = n.counters := by
  rcases eq_of_idle hidle hn hn' with rfl | ⟨-, rfl | rfl⟩ <;> rfl

/-- What sending does to the sender and to those that its packets arrive at. -/
theorem eq_of_sends (ht : t.mesh.Rooted) (hmover : t.mesh.nodes[i]? = some mover)
    (hs : mover.sink = false) (hp : mover.parent = some parent) (hn : t.mesh.nodes[j]? = some n)
    (hn' : (t.moveNode i).mesh.nodes[j]? = some n') :
    n' = (if i = j then n.afterDispatch (t.dispatch mover parent) else n).receive
      (Hop.arrivals (t.hopsAt i) n.id) := by
  have hne : mover.alternate ≠ some parent := fun ha =>
    (ht i mover hmover).parent_ne_alternate ha hp
  have hindex : n.id.index = j := (ht j n hn).index_eq
  rw [moveNode_of_parent hmover hs hp, ← hindex] at hn'
  obtain ⟨sent, hsent, rfl⟩ := Dispatch.exists_of_getElem?_arrive hne hn'
  obtain ⟨old, hold, rfl⟩ := exists_of_getElem?_modify hsent
  obtain rfl : old = n := Option.some.inj (hold.symm.trans (hindex ▸ hn))
  have harrived := (logged_dispatch hmover hs hp).arrived_eq old.id
  rw [Dispatch.arrivedAt_start, Nat.zero_add] at harrived
  rw [harrived, hindex]

theorem exists_of_mem_hopsAt {hop : Hop} (hmem : hop ∈ t.hopsAt i) :
    ∃ mover, t.mesh.nodes[i]? = some mover ∧ hop.sender = mover.id ∧
      (mover.parent = some hop.receiver ∨ mover.alternate = some hop.receiver) := by
  unfold hopsAt at hmem
  split at hmem
  · exact absurd hmem List.not_mem_nil
  · next mover hmover =>
    split at hmem
    · exact absurd hmem List.not_mem_nil
    · split at hmem
      · exact absurd hmem List.not_mem_nil
      · next parent hp =>
        obtain ⟨hsender, hreceiver⟩ := Dispatch.mem_hops hmem
        refine ⟨mover, hmover, hsender, hreceiver.imp_left fun heq => ?_⟩
        rw [heq, hp]

theorem departures_of_ne (ht : t.mesh.Rooted) (hij : i ≠ j) (hn : t.mesh.nodes[j]? = some n)
    (receiver : NodeId) : Hop.departures (t.hopsAt i) n.id receiver = 0 := by
  refine Hop.departures_eq_zero (fun hop hmem hsender => ?_) receiver
  obtain ⟨mover, hmover, hsent, -⟩ := exists_of_mem_hopsAt hmem
  exact hij ((ht i mover hmover).index_eq.symm.trans
    ((congrArg NodeId.index (hsent.symm.trans hsender)).trans (ht j n hn).index_eq))

/-- Who sends packets counts those to the parent, and all that arrive are counted where they do. -/
theorem counters_of_sends (ht : t.mesh.Rooted) (hmover : t.mesh.nodes[i]? = some mover)
    (hs : mover.sink = false) (hp : mover.parent = some parent) (hn : t.mesh.nodes[j]? = some n)
    (hn' : (t.moveNode i).mesh.nodes[j]? = some n') :
    n'.counters.received =
        saturate32 (n.counters.received.toNat + Hop.arrivals (t.hopsAt i) n.id) ∧
      ∀ q, n.parent = some q → n'.counters.sent =
        saturate32 (n.counters.sent.toNat + Hop.departures (t.hopsAt i) n.id q) := by
  have hlogged := logged_dispatch hmover hs hp
  rw [eq_of_sends ht hmover hs hp hn hn']
  refine ⟨?_, fun q hq => ?_⟩
  · split <;> rfl
  · change (if i = j then n.afterDispatch (t.dispatch mover parent) else n).counters.sent = _
    split
    · next hi =>
      -- The node that moves its packets is the node in question.
      obtain rfl : mover = n := Option.some.inj (hmover.symm.trans (hi ▸ hn))
      obtain rfl : parent = q := Option.some.inj (hp.symm.trans hq)
      have hsent := hlogged.sent_eq
      rw [Dispatch.start, HopLoad.zero, Nat.zero_add] at hsent
      rw [← hsent]
      rfl
    · next hi => rw [departures_of_ne ht hi hn, Nat.add_zero, saturate32_toNat]

theorem metered_moveNode (ht : t.mesh.Rooted) (i : Nat) :
    Pointwise (fun _ => Metered (t.hopsAt i)) t.mesh.nodes (t.moveNode i).mesh.nodes := by
  refine ⟨(forwarded_moveNode t i).1, fun j n' hn' => ?_⟩
  obtain ⟨n, hn, hforwarded⟩ := (forwarded_moveNode t i).2 j n' hn'
  refine ⟨n, hn, ?_⟩
  by_cases hidle : ∀ mover, t.mesh.nodes[i]? = some mover → mover.sink = false → mover.parent = none
  · rw [hopsAt_eq_nil hidle]
    exact .idle hforwarded (counters_of_idle hidle hn hn')
  · push Not at hidle
    obtain ⟨mover, hmover, hs, hparent⟩ := hidle
    obtain ⟨parent, hp⟩ := Option.ne_none_iff_exists'.1 hparent
    obtain ⟨hreceived, hdeparted⟩ := counters_of_sends ht hmover hs hp hn hn'
    exact ⟨hforwarded, hreceived, hdeparted⟩

theorem metered_moveAll (ht : t.mesh.Rooted) (count : Nat) :
    Pointwise (fun _ => Metered (t.hops count)) t.mesh.nodes (moveAll count t).mesh.nodes := by
  induction count generalizing t with
  | zero => exact ⟨rfl, fun i n hn => ⟨n, hn, .idle (refl_of Forwarded n) rfl⟩⟩
  | succ count ih =>
    have hkeeps := (forwarded_moveNode t count).mono fun _ _ _ h => h.toKeeps
    exact (metered_moveNode ht count).comp (ih (ht.of_keeps hkeeps)) fun _ _ _ _ h h' => h.append h'

end Transit

namespace MeshNode

/-- What a node takes from the report of another, provided that it is the parent. -/
def owed (p n : MeshNode) : Nat := if n.parent = some p.id then p.accepts n else 0

variable {p p' p'' : MeshNode} {nodes nodes' nodes'' : Array MeshNode}

theorem owed_congr (h : p.Keeps p') : p'.owed = p.owed := by
  funext n
  rw [owed, owed, accepts, accepts, h.id_eq, h.config_eq]

theorem owed_eq_zero {n : MeshNode} (h : n.counters.sent = 0) (p : MeshNode) : p.owed n = 0 := by
  simp only [owed, accepts, h, UInt32.toNat_zero, Nat.zero_min, ite_self]

/-- Reports were exchanged, and what they told a node is what it was owed before. -/
structure Told (nodes nodes' : Array MeshNode) (p p' : MeshNode) : Prop extends Keeps p p' where
  received_eq : p'.counters.received = p.counters.received
  expected_eq : saturate32 (p'.counters.expected.toNat + Mesh.sumOf p'.owed nodes') =
    saturate32 (p.counters.expected.toNat + Mesh.sumOf p.owed nodes)

theorem Told.refl (nodes : Array MeshNode) (p : MeshNode) : Told nodes nodes p p :=
  ⟨refl_of Keeps p, rfl, rfl⟩

theorem Told.trans (h : Told nodes nodes' p p') (h' : Told nodes' nodes'' p' p'') :
    Told nodes nodes'' p p'' :=
  ⟨trans_of Keeps h.toKeeps h'.toKeeps, h'.received_eq.trans h.received_eq,
    h'.expected_eq.trans h.expected_eq⟩

end MeshNode

namespace Mesh

open MeshNode

variable {nodes : Array MeshNode} {index : Nat} {child : MeshNode} {parent : NodeId}

def Indexed (nodes : Array MeshNode) : Prop :=
  ∀ (i : Nat) (n : MeshNode), nodes[i]? = some n → n.id.index = i

theorem Rooted.indexed {m : Mesh} (hm : m.Rooted) : Indexed m.nodes :=
  fun i n hn => (hm i n hn).index_eq

theorem Indexed.reportNode (hids : Indexed nodes) (index : Nat) :
    Indexed (reportNode nodes index) := by
  intro i n' hn'
  obtain ⟨n, hn, hkeeps⟩ := (keeps_reportNode nodes index).2 i n' hn'
  rw [hkeeps.id_eq]
  exact hids i n hn

/-- A child that has reported owes nothing any more, and the others owe what they did. -/
theorem sumOf_owed_reportNode (hchild : nodes[index]? = some child) (hp : child.parent = some parent)
    (p : MeshNode) :
    sumOf p.owed (reportNode nodes index) + p.owed child = sumOf p.owed nodes := by
  refine sumOf_reportNode hchild hp (owed_eq_zero rfl p) fun n => ?_
  obtain ⟨hkeeps, hcounters⟩ := receiveReport_report n child
  simp only [owed, accepts, hkeeps.parent_eq, hkeeps.config_eq, hcounters, PacketCounters.addExpected]

theorem counters_reportNode (hids : Indexed nodes) (hchild : nodes[index]? = some child)
    (hp : child.parent = some parent) {j : Nat} {p p' : MeshNode} (hj : nodes[j]? = some p)
    (hp' : (reportNode nodes index)[j]? = some p') :
    p'.counters.received = p.counters.received ∧
      p'.counters.expected = saturate32 (p.counters.expected.toNat + p.owed child) := by
  rw [reportNode_eq hchild hp] at hp'
  obtain ⟨q, hq, rfl⟩ := exists_of_getElem?_modify hp'
  obtain ⟨old, hold, hdrained⟩ := exists_of_getElem?_modify hq
  obtain rfl : old = p := Option.some.inj (hold.symm.trans hj)
  obtain ⟨hreceived, hexpected, haccepts⟩ : q.counters.received = old.counters.received ∧
      q.counters.expected = old.counters.expected ∧ q.accepts child = old.accepts child := by
    rw [hdrained]
    split <;> exact ⟨rfl, rfl, rfl⟩
  have howed : old.owed child = if parent.index = j then old.accepts child else 0 := by
    simp only [owed, hp, Option.some.injEq, ← NodeId.index_inj, hids j old hold]
  rw [howed, ← hreceived, ← hexpected, ← haccepts]
  split
  · rw [(receiveReport_report q child).2]
    exact ⟨rfl, rfl⟩
  · rw [Nat.add_zero, saturate32_toNat]
    exact ⟨rfl, rfl⟩

/-- What the child no longer owes its parent, the parent has come to expect. -/
theorem told_reportNode (hids : Indexed nodes) (index : Nat) :
    Pointwise (fun _ => Told nodes (reportNode nodes index)) nodes (reportNode nodes index) := by
  by_cases hnone : ∀ n, nodes[index]? = some n → n.parent = none
  · rw [reportNode_of_no_parent hnone]
    exact ⟨rfl, fun i n hn => ⟨n, hn, .refl nodes n⟩⟩
  · push Not at hnone
    obtain ⟨child, hchild, hsome⟩ := hnone
    obtain ⟨parent, hp⟩ := Option.ne_none_iff_exists'.1 hsome
    refine ⟨(keeps_reportNode nodes index).1, fun j p' hp' => ?_⟩
    obtain ⟨p, hj, hkeeps⟩ := (keeps_reportNode nodes index).2 j p' hp'
    obtain ⟨hreceived, hexpected⟩ := counters_reportNode hids hchild hp hj hp'
    refine ⟨p, hj, hkeeps, hreceived, ?_⟩
    rw [owed_congr hkeeps, hexpected, saturate32_add, Nat.add_assoc, Nat.add_comm (p.owed child),
      sumOf_owed_reportNode hchild hp]

theorem told_reportNodes (indices : List Nat) (hids : Indexed nodes) :
    Pointwise (fun _ => Told nodes (indices.foldl reportNode nodes)) nodes
      (indices.foldl reportNode nodes) := by
  induction indices generalizing nodes with
  | nil => exact ⟨rfl, fun i n hn => ⟨n, hn, .refl nodes n⟩⟩
  | cons index indices ih =>
    exact (told_reportNode hids index).comp (ih (hids.reportNode index)) fun _ _ _ _ h h' => h.trans h'

/-- The packets that the nodes send to one another in an interval. -/
def hops (m : Mesh) : List Hop := Transit.hops m.nodes.size ⟨{ m with steps := m.steps + 1 }, 0, 0⟩

/-- What a child can report of the packets that it sent to its parent, if both mean the same type. -/
def reportable (hops : List Hop) (p c : MeshNode) : Nat :=
  if c.parent = some p.id ∧ c.agent.config.optionType = p.agent.config.optionType then
    min (Hop.departures hops c.id p.id) 0xffff
  else 0

variable {m : Mesh} {i : Nat} {n told : MeshNode}

theorem owed_of_metered {hops : List Hop} {p p' c c' : MeshNode} (hp : p.Keeps p')
    (hc : c.Metered hops c') (hzero : c.counters = .zero) : p'.owed c' = reportable hops p c := by
  rw [owed_congr hp, owed, accepts, reportable, hc.parent_eq, hc.config_eq, ite_and]
  split
  · next hparent =>
    rw [hc.departed_eq p.id hparent, hzero, toNat_saturate32, PacketCounters.zero, UInt32.toNat_zero,
      Nat.zero_add]
    congr 1
    omega
  · rfl

theorem counters_reported (hm : m.Rooted) (hzero : ∀ n ∈ m.nodes, n.counters = .zero)
    (hn : m.nodes[i]? = some n) (htold : m.reported.nodes[i]? = some told) :
    told.counters.received = saturate32 (Hop.arrivals m.hops n.id) ∧
      told.counters.expected = saturate32 (sumOf (reportable m.hops n) m.nodes) := by
  let moved := (forward { m with steps := m.steps + 1 }).mesh
  -- First the packets travel, which is metered, and then the reports of them are exchanged.
  have hmetered : Pointwise (fun _ c c' => c.Metered m.hops c' ∧ c.counters = .zero) m.nodes
      moved.nodes := by
    obtain ⟨hsize, hmoved⟩ :=
      Transit.metered_moveAll (t := ⟨{ m with steps := m.steps + 1 }, 0, 0⟩) hm m.nodes.size
    refine ⟨hsize, fun j c' hc' => ?_⟩
    obtain ⟨c, hc, hmetered⟩ := hmoved j c' hc'
    exact ⟨c, hc, hmetered, hzero c (Array.mem_of_getElem? hc)⟩
  have hkeeps := hmetered.mono fun _ _ _ h => h.1.toKeeps
  have htells : Pointwise (fun _ => Told moved.nodes m.reported.nodes) moved.nodes m.reported.nodes :=
    told_reportNodes _ (hm.of_keeps hkeeps).indexed
  obtain ⟨mid, hmid, htold'⟩ := htells.2 i told htold
  obtain ⟨old, hold, hmid', hstart⟩ := hmetered.2 i mid hmid
  obtain rfl : old = n := Option.some.inj (hold.symm.trans hn)
  refine ⟨?_, ?_⟩
  · rw [htold'.received_eq, hmid'.received_eq, hstart, PacketCounters.zero, UInt32.toNat_zero,
      Nat.zero_add]
  · have howed : sumOf mid.owed moved.nodes = sumOf (reportable m.hops old) m.nodes :=
      congrArg List.sum (hmetered.map_eq fun _ _ _ hc => owed_of_metered hmid'.toKeeps hc.1 hc.2)
    have hpaid : sumOf told.owed m.reported.nodes = 0 := by
      apply List.sum_eq_zero
      intro x hx
      obtain ⟨c, hc, rfl⟩ := List.mem_map.1 hx
      have hsent := sent_reported fun n hn => congrArg PacketCounters.sent (hzero n hn)
      exact owed_eq_zero (hsent c (Array.mem_toList_iff.1 hc)) told
    have hexpected := htold'.expected_eq
    rw [hpaid, howed, Nat.add_zero, saturate32_toNat] at hexpected
    have hnone : mid.counters.expected.toNat = 0 := by
      rw [hmid'.expected_eq, hstart]
      rfl
    rw [hexpected, hnone, Nat.zero_add]

/-- In every interval of every reachable mesh each node judges itself by the packets that arrived at it and
by those that its children sent to it, and starts the next interval with nothing left to report. -/
theorem measured_applyAll (events : List MeshEvent) :
    let m := empty.applyAll events
    (∀ (i : Nat) (n : MeshNode), m.nodes[i]? = some n → ∃ report,
        m.step.1.ticks[i]? = some (n.id, report) ∧
          report.verdict.received = saturate32 (Hop.arrivals m.hops n.id) ∧
          report.verdict.expected = saturate32 (sumOf (reportable m.hops n) m.nodes)) ∧
      ∀ n ∈ m.step.2.nodes, n.counters.sent = 0 := by
  intro m
  have hm : m.Rooted := rooted_applyAll events
  have hrest : ∀ n ∈ m.nodes, n.AtRest := atRest_applyAll events
  refine ⟨fun i n hn => ?_, fun n hn => congrArg PacketCounters.sent (atRest_step hrest n hn).counters_eq⟩
  obtain ⟨told, heard, report, hpasses⟩ := exists_passes hrest hn
  obtain ⟨hreceived, hexpected⟩ :=
    counters_reported hm (fun n hn => (hrest n hn).counters_eq) hn hpasses.told_eq
  have hcounters : heard.agent.engine.counters = told.counters := by
    rw [hpasses.listens.engine_eq]
    rfl
  refine ⟨report, hpasses.ticks_eq, ?_, ?_⟩
  · rw [hpasses.ticked.verdict_eq, Engine.judge, CongestionRule.received_judge, hcounters, hreceived]
  · rw [hpasses.ticked.verdict_eq, Engine.judge, CongestionRule.expected_judge, hcounters, hexpected]

end Mesh

end CongestionRouting
