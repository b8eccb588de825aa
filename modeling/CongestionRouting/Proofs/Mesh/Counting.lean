import CongestionRouting.Proofs.Agent.Steps
import CongestionRouting.Proofs.CountOption
import CongestionRouting.Proofs.Mesh.Conservation

namespace CongestionRouting

namespace MeshNode

def counters (n : MeshNode) : PacketCounters := n.agent.engine.counters

/-- All that changed is packets and their counts. -/
structure Keeps (n n' : MeshNode) : Prop where
  id_eq : n'.id = n.id
  parent_eq : n'.parent = n.parent
  host_eq : n'.host = n.host
  config_eq : n'.agent.config = n.agent.config
  engine_eq : n'.agent.engine = { n.agent.engine with counters := n'.counters }

variable {n n' : MeshNode}

instance : IsPreorder MeshNode Keeps where
  refl _ := ⟨rfl, rfl, rfl, rfl, rfl⟩
  trans _ _ _ h h' := ⟨h'.id_eq.trans h.id_eq, h'.parent_eq.trans h.parent_eq,
    h'.host_eq.trans h.host_eq, h'.config_eq.trans h.config_eq, by rw [h'.engine_eq, h.engine_eq]⟩

theorem Keeps.report : n.Keeps n.report.2 := ⟨rfl, rfl, rfl, rfl, rfl⟩

/-- What forwarding does to a node: nothing is reported to it, and only who has a parent sends. -/
structure Forwarded (n n' : MeshNode) : Prop extends Keeps n n' where
  expected_eq : n'.counters.expected = n.counters.expected
  sent_eq : n.parent = none → n'.counters.sent = n.counters.sent

instance : IsPreorder MeshNode Forwarded where
  refl n := ⟨refl_of Keeps n, rfl, fun _ => rfl⟩
  trans _ _ _ h h' := ⟨trans_of Keeps h.toKeeps h'.toKeeps, h'.expected_eq.trans h.expected_eq,
    fun hp => (h'.sent_eq (h.parent_eq.trans hp)).trans (h.sent_eq hp)⟩

/-- Nothing is lost by a node with a parent. -/
structure Spares (n n' : MeshNode) : Prop where
  parent_eq : n'.parent = n.parent
  lost_eq : n.parent ≠ none → n'.lost = n.lost

instance : IsPreorder MeshNode Spares where
  refl _ := ⟨rfl, fun _ => rfl⟩
  trans _ _ _ h h' := ⟨h'.parent_eq.trans h.parent_eq, fun hp =>
    (h'.lost_eq (h.parent_eq ▸ hp)).trans (h.lost_eq hp)⟩

/-- The count that a node takes from the report of another, provided that both mean the same type. -/
def accepts (p n : MeshNode) : Nat :=
  if n.agent.config.optionType = p.agent.config.optionType then min n.counters.sent.toNat 0xffff else 0

theorem accepts_le (p n : MeshNode) : p.accepts n ≤ min n.counters.sent.toNat 0xffff := by
  unfold accepts
  split
  · exact Nat.le_refl _
  · exact Nat.zero_le _

theorem receiveReport_report (p n : MeshNode) : p.Keeps (p.receiveReport n.report.1) ∧
    (p.receiveReport n.report.1).counters = p.counters.addExpected (p.accepts n) := by
  let option : CountOption := .ofCount n.agent.config.optionType n.counters.sent
  have hcount : option.count.toNat = min n.counters.sent.toNat 0xffff := toNat_saturate16 _
  have hdecode : CountOption.decodeAt p.agent.config.optionType n.report.1 reportHeader.length =
      CountOption.decode p.agent.config.optionType option.toBytes := rfl
  have hnone : p.counters = p.counters.addExpected 0 := by
    simp only [PacketCounters.addExpected, Nat.add_zero, saturate32_toNat]
  unfold receiveReport Agent.receiveReport accepts
  rw [hdecode, CountOption.decode_toBytes, ← hcount]
  by_cases htype : n.agent.config.optionType = p.agent.config.optionType
  · rw [if_pos (show option.type = _ from htype), if_pos htype]
    exact ⟨⟨rfl, rfl, rfl, rfl, rfl⟩, rfl⟩
  · rw [if_neg (show option.type ≠ _ from htype), if_neg htype]
    exact ⟨⟨rfl, rfl, rfl, rfl, rfl⟩, hnone⟩

/-- What the node is going to report, if it is a child of the node at that index. -/
def claim (i : Nat) (n : MeshNode) : Nat :=
  if n.parent.map NodeId.index = some i then min n.counters.sent.toNat 0xffff else 0

end MeshNode

namespace Dispatch

/-- All that was sent arrived. -/
structure Lossless (d : Dispatch) : Prop where
  toParent : d.toParent.arrived = d.toParent.sent
  toAlternate : d.toAlternate.arrived = d.toAlternate.sent

variable {d : Dispatch} {link : NodeId → Delivery}

theorem Lossless.lost_eq (hd : d.Lossless) : d.lost = 0 := by
  simp only [lost, HopLoad.lost, hd.toParent, hd.toAlternate, Nat.sub_self]

theorem Lossless.start (random : ChaCha) (parentTurn : Bool) :
    (Dispatch.start random parentTurn).Lossless := ⟨rfl, rfl⟩

theorem Lossless.send (hd : d.Lossless) (hlink : ∀ id, link id = .always) (parent : NodeId)
    (alternate : Option NodeId) : (d.send link parent alternate).Lossless := by
  constructor
  · rw [toParent_send, hlink]
    split
    · exact congrArg (· + 1) hd.toParent
    · exact hd.toParent
  · rw [toAlternate_send, hlink]
    split
    · exact hd.toAlternate
    · exact congrArg (· + 1) hd.toAlternate

theorem Lossless.sendAll (hd : d.Lossless) (hlink : ∀ id, link id = .always) (parent : NodeId)
    (alternate : Option NodeId) (packets : Nat) :
    (Dispatch.sendAll link parent alternate packets d).Lossless := by
  induction packets generalizing d with
  | zero => exact hd
  | succ packets ih => exact ih (hd.send hlink parent alternate)

end Dispatch

namespace Mesh

open MeshNode

variable {nodes : Array MeshNode} {i j : Nat} {n : MeshNode} {g : MeshNode → MeshNode}

theorem exists_of_getElem?_modify (hn : (nodes.modify i g)[j]? = some n) :
    ∃ old, nodes[j]? = some old ∧ n = if i = j then g old else old := by
  rw [Array.getElem?_modify] at hn
  split at hn
  · next hij =>
    obtain ⟨old, hold, rfl⟩ := Option.map_eq_some_iff.1 hn
    exact ⟨old, hold, (if_pos hij).symm⟩
  · next hij => exact ⟨n, hn, (if_neg hij).symm⟩

theorem setIfInBounds_eq_modify (hn : nodes[i]? = some n) :
    nodes.setIfInBounds i (g n) = nodes.modify i g := by
  apply Array.ext_getElem?
  intro j
  rw [Array.getElem?_setIfInBounds, Array.getElem?_modify]
  split
  · next hij =>
    subst hij
    rw [hn, Option.map_some]
    exact if_pos (Array.getElem?_eq_some_iff.1 hn).1
  · rfl

/-- A report in two steps: the child forgets what it sent, and the parent takes the message in. -/
theorem reportNode_eq (hn : nodes[i]? = some n) {parent : NodeId} (hp : n.parent = some parent) :
    reportNode nodes i = (nodes.modify i fun n => n.report.2).modify parent.index fun p =>
      p.receiveReport n.report.1 := by
  rw [← setIfInBounds_eq_modify (g := fun n => n.report.2) hn]
  simp only [reportNode, hn, hp]

theorem reportNode_of_no_parent (h : ∀ n, nodes[i]? = some n → n.parent = none) :
    reportNode nodes i = nodes := by
  unfold reportNode
  split
  · rfl
  · next n hn => simp only [h n hn]

/-- A figure that taking a report in does not change, changes with the child that reports alone. -/
theorem sumOf_reportNode {f : MeshNode → Nat} (hn : nodes[i]? = some n) {parent : NodeId}
    (hp : n.parent = some parent) (hpaid : f n.report.2 = 0)
    (htaken : ∀ p : MeshNode, f (p.receiveReport n.report.1) = f p) :
    sumOf f (reportNode nodes i) + f n = sumOf f nodes := by
  have hchange := sumOf_modify (h := f) (g := fun n => n.report.2) hn
  rw [hpaid] at hchange
  rw [reportNode_eq hn hp, sumOf_modify_eq htaken]
  exact hchange

def Lossless (m : Mesh) : Prop := ∀ a b, m.delivery a b = .always

def claims (i : Nat) (nodes : Array MeshNode) : Nat := sumOf (claim i) nodes

theorem claims_reportNode (hn : nodes[i]? = some n) {parent : NodeId} (hp : n.parent = some parent)
    (j : Nat) : claims j (reportNode nodes i) + n.claim j = claims j nodes := by
  refine sumOf_reportNode hn hp ?_ fun p => ?_
  · have hsent : n.report.2.counters.sent = 0 := rfl
    simp only [claim, hsent, UInt32.toNat_zero, Nat.zero_min, ite_self]
  · obtain ⟨hkeeps, hcounters⟩ := receiveReport_report p n
    simp only [claim, hkeeps.parent_eq, hcounters, PacketCounters.addExpected]

/-- Each node received as much as its children reported and are going to report. -/
def Covered (nodes : Array MeshNode) : Prop :=
  ∀ i n, nodes[i]? = some n →
    min (n.counters.expected.toNat + claims i nodes) 0xffffffff ≤ n.counters.received.toNat

namespace Covered

theorem modify (h : Covered nodes) (hparent : ∀ n, (g n).parent = n.parent)
    (hsent : ∀ n, (g n).counters.sent = n.counters.sent)
    (hexpected : ∀ n, (g n).counters.expected = n.counters.expected)
    (hreceived : ∀ n, n.counters.received.toNat ≤ (g n).counters.received.toNat) :
    Covered (nodes.modify i g) := by
  intro j n hn
  obtain ⟨old, hold, rfl⟩ := exists_of_getElem?_modify hn
  have hclaims : claims j (nodes.modify i g) = claims j nodes :=
    sumOf_modify_eq fun n => by simp only [claim, hparent, hsent]
  have hcovered := h j old hold
  rw [hclaims]
  split
  · rw [hexpected]
    exact hcovered.trans (hreceived old)
  · exact hcovered

theorem receive (h : Covered nodes) (packets : Nat) :
    Covered (nodes.modify i fun n => n.receive packets) := by
  refine h.modify (fun _ => rfl) (fun _ => rfl) (fun _ => rfl) fun n => ?_
  have hafter : (n.receive packets).counters.received.toNat =
      min (n.counters.received.toNat + packets) 0xffffffff := toNat_saturate32 _
  have := n.counters.received.toNat_lt
  omega

/-- What a node sends to its parent without loss is received there before it is reported. -/
theorem sent (h : Covered nodes) (hn : nodes[i]? = some n) {parent : NodeId}
    (hp : n.parent = some parent) {d : Dispatch} (hd : d.toParent.arrived = d.toParent.sent) :
    Covered ((nodes.modify i fun n => n.afterDispatch d).modify parent.index fun n =>
      n.receive d.toParent.arrived) := by
  intro j m hm
  obtain ⟨moved, hmoved, hm⟩ := exists_of_getElem?_modify hm
  obtain ⟨old, hold, hmoved⟩ := exists_of_getElem?_modify hmoved
  have hexpected : m.counters.expected = old.counters.expected := by
    rw [hm, hmoved]
    split <;> split <;> rfl
  have hreceived : m.counters.received.toNat =
      if parent.index = j then min (old.counters.received.toNat + d.toParent.sent) 0xffffffff
      else old.counters.received.toNat := by
    have hsame : moved.counters.received = old.counters.received := by
      rw [hmoved]
      split <;> rfl
    rw [hm, ← hsame, ← hd]
    split
    · exact toNat_saturate32 _
    · rfl
  -- Receiving leaves the claims alone, and the sender claims on top what it sent.
  have hclaims : claims j ((nodes.modify i fun n => n.afterDispatch d).modify parent.index
      fun n => n.receive d.toParent.arrived) = claims j (nodes.modify i fun n => n.afterDispatch d) :=
    sumOf_modify_eq fun _ => rfl
  have hclaim : claims j (nodes.modify i fun n => n.afterDispatch d) + n.claim j =
      claims j nodes + (n.afterDispatch d).claim j := sumOf_modify hn
  have hafter : (n.afterDispatch d).counters.sent.toNat =
      min (n.counters.sent.toNat + d.toParent.sent) 0xffffffff := toNat_saturate32 _
  have hparent : (n.afterDispatch d).parent = some parent := hp
  have hcovered := h j old hold
  simp only [claim, hparent, hp, Option.map_some, Option.some.injEq] at hclaim
  rw [hclaims, hexpected, hreceived]
  split
  · next hj =>
    simp only [hj, if_true] at hclaim
    omega
  · next hj =>
    simp only [hj, if_false] at hclaim
    omega

/-- A report turns what was going to be reported into what is expected. -/
theorem reported (h : Covered nodes) (i : Nat) : Covered (reportNode nodes i) := by
  by_cases hparent : ∀ n, nodes[i]? = some n → n.parent = none
  · rw [reportNode_of_no_parent hparent]
    exact h
  · push Not at hparent
    obtain ⟨n, hn, hsome⟩ := hparent
    obtain ⟨parent, hp⟩ := Option.ne_none_iff_exists'.1 hsome
    intro j m hm
    -- The child claims nothing any more, and its parent expects at most that much more.
    have hclaims := claims_reportNode hn hp j
    rw [reportNode_eq hn hp] at hm
    obtain ⟨child, hchild, hm⟩ := exists_of_getElem?_modify hm
    obtain ⟨old, hold, hchild⟩ := exists_of_getElem?_modify hchild
    have hexpected : child.counters.expected = old.counters.expected := by
      rw [hchild]
      split <;> rfl
    have hreceived : child.counters.received = old.counters.received := by
      rw [hchild]
      split <;> rfl
    have hcovered := h j old hold
    rw [hm]
    split
    · next hj =>
      have hle := child.accepts_le n
      have hmine : n.claim j = min n.counters.sent.toNat 0xffff := by
        simp only [claim, hp, Option.map_some, hj, if_true]
      have hadded : (child.counters.addExpected (child.accepts n)).expected.toNat =
          min (child.counters.expected.toNat + child.accepts n) 0xffffffff := toNat_saturate32 _
      have hsame : (child.counters.addExpected (child.accepts n)).received =
          child.counters.received := rfl
      rw [(receiveReport_report child n).2, hadded, hsame, hexpected, hreceived]
      omega
    · rw [hexpected, hreceived]
      omega

theorem exchanged {m : Mesh} (h : Covered m.nodes) : Covered m.exchangeReports.nodes := by
  have hfold : ∀ (indices : List Nat) (nodes : Array MeshNode), Covered nodes →
      Covered (indices.foldl reportNode nodes) := by
    intro indices
    induction indices with
    | nil => exact fun _ h => h
    | cons index indices ih => exact fun nodes h => ih _ (h.reported index)
  exact hfold _ m.nodes h

end Covered

end Mesh

namespace Transit

open MeshNode Mesh

variable {t : Transit} {i : Nat} {n : MeshNode}

def dispatch (t : Transit) (n : MeshNode) (parent : NodeId) : Dispatch :=
  Dispatch.sendAll (t.mesh.delivery n.id) parent n.alternate n.load
    (.start t.mesh.random n.parentTurn)

theorem lossless_dispatch (hlinks : t.mesh.Lossless) (n : MeshNode) (parent : NodeId) :
    (t.dispatch n parent).Lossless :=
  (Dispatch.Lossless.start _ _).sendAll (hlinks n.id) parent n.alternate n.load

theorem moveNode_of_parent (hn : t.mesh.nodes[i]? = some n) (hs : n.sink = false) {parent : NodeId}
    (hp : n.parent = some parent) :
    (t.moveNode i).mesh.nodes = (t.dispatch n parent).arrive parent n.alternate
      (t.mesh.nodes.modify i fun m => m.afterDispatch (t.dispatch n parent)) := by
  unfold moveNode dispatch
  simp only [hn, hs, hp, Bool.false_eq_true, if_false]
  cases n.alternate <;> rfl

theorem links_moveNode (t : Transit) (i : Nat) : (t.moveNode i).mesh.links = t.mesh.links := by
  unfold moveNode
  split
  · rfl
  · split
    · rfl
    · split
      · rfl
      · dsimp only
        split <;> rfl

theorem moveNode_of_sink (hn : t.mesh.nodes[i]? = some n) (hs : n.sink = true) :
    (t.moveNode i).mesh.nodes = t.mesh.nodes.modify i absorb := by
  simp only [moveNode, hn, hs, if_true]
  rfl

theorem moveNode_of_detached (hn : t.mesh.nodes[i]? = some n) (hs : n.sink = false)
    (hp : n.parent = none) : (t.moveNode i).mesh.nodes = t.mesh.nodes.modify i loseAll := by
  simp only [moveNode, hn, hs, hp, Bool.false_eq_true, if_false]
  rfl

/-- What absorbing, losing all, sending and receiving do to a node is all that a move does. -/
theorem pointwise_moveNode {R : MeshNode → MeshNode → Prop} [IsPreorder MeshNode R]
    (habsorb : ∀ n, R n n.absorb) (hlose : ∀ n : MeshNode, n.parent = none → R n n.loseAll)
    (hreceive : ∀ (n : MeshNode) packets, R n (n.receive packets))
    (hsend : ∀ (n : MeshNode) d, n.parent ≠ none → (t.mesh.Lossless → d.Lossless) →
      R n (n.afterDispatch d)) (i : Nat) :
    Pointwise (fun _ => R) t.mesh.nodes (t.moveNode i).mesh.nodes := by
  cases hn : t.mesh.nodes[i]? with
  | none =>
    rw [moveNode_of_none hn]
    exact .refl _
  | some n =>
    cases hs : n.sink with
    | true =>
      rw [moveNode_of_sink hn hs]
      exact .modify habsorb
    | false =>
      cases hp : n.parent with
      | none =>
        rw [moveNode_of_detached hn hs hp, ← setIfInBounds_eq_modify hn]
        exact .set hn (hlose n hp)
      | some parent =>
        have hnodes := moveNode_of_parent hn hs hp
        have hlossless := fun hlinks : t.mesh.Lossless => lossless_dispatch hlinks n parent
        generalize t.dispatch n parent = d at hnodes hlossless
        have hsent : R n (n.afterDispatch d) := hsend n d (by rw [hp]; exact nofun) hlossless
        have hdispatch : Pointwise (fun _ => R) t.mesh.nodes
            (t.mesh.nodes.modify i fun n => n.afterDispatch d) := by
          rw [← setIfInBounds_eq_modify hn]
          exact .set hn hsent
        rw [hnodes]
        refine hdispatch.trans ?_
        unfold Dispatch.arrive
        cases n.alternate with
        | none => exact .modify fun n => hreceive n _
        | some a => exact (Pointwise.modify fun n => hreceive n _).trans (.modify fun n => hreceive n _)

theorem forwarded_moveNode (t : Transit) (i : Nat) :
    Pointwise (fun _ => Forwarded) t.mesh.nodes (t.moveNode i).mesh.nodes :=
  pointwise_moveNode (fun _ => ⟨⟨rfl, rfl, rfl, rfl, rfl⟩, rfl, fun _ => rfl⟩)
    (fun _ _ => ⟨⟨rfl, rfl, rfl, rfl, rfl⟩, rfl, fun _ => rfl⟩)
    (fun _ _ => ⟨⟨rfl, rfl, rfl, rfl, rfl⟩, rfl, fun _ => rfl⟩)
    (fun _ _ hp _ => ⟨⟨rfl, rfl, rfl, rfl, rfl⟩, rfl, fun hnone => absurd hnone hp⟩) i

theorem spares_moveNode (hlinks : t.mesh.Lossless) (i : Nat) :
    Pointwise (fun _ => Spares) t.mesh.nodes (t.moveNode i).mesh.nodes := by
  refine pointwise_moveNode (fun _ => ⟨rfl, fun _ => rfl⟩)
    (fun n hnone => ⟨rfl, fun hp => absurd hnone hp⟩) (fun _ _ => ⟨rfl, fun _ => rfl⟩)
    (fun n d _ hlossless => ⟨rfl, fun _ => ?_⟩) i
  change n.lost + d.lost = n.lost
  rw [(hlossless hlinks).lost_eq, Nat.add_zero]

theorem covered_moveNode (hlinks : t.mesh.Lossless) (h : Covered t.mesh.nodes) (i : Nat) :
    Covered (t.moveNode i).mesh.nodes := by
  cases hn : t.mesh.nodes[i]? with
  | none =>
    rw [moveNode_of_none hn]
    exact h
  | some n =>
    cases hs : n.sink with
    | true =>
      rw [moveNode_of_sink hn hs]
      exact h.modify (fun _ => rfl) (fun _ => rfl) (fun _ => rfl) fun _ => Nat.le_refl _
    | false =>
      cases hp : n.parent with
      | none =>
        rw [moveNode_of_detached hn hs hp]
        exact h.modify (fun _ => rfl) (fun _ => rfl) (fun _ => rfl) fun _ => Nat.le_refl _
      | some parent =>
        have hsent := h.sent hn hp (lossless_dispatch hlinks n parent).toParent
        rw [moveNode_of_parent hn hs hp]
        unfold Dispatch.arrive
        cases n.alternate with
        | none => exact hsent
        | some a => exact hsent.receive (t.dispatch n parent).toAlternate.arrived

theorem links_moveAll (t : Transit) (count : Nat) :
    (moveAll count t).mesh.links = t.mesh.links := by
  induction count generalizing t with
  | zero => rfl
  | succ count ih => exact (ih _).trans (links_moveNode t count)

theorem forwarded_moveAll (t : Transit) (count : Nat) :
    Pointwise (fun _ => Forwarded) t.mesh.nodes (moveAll count t).mesh.nodes :=
  pointwise_moveAll forwarded_moveNode t count

theorem lossless_moveNode (hlinks : t.mesh.Lossless) (i : Nat) : (t.moveNode i).mesh.Lossless := by
  intro a b
  rw [delivery, links_moveNode]
  exact hlinks a b

theorem spares_moveAll (hlinks : t.mesh.Lossless) (count : Nat) :
    Pointwise (fun _ => Spares) t.mesh.nodes (moveAll count t).mesh.nodes := by
  induction count generalizing t with
  | zero => exact .refl _
  | succ count ih => exact (spares_moveNode hlinks count).trans (ih (lossless_moveNode hlinks count))

theorem covered_moveAll (hlinks : t.mesh.Lossless) (h : Covered t.mesh.nodes) (count : Nat) :
    Covered (moveAll count t).mesh.nodes := by
  induction count generalizing t with
  | zero => exact h
  | succ count ih => exact ih (lossless_moveNode hlinks count) (covered_moveNode hlinks h count)

end Transit

namespace Mesh

open MeshNode

variable {m : Mesh} {nodes : Array MeshNode}

theorem keeps_reportNode (nodes : Array MeshNode) (index : Nat) :
    Pointwise (fun _ => Keeps) nodes (reportNode nodes index) :=
  pointwise_reportNode (fun _ _ => .report) (fun _ p n => (receiveReport_report p n).1) nodes index

theorem keeps_exchangeReports (m : Mesh) :
    Pointwise (fun _ => Keeps) m.nodes m.exchangeReports.nodes :=
  pointwise_reportNodes keeps_reportNode _ m.nodes

theorem sent_reportNode {index i : Nat} {n' : MeshNode}
    (hn' : (reportNode nodes index)[i]? = some n') : ∃ n, nodes[i]? = some n ∧
      n'.parent = n.parent ∧ (n'.counters.sent = 0 ∨
        n'.counters.sent = n.counters.sent ∧ (i = index → n.parent = none)) := by
  by_cases hnone : ∀ n, nodes[index]? = some n → n.parent = none
  · rw [reportNode_of_no_parent hnone] at hn'
    exact ⟨n', hn', rfl, .inr ⟨rfl, fun hi => hnone n' (hi ▸ hn')⟩⟩
  · push Not at hnone
    obtain ⟨node, hnode, hsome⟩ := hnone
    obtain ⟨parent, hp⟩ := Option.ne_none_iff_exists'.1 hsome
    rw [reportNode_eq hnode hp] at hn'
    obtain ⟨child, hchild, rfl⟩ := exists_of_getElem?_modify hn'
    obtain ⟨n, hn, rfl⟩ := exists_of_getElem?_modify hchild
    -- Taking a report in leaves the parent and what was sent alone.
    have htaken : ∀ p : MeshNode, (p.receiveReport node.report.1).parent = p.parent ∧
        (p.receiveReport node.report.1).counters.sent = p.counters.sent := by
      intro p
      obtain ⟨hkeeps, hcounters⟩ := receiveReport_report p node
      exact ⟨hkeeps.parent_eq, by rw [hcounters]; rfl⟩
    have hparent : (if index = i then n.report.2 else n).parent = n.parent := by split <;> rfl
    refine ⟨n, hn, ?_, ?_⟩
    · split
      · exact (htaken _).1.trans hparent
      · exact hparent
    · by_cases hi : index = i
      · left
        rw [if_pos hi]
        split
        · exact (htaken _).2
        · rfl
      · right
        rw [if_neg hi]
        refine ⟨?_, fun h => absurd h.symm hi⟩
        split
        · exact (htaken n).2
        · rfl

theorem sent_exchangeReports (h : ∀ n ∈ m.nodes, n.parent = none → n.counters.sent = 0) :
    ∀ n ∈ m.exchangeReports.nodes, n.counters.sent = 0 := by
  -- The induction: who has something left to report is among those whose turn is to come.
  have hfold : ∀ (indices : List Nat) (nodes : Array MeshNode),
      (∀ i n, nodes[i]? = some n → n.counters.sent = 0 ∨ n.parent ≠ none ∧ i ∈ indices) →
      ∀ n ∈ indices.foldl reportNode nodes, n.counters.sent = 0 := by
    intro indices
    induction indices with
    | nil =>
      intro nodes hnodes n hn
      obtain ⟨i, hi⟩ := Array.mem_iff_getElem?.1 hn
      exact (hnodes i n hi).resolve_right fun hmem => absurd hmem.2 List.not_mem_nil
    | cons index indices ih =>
      intro nodes hnodes
      apply ih
      intro i n' hn'
      obtain ⟨n, hn, hparent, hzero | ⟨hsame, hindex⟩⟩ := sent_reportNode hn'
      · exact .inl hzero
      · rcases hnodes i n hn with hzero | ⟨hp, hmem⟩
        · exact .inl (hsame.trans hzero)
        · rcases List.mem_cons.1 hmem with hi | hrest
          · exact absurd (hindex hi) hp
          · exact .inr ⟨hparent ▸ hp, hrest⟩
  apply hfold
  intro i n hn
  by_cases hp : n.parent = none
  · exact .inl (h n (Array.mem_of_getElem? hn) hp)
  · exact .inr ⟨hp, List.mem_range.2 (Array.getElem?_eq_some_iff.1 hn).1⟩

def reported (m : Mesh) : Mesh := (forward { m with steps := m.steps + 1 }).mesh.exchangeReports

theorem step_eq (m : Mesh) : m.step.1.ticks = m.reported.advertise.tick.1 ∧
    m.step.2 = m.reported.advertise.tick.2 := ⟨rfl, rfl⟩

theorem links_step (m : Mesh) : m.step.2.links = m.links :=
  Transit.links_moveAll ⟨{ m with steps := m.steps + 1 }, 0, 0⟩ m.nodes.size

theorem keeps_reported (m : Mesh) : Pointwise (fun _ => Keeps) m.nodes m.reported.nodes := by
  have hforward := Transit.forwarded_moveAll ⟨{ m with steps := m.steps + 1 }, 0, 0⟩ m.nodes.size
  exact (hforward.mono fun _ _ _ h => h.toKeeps).trans (keeps_exchangeReports _)

theorem sent_reported (h : ∀ n ∈ m.nodes, n.counters.sent = 0) :
    ∀ n ∈ m.reported.nodes, n.counters.sent = 0 := by
  apply sent_exchangeReports
  intro n' hn' hp
  obtain ⟨i, hi⟩ := Array.mem_iff_getElem?.1 hn'
  obtain ⟨n, hn, hforwarded⟩ :=
    (Transit.forwarded_moveAll ⟨{ m with steps := m.steps + 1 }, 0, 0⟩ m.nodes.size).2 i n' hi
  rw [hforwarded.sent_eq (hforwarded.parent_eq ▸ hp)]
  exact h n (Array.mem_of_getElem? hn)

/-- Without losses every node receives as many packets as are reported to it, counted from zero. -/
theorem expected_le_received (hlinks : m.Lossless) (h : ∀ n ∈ m.nodes, n.counters = .zero) :
    ∀ n ∈ m.reported.nodes, n.counters.expected ≤ n.counters.received := by
  -- Where nothing was counted yet there is nothing to cover.
  have hcovered : Covered m.nodes := by
    intro i n hn
    have hclaims : claims i m.nodes = 0 := by
      apply List.sum_eq_zero
      intro x hx
      obtain ⟨n, hn, rfl⟩ := List.mem_map.1 hx
      simp only [claim, h n (Array.mem_toList_iff.1 hn)]
      split <;> rfl
    rw [hclaims, h n (Array.mem_of_getElem? hn)]
    exact Nat.zero_le _
  have hmoved : Covered m.reported.nodes :=
    (Transit.covered_moveAll (t := ⟨{ m with steps := m.steps + 1 }, 0, 0⟩) hlinks hcovered
      m.nodes.size).exchanged
  intro n hn
  obtain ⟨i, hi⟩ := Array.mem_iff_getElem?.1 hn
  have hle := hmoved i n hi
  have := n.counters.expected.toNat_lt
  rw [UInt32.le_iff_toNat_le]
  omega

theorem lost_step (hlinks : m.Lossless) {i : Nat} {n' : MeshNode}
    (hn' : m.step.2.nodes[i]? = some n') :
    ∃ n, m.nodes[i]? = some n ∧ (n.parent ≠ none → n'.lost = n.lost) := by
  obtain ⟨moved, hmoved, hrests⟩ := (rests_step m).2 i n' hn'
  obtain ⟨n, hn, hspares⟩ := (Transit.spares_moveAll
    (t := ⟨{ m with steps := m.steps + 1 }, 0, 0⟩) hlinks m.nodes.size).2 i moved hmoved
  exact ⟨n, hn, fun hp => (congrArg PacketAccount.lost hrests.account_eq).trans (hspares.lost_eq hp)⟩

end Mesh

end CongestionRouting
