import CongestionRouting.Mesh.Stats
import CongestionRouting.Proofs.Mesh.Account

namespace CongestionRouting

namespace Dispatch

section Send

variable (link : NodeId → Delivery) (parent : NodeId) (alternate : Option NodeId) (d : Dispatch)

@[simp]
theorem random_nextHop : (d.nextHop parent alternate).2.random = d.random := by
  cases alternate <;> rfl

@[simp]
theorem toParent_nextHop : (d.nextHop parent alternate).2.toParent = d.toParent := by
  cases alternate <;> rfl

@[simp]
theorem toAlternate_nextHop : (d.nextHop parent alternate).2.toAlternate = d.toAlternate := by
  cases alternate <;> rfl

theorem toParent_send : (d.send link parent alternate).toParent =
    if (d.nextHop parent alternate).1 = parent then
      d.toParent.add ((link (d.nextHop parent alternate).1).deliver d.random).1
    else d.toParent := by
  simp only [send, apply_ite Dispatch.toParent, toParent_nextHop, random_nextHop]

theorem toAlternate_send : (d.send link parent alternate).toAlternate =
    if (d.nextHop parent alternate).1 = parent then d.toAlternate
    else d.toAlternate.add ((link (d.nextHop parent alternate).1).deliver d.random).1 := by
  simp only [send, apply_ite Dispatch.toAlternate, toAlternate_nextHop, random_nextHop]

theorem parentTurn_send :
    (d.send link parent alternate).parentTurn = (d.nextHop parent alternate).2.parentTurn := by
  simp only [send, apply_ite Dispatch.parentTurn, ite_self]

end Send

/-- So many packets were sent, and at most as many arrived on each link. -/
structure Carries (alternate : Option NodeId) (packets : Nat) (d : Dispatch) : Prop where
  sent_eq : d.sent = packets
  parent_le : d.toParent.arrived ≤ d.toParent.sent
  alternate_le : d.toAlternate.arrived ≤ d.toAlternate.sent
  toAlternate_eq : alternate = none → d.toAlternate = .zero

variable {alternate : Option NodeId} {packets : Nat} {d : Dispatch}

theorem Carries.start (random : ChaCha) (parentTurn : Bool) :
    (Dispatch.start random parentTurn).Carries alternate 0 :=
  ⟨rfl, Nat.le_refl 0, Nat.le_refl 0, fun _ => rfl⟩

theorem arrived_add_le {l : HopLoad} (hl : l.arrived ≤ l.sent) (arrived : Bool) :
    (l.add arrived).arrived ≤ (l.add arrived).sent := by
  have hle := Bool.toNat_le arrived
  simp only [HopLoad.add]
  omega

theorem Carries.send (hd : d.Carries alternate packets) (link : NodeId → Delivery) (parent : NodeId) :
    (d.send link parent alternate).Carries alternate (packets + 1) := by
  obtain ⟨hsent, hparent, halternate, hnone⟩ := hd
  simp only [sent] at hsent
  refine ⟨?_, ?_, ?_, ?_⟩
  · simp only [sent, toParent_send, toAlternate_send]
    split <;>
    · simp only [HopLoad.add]
      omega
  · rw [toParent_send]
    split
    · exact arrived_add_le hparent _
    · exact hparent
  · rw [toAlternate_send]
    split
    · exact halternate
    · exact arrived_add_le halternate _
  · rintro rfl
    rw [toAlternate_send]
    exact (if_pos rfl).trans (hnone rfl)

theorem Carries.sendAll (hd : d.Carries alternate packets) (link : NodeId → Delivery)
    (parent : NodeId) (count : Nat) :
    (Dispatch.sendAll link parent alternate count d).Carries alternate (packets + count) := by
  induction count generalizing packets d with
  | zero => exact hd
  | succ count ih =>
    have hrest := ih (hd.send link parent)
    rwa [Nat.add_right_comm] at hrest

theorem Carries.balance (hd : d.Carries alternate packets) :
    d.toParent.arrived + d.toAlternate.arrived + d.lost = packets := by
  obtain ⟨hsent, hparent, halternate, -⟩ := hd
  simp only [sent] at hsent
  simp only [lost, HopLoad.lost]
  omega

end Dispatch

namespace MeshNode

variable {i : Nat} {n : MeshNode}

theorem Follows.absorb : n.Follows i n.absorb := ⟨fun hn => hn.congr rfl rfl rfl, rfl⟩

theorem Follows.loseAll : n.Follows i n.loseAll := ⟨fun hn => hn.congr rfl rfl rfl, rfl⟩

theorem Follows.afterDispatch (d : Dispatch) : n.Follows i (n.afterDispatch d) :=
  ⟨fun hn => hn.congr rfl rfl rfl, rfl⟩

theorem Follows.receive (packets : Nat) : n.Follows i (n.receive packets) :=
  ⟨fun hn => hn.congr rfl rfl rfl, rfl⟩

end MeshNode

def Descending (nodes : Array MeshNode) : Prop :=
  ∀ (i : Nat) (n : MeshNode), nodes[i]? = some n → n.Descends i

theorem Descending.of_follows {nodes nodes' : Array MeshNode} (hd : Descending nodes)
    (h : Pointwise MeshNode.Follows nodes nodes') : Descending nodes' := by
  intro i n' hn'
  obtain ⟨n, hn, hf⟩ := h.2 i n' hn'
  exact hf.descends (hd i n hn)

/-- No packet waits at an index from a certain one on. -/
def EmptyFrom (count : Nat) (nodes : Array MeshNode) : Prop :=
  ∀ (i : Nat) (n : MeshNode), count ≤ i → nodes[i]? = some n → n.inbox = 0

namespace EmptyFrom

variable {count i : Nat} {nodes : Array MeshNode} {f : MeshNode → MeshNode}

theorem modify_of_lt (h : EmptyFrom count nodes) (hi : i < count) :
    EmptyFrom count (nodes.modify i f) := by
  intro j n hle hn
  rw [Array.getElem?_modify, if_neg (by omega)] at hn
  exact h j n hle hn

theorem modify_self (h : EmptyFrom (count + 1) nodes) (hf : ∀ n, (f n).inbox = 0) :
    EmptyFrom count (nodes.modify count f) := by
  intro j n hle hn
  rw [Array.getElem?_modify] at hn
  split at hn
  · obtain ⟨old, -, rfl⟩ := Option.map_eq_some_iff.1 hn
    exact hf old
  · exact h j n (by omega) hn

end EmptyFrom

namespace Dispatch

def arrive (parent : NodeId) (alternate : Option NodeId) (d : Dispatch) (nodes : Array MeshNode) :
    Array MeshNode :=
  let nodes := nodes.modify parent.index fun n => n.receive d.toParent.arrived
  match alternate with
  | none => nodes
  | some a => nodes.modify a.index fun n => n.receive d.toAlternate.arrived

end Dispatch

namespace Transit

open MeshNode Mesh PacketAccount

variable {t t' t'' : Transit} {i count fresh fresh' : Nat} {n : MeshNode}

/-- What a move does to a node and to those it sends to. -/
inductive Moved (t : Transit) (i : Nat) (n : MeshNode) (t' : Transit) : Prop where
  | absorbed (sink : n.sink = true) (nodes_eq : t'.mesh.nodes = t.mesh.nodes.modify i absorb)
      (delivered_eq : t'.delivered = t.delivered + n.inbox.toNat) (lost_eq : t'.lost = t.lost)
  | detached (sink : n.sink = false) (nodes_eq : t'.mesh.nodes = t.mesh.nodes.modify i loseAll)
      (delivered_eq : t'.delivered = t.delivered) (lost_eq : t'.lost = t.lost + n.load)
  | sent (sink : n.sink = false) (parent : NodeId) (parent_eq : n.parent = some parent)
      (d : Dispatch) (carries : d.Carries n.alternate n.load)
      (nodes_eq : t'.mesh.nodes =
        d.arrive parent n.alternate (t.mesh.nodes.modify i fun n => n.afterDispatch d))
      (delivered_eq : t'.delivered = t.delivered) (lost_eq : t'.lost = t.lost + d.lost)

theorem moved_moveNode (hn : t.mesh.nodes[i]? = some n) : t.Moved i n (t.moveNode i) := by
  unfold moveNode
  simp only [hn]
  cases hs : n.sink with
  | true => exact .absorbed hs rfl rfl rfl
  | false =>
    simp only [Bool.false_eq_true, if_false]
    cases hp : n.parent with
    | none => exact .detached hs rfl rfl rfl
    | some parent =>
      dsimp only
      have hcarries : (Dispatch.sendAll (t.mesh.delivery n.id) parent n.alternate n.load
          (.start t.mesh.random n.parentTurn)).Carries n.alternate (0 + n.load) :=
        (Dispatch.Carries.start _ _).sendAll _ _ _
      rw [Nat.zero_add] at hcarries
      refine .sent hs parent hp _ hcarries ?_ ?_ ?_ <;> cases n.alternate <;> rfl

theorem moveNode_of_none (hn : t.mesh.nodes[i]? = none) : t.moveNode i = t := by
  simp only [moveNode, hn]

theorem follows_arrive (parent : NodeId) (alternate : Option NodeId) (d : Dispatch)
    (nodes : Array MeshNode) : Pointwise Follows nodes (d.arrive parent alternate nodes) := by
  have hparent : Pointwise Follows nodes
      (nodes.modify parent.index fun n => n.receive d.toParent.arrived) :=
    .modify fun _ => .receive _
  unfold Dispatch.arrive
  cases alternate with
  | none => exact hparent
  | some a => exact hparent.trans (.modify fun _ => .receive _)

theorem follows_moveNode (t : Transit) (i : Nat) :
    Pointwise Follows t.mesh.nodes (t.moveNode i).mesh.nodes := by
  cases hn : t.mesh.nodes[i]? with
  | none =>
    rw [moveNode_of_none hn]
    exact .refl _
  | some n =>
    cases moved_moveNode hn with
    | absorbed _ hnodes =>
      rw [hnodes]
      exact .modify fun _ => .absorb
    | detached _ hnodes =>
      rw [hnodes]
      exact .modify fun _ => .loseAll
    | sent _ parent _ d _ hnodes =>
      rw [hnodes]
      exact (Pointwise.modify fun _ => .afterDispatch d).trans (follows_arrive parent _ d _)

theorem pointwise_moveAll {R : Nat → MeshNode → MeshNode → Prop} [∀ i, IsPreorder MeshNode (R i)]
    (hmove : ∀ (t : Transit) (i : Nat), Pointwise R t.mesh.nodes (t.moveNode i).mesh.nodes)
    (t : Transit) (count : Nat) : Pointwise R t.mesh.nodes (moveAll count t).mesh.nodes := by
  induction count generalizing t with
  | zero => exact .refl _
  | succ count ih => exact (hmove t count).trans (ih _)

theorem follows_moveAll (t : Transit) (count : Nat) :
    Pointwise Follows t.mesh.nodes (moveAll count t).mesh.nodes :=
  pointwise_moveAll follows_moveNode t count

/-- After its turn nothing waits at a node, nor at those that had theirs before. -/
theorem emptyFrom_moveNode (hd : Descending t.mesh.nodes)
    (h : EmptyFrom (count + 1) t.mesh.nodes) : EmptyFrom count (t.moveNode count).mesh.nodes := by
  cases hn : t.mesh.nodes[count]? with
  | none =>
    rw [moveNode_of_none hn]
    intro i n hle hi
    rcases Nat.eq_or_lt_of_le hle with rfl | hlt
    · exact absurd (hn.symm.trans hi) nofun
    · exact h i n hlt hi
  | some n =>
    have hn' := hd count n hn
    cases moved_moveNode hn with
    | absorbed _ hnodes =>
      rw [hnodes]
      exact h.modify_self fun _ => rfl
    | detached _ hnodes =>
      rw [hnodes]
      exact h.modify_self fun _ => rfl
    | sent _ parent hparent d _ hnodes =>
      rw [hnodes]
      -- Those that receive are older: their turn is still to come.
      have hsent := h.modify_self (f := fun n => n.afterDispatch d) fun _ => rfl
      have harrived := hsent.modify_of_lt (f := fun n => n.receive d.toParent.arrived)
        (hn'.parent_lt parent hparent)
      unfold Dispatch.arrive
      cases ha : n.alternate with
      | none => exact harrived
      | some a => exact harrived.modify_of_lt (hn'.alternate_lt ha)

/-- Between two moments so many packets came into play, and each packet is still waiting, or was
delivered or lost and counted as such by a node. -/
structure Conserves (t t' : Transit) (fresh : Nat) : Prop where
  balance : t'.delivered + t'.lost + total waiting t'.mesh.nodes =
    t.delivered + t.lost + total waiting t.mesh.nodes + fresh
  waiting_le : total waiting t'.mesh.nodes ≤ total waiting t.mesh.nodes + fresh
  originated_eq : total originated t'.mesh.nodes = total originated t.mesh.nodes + fresh
  received_eq : total received t'.mesh.nodes + t.delivered =
    total received t.mesh.nodes + t'.delivered
  lost_eq : total PacketAccount.lost t'.mesh.nodes + t.lost =
    total PacketAccount.lost t.mesh.nodes + t'.lost

theorem Conserves.refl : Conserves t t 0 :=
  ⟨rfl, Nat.le_refl _, rfl, rfl, rfl⟩

theorem Conserves.trans (h : Conserves t t' fresh) (h' : Conserves t' t'' fresh') :
    Conserves t t'' (fresh + fresh') := by
  obtain ⟨hbalance, hwaiting, horiginated, hreceived, hlost⟩ := h
  obtain ⟨hbalance', hwaiting', horiginated', hreceived', hlost'⟩ := h'
  constructor <;> omega

theorem total_waiting_receive {nodes : Array MeshNode} (packets : Nat) (hi : i < nodes.size)
    (hroom : total waiting nodes + packets ≤ 0xffffffff) :
    total waiting (nodes.modify i fun n => n.receive packets) = total waiting nodes + packets := by
  have hn := Array.getElem?_eq_getElem hi
  have hle : nodes[i].inbox.toNat ≤ total waiting nodes := le_total (f := waiting) hn
  have hchange := total_modify (f := waiting) (g := fun n => n.receive packets) hn
  have hafter : (nodes[i].receive packets).account.waiting =
      min (nodes[i].inbox.toNat + packets) 0xffffffff := toNat_saturate32 _
  have hbefore : nodes[i].account.waiting = nodes[i].inbox.toNat := rfl
  omega

theorem total_waiting_arrive {nodes : Array MeshNode} {parent : NodeId} {alternate : Option NodeId}
    {d : Dispatch} (hparent : parent.index < nodes.size)
    (halternate : ∀ a, alternate = some a → a.index < nodes.size)
    (hnone : alternate = none → d.toAlternate.arrived = 0)
    (hroom : total waiting nodes + (d.toParent.arrived + d.toAlternate.arrived) ≤ 0xffffffff) :
    total waiting (d.arrive parent alternate nodes) =
      total waiting nodes + (d.toParent.arrived + d.toAlternate.arrived) := by
  have harrived := total_waiting_receive d.toParent.arrived hparent (by omega)
  unfold Dispatch.arrive
  cases alternate with
  | none =>
    rw [hnone rfl, Nat.add_zero]
    exact harrived
  | some a =>
    have ha : a.index < (nodes.modify parent.index fun n => n.receive d.toParent.arrived).size := by
      rw [Array.size_modify]
      exact halternate a rfl
    rw [total_waiting_receive _ ha (by omega), harrived, Nat.add_assoc]

/-- Packets that arrive change no other figure than those waiting. -/
theorem total_arrive_eq {f : PacketAccount → Nat}
    (hf : ∀ n packets, f (receive n packets).account = f n.account) (parent : NodeId)
    (alternate : Option NodeId) (d : Dispatch) (nodes : Array MeshNode) :
    total f (d.arrive parent alternate nodes) = total f nodes := by
  have hparent : total f (nodes.modify parent.index fun n => n.receive d.toParent.arrived) =
      total f nodes := total_modify_eq fun n => hf n _
  unfold Dispatch.arrive
  cases alternate with
  | none => exact hparent
  | some a => exact (total_modify_eq fun n => hf n _).trans hparent

theorem offered_of_sink (hs : n.sink = true) : n.account.offered = 0 := if_pos hs

theorem offered_of_not_sink (hs : n.sink = false) : n.account.offered = n.traffic.toNat :=
  if_neg (by simp only [account, hs, Bool.false_eq_true, not_false_eq_true])

theorem totals_modify {nodes nodes' : Array MeshNode} {g : MeshNode → MeshNode}
    (hn : nodes[i]? = some n) (hnodes : nodes' = nodes.modify i g) :
    total waiting nodes' + n.inbox.toNat = total waiting nodes + (g n).inbox.toNat ∧
      total originated nodes' + n.originated = total originated nodes + (g n).originated ∧
      total received nodes' + n.received = total received nodes + (g n).received ∧
      total PacketAccount.lost nodes' + n.lost = total PacketAccount.lost nodes + (g n).lost := by
  subst hnodes
  exact ⟨total_modify hn, total_modify hn, total_modify hn, total_modify hn⟩

theorem load_eq (hn : t.mesh.nodes[i]? = some n) (hs : n.sink = false)
    (hroom : total waiting t.mesh.nodes + n.account.offered ≤ 0xffffffff) :
    n.load = n.account.offered + n.inbox.toNat := by
  have hle : n.inbox.toNat ≤ total waiting t.mesh.nodes := le_total (f := waiting) hn
  rw [offered_of_not_sink hs] at hroom ⊢
  rw [load, toNat_saturate32]
  omega

/-- When it is its turn, a node brings in what it offers, and no packet escapes the count. -/
theorem conserves_moveNode (hn : t.mesh.nodes[i]? = some n) (hd : n.Descends i)
    (hroom : total waiting t.mesh.nodes + n.account.offered ≤ 0xffffffff) :
    Conserves t (t.moveNode i) n.account.offered := by
  cases moved_moveNode hn with
  | absorbed hs hnodes hdelivered hlost =>
    obtain ⟨hw, ho, hr, hl⟩ := totals_modify hn hnodes
    have hoffered := offered_of_sink hs
    simp only [absorb, UInt32.toNat_zero] at hw ho hr hl
    constructor <;> omega
  | detached hs hnodes hdelivered hlost =>
    obtain ⟨hw, ho, hr, hl⟩ := totals_modify hn hnodes
    have hload := load_eq hn hs hroom
    have hoffered := offered_of_not_sink hs
    simp only [loseAll, UInt32.toNat_zero] at hw ho hr hl
    constructor <;> omega
  | sent hs parent hparent d hcarries hnodes hdelivered hlost =>
    have hload := load_eq hn hs hroom
    have hoffered := offered_of_not_sink hs
    have hbalance := hcarries.balance
    have hi : i < t.mesh.nodes.size := (Array.getElem?_eq_some_iff.1 hn).1
    generalize hsent : t.mesh.nodes.modify i (fun n => n.afterDispatch d) = nodes at hnodes
    have hsize : nodes.size = t.mesh.nodes.size := by rw [← hsent, Array.size_modify]
    obtain ⟨hw, ho, hr, hl⟩ := totals_modify hn hsent.symm
    simp only [afterDispatch, UInt32.toNat_zero] at hw ho hr hl
    have hwaiting : total waiting (t.moveNode i).mesh.nodes =
        total waiting nodes + (d.toParent.arrived + d.toAlternate.arrived) := by
      rw [hnodes]
      apply total_waiting_arrive
      · have hlt := hd.parent_lt parent hparent
        omega
      · intro a ha
        have hlt := hd.alternate_lt ha
        omega
      · intro hnone
        rw [hcarries.toAlternate_eq hnone, HopLoad.zero]
      · -- What arrives was offered or waiting here, so that no inbox overflows.
        omega
    have harrived : ∀ f : PacketAccount → Nat,
        (∀ n packets, f (receive n packets).account = f n.account) →
          total f (t.moveNode i).mesh.nodes = total f nodes := by
      intro f hf
      rw [hnodes]
      exact total_arrive_eq hf parent _ d nodes
    have horiginated := harrived originated fun _ _ => rfl
    have hreceived := harrived received fun _ _ => rfl
    have hlost' := harrived PacketAccount.lost fun _ _ => rfl
    constructor <;> omega

def offers (nodes : Array MeshNode) : List Nat := nodes.toList.map fun n => n.account.offered

theorem offers_eq {nodes nodes' : Array MeshNode} (h : Pointwise Follows nodes nodes') :
    offers nodes' = offers nodes := h.map_eq fun _ _ _ hf => hf.offered_eq

theorem conserves_moveAll (hd : Descending t.mesh.nodes) (hempty : EmptyFrom count t.mesh.nodes)
    (hroom : total waiting t.mesh.nodes + ((offers t.mesh.nodes).take count).sum ≤ 0xffffffff) :
    Conserves t (moveAll count t) ((offers t.mesh.nodes).take count).sum ∧
      EmptyFrom 0 (moveAll count t).mesh.nodes := by
  induction count generalizing t with
  | zero => exact ⟨.refl, hempty⟩
  | succ count ih =>
    have hfollow := follows_moveNode t count
    have hmove : ∃ fresh, ((offers t.mesh.nodes).take (count + 1)).sum =
        fresh + ((offers t.mesh.nodes).take count).sum ∧ Conserves t (t.moveNode count) fresh := by
      rw [List.take_add_one, List.sum_append, Nat.add_comm] at hroom ⊢
      cases hn : t.mesh.nodes[count]? with
      | none =>
        refine ⟨0, by simp [offers, hn], ?_⟩
        rw [moveNode_of_none hn]
        exact .refl
      | some n =>
        have hone : ((offers t.mesh.nodes)[count]?).toList.sum = n.account.offered := by
          simp [offers, hn]
        exact ⟨n.account.offered, by rw [hone], conserves_moveNode hn (hd count n hn) (by omega)⟩
    obtain ⟨fresh, hsum, hmove⟩ := hmove
    -- What waits now had room before, so the nodes that follow have as much room as they need.
    have hle := hmove.waiting_le
    obtain ⟨hrest, hdone⟩ := ih (hd.of_follows hfollow) (emptyFrom_moveNode hd hempty)
      (by rw [offers_eq hfollow]; omega)
    rw [offers_eq hfollow] at hrest
    exact ⟨hsum ▸ hmove.trans hrest, hdone⟩

end Transit

end CongestionRouting
