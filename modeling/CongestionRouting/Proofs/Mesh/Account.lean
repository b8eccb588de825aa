import CongestionRouting.Proofs.Mesh.Descent
import Mathlib

namespace CongestionRouting

/-- What a node is to send, holds and has counted of the packets. -/
structure PacketAccount where
  sink : Bool
  traffic : UInt32
  inbox : UInt32
  originated : Nat
  received : Nat
  lost : Nat

namespace PacketAccount

/-- The packets that the node brings into each interval. A sink has none of its own. -/
def offered (a : PacketAccount) : Nat := if a.sink then 0 else a.traffic.toNat

def waiting (a : PacketAccount) : Nat := a.inbox.toNat

end PacketAccount

namespace MeshNode

def account (n : MeshNode) : PacketAccount :=
  ⟨n.sink, n.traffic, n.inbox, n.originated, n.received, n.lost⟩

/-- The node still sends to older ones if it did, and brings as much into an interval. -/
structure Follows (i : Nat) (n n' : MeshNode) : Prop where
  descends : n.Descends i → n'.Descends i
  offered_eq : n'.account.offered = n.account.offered

/-- The node follows, and no packet of it moved. -/
structure Rests (i : Nat) (n n' : MeshNode) : Prop where
  descends : n.Descends i → n'.Descends i
  account_eq : n'.account = n.account

variable {i : Nat} {n n' : MeshNode}

instance (i : Nat) : IsPreorder MeshNode (Follows i) where
  refl _ := ⟨fun hn => hn, rfl⟩
  trans _ _ _ h h' := ⟨h'.descends ∘ h.descends, h'.offered_eq.trans h.offered_eq⟩

instance (i : Nat) : IsPreorder MeshNode (Rests i) where
  refl _ := ⟨fun hn => hn, rfl⟩
  trans _ _ _ h h' := ⟨h'.descends ∘ h.descends, h'.account_eq.trans h.account_eq⟩

theorem Rests.follows (h : Rests i n n') : Follows i n n' :=
  ⟨h.descends, congrArg PacketAccount.offered h.account_eq⟩

theorem Rests.meet {address : Address} (hmet : n.meet address = .ok n') : n.Rests i n' := by
  refine ⟨fun hn => hn.meet hmet, ?_⟩
  obtain ⟨handle, table, -, rfl⟩ := meet_eq_ok hmet
  rfl

theorem Rests.evict {neighbor : NodeId} {withdrawn : Bool}
    (he : n.evict neighbor = some (withdrawn, n')) : n.Rests i n' := by
  refine ⟨fun hn => hn.evict he, ?_⟩
  obtain ⟨h, -, heq⟩ := Option.map_eq_some_iff.1 he
  injection heq with _ heq
  exact heq ▸ rfl

theorem Rests.report : n.Rests i n.report.2 := ⟨fun hn => hn.congr rfl rfl rfl, rfl⟩

theorem Rests.receiveReport (message : List UInt8) : n.Rests i (n.receiveReport message) :=
  ⟨fun hn => hn.receiveReport message, rfl⟩

theorem Rests.advertise : n.Rests i n.advertise.2 := ⟨fun hn => hn.congr rfl rfl rfl, rfl⟩

theorem Rests.hear (sender : Address) : n.Rests i (n.hear sender) := by
  refine ⟨fun hn => hn.hear sender, ?_⟩
  unfold MeshNode.hear
  split <;> rfl

/-- What hearing one sender does, hearing all of them does. -/
theorem hearAll_of_hear {R : MeshNode → MeshNode → Prop} [IsPreorder MeshNode R]
    (hhear : ∀ n sender, R n (MeshNode.hear n sender)) (senders : List Address) (n : MeshNode) :
    R n (senders.foldl MeshNode.hear n) := by
  induction senders generalizing n with
  | nil => exact refl_of R n
  | cons sender senders ih => exact trans_of R (hhear n sender) (ih _)

theorem Rests.tick : n.Rests i n.tick.2 := ⟨fun hn => hn.tick, rfl⟩

end MeshNode

/-- Each node of the new mesh is an old one at the same index, and related to it. -/
def Pointwise (R : Nat → MeshNode → MeshNode → Prop) (nodes nodes' : Array MeshNode) : Prop :=
  nodes'.size = nodes.size ∧
    ∀ i n', nodes'[i]? = some n' → ∃ n, nodes[i]? = some n ∧ R i n n'

namespace Pointwise

variable {R S : Nat → MeshNode → MeshNode → Prop} {nodes nodes' nodes'' : Array MeshNode}

theorem mono (himp : ∀ i n n', R i n n' → S i n n') (h : Pointwise R nodes nodes') :
    Pointwise S nodes nodes' := by
  refine ⟨h.1, fun i n' hn' => ?_⟩
  obtain ⟨n, hn, hr⟩ := h.2 i n' hn'
  exact ⟨n, hn, himp i n n' hr⟩

theorem map {f : MeshNode → MeshNode} (hf : ∀ i n, R i n (f n)) :
    Pointwise R nodes (nodes.map f) := by
  refine ⟨Array.size_map, fun i n' hn' => ?_⟩
  rw [Array.getElem?_map] at hn'
  obtain ⟨n, hn, rfl⟩ := Option.map_eq_some_iff.1 hn'
  exact ⟨n, hn, hf i n⟩

theorem map_eq {β : Type} {g g' : MeshNode → β} (h : Pointwise R nodes nodes')
    (hg : ∀ i n n', R i n n' → g' n' = g n) : nodes'.toList.map g' = nodes.toList.map g := by
  apply List.ext_getElem?
  intro i
  simp only [List.getElem?_map, Array.getElem?_toList]
  cases hn' : nodes'[i]? with
  | none =>
    rw [Array.getElem?_eq_none_iff, h.1, ← Array.getElem?_eq_none_iff] at hn'
    rw [hn', Option.map_none, Option.map_none]
  | some n' =>
    obtain ⟨n, hn, hr⟩ := h.2 i n' hn'
    rw [hn, Option.map_some, Option.map_some, hg i n n' hr]

theorem comp {T : Nat → MeshNode → MeshNode → Prop} (h : Pointwise R nodes nodes')
    (h' : Pointwise S nodes' nodes'') (hcomp : ∀ i n n' n'', R i n n' → S i n' n'' → T i n n'') :
    Pointwise T nodes nodes'' := by
  refine ⟨h'.1.trans h.1, fun i n'' hn'' => ?_⟩
  obtain ⟨n', hn', hs⟩ := h'.2 i n'' hn''
  obtain ⟨n, hn, hr⟩ := h.2 i n' hn'
  exact ⟨n, hn, hcomp i n n' n'' hr hs⟩

variable [∀ i, IsPreorder MeshNode (R i)]

theorem refl (nodes : Array MeshNode) : Pointwise R nodes nodes :=
  ⟨rfl, fun i n hn => ⟨n, hn, refl_of (R i) n⟩⟩

theorem trans (h : Pointwise R nodes nodes') (h' : Pointwise R nodes' nodes'') :
    Pointwise R nodes nodes'' := h.comp h' fun i _ _ _ hr hr' => trans_of (R i) hr hr'

theorem modify {i : Nat} {f : MeshNode → MeshNode} (hf : ∀ n, R i n (f n)) :
    Pointwise R nodes (nodes.modify i f) := by
  refine ⟨Array.size_modify, fun j n' hn' => ?_⟩
  rw [Array.getElem?_modify] at hn'
  split at hn'
  · next hij =>
    obtain ⟨n, hn, rfl⟩ := Option.map_eq_some_iff.1 hn'
    exact ⟨n, hn, hij ▸ hf n⟩
  · exact ⟨n', hn', refl_of (R j) n'⟩

theorem set {i : Nat} {n n' : MeshNode} (hn : nodes[i]? = some n) (hr : R i n n') :
    Pointwise R nodes (nodes.setIfInBounds i n') := by
  refine ⟨Array.size_setIfInBounds, fun j m hm => ?_⟩
  rw [Array.getElem?_setIfInBounds] at hm
  split at hm
  · next hij =>
    subst hij
    split at hm
    · injection hm with hm
      exact ⟨n, hn, hm ▸ hr⟩
    · exact absurd hm nofun
  · exact ⟨m, hm, refl_of (R j) m⟩

end Pointwise

namespace Mesh

def sumOf (g : MeshNode → Nat) (nodes : Array MeshNode) : Nat := (nodes.toList.map g).sum

def total (f : PacketAccount → Nat) (nodes : Array MeshNode) : Nat :=
  (nodes.toList.map fun n => f n.account).sum

def offered (m : Mesh) : Nat := total PacketAccount.offered m.nodes

def originated (m : Mesh) : Nat := total PacketAccount.originated m.nodes

variable {f : PacketAccount → Nat} {nodes nodes' : Array MeshNode} {i : Nat} {n : MeshNode}
  {g : MeshNode → MeshNode}

theorem total_eq_of_rests (h : Pointwise MeshNode.Rests nodes nodes') :
    total f nodes' = total f nodes :=
  congrArg List.sum (h.map_eq fun _ _ _ hr => congrArg f hr.account_eq)

theorem sumOf_modify {h : MeshNode → Nat} (hn : nodes[i]? = some n) :
    sumOf h (nodes.modify i g) + h n = sumOf h nodes + h (g n) := by
  unfold sumOf
  rw [Array.toList_modify]
  rw [← Array.getElem?_toList] at hn
  -- An induction on the list behind the array: the node is its head or stands further on.
  generalize nodes.toList = ns at hn
  induction ns generalizing i with
  | nil => exact absurd hn nofun
  | cons m ns ih =>
    cases i with
    | zero =>
      injection hn with hn
      subst hn
      simp only [List.modify_zero_cons, List.map_cons, List.sum_cons]
      omega
    | succ i =>
      have hrest := ih hn
      simp only [List.modify_succ_cons, List.map_cons, List.sum_cons]
      omega

theorem sumOf_modify_eq {h : MeshNode → Nat} (hg : ∀ n, h (g n) = h n) :
    sumOf h (nodes.modify i g) = sumOf h nodes := by
  cases hn : nodes[i]? with
  | none =>
    have hi : nodes.toList.length ≤ i := Array.getElem?_eq_none_iff.1 hn
    rw [sumOf, Array.toList_modify, List.modify_eq_self hi, sumOf]
  | some n =>
    have hchange := sumOf_modify (h := h) (g := g) hn
    rw [hg n] at hchange
    omega

theorem total_modify (hn : nodes[i]? = some n) :
    total f (nodes.modify i g) + f n.account = total f nodes + f (g n).account :=
  sumOf_modify (h := fun n => f n.account) hn

theorem total_modify_eq (hg : ∀ n, f (g n).account = f n.account) :
    total f (nodes.modify i g) = total f nodes :=
  sumOf_modify_eq (h := fun n => f n.account) hg

theorem total_push (node : MeshNode) :
    total f (nodes.push node) = total f nodes + f node.account := by
  simp [total]

theorem le_total (hn : nodes[i]? = some n) : f n.account ≤ total f nodes := by
  rw [← Array.getElem?_toList] at hn
  exact List.le_sum_of_mem (List.mem_map_of_mem (List.mem_of_getElem? hn))

theorem total_eq_zero (h : ∀ n ∈ nodes, f n.account = 0) : total f nodes = 0 := by
  apply List.sum_eq_zero
  intro x hx
  obtain ⟨n, hn, rfl⟩ := List.mem_map.1 hx
  exact h n (Array.mem_toList_iff.1 hn)

end Mesh

end CongestionRouting
