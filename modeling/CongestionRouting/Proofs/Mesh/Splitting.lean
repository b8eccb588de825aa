import CongestionRouting.Proofs.Mesh.Recovery
import CongestionRouting.Proofs.Mesh.Traffic

namespace CongestionRouting

namespace Hop

variable {hops : List Hop} {sender parent a : NodeId}

theorem departures_append (hops later : List Hop) (sender receiver : NodeId) :
    departures (hops ++ later) sender receiver =
      departures hops sender receiver + departures later sender receiver :=
  List.countP_append

theorem elim_departures_append (hops later : List Hop) (sender : NodeId) (receiver : Option NodeId) :
    receiver.elim 0 (departures (hops ++ later) sender) =
      receiver.elim 0 (departures hops sender) + receiver.elim 0 (departures later sender) := by
  cases receiver with
  | none => rfl
  | some receiver => exact departures_append hops later sender receiver

theorem elim_departures_eq_zero (h : ∀ receiver, departures hops sender receiver = 0)
    (receiver : Option NodeId) : receiver.elim 0 (departures hops sender) = 0 := by
  cases receiver with
  | none => rfl
  | some receiver => exact h receiver

theorem arrivals_append (hops later : List Hop) (id : NodeId) :
    arrivals (hops ++ later) id = arrivals hops id + arrivals later id :=
  List.countP_append

theorem arrivals_eq_zero {id : NodeId} (h : ∀ hop ∈ hops, hop.receiver ≠ id) : arrivals hops id = 0 := by
  refine List.countP_eq_zero.2 fun hop hmem => ?_
  simp only [h hop hmem, decide_false, Bool.false_and, Bool.false_eq_true, not_false_eq_true]

theorem departures_add_departures (hne : a ≠ parent)
    (h : ∀ hop ∈ hops, hop.sender = sender ∧ (hop.receiver = parent ∨ hop.receiver = a)) :
    departures hops sender parent + departures hops sender a = hops.length := by
  induction hops with
  | nil => rfl
  | cons hop hops ih =>
    have hrest := ih fun hop hmem => h hop (List.mem_cons_of_mem _ hmem)
    obtain ⟨hsender, hreceiver⟩ := h hop List.mem_cons_self
    simp only [departures, List.countP_cons, List.length_cons] at hrest ⊢
    rcases hreceiver with hparent | ha
    · simp only [hsender, hparent, hne.symm, decide_true, decide_false, Bool.and_self, Bool.and_false,
        if_true, Bool.false_eq_true, if_false]
      omega
    · simp only [hsender, ha, hne, decide_true, decide_false, Bool.and_self, Bool.and_false, if_true,
        Bool.false_eq_true, if_false]
      omega

end Hop

namespace Dispatch

variable {parent : NodeId} {alternate : Option NodeId} {d : Dispatch} {turn : Bool}

theorem length_hops (link : NodeId → Delivery) (sender parent : NodeId) (alternate : Option NodeId)
    (packets : Nat) (d : Dispatch) :
    (hops link sender parent alternate packets d).length = packets := by
  induction packets generalizing d with
  | zero => rfl
  | succ packets ih => exact congrArg Nat.succ (ih _)

theorem departures_hops (hne : alternate ≠ some parent) (link : NodeId → Delivery) (sender : NodeId)
    (packets : Nat) (d : Dispatch) :
    Hop.departures (hops link sender parent alternate packets d) sender parent +
      alternate.elim 0 (Hop.departures (hops link sender parent alternate packets d) sender) =
        packets := by
  refine Eq.trans ?_ (length_hops link sender parent alternate packets d)
  cases alternate with
  | none =>
    refine List.countP_eq_length.2 fun hop hmem => ?_
    obtain ⟨hsender, hreceiver⟩ := mem_hops hmem
    simp only [hsender, hreceiver.resolve_right nofun, decide_true, Bool.and_self]
  | some a =>
    rw [Option.elim_some]
    refine Hop.departures_add_departures (fun h => hne (congrArg some h)) fun hop hmem => ?_
    obtain ⟨hsender, hreceiver⟩ := mem_hops hmem
    exact ⟨hsender, hreceiver.imp_right fun h => (Option.some.inj h).symm⟩

/-- Parent and alternate have taken turns since it was that turn. -/
def TakesTurns (turn : Bool) (d : Dispatch) : Prop :=
  d.toParent.sent + turn.toNat = d.toAlternate.sent + d.parentTurn.toNat

theorem TakesTurns.send {a : NodeId} (hd : d.TakesTurns turn) (ha : a ≠ parent)
    (link : NodeId → Delivery) : (d.send link parent (some a)).TakesTurns turn := by
  unfold TakesTurns at hd ⊢
  rw [toParent_send, toAlternate_send, parentTurn_send]
  cases hturn : d.parentTurn <;>
  · simp only [nextHop, hturn, ha, Bool.not_true, Bool.not_false, Bool.false_eq_true, if_true, if_false,
      HopLoad.add, Bool.toNat_true, Bool.toNat_false] at hd ⊢
    omega

theorem TakesTurns.sendAll {a : NodeId} (hd : d.TakesTurns turn) (ha : a ≠ parent)
    (link : NodeId → Delivery) (packets : Nat) :
    (Dispatch.sendAll link parent (some a) packets d).TakesTurns turn := by
  induction packets generalizing d with
  | zero => exact hd
  | succ packets ih => exact ih (hd.send ha link)

theorem parentTurn_sendAll_none (link : NodeId → Delivery) (parent : NodeId) (packets : Nat)
    (d : Dispatch) : (Dispatch.sendAll link parent none packets d).parentTurn = d.parentTurn := by
  induction packets generalizing d with
  | zero => rfl
  | succ packets ih => exact (ih _).trans (parentTurn_send ..)

end Dispatch

namespace MeshNode

def sentToParent (hops : List Hop) (n : MeshNode) : Nat := n.parent.elim 0 (Hop.departures hops n.id)

def sentToAlternate (hops : List Hop) (n : MeshNode) : Nat :=
  n.alternate.elim 0 (Hop.departures hops n.id)

/-- The packets that the node sent to its parent while it had an alternate. -/
def sharedWithParent (hops : List Hop) (n : MeshNode) : Nat :=
  if n.alternate.isSome then n.sentToParent hops else 0

variable {hops later : List Hop} {n n' n'' : MeshNode}

theorem sentToParent_append :
    n.sentToParent (hops ++ later) = n.sentToParent hops + n.sentToParent later :=
  Hop.elim_departures_append hops later n.id n.parent

theorem sentToAlternate_append :
    n.sentToAlternate (hops ++ later) = n.sentToAlternate hops + n.sentToAlternate later :=
  Hop.elim_departures_append hops later n.id n.alternate

theorem sharedWithParent_append :
    n.sharedWithParent (hops ++ later) = n.sharedWithParent hops + n.sharedWithParent later := by
  unfold sharedWithParent
  split
  · exact sentToParent_append
  · rfl

theorem sent_eq_zero (h : ∀ receiver, Hop.departures hops n.id receiver = 0) :
    n.sentToParent hops = 0 ∧ n.sentToAlternate hops = 0 ∧ n.sharedWithParent hops = 0 := by
  have hparent : n.sentToParent hops = 0 := Hop.elim_departures_eq_zero h n.parent
  refine ⟨hparent, Hop.elim_departures_eq_zero h n.alternate, ?_⟩
  rw [sharedWithParent, hparent, ite_self]

theorem sent_of_shared (n : MeshNode) (hops : List Hop) {parent a : NodeId}
    (hp : n.parent = some parent) (ha : n.alternate = some a) :
    n.sentToParent hops = Hop.departures hops n.id parent ∧
      n.sentToAlternate hops = Hop.departures hops n.id a ∧
      n.sharedWithParent hops = Hop.departures hops n.id parent := by
  have hparent : n.sentToParent hops = Hop.departures hops n.id parent := by
    rw [sentToParent, hp, Option.elim_some]
  refine ⟨hparent, ?_, ?_⟩
  · rw [sentToAlternate, ha, Option.elim_some]
  · rw [sharedWithParent, ha, Option.isSome_some, if_pos rfl, hparent]

theorem Keeps.alternate_eq (h : n.Keeps n') : n'.alternate = n.alternate := by
  rw [alternate, h.engine_eq, alternate]

theorem Keeps.sent_eq (h : n.Keeps n') (hops : List Hop) :
    n'.sentToParent hops = n.sentToParent hops ∧ n'.sentToAlternate hops = n.sentToAlternate hops ∧
      n'.sharedWithParent hops = n.sharedWithParent hops := by
  simp only [sharedWithParent, sentToParent, sentToAlternate, h.id_eq, h.parent_eq, h.alternate_eq, true_and]

/-- The packets that travelled between two moments, as far as a node divides them. -/
structure Divides (hops : List Hop) (n n' : MeshNode) : Prop extends Keeps n n' where
  sink_eq : n'.sink = n.sink
  forwarded_eq : n'.forwarded = n.forwarded + (n.sentToParent hops + n.sentToAlternate hops)
  viaAlternate_eq : n'.viaAlternate = n.viaAlternate + n.sentToAlternate hops
  turn_eq : n.sharedWithParent hops + n.parentTurn.toNat =
    n.sentToAlternate hops + n'.parentTurn.toNat

theorem Divides.idle (h : n.Keeps n') (hsent : ∀ receiver, Hop.departures hops n.id receiver = 0)
    (hsink : n'.sink = n.sink) (hforwarded : n'.forwarded = n.forwarded)
    (hvia : n'.viaAlternate = n.viaAlternate) (hturn : n'.parentTurn = n.parentTurn) : n.Divides hops n' := by
  obtain ⟨hparent, halternate, hshared⟩ := sent_eq_zero hsent
  refine ⟨h, hsink, ?_, ?_, ?_⟩
  · rw [hforwarded, hparent, halternate, Nat.add_zero]
  · rw [hvia, halternate, Nat.add_zero]
  · rw [hshared, halternate, hturn]

theorem Divides.append (h : n.Divides hops n') (h' : n'.Divides later n'') :
    n.Divides (hops ++ later) n'' := by
  have hforwarded := h'.forwarded_eq
  have hvia := h'.viaAlternate_eq
  have hturn := h'.turn_eq
  obtain ⟨hparent, halternate, hshared⟩ := h.toKeeps.sent_eq later
  rw [hparent, halternate, h.forwarded_eq] at hforwarded
  rw [halternate, h.viaAlternate_eq] at hvia
  rw [hshared, halternate] at hturn
  have hfirst := h.turn_eq
  refine ⟨trans_of Keeps h.toKeeps h'.toKeeps, h'.sink_eq.trans h.sink_eq, ?_, ?_, ?_⟩
  · rw [sentToParent_append, sentToAlternate_append]
    omega
  · rw [sentToAlternate_append]
    omega
  · rw [sharedWithParent_append, sentToAlternate_append]
    omega

end MeshNode

namespace Transit

open MeshNode Mesh

variable {t : Transit} {i j count : Nat} {mover n n' : MeshNode} {parent : NodeId}

theorem sent_dispatch (ht : t.mesh.Rooted) (hmover : t.mesh.nodes[i]? = some mover)
    (hs : mover.sink = false) (hp : mover.parent = some parent) :
    mover.sentToParent (t.hopsAt i) + mover.sentToAlternate (t.hopsAt i) = mover.load ∧
      (t.dispatch mover parent).toParent.sent = mover.sentToParent (t.hopsAt i) ∧
      (t.dispatch mover parent).toAlternate.sent = mover.sentToAlternate (t.hopsAt i) := by
  have hne : mover.alternate ≠ some parent := fun ha =>
    (ht i mover hmover).parent_ne_alternate ha hp
  have hhops : t.hopsAt i = Dispatch.hops (t.mesh.delivery mover.id) mover.id parent mover.alternate
      mover.load (.start t.mesh.random mover.parentTurn) := by
    simp only [hopsAt, hmover, hs, hp, Bool.false_eq_true, if_false]
  have htoParent : mover.sentToParent (t.hopsAt i) = Hop.departures (t.hopsAt i) mover.id parent := by
    rw [sentToParent, hp, Option.elim_some]
  have hall : mover.sentToParent (t.hopsAt i) + mover.sentToAlternate (t.hopsAt i) = mover.load := by
    rw [htoParent, sentToAlternate, hhops]
    exact Dispatch.departures_hops hne _ _ _ _
  have hlogged := (logged_dispatch hmover hs hp).sent_eq
  rw [Dispatch.start, HopLoad.zero, Nat.zero_add, ← htoParent] at hlogged
  have hstart : (Dispatch.start t.mesh.random mover.parentTurn).Carries mover.alternate 0 := .start _ _
  have hsent : (t.dispatch mover parent).sent = 0 + mover.load := (hstart.sendAll _ _ mover.load).sent_eq
  rw [Dispatch.sent] at hsent
  exact ⟨hall, hlogged, by omega⟩

/-- The turn tells which of the two is ahead. -/
theorem turn_dispatch (ht : t.mesh.Rooted) (hmover : t.mesh.nodes[i]? = some mover)
    (hs : mover.sink = false) (hp : mover.parent = some parent) :
    mover.sharedWithParent (t.hopsAt i) + mover.parentTurn.toNat =
      mover.sentToAlternate (t.hopsAt i) + (t.dispatch mover parent).parentTurn.toNat := by
  obtain ⟨-, hparent, halternate⟩ := sent_dispatch ht hmover hs hp
  cases ha : mover.alternate with
  | none =>
    have hturn : (t.dispatch mover parent).parentTurn = mover.parentTurn := by
      rw [dispatch, ha]
      exact Dispatch.parentTurn_sendAll_none _ _ _ _
    rw [sharedWithParent, sentToAlternate, ha, hturn]
    rfl
  | some a =>
    have hturns : (t.dispatch mover parent).TakesTurns mover.parentTurn := by
      rw [dispatch, ha]
      have hstart : (Dispatch.start t.mesh.random mover.parentTurn).TakesTurns mover.parentTurn := rfl
      have hne : a ≠ parent := fun heq => (ht i mover hmover).parent_ne_alternate ha (heq ▸ hp)
      exact hstart.sendAll hne _ _
    rw [sharedWithParent, ha, Option.isSome_some, if_pos rfl, ← hparent, ← halternate]
    exact hturns

theorem divides_moveNode (ht : t.mesh.Rooted) (i : Nat) :
    Pointwise (fun _ => Divides (t.hopsAt i)) t.mesh.nodes (t.moveNode i).mesh.nodes := by
  refine ⟨(forwarded_moveNode t i).1, fun j n' hn' => ?_⟩
  obtain ⟨n, hn, hforwarded⟩ := (forwarded_moveNode t i).2 j n' hn'
  have hkeeps : n.Keeps n' := hforwarded.toKeeps
  refine ⟨n, hn, ?_⟩
  by_cases hidle : ∀ mover, t.mesh.nodes[i]? = some mover → mover.sink = false → mover.parent = none
  · have hnone : ∀ receiver, Hop.departures (t.hopsAt i) n.id receiver = 0 := by
      rw [hopsAt_eq_nil hidle]
      exact fun _ => rfl
    rcases eq_of_idle hidle hn hn' with rfl | ⟨-, rfl | rfl⟩ <;> exact .idle hkeeps hnone rfl rfl rfl rfl
  · push Not at hidle
    obtain ⟨mover, hmover, hs, hparent⟩ := hidle
    obtain ⟨parent, hp⟩ := Option.ne_none_iff_exists'.1 hparent
    have heq := eq_of_sends ht hmover hs hp hn hn'
    -- The sender divides its packets; the others at most receive some.
    by_cases hij : i = j
    · obtain rfl : mover = n := Option.some.inj (hmover.symm.trans (hij ▸ hn))
      rw [if_pos hij] at heq
      obtain ⟨-, htoParent, htoAlternate⟩ := sent_dispatch ht hmover hs hp
      refine ⟨hkeeps, heq ▸ rfl, ?_, ?_, ?_⟩
      · rw [← htoParent, ← htoAlternate, heq]
        rfl
      · rw [← htoAlternate, heq]
        rfl
      · rw [turn_dispatch ht hmover hs hp, heq]
        rfl
    · rw [if_neg hij] at heq
      subst heq
      exact .idle hkeeps (departures_of_ne ht hij hn) rfl rfl rfl rfl

theorem divides_moveAll (ht : t.mesh.Rooted) (count : Nat) :
    Pointwise (fun _ => Divides (t.hops count)) t.mesh.nodes (moveAll count t).mesh.nodes := by
  induction count generalizing t with
  | zero =>
    exact ⟨rfl, fun i n hn => ⟨n, hn, .idle (refl_of Keeps n) (fun _ => rfl) rfl rfl rfl rfl⟩⟩
  | succ count ih =>
    have hkeeps := (divides_moveNode ht count).mono fun _ _ _ h => h.toKeeps
    exact (divides_moveNode ht count).comp (ih (ht.of_keeps hkeeps)) fun _ _ _ _ h h' => h.append h'

/-- Packets go from a node to older nodes. -/
theorem descends_of_mem_hopsAt (ht : t.mesh.Rooted) {hop : Hop} (hmem : hop ∈ t.hopsAt i) :
    hop.sender.index = i ∧ hop.receiver.index < i := by
  obtain ⟨mover, hmover, hsender, hreceiver⟩ := exists_of_mem_hopsAt hmem
  have hrooted := ht i mover hmover
  rw [hsender]
  exact ⟨hrooted.index_eq,
    hreceiver.elim (hrooted.descends.parent_lt _) hrooted.descends.alternate_lt⟩

theorem descends_of_mem_hops (ht : t.mesh.Rooted) {hop : Hop} (hmem : hop ∈ t.hops count) :
    hop.sender.index < count ∧ hop.receiver.index < hop.sender.index := by
  induction count generalizing t with
  | zero => exact absurd hmem List.not_mem_nil
  | succ count ih =>
    rcases List.mem_append.1 hmem with hmem | hmem
    · have hdescends := descends_of_mem_hopsAt ht hmem
      omega
    · have hkeeps := (divides_moveNode ht count).mono fun _ _ _ h => h.toKeeps
      have hdescends := ih (ht.of_keeps hkeeps) hmem
      omega

/-- Those whose turn is over neither send nor receive. -/
theorem hops_eq_zero_of_le (ht : t.mesh.Rooted) (hle : count ≤ n.id.index) :
    (∀ receiver, Hop.departures (t.hops count) n.id receiver = 0) ∧
      Hop.arrivals (t.hops count) n.id = 0 := by
  refine ⟨Hop.departures_eq_zero fun hop hmem hsender => ?_,
    Hop.arrivals_eq_zero fun hop hmem hreceiver => ?_⟩
  · have hlt := (descends_of_mem_hops ht hmem).1
    rw [hsender] at hlt
    omega
  · have hlt := descends_of_mem_hops ht hmem
    rw [hreceiver] at hlt
    omega

theorem eq_receive_of_ne (ht : t.mesh.Rooted) (hij : i ≠ j) (hn : t.mesh.nodes[j]? = some n)
    (hn' : (t.moveNode i).mesh.nodes[j]? = some n') :
    n' = n.receive (Hop.arrivals (t.hopsAt i) n.id) := by
  by_cases hidle : ∀ mover, t.mesh.nodes[i]? = some mover → mover.sink = false → mover.parent = none
  · rw [hopsAt_eq_nil hidle]
    rcases eq_of_idle hidle hn hn' with rfl | ⟨heq, -⟩
    · exact n'.receive_zero.symm
    · exact absurd heq hij
  · push Not at hidle
    obtain ⟨mover, hmover, hs, hparent⟩ := hidle
    obtain ⟨parent, hp⟩ := Option.ne_none_iff_exists'.1 hparent
    have heq := eq_of_sends ht hmover hs hp hn hn'
    rwa [if_neg hij] at heq

/-- A node that is no sink and has a parent sends on what it originates, what waits at it and what arrives
before its turn, and nothing arrives later. -/
theorem sent_moveAll (ht : t.mesh.Rooted) (hi : i < count) (hn : t.mesh.nodes[i]? = some n)
    (hs : n.sink = false) (hp : n.parent = some parent) :
    n.sentToParent (t.hops count) + n.sentToAlternate (t.hops count) =
      (saturate32 (n.traffic.toNat + (n.inbox.toNat + Hop.arrivals (t.hops count) n.id))).toNat := by
  induction count generalizing t n with
  | zero => exact absurd hi (Nat.not_lt_zero i)
  | succ count ih =>
    have hindex : n.id.index = i := (ht i n hn).index_eq
    have hkeeps := (divides_moveNode ht count).mono fun _ _ _ h => h.toKeeps
    have hrest : (t.moveNode count).mesh.Rooted := ht.of_keeps hkeeps
    rw [hops, sentToParent_append, sentToAlternate_append, Hop.arrivals_append]
    rcases Nat.lt_succ_iff_lt_or_eq.1 hi with hlt | rfl
    · -- The node is not the one to move, and its own turn comes with what has arrived so far.
      obtain ⟨n', hn'⟩ : ∃ n', (t.moveNode count).mesh.nodes[i]? = some n' :=
        ⟨_, Array.getElem?_eq_getElem (hkeeps.1 ▸ (Array.getElem?_eq_some_iff.1 hn).1)⟩
      obtain rfl := eq_receive_of_ne ht (Nat.ne_of_gt hlt) hn hn'
      obtain ⟨hparent, halternate, -⟩ := sent_eq_zero (departures_of_ne ht (Nat.ne_of_gt hlt) hn)
      have hlater := ih hrest hlt hn' hs hp
      have hinbox : (n.receive (Hop.arrivals (t.hopsAt count) n.id)).inbox.toNat =
          min (n.inbox.toNat + Hop.arrivals (t.hopsAt count) n.id) 0xffffffff := toNat_saturate32 _
      rw [hparent, halternate, Nat.zero_add, Nat.zero_add]
      refine hlater.trans ?_
      change (saturate32 (n.traffic.toNat + (_ + Hop.arrivals _ n.id))).toNat = _
      rw [hinbox, toNat_saturate32, toNat_saturate32]
      omega
    · obtain ⟨hlater, harrived⟩ := hops_eq_zero_of_le hrest (Nat.le_of_eq hindex.symm)
      obtain ⟨hparent, halternate, -⟩ := sent_eq_zero hlater
      have hown : Hop.arrivals (t.hopsAt i) n.id = 0 := by
        refine Hop.arrivals_eq_zero fun hop hmem hreceiver => ?_
        have hlt := (descends_of_mem_hopsAt ht hmem).2
        rw [hreceiver, hindex] at hlt
        exact absurd hlt (Nat.lt_irrefl i)
      rw [hparent, halternate, harrived, hown, Nat.add_zero, Nat.add_zero, (sent_dispatch ht hn hs hp).1]
      rfl

theorem emptyFrom_moveAll (hd : Descending t.mesh.nodes) (h : EmptyFrom count t.mesh.nodes) :
    EmptyFrom 0 (moveAll count t).mesh.nodes := by
  induction count generalizing t with
  | zero => exact h
  | succ count ih =>
    exact ih (hd.of_follows (follows_moveNode t count)) (emptyFrom_moveNode hd h)

end Transit

namespace MeshNode

/-- No packet was sent or received, and nobody became a sink or found a parent. -/
structure Retains (n n' : MeshNode) : Prop where
  inbox_eq : n'.inbox = n.inbox
  sink_eq : n'.sink = n.sink
  parent_eq : n.parent = none → n'.parent = none
  forwarded_eq : n'.forwarded = n.forwarded
  viaAlternate_eq : n'.viaAlternate = n.viaAlternate
  parentTurn_eq : n'.parentTurn = n.parentTurn

instance : IsPreorder MeshNode Retains where
  refl _ := ⟨rfl, rfl, fun hp => hp, rfl, rfl, rfl⟩
  trans _ _ _ h h' := ⟨h'.inbox_eq.trans h.inbox_eq, h'.sink_eq.trans h.sink_eq,
    h'.parent_eq ∘ h.parent_eq, h'.forwarded_eq.trans h.forwarded_eq,
    h'.viaAlternate_eq.trans h.viaAlternate_eq, h'.parentTurn_eq.trans h.parentTurn_eq⟩

namespace Retains

variable {n n' : MeshNode}

theorem meet {address : Address} (hmet : n.meet address = .ok n') : n.Retains n' := by
  obtain ⟨handle, table, -, rfl⟩ := meet_eq_ok hmet
  exact ⟨rfl, rfl, fun hp => hp, rfl, rfl, rfl⟩

theorem evict {neighbor : NodeId} {withdrawn : Bool} (he : n.evict neighbor = some (withdrawn, n')) :
    n.Retains n' := by
  obtain ⟨h, -, heq⟩ := Option.map_eq_some_iff.1 he
  injection heq with _ heq
  subst heq
  refine ⟨rfl, rfl, fun hnone => ?_, rfl, rfl, rfl⟩
  dsimp only
  rw [hnone, ite_self]

theorem hear (sender : Address) : n.Retains (n.hear sender) := by
  unfold MeshNode.hear
  split
  · exact ⟨rfl, rfl, fun hp => hp, rfl, rfl, rfl⟩
  · exact refl_of Retains n

end Retains

end MeshNode

namespace Mesh

open MeshNode

variable {m : Mesh} {past : List Mesh} {f : List Hop → MeshNode → Nat} {i : Nat} {n n' : MeshNode}

theorem retains_step (m : Mesh) : Pointwise (fun _ => Retains)
    (forward { m with steps := m.steps + 1 }).mesh.nodes m.step.2.nodes :=
  pointwise_settled (fun _ _ => ⟨rfl, rfl, fun hp => hp, rfl, rfl, rfl⟩)
    (fun _ _ _ => ⟨rfl, rfl, fun hp => hp, rfl, rfl, rfl⟩)
    (fun _ _ => ⟨rfl, rfl, fun hp => hp, rfl, rfl, rfl⟩) (fun _ _ => .hear)
    (fun _ _ => ⟨rfl, rfl, fun hp => hp, rfl, rfl, rfl⟩) m

/-- The mesh that begins an interval, if the event is one. -/
def begun (m : Mesh) : MeshEvent → List Mesh
  | .step => [m]
  | _ => []

def intervals (m : Mesh) : List MeshEvent → List Mesh
  | [] => []
  | event :: events => m.begun event ++ (m.apply event).2.intervals events

/-- What a node counts of the packets of all intervals. It counts none of those before it was built. -/
def sumOver (f : List Hop → MeshNode → Nat) (i : Nat) (past : List Mesh) : Nat :=
  (past.map fun m => (m.nodes[i]?).elim 0 (f m.hops)).sum

theorem sumOver_append_singleton (hn : m.nodes[i]? = some n) :
    sumOver f i (past ++ [m]) = sumOver f i past + f m.hops n := by
  rw [sumOver, List.map_append, List.sum_append, List.map_singleton, List.sum_singleton, hn,
    Option.elim_some, sumOver]

theorem sumOver_eq_zero (h : ∀ m ∈ past, m.nodes.size ≤ i) : sumOver f i past = 0 := by
  refine List.sum_eq_zero fun x hx => ?_
  obtain ⟨m, hm, rfl⟩ := List.mem_map.1 hx
  rw [Array.getElem?_eq_none (h m hm), Option.elim_none]

/-- The node at an index between two intervals, by the packets of those that are over. -/
structure Divided (past : List Mesh) (i : Nat) (n : MeshNode) : Prop where
  inbox_eq : n.inbox = 0
  parent_eq : n.sink = true → n.parent = none
  forwarded_eq : n.forwarded = sumOver sentToParent i past + sumOver sentToAlternate i past
  viaAlternate_eq : n.viaAlternate = sumOver sentToAlternate i past
  turn_eq : sumOver sharedWithParent i past = n.viaAlternate + n.parentTurn.toNat

theorem Divided.retains (h : Divided past i n) (hr : n.Retains n') : Divided past i n' where
  inbox_eq := hr.inbox_eq.trans h.inbox_eq
  parent_eq hs := hr.parent_eq (h.parent_eq (hr.sink_eq ▸ hs))
  forwarded_eq := hr.forwarded_eq.trans h.forwarded_eq
  viaAlternate_eq := hr.viaAlternate_eq.trans h.viaAlternate_eq
  turn_eq := by rw [hr.viaAlternate_eq, hr.parentTurn_eq, h.turn_eq]

theorem Divided.design {plan : NodePlan} (hpast : ∀ m' ∈ past, m'.nodes.size ≤ m.nodes.size)
    (hd : m.design plan = .ok n) : Divided past m.nodes.size n := by
  obtain ⟨-, -, config, agent, table, -, -, rfl⟩ := design_eq_ok hd
  refine ⟨rfl, fun hs => Option.isNone_iff_eq_none.1 hs, ?_, ?_, ?_⟩
  · rw [sumOver_eq_zero hpast, sumOver_eq_zero hpast]
    rfl
  · rw [sumOver_eq_zero hpast]
    rfl
  · rw [sumOver_eq_zero hpast]
    rfl

/-- The packets of an interval are added to those of the intervals before. -/
theorem Divided.divides (h : Divided past i n) (hn : m.nodes[i]? = some n)
    (hd : n.Divides m.hops n') (hinbox : n'.inbox = 0) :
    Divided (past ++ [m]) i n' := by
  have hforwarded := h.forwarded_eq
  have hvia := h.viaAlternate_eq
  have hturn := h.turn_eq
  have hforwarded' := hd.forwarded_eq
  have hvia' := hd.viaAlternate_eq
  have hturn' := hd.turn_eq
  refine ⟨hinbox, fun hs => hd.parent_eq.trans (h.parent_eq (hd.sink_eq ▸ hs)), ?_, ?_, ?_⟩ <;>
  · simp only [sumOver_append_singleton hn]
    omega

theorem divides_step (hm : m.Rooted) (hn' : m.step.2.nodes[i]? = some n') :
    ∃ n moved, m.nodes[i]? = some n ∧ n.Divides m.hops moved ∧ moved.inbox = 0 ∧ moved.Retains n' := by
  let t : Transit := ⟨{ m with steps := m.steps + 1 }, 0, 0⟩
  have ht : t.mesh.Rooted := hm
  have hempty : EmptyFrom m.nodes.size t.mesh.nodes := fun i n hle hn =>
    absurd (Array.getElem?_eq_some_iff.1 hn).1 (Nat.not_lt.2 hle)
  obtain ⟨moved, hmoved, hretains⟩ := (retains_step m).2 i n' hn'
  obtain ⟨n, hn, hdivides⟩ := (Transit.divides_moveAll ht m.nodes.size).2 i moved hmoved
  exact ⟨n, moved, hn, hdivides,
    Transit.emptyFrom_moveAll ht.descending hempty i moved (Nat.zero_le i) hmoved, hretains⟩

/-- A node that is no sink, has a parent and begins the interval empty sends on all it handles. -/
theorem sent_eq (hm : m.Rooted) (hn : m.nodes[i]? = some n) (hinbox : n.inbox = 0) (hs : n.sink = false)
    {parent : NodeId} (hp : n.parent = some parent) :
    n.sentToParent m.hops + n.sentToAlternate m.hops =
      (saturate32 (n.traffic.toNat + Hop.arrivals m.hops n.id)).toNat := by
  let t : Transit := ⟨{ m with steps := m.steps + 1 }, 0, 0⟩
  have ht : t.mesh.Rooted := hm
  have hsent := Transit.sent_moveAll ht (Array.getElem?_eq_some_iff.1 hn).1 hn hs hp
  rwa [hinbox, UInt32.toNat_zero, Nat.zero_add] at hsent

/-- What the counters and the turn say of the packets of an interval. -/
theorem exists_turn (hm : m.Rooted) (hn : m.nodes[i]? = some n) (hn' : m.step.2.nodes[i]? = some n') :
    ∃ turn : Bool,
      n.sharedWithParent m.hops + n.parentTurn.toNat = n.sentToAlternate m.hops + turn.toNat ∧
      n'.forwarded = n.forwarded + (n.sentToParent m.hops + n.sentToAlternate m.hops) ∧
      n'.viaAlternate = n.viaAlternate + n.sentToAlternate m.hops := by
  obtain ⟨old, moved, hold, hdivides, -, hretains⟩ := divides_step hm hn'
  obtain rfl : old = n := Option.some.inj (hold.symm.trans hn)
  exact ⟨moved.parentTurn, hdivides.turn_eq, hretains.forwarded_eq.trans hdivides.forwarded_eq,
    hretains.viaAlternate_eq.trans hdivides.viaAlternate_eq⟩

theorem arrivals_of_youngest (hm : m.Rooted) {id : NodeId} (hle : m.nodes.size ≤ id.index + 1) :
    Hop.arrivals m.hops id = 0 := by
  refine Hop.arrivals_eq_zero fun hop hmem hreceiver => ?_
  let t : Transit := ⟨{ m with steps := m.steps + 1 }, 0, 0⟩
  have ht : t.mesh.Rooted := hm
  obtain ⟨hsender, hlt⟩ := Transit.descends_of_mem_hops ht hmem
  rw [hreceiver] at hlt
  omega

theorem divided_apply (hm : m.Rooted) (hpast : ∀ m' ∈ past, m'.nodes.size ≤ m.nodes.size)
    (h : ∀ i n, m.nodes[i]? = some n → Divided past i n) (event : MeshEvent) :
    ∀ i n, (m.apply event).2.nodes[i]? = some n → Divided (past ++ m.begun event) i n := by
  by_cases he : event = .step
  · subst he
    intro i n' hn'
    obtain ⟨n, moved, hn, hdivides, hinbox, hretains⟩ := divides_step hm hn'
    exact ((h i n hn).divides hn hdivides hinbox).retains hretains
  · have hnone : m.begun event = [] := by
      cases event with
      | step => exact absurd rfl he
      | reseed | build | setDelivery | evict => rfl
    rw [hnone, List.append_nil]
    exact forall_getElem?_of_apply (fun _ _ _ _ hn hmet => hn.retains (.meet hmet))
      (fun _ _ _ _ _ hn hev => hn.retains (.evict hev)) (fun _ _ hd => .design hpast hd) h he

theorem size_le_apply (m : Mesh) (event : MeshEvent) :
    m.nodes.size ≤ (m.apply event).2.nodes.size := by
  by_cases he : event = .step
  · subst he
    exact Nat.le_of_eq (follows_step m).1.symm
  · exact size_le_of_joined (joined_apply m he).2

theorem divided_applyAll (hm : m.Rooted) (hpast : ∀ m' ∈ past, m'.nodes.size ≤ m.nodes.size)
    (h : ∀ i n, m.nodes[i]? = some n → Divided past i n) (events : List MeshEvent) :
    ∀ i n, (m.applyAll events).nodes[i]? = some n → Divided (past ++ m.intervals events) i n := by
  induction events generalizing m past with
  | nil =>
    rw [intervals, List.append_nil]
    exact h
  | cons event events ih =>
    rw [intervals, ← List.append_assoc]
    refine ih (hm.apply event) (fun m' hmem => ?_) (divided_apply hm hpast h event)
    have hle := size_le_apply m event
    rcases List.mem_append.1 hmem with hold | hnew
    · exact (hpast m' hold).trans hle
    · cases event with
      | step => exact (List.mem_singleton.1 hnew) ▸ hle
      | reseed | build | setDelivery | evict => exact absurd hnew List.not_mem_nil

/-- In every run each node divides its packets evenly between its parent and its alternates, however
often these come and go: over all intervals the parent is ahead by one packet at most, and never behind. In each
interval that begins with an alternate both get half of the packets, up to one. -/
theorem packets_divided (events : List MeshEvent) :
    let m := empty.applyAll events
    let past := empty.intervals events
    ∀ (i : Nat) (n : MeshNode), m.nodes[i]? = some n →
      let shared := sumOver sharedWithParent i past
      (shared - n.viaAlternate = 0 ∨ shared - n.viaAlternate = 1) ∧ n.viaAlternate ≤ shared ∧
        n.viaAlternate = sumOver sentToAlternate i past ∧
        n.forwarded = sumOver sentToParent i past + n.viaAlternate ∧
        ∀ parent alternate, n.parent = some parent → n.alternate = some alternate →
          let handled := (saturate32 (n.traffic.toNat + Hop.arrivals m.hops n.id)).toNat
          let toParent := Hop.departures m.hops n.id parent
          let toAlternate := Hop.departures m.hops n.id alternate
          (toParent = handled / 2 ∨ toParent = (handled + 1) / 2) ∧
            (toAlternate = handled / 2 ∨ toAlternate = (handled + 1) / 2) ∧
            toParent + toAlternate = handled ∧
            ∀ n', m.step.2.nodes[i]? = some n' → n'.forwarded = n.forwarded + handled ∧
              n'.viaAlternate = n.viaAlternate + toAlternate := by
  intro m past i n hn shared
  have hm : m.Rooted := rooted_applyAll events
  have hdivided : Divided past i n :=
    divided_applyAll (rooted_applyAll []) (fun _ hmem => absurd hmem List.not_mem_nil)
      (fun _ _ hn => absurd hn (by simp [empty, applyAll])) events i n hn
  -- The turn is a single bit, and by that bit the two counts can differ.
  have hturn : shared = n.viaAlternate + n.parentTurn.toNat := hdivided.turn_eq
  have hone := Bool.toNat_le n.parentTurn
  refine ⟨by omega, by omega, hdivided.viaAlternate_eq, ?_, ?_⟩
  · rw [hdivided.viaAlternate_eq]
    exact hdivided.forwarded_eq
  · intro parent alternate hp ha handled toParent toAlternate
    have hs : n.sink = false := Bool.eq_false_iff.2 fun hs =>
      Option.some_ne_none parent (hp.symm.trans (hdivided.parent_eq hs))
    obtain ⟨hparent, halternate, hshared⟩ := n.sent_of_shared m.hops hp ha
    have hall : toParent + toAlternate = handled := by
      have hsent := sent_eq hm hn hdivided.inbox_eq hs hp
      rwa [hparent, halternate] at hsent
    have hstep : ∀ n', m.step.2.nodes[i]? = some n' → ∃ turn : Bool,
        toParent + n.parentTurn.toNat = toAlternate + turn.toNat ∧
        n'.forwarded = n.forwarded + handled ∧ n'.viaAlternate = n.viaAlternate + toAlternate := by
      intro n' hn'
      have hturns := exists_turn hm hn hn'
      rwa [hshared, hparent, halternate, hall] at hturns
    obtain ⟨turn, hturns, -⟩ := hstep _
      (Array.getElem?_eq_getElem ((follows_step m).1 ▸ (Array.getElem?_eq_some_iff.1 hn).1))
    have hone' := Bool.toNat_le turn
    refine ⟨by omega, by omega, hall, fun n' hn' => ?_⟩
    obtain ⟨-, -, hcounts⟩ := hstep n' hn'
    exact hcounts

/-- A node below one of two sinks that may send to the other, and whose link to its parent fails. -/
def detouring : List MeshEvent :=
  [.build ⟨none, [], 0, none⟩, .build ⟨none, [], 0, none⟩, .build ⟨some ⟨0⟩, [⟨1⟩], 10, none⟩,
    .setDelivery ⟨2⟩ ⟨0⟩ .never, .step, .step]

def failing : Mesh :=
  let m := empty.applyAll (detouring.take 3)
  { m with links := m.links.insert (.between ⟨2⟩ ⟨0⟩) .never }

def dropped (nodes : Array MeshNode) : Array MeshNode :=
  lostPackets.arrive ⟨0⟩ none (nodes.modify 2 fun n => n.afterDispatch lostPackets)

/-- The last of three nodes has ten packets for the first, and the others are sinks. -/
def Fork (nodes : Array MeshNode) : Prop :=
  nodes.size = 3 ∧
    (nodes[2]?.all fun n => n.sink = false ∧ n.parent = some ⟨0⟩ ∧ n.id = ⟨2⟩ ∧ n.alternate = none ∧
      n.load = 10 ∧ n.parentTurn = false) = true ∧
    ((dropped nodes)[1]?.any MeshNode.sink) = true ∧
    (((dropped nodes).modify 1 absorb)[0]?.any MeshNode.sink) = true

instance (nodes : Array MeshNode) : Decidable (Fork nodes) := inferInstanceAs (Decidable (_ ∧ _))

theorem nodes_step_of_fork (hlinks : m.links = failing.links) (hfork : Fork m.nodes) :
    m.step.2.nodes = settle (((dropped m.nodes).modify 1 absorb).modify 0 absorb) := by
  let t : Transit := ⟨{ m with steps := m.steps + 1 }, 0, 0⟩
  obtain ⟨hsize, hfacts, hsecond, hfirst⟩ := hfork
  have hmoved : forward t.mesh = ((t.moveNode 2).moveNode 1).moveNode 0 := by
    rw [forward]
    change Transit.moveAll m.nodes.size t = _
    rw [hsize]
    rfl
  obtain ⟨n, hn⟩ : ∃ n, t.mesh.nodes[2]? = some n :=
    ⟨_, Array.getElem?_eq_getElem (hsize.symm ▸ by decide)⟩
  have hn' : m.nodes[2]? = some n := hn
  rw [hn', Option.all_some, decide_eq_true_eq] at hfacts
  obtain ⟨hsink, hparent, hid, halternate, hload, hturn⟩ := hfacts
  have hdelivery : t.mesh.delivery ⟨2⟩ ⟨0⟩ = .never := by
    change m.links.getD _ _ = _
    rw [hlinks]
    exact Std.HashMap.getD_insert_self
  have hdispatch : t.dispatch n ⟨0⟩ = { lostPackets with random := m.random } := by
    rw [dispatch_of_never (hid.symm ▸ hdelivery) halternate, hload, hturn]
    rfl
  have hleaf := Transit.moveNode_of_parent hn hsink hparent
  rw [hdispatch, halternate] at hleaf
  change (t.moveNode 2).mesh.nodes = dropped m.nodes at hleaf
  rw [← hleaf] at hsecond hfirst ⊢
  obtain ⟨second, hget, hsink⟩ := (Option.any_eq_true _ _).1 hsecond
  have hmiddle := Transit.moveNode_of_sink hget hsink
  rw [← hmiddle] at hfirst ⊢
  obtain ⟨first, hget, hsink⟩ := (Option.any_eq_true _ _).1 hfirst
  rw [← Transit.moveNode_of_sink hget hsink, ← hmoved]
  rfl

theorem fork_failing : Fork failing.nodes := by decide +kernel

theorem fork_step_failing : Fork failing.step.2.nodes := by
  rw [nodes_step_of_fork rfl fork_failing]
  decide +kernel

theorem applyAll_detouring : empty.applyAll detouring = failing.step.2.step.2 := by
  have hm : (empty.applyAll (detouring.take 3)).Relaying := relaying_empty.applyAll (by decide +kernel)
  have hlink := setDelivery_of_hears hm.toMutual ⟨2⟩ ⟨0⟩ (by decide +kernel) (by decide +kernel) .never
  calc empty.applyAll detouring
      = ((((empty.applyAll (detouring.take 3)).apply (.setDelivery ⟨2⟩ ⟨0⟩ .never)).2.apply
          .step).2.apply .step).2 := rfl
    _ = _ := by simp only [apply, hlink]; rfl

/-- The node gets its alternate after two intervals whose packets all went to the parent. -/
theorem leaf_detouring : ((empty.applyAll detouring).nodes[2]?.any fun n =>
    n.id = ⟨2⟩ ∧ n.parent = some ⟨0⟩ ∧ n.alternate = some ⟨1⟩ ∧ n.traffic = 10 ∧
      n.forwarded = 20 ∧ n.viaAlternate = 0) = true := by
  have hlinks : failing.step.2.links = failing.links := links_step failing
  rw [applyAll_detouring, nodes_step_of_fork hlinks fork_step_failing,
    nodes_step_of_fork rfl fork_failing]
  decide +kernel

theorem size_detouring : (empty.applyAll detouring).nodes.size = 3 := by
  rw [applyAll_detouring, (follows_step _).1, fork_step_failing.1]

theorem packets_divided_detouring :
    let m := empty.applyAll detouring
    let past := empty.intervals detouring
    ∃ n n', m.nodes[2]? = some n ∧ m.step.2.nodes[2]? = some n' ∧
      n.parent = some ⟨0⟩ ∧ n.alternate = some ⟨1⟩ ∧
      sumOver sentToParent 2 past = 20 ∧ sumOver sentToAlternate 2 past = 0 ∧
      Hop.departures m.hops ⟨2⟩ ⟨0⟩ = 5 ∧ Hop.departures m.hops ⟨2⟩ ⟨1⟩ = 5 ∧
      n'.forwarded = 30 ∧ n'.viaAlternate = 5 := by
  intro m past
  obtain ⟨n, hn, hfacts⟩ := (Option.any_eq_true _ _).1 leaf_detouring
  obtain ⟨hid, hp, ha, htraffic, hforwarded, hvia⟩ := of_decide_eq_true hfacts
  have hn' := Array.getElem?_eq_getElem
    ((follows_step m).1.symm ▸ (Array.getElem?_eq_some_iff.1 hn).1 : 2 < m.step.2.nodes.size)
  obtain ⟨-, -, hviaTotal, hforwardedTotal, hsplit⟩ := packets_divided detouring 2 n hn
  obtain ⟨htoParent, htoAlternate, -, hnext⟩ := hsplit ⟨0⟩ ⟨1⟩ hp ha
  obtain ⟨hforwarded', hvia'⟩ := hnext _ hn'
  have hyoungest : m.nodes.size ≤ n.id.index + 1 := by
    rw [size_detouring, hid]
    rfl
  have harrivals := arrivals_of_youngest (rooted_applyAll detouring) hyoungest
  have hhandled : (saturate32 (n.traffic.toNat + Hop.arrivals m.hops n.id)).toNat = 10 := by
    rw [harrivals, htraffic]
    rfl
  rw [hhandled, hid] at htoParent htoAlternate
  rw [hhandled, hforwarded] at hforwarded'
  have hfive : Hop.departures m.hops ⟨2⟩ ⟨1⟩ = 5 := htoAlternate.elim id id
  rw [hid, hvia, hfive] at hvia'
  rw [hvia] at hviaTotal
  rw [hvia, hforwarded, Nat.add_zero] at hforwardedTotal
  exact ⟨n, _, hn, hn', hp, ha, hforwardedTotal.symm, hviaTotal.symm, htoParent.elim id id, hfive,
    hforwarded', hvia'⟩

end Mesh

end CongestionRouting
