import CongestionRouting.Mesh.Event
import CongestionRouting.Proofs.Mesh.Forwarding

namespace CongestionRouting

def MeshAnswer.report? : MeshAnswer → Option StepReport
  | .stepped report => some report
  | _ => none

namespace Mesh

open MeshNode

variable {m m' : Mesh} {past : List StepReport} {nodes nodes' : Array MeshNode}

section Reports

variable {R : Nat → MeshNode → MeshNode → Prop} [∀ i, IsPreorder MeshNode (R i)]

theorem pointwise_reportNode (hreport : ∀ i (n : MeshNode), R i n n.report.2)
    (hreceive : ∀ i (p n : MeshNode), R i p (p.receiveReport n.report.1)) (nodes : Array MeshNode)
    (index : Nat) : Pointwise R nodes (reportNode nodes index) := by
  unfold reportNode
  split
  · exact .refl nodes
  · next node hnode =>
    split
    · exact .refl nodes
    · exact (Pointwise.set hnode (hreport index node)).trans (.modify fun p => hreceive _ p node)

theorem pointwise_reportNodes
    (hreport : ∀ nodes index, Pointwise R nodes (reportNode nodes index)) (indices : List Nat)
    (nodes : Array MeshNode) : Pointwise R nodes (indices.foldl reportNode nodes) := by
  induction indices generalizing nodes with
  | nil => exact .refl nodes
  | cons index indices ih => exact (hreport nodes index).trans (ih _)

theorem pointwise_settled (hreport : ∀ i (n : MeshNode), R i n n.report.2)
    (hreceive : ∀ i (p n : MeshNode), R i p (p.receiveReport n.report.1))
    (hadvertise : ∀ i (n : MeshNode), R i n n.advertise.2)
    (hhear : ∀ i (n : MeshNode) sender, R i n (n.hear sender))
    (htick : ∀ i (n : MeshNode), R i n n.tick.2) (m : Mesh) :
    Pointwise R (forward { m with steps := m.steps + 1 }).mesh.nodes m.step.2.nodes := by
  let told := (forward { m with steps := m.steps + 1 }).mesh.exchangeReports
  have hreports : Pointwise R (forward { m with steps := m.steps + 1 }).mesh.nodes told.nodes :=
    pointwise_reportNodes (pointwise_reportNode hreport hreceive) _ _
  have hheard : Pointwise R told.nodes told.advertise.nodes :=
    .map fun i n => trans_of (R i) (hadvertise i n) (hearAll_of_hear (hhear i) _ _)
  have hmap : m.step.2.nodes = told.advertise.nodes.map fun n => n.tick.2 := by
    change told.advertise.tick.2.nodes = _
    simp only [tick, Array.map_map]
    rfl
  have hticks : Pointwise R told.advertise.nodes m.step.2.nodes := by
    rw [hmap]
    exact .map htick
  exact (hreports.trans hheard).trans hticks

end Reports

theorem rests_reportNode (nodes : Array MeshNode) (index : Nat) :
    Pointwise Rests nodes (reportNode nodes index) :=
  pointwise_reportNode (fun _ _ => .report) (fun _ _ _ => .receiveReport _) nodes index

/-- Once the packets have travelled, the rest of an interval leaves them alone. -/
theorem rests_step (m : Mesh) :
    Pointwise Rests (forward { m with steps := m.steps + 1 }).mesh.nodes m.step.2.nodes :=
  pointwise_settled (fun _ _ => .report) (fun _ _ _ => .receiveReport _) (fun _ _ => .advertise)
    (fun _ _ => .hear) (fun _ _ => .tick) m

theorem follows_step (m : Mesh) : Pointwise Follows m.nodes m.step.2.nodes := by
  have hmoved := Transit.follows_moveAll ⟨{ m with steps := m.steps + 1 }, 0, 0⟩ m.nodes.size
  exact hmoved.trans ((rests_step m).mono fun _ _ _ h => h.follows)

/-- The nodes between two intervals, after those that the reports are of. -/
structure Settled (past : List StepReport) (nodes : Array MeshNode) : Prop where
  descending : Descending nodes
  inbox_eq_zero : ∀ n ∈ nodes, n.inbox = 0
  originated_eq : total PacketAccount.originated nodes =
    total PacketAccount.received nodes + total PacketAccount.lost nodes
  received_eq : total PacketAccount.received nodes = (past.map StepReport.delivered).sum
  lost_eq : total PacketAccount.lost nodes = (past.map StepReport.lost).sum

theorem settled_empty : Settled [] empty.nodes where
  descending i n hn := absurd hn (by simp [empty])
  inbox_eq_zero n hn := absurd hn (by simp [empty])
  originated_eq := rfl
  received_eq := rfl
  lost_eq := rfl

theorem Settled.rests (hm : Settled past nodes) (h : Pointwise Rests nodes nodes') :
    Settled past nodes' := by
  obtain ⟨hdescending, hinbox, horiginated, hreceived, hlost⟩ := hm
  simp only [← total_eq_of_rests h] at horiginated hreceived hlost
  refine ⟨hdescending.of_follows (h.mono fun _ _ _ hr => hr.follows), fun n' hn' => ?_,
    horiginated, hreceived, hlost⟩
  obtain ⟨i, hi⟩ := Array.mem_iff_getElem?.1 hn'
  obtain ⟨n, hn, hr⟩ := h.2 i n' hi
  exact (congrArg PacketAccount.inbox hr.account_eq).trans (hinbox n (Array.mem_of_getElem? hn))

theorem Settled.push (hm : Settled past nodes) {node : MeshNode} (hd : node.Descends nodes.size)
    (hinbox : node.inbox = 0) (horiginated : node.originated = 0) (hreceived : node.received = 0)
    (hlost : node.lost = 0) : Settled past (nodes.push node) := by
  -- The new node has handled no packet, so it adds nothing to the totals.
  have hsame : ∀ f : PacketAccount → Nat, f node.account = 0 →
      total f (nodes.push node) = total f nodes :=
    fun f hf => by rw [total_push, hf, Nat.add_zero]
  have htotal := hsame PacketAccount.originated horiginated
  have htotal' := hsame PacketAccount.received hreceived
  have htotal'' := hsame PacketAccount.lost hlost
  refine ⟨fun i n hn => ?_, fun n hn => ?_, ?_, htotal'.trans hm.received_eq,
    htotal''.trans hm.lost_eq⟩
  · rw [Array.getElem?_push] at hn
    split at hn
    · next hi =>
      injection hn with hn
      exact hn ▸ hi ▸ hd
    · exact hm.descending i n hn
  · rcases Array.mem_push.1 hn with hold | rfl
    · exact hm.inbox_eq_zero n hold
    · exact hinbox
  · rw [htotal, htotal', htotal'']
    exact hm.originated_eq

theorem total_waiting_eq_zero (h : ∀ n ∈ nodes, n.inbox = 0) :
    total PacketAccount.waiting nodes = 0 :=
  total_eq_zero fun n hn => congrArg UInt32.toNat (h n hn)

theorem conserves_forward (hm : Settled past m.nodes) (hroom : m.offered < UInt32.size) :
    Transit.Conserves ⟨m, 0, 0⟩ m.forward m.offered ∧ ∀ n ∈ m.forward.mesh.nodes, n.inbox = 0 := by
  have hoffered : ((Transit.offers m.nodes).take m.nodes.size).sum = m.offered := by
    rw [List.take_of_length_le (by simp [Transit.offers])]
    rfl
  have hempty : EmptyFrom m.nodes.size m.nodes := by
    intro i n hle hn
    exact absurd (Array.getElem?_eq_some_iff.1 hn).1 (by omega)
  have hcounted : total PacketAccount.waiting m.nodes +
      ((Transit.offers m.nodes).take m.nodes.size).sum ≤ 0xffffffff := by
    rw [total_waiting_eq_zero hm.inbox_eq_zero, hoffered, Nat.zero_add]
    exact Nat.le_of_lt_succ hroom
  obtain ⟨hall, hdone⟩ :=
    Transit.conserves_moveAll (t := ⟨m, 0, 0⟩) hm.descending hempty hcounted
  refine ⟨hoffered ▸ hall, fun n hn => ?_⟩
  obtain ⟨i, hi⟩ := Array.mem_iff_getElem?.1 hn
  exact hdone i n (Nat.zero_le i) hi

/-- All packets of an interval travel to their end, if there are few enough of them to be counted. -/
theorem settled_forward (hm : Settled past m.nodes) (hroom : m.offered < UInt32.size)
    (report : StepReport) (hdelivered : report.delivered = m.forward.delivered)
    (hlost : report.lost = m.forward.lost) :
    Settled (past ++ [report]) m.forward.mesh.nodes ∧
      report.delivered + report.lost = m.offered := by
  obtain ⟨⟨hbalance, -, horiginated, hreceived, hlost'⟩, hempty⟩ := conserves_forward hm hroom
  rw [total_waiting_eq_zero hm.inbox_eq_zero, total_waiting_eq_zero hempty] at hbalance
  simp only [Nat.add_zero, Nat.zero_add, ← hdelivered, ← hlost] at hbalance horiginated hreceived hlost'
  have hfollows := Transit.follows_moveAll ⟨m, 0, 0⟩ m.nodes.size
  refine ⟨⟨hm.descending.of_follows hfollows, hempty, ?_, ?_, ?_⟩, hbalance⟩
  · have hbefore := hm.originated_eq
    omega
  · rw [hreceived, hm.received_eq, List.map_append, List.sum_append]
    rfl
  · rw [hlost', hm.lost_eq, List.map_append, List.sum_append]
    rfl

theorem settled_step (hm : Settled past m.nodes) (hroom : m.offered < UInt32.size) :
    Settled (past ++ [m.step.1]) m.step.2.nodes ∧
      m.step.1.delivered + m.step.1.lost = m.offered := by
  obtain ⟨hmoved, hreport⟩ :=
    settled_forward (m := { m with steps := m.steps + 1 }) hm hroom m.step.1 rfl rfl
  exact ⟨hmoved.rests (rests_step m), hreport⟩

/-- What a change other than an interval can do to the nodes: a new one that has handled no packet
may join them. -/
inductive Joined (nodes nodes' : Array MeshNode) : Prop where
  | none (rests : Pointwise Rests nodes nodes')
  | one (kept : Array MeshNode) (rests : Pointwise Rests nodes kept) (node : MeshNode)
      (descends : node.Descends kept.size) (inbox_eq : node.inbox = 0)
      (counts_eq : node.originated = 0 ∧ node.received = 0 ∧ node.lost = 0)
      (nodes_eq : nodes' = kept.push node)

theorem rests_introduce (address : Address) (ids : List NodeId) (nodes : Array MeshNode) :
    Pointwise Rests nodes (introduce address ids nodes).2 := by
  refine ⟨size_introduce, ?_⟩
  apply introduce_induction (Q := fun i n' => ∃ n, nodes[i]? = some n ∧ n.Rests i n')
  · rintro id - n n' ⟨old, hold, hr⟩ hmet
    exact ⟨old, hold, trans_of (Rests _) hr (.meet hmet)⟩
  · intro i n hn
    exact ⟨n, hn, refl_of (Rests i) n⟩

theorem joined_build (m : Mesh) (plan : NodePlan) : Joined m.nodes (m.build plan).2.nodes := by
  cases hd : m.design plan with
  | error e =>
    have hbuild : (m.build plan).2 = m := by simp only [build, hd]
    rw [hbuild]
    exact .none (.refl _)
  | ok node =>
    have hrests := rests_introduce m.nextAddress plan.uplinks m.nodes
    rw [(build_of_design hd).2]
    split
    · next hi =>
      rw [hi] at hrests
      exact .none hrests
    · next kept hi =>
      rw [hi] at hrests
      have hdescends := descends_design hd
      obtain ⟨-, -, config, agent, table, -, -, rfl⟩ := design_eq_ok hd
      exact .one kept hrests _ (hrests.1 ▸ hdescends) rfl ⟨rfl, rfl, rfl⟩ rfl

theorem setDelivery_eq_ok {a b : NodeId} {d : Delivery} (h : m.setDelivery a b d = .ok m') :
    m' = { m with links := m.links.insert (.between a b) d } := by
  unfold setDelivery at h
  split at h
  · exact absurd h nofun
  · split at h
    · exact absurd h nofun
    · split at h
      · exact absurd h nofun
      · injection h with h
        exact h.symm

theorem evict_eq_ok {id neighbor : NodeId} {withdrawn : Bool}
    (h : m.evict id neighbor = .ok (withdrawn, m')) :
    ∃ node node', m.nodes[id.index]? = some node ∧ node.evict neighbor = some (withdrawn, node') ∧
      m' = { m with nodes := m.nodes.setIfInBounds id.index node' } := by
  unfold evict at h
  split at h
  · exact absurd h nofun
  · next node hnode =>
    split at h
    · exact absurd h nofun
    · next node' he =>
      injection h with h
      injection h with hwithdrawn h
      exact ⟨node, node', hnode, hwithdrawn ▸ he, h.symm⟩

theorem joined_apply (m : Mesh) {event : MeshEvent} (he : event ≠ .step) :
    (m.apply event).1.report? = none ∧ Joined m.nodes (m.apply event).2.nodes := by
  have hsame : Joined m.nodes m.nodes := .none (.refl _)
  cases event with
  | step => exact absurd rfl he
  | reseed seed => exact ⟨rfl, hsame⟩
  | build plan =>
    have hbuild := joined_build m plan
    rcases hb : m.build plan with ⟨id | e, m'⟩ <;> rw [hb] at hbuild <;> simp only [apply, hb] <;>
      exact ⟨rfl, hbuild⟩
  | setDelivery a b d =>
    cases hs : m.setDelivery a b d with
    | error e => simpa only [apply, hs] using ⟨rfl, hsame⟩
    | ok m' =>
      simp only [apply, hs, setDelivery_eq_ok hs]
      exact ⟨rfl, hsame⟩
  | evict id neighbor =>
    cases hev : m.evict id neighbor with
    | error e => simpa only [apply, hev] using ⟨rfl, hsame⟩
    | ok result =>
      obtain ⟨node, node', hnode, he, hresult⟩ := evict_eq_ok hev
      simp only [apply, hev, hresult]
      exact ⟨rfl, .none (.set hnode (.evict he))⟩

theorem Settled.joined (hm : Settled past nodes) (hj : Joined nodes nodes') :
    Settled past nodes' := by
  cases hj with
  | none rests => exact hm.rests rests
  | one kept rests node descends inbox_eq counts_eq nodes_eq =>
    obtain ⟨horiginated, hreceived, hlost⟩ := counts_eq
    rw [nodes_eq]
    exact (hm.rests rests).push descends inbox_eq horiginated hreceived hlost

theorem size_le_of_joined (hj : Joined nodes nodes') : nodes.size ≤ nodes'.size := by
  cases hj with
  | none rests => exact Nat.le_of_eq rests.1.symm
  | one kept rests node _ _ _ nodes_eq =>
    rw [nodes_eq, Array.size_push, rests.1]
    exact Nat.le_succ _

theorem total_le_of_joined {f : PacketAccount → Nat} (hj : Joined nodes nodes') :
    total f nodes ≤ total f nodes' := by
  cases hj with
  | none rests => exact Nat.le_of_eq (total_eq_of_rests rests).symm
  | one kept rests node _ _ _ nodes_eq =>
    rw [nodes_eq, total_push, total_eq_of_rests rests]
    exact Nat.le_add_right _ _

theorem offered_step (m : Mesh) : m.step.2.offered = m.offered :=
  congrArg List.sum ((follows_step m).map_eq fun _ _ _ h => h.offered_eq)

theorem offered_le_apply (m : Mesh) (event : MeshEvent) : m.offered ≤ (m.apply event).2.offered := by
  by_cases he : event = .step
  · subst he
    exact Nat.le_of_eq (offered_step m).symm
  · exact total_le_of_joined (joined_apply m he).2

theorem offered_le_applyAll (m : Mesh) (events : List MeshEvent) :
    m.offered ≤ (m.applyAll events).offered := by
  induction events generalizing m with
  | nil => exact Nat.le_refl _
  | cons event events ih => exact (offered_le_apply m event).trans (ih _)

theorem settled_apply (hm : Settled past m.nodes) (hroom : m.offered < UInt32.size)
    (event : MeshEvent) :
    Settled (past ++ (m.apply event).1.report?.toList) (m.apply event).2.nodes := by
  by_cases he : event = .step
  · subst he
    exact (settled_step hm hroom).1
  · obtain ⟨hnone, hj⟩ := joined_apply m he
    rw [hnone, Option.toList_none, List.append_nil]
    exact hm.joined hj

def reports (m : Mesh) : List MeshEvent → List StepReport
  | [] => []
  | event :: events => (m.apply event).1.report?.toList ++ (m.apply event).2.reports events

theorem settled_applyAll (hm : Settled past m.nodes) (events : List MeshEvent)
    (hroom : (m.applyAll events).offered < UInt32.size) :
    Settled (past ++ m.reports events) (m.applyAll events).nodes := by
  induction events generalizing m past with
  | nil =>
    rw [reports, List.append_nil]
    exact hm
  | cons event events ih =>
    have hbefore : m.offered < UInt32.size :=
      Nat.lt_of_le_of_lt (offered_le_applyAll m (event :: events)) hroom
    rw [reports, ← List.append_assoc]
    exact ih (settled_apply hm hbefore event) hroom

/-- While the nodes together offer no more packets than a word can count, each interval delivers or
loses what they offer and leaves no packet waiting, and the totals of the mesh agree with the reports. -/
theorem packets_conserved {events : List MeshEvent}
    (h : (empty.applyAll events).offered < UInt32.size) :
    (∀ before after, events = before ++ .step :: after →
      let m := empty.applyAll before
      m.step.1.delivered + m.step.1.lost = m.offered ∧ ∀ n ∈ m.step.2.nodes, n.inbox = 0) ∧
    let m := empty.applyAll events
    m.originated = m.delivered + m.lost ∧
      m.delivered = ((empty.reports events).map StepReport.delivered).sum ∧
      m.lost = ((empty.reports events).map StepReport.lost).sum := by
  refine ⟨?_, ?_⟩
  · rintro before after rfl
    -- Nodes never leave the mesh, so it offered no more at that time than in the end.
    rw [applyAll, List.foldl_append] at h
    have hbefore : (empty.applyAll before).offered < UInt32.size :=
      Nat.lt_of_le_of_lt (offered_le_applyAll _ (.step :: after)) h
    obtain ⟨hsettled, hreport⟩ := settled_step (settled_applyAll settled_empty before hbefore) hbefore
    exact ⟨hreport, hsettled.inbox_eq_zero⟩
  · have hsettled := settled_applyAll settled_empty events h
    exact ⟨hsettled.originated_eq, hsettled.received_eq, hsettled.lost_eq⟩

/-- A chain of two nodes below a sink, over a link that loses packets, the nearer of which loses its
parent between two intervals. -/
def detaching : List MeshEvent :=
  [.build ⟨none, [], 0, none⟩, .build ⟨some ⟨0⟩, [], 3, none⟩, .build ⟨some ⟨1⟩, [⟨0⟩], 4, none⟩,
    .setDelivery ⟨1⟩ ⟨0⟩ ⟨50, by decide⟩, .step, .evict ⟨1⟩ ⟨0⟩, .step]

theorem packets_conserved_detaching :
    let m := empty.applyAll (detaching.take 6)
    (empty.applyAll detaching).offered < UInt32.size ∧
      m.step.1.delivered + m.step.1.lost = m.offered ∧ (∀ n ∈ m.step.2.nodes, n.inbox = 0) ∧
      (empty.applyAll detaching).originated =
        (empty.applyAll detaching).delivered + (empty.applyAll detaching).lost := by
  have h : (empty.applyAll detaching).offered < UInt32.size := by
    -- The second interval depends on the links, whose table the kernel does not evaluate.
    change (empty.applyAll (detaching.take 6)).step.2.offered < UInt32.size
    rw [offered_step]
    decide +kernel
  obtain ⟨hsteps, htotals⟩ := packets_conserved h
  obtain ⟨hreport, hinbox⟩ := hsteps (detaching.take 6) [] rfl
  exact ⟨h, hreport, hinbox, htotals.1⟩

end Mesh

end CongestionRouting
