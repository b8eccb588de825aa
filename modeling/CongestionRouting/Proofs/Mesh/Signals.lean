import CongestionRouting.Proofs.Mesh.Coherence

namespace CongestionRouting

theorem recordSignal_unknown_iff {sender : Address} {t : NeighborTable} :
    (recordSignal sender t).1 = .unknown ↔ t.lookup sender = none := by
  cases hl : t.lookup sender with
  | none =>
    rw [NeighborTable.recordSignal_of_unknown hl]
    exact iff_of_true rfl rfl
  | some h =>
    rw [NeighborTable.recordSignal_of_lookup hl]
    simp only
    split <;> simp only [reduceCtorEq]

namespace Agent

variable {ρ α τ : Type} [RouteStore ρ]

/-- A signal is counted if its sender is in the table, whatever it leads to. -/
theorem signalsReceived_receiveSignal (a : Agent) (sender : Address) (host : Host NeighborTable ρ α τ) :
    (a.receiveSignal sender host).2.1.tally.signalsReceived =
      a.tally.signalsReceived + (host.neighbors.lookup sender).isSome.toNat := by
  have hknown : (recordSignal sender host.neighbors).1 = .unknown ↔
      host.neighbors.lookup sender = none := recordSignal_unknown_iff
  unfold receiveSignal
  generalize recordSignal sender host.neighbors = recorded at hknown
  obtain ⟨source, neighbors⟩ := recorded
  cases source with
  | unknown =>
    rw [hknown.1 rfl]
    rfl
  | neighbor h =>
    rw [Option.isSome_iff_ne_none.2 fun hnone => absurd (hknown.2 hnone) nofun]
    rfl
  | preferredParent h =>
    rw [Option.isSome_iff_ne_none.2 fun hnone => absurd (hknown.2 hnone) nofun]
    simp only
    split
    · rfl
    · simp only [Tally.addActivation]
      split <;> rfl

end Agent

namespace MeshNode

variable {n n' : MeshNode}

def signals (n : MeshNode) : Nat := n.agent.tally.signalsReceived

theorem signals_hear (n : MeshNode) (sender : Address) :
    (n.hear sender).signals = n.signals + (n.host.neighbors.lookup sender).isSome.toNat := by
  unfold MeshNode.hear
  split
  · exact Agent.signalsReceived_receiveSignal ..
  · next hunknown =>
    rw [Bool.not_eq_true] at hunknown
    rw [hunknown]
    rfl

theorem isSome_lookup_hear (hn : n.host.neighbors.Orderly) (sender address : Address) :
    ((n.hear sender).host.neighbors.lookup address).isSome =
      (n.host.neighbors.lookup address).isSome := by
  rw [neighbors_hear, Bool.eq_iff_iff, (hn.recordSignal sender).isSome_lookup_iff,
    hn.isSome_lookup_iff, NeighborTable.addresses_eq_of_map (hn.entryAt_recordSignal sender)
      fun _ => rfl]

/-- What hearing does to a node: the signals of those that it knows count, and set their flags. -/
structure Attends (senders : List Address) (n n' : MeshNode) : Prop where
  signals_eq : n'.signals =
    n.signals + senders.countP fun sender => (n.host.neighbors.lookup sender).isSome
  get?_eq : ∀ h, n'.host.neighbors.get? h = (n.host.neighbors.get? h).map fun e =>
    { e with congested := e.congested || decide (e.address ∈ senders) }
  advertiser_eq : n'.host.advertiser = n.host.advertiser

theorem attends_hearAll (hn : n.host.neighbors.Orderly) (senders : List Address) :
    Attends senders n (senders.foldl MeshNode.hear n) := by
  induction senders generalizing n with
  | nil => exact ⟨rfl, fun h => by simp, rfl⟩
  | cons sender senders ih =>
    have hfirst := neighbors_hear n sender
    obtain ⟨hsignals, hget, hadvertiser⟩ := ih (hfirst ▸ hn.recordSignal sender)
    refine ⟨?_, fun h => ?_, hadvertiser.trans (advertiser_hear sender)⟩
    · simp only [isSome_lookup_hear hn] at hsignals
      rw [List.foldl_cons, hsignals, signals_hear, List.countP_cons, Nat.add_assoc,
        Nat.add_comm (Bool.toNat _), Bool.toNat, Bool.cond_eq_ite]
    · rw [List.foldl_cons, hget, hfirst, NeighborTable.get?_recordSignal hn, Option.map_map]
      exact congrArg (Option.map · _) (funext fun e => by simp [Bool.or_assoc])

/-- The same signals are counted. -/
def Unsignalled (n n' : MeshNode) : Prop := n'.signals = n.signals

instance : IsPreorder MeshNode Unsignalled where
  refl _ := rfl
  trans _ _ _ h h' := h'.trans h

end MeshNode

namespace Mesh

open MeshNode

variable {m : Mesh} {i : Nat} {n told heard : MeshNode} {report : TickReport}
  {notifying : List NodeId}

theorem unsignalled_reported (m : Mesh) :
    Pointwise (fun _ => Unsignalled) m.nodes m.reported.nodes := by
  have hmove : ∀ (t : Transit) (i : Nat),
      Pointwise (fun _ => Unsignalled) t.mesh.nodes (t.moveNode i).mesh.nodes := fun _ =>
    Transit.pointwise_moveNode (fun _ => rfl) (fun _ _ => rfl) (fun _ _ => rfl) (fun _ _ _ _ => rfl)
  have hreport : ∀ (nodes : Array MeshNode) (index : Nat),
      Pointwise (fun _ => Unsignalled) nodes (reportNode nodes index) := by
    refine pointwise_reportNode (fun _ _ => rfl) fun _ p n => ?_
    simp only [Unsignalled, signals, MeshNode.receiveReport, Agent.receiveReport]
    split <;> rfl
  exact (Transit.pointwise_moveAll hmove ⟨{ m with steps := m.steps + 1 }, 0, 0⟩ m.nodes.size).trans
    (pointwise_reportNodes hreport _ _)

theorem countP_congestedSenders (p : Address → Bool) : m.congestedSenders.countP p =
    m.nodes.toList.countP fun n => n.host.advertiser.pending && p n.id.address := by
  rw [congestedSenders, List.countP_filterMap]
  refine List.countP_congr fun n _ => ?_
  change (Option.map p (if n.host.advertiser.pending = true then some n.id.address else none)).getD
    false = true ↔ _
  cases n.host.advertiser.pending <;> simp

/-- Before an interval: those are going to advertise who notified in the interval before. -/
structure Signalling (notifying : List NodeId) (m : Mesh) : Prop where
  rooted : m.Rooted
  atRest : ∀ n ∈ m.nodes, n.AtRest
  index_lt : ∀ id ∈ notifying, id.index < m.nodes.size
  pending_iff : ∀ (i : Nat) (n : MeshNode), m.nodes[i]? = some n →
    (n.host.advertiser.pending = true ↔ n.id ∈ notifying)

theorem signalling_empty : Signalling [] empty where
  rooted := rooted_applyAll []
  atRest := atRest_applyAll []
  index_lt := nofun
  pending_iff _ _ hn := absurd hn (by simp [empty])

/-- Between two intervals no advertisement is sent, and none comes to wait. -/
theorem Signalling.apply (hm : m.Signalling notifying) {event : MeshEvent} (he : event ≠ .step) :
    (m.apply event).2.Signalling notifying := by
  refine ⟨hm.rooted.apply event, atRest_apply hm.atRest event, fun id hid => ?_, ?_⟩
  · exact (hm.index_lt id hid).trans_le (size_le_of_joined (joined_apply m he).2)
  · refine forall_getElem?_of_apply (fun _ n n' _ hn hmet => ?_) (fun _ n n' _ _ hn hev => ?_)
      (fun plan node hd => ?_) hm.pending_iff he
    · obtain ⟨handle, table, -, rfl⟩ := meet_eq_ok hmet
      exact hn
    · obtain ⟨h, -, heq⟩ := Option.map_eq_some_iff.1 hev
      injection heq with _ heq
      subst heq
      exact hn
    · -- The identifier of a new node is new, and so is not that of a node that notified.
      have hindex := (rooted_design hd).index_eq
      obtain ⟨-, -, config, agent, table, -, -, rfl⟩ := design_eq_ok hd
      refine iff_of_false nofun fun hmem => ?_
      exact absurd (hm.index_lt _ hmem) (by rw [hindex]; exact Nat.lt_irrefl _)

theorem Passes.table_eq (h : m.Passes i n told heard report) :
    told.advertise.2.host.neighbors = n.host.neighbors := by
  change told.host.neighbors = _
  rw [h.keeps.host_eq]

theorem Passes.attends (hm : m.Rooted) (hn : m.nodes[i]? = some n)
    (h : m.Passes i n told heard report) : told.advertise.2.Attends m.congestedSenders heard := by
  rw [h.hears, congestedSenders_reported]
  exact attends_hearAll (h.table_eq ▸ (hm i n hn).consistent.toOrderly) m.congestedSenders

/-- A node that notified and no other has an advertisement waiting when the interval is over. -/
theorem Passes.pending_eq (hm : m.Rooted) (hn : m.nodes[i]? = some n)
    (h : m.Passes i n told heard report) :
    heard.tick.2.host.advertiser.pending = report.notified := by
  have hlowered : heard.host.advertiser.pending = false := by
    rw [(h.attends hm hn).advertiser_eq]
    rfl
  rw [h.ticked.pending_eq, hlowered, Bool.false_or]

theorem mem_notifying {r : StepReport} {id : NodeId} :
    id ∈ r.notifying ↔ ∃ report, (id, report) ∈ r.ticks ∧ report.notified = true := by
  simp only [StepReport.notifying, List.mem_map, List.mem_filter, Prod.exists, exists_and_right,
    exists_eq_right]

theorem Passes.mem_notifying_iff (hm : m.Rooted) (hrest : ∀ n ∈ m.nodes, n.AtRest)
    (hn : m.nodes[i]? = some n) (h : m.Passes i n told heard report) :
    n.id ∈ m.step.1.notifying ↔ report.notified = true := by
  rw [mem_notifying]
  refine ⟨fun ⟨report', hmem, hnotified⟩ => ?_, fun hnotified => ?_⟩
  · obtain ⟨j, k, _, _, _, hk, hpasses, heq⟩ := exists_passes_of_mem hrest hmem
    injection heq with hid hreport
    -- No two nodes have one identifier, so that the report is that of the node itself.
    obtain rfl : j = i := by rw [← (hm j k hk).index_eq, ← (hm i n hn).index_eq, hid]
    have hticks := hpasses.ticks_eq.symm.trans h.ticks_eq
    injection hticks with hticks
    injection hticks with _ hticks
    rw [← hticks, ← hreport]
    exact hnotified
  · exact ⟨report, List.mem_of_getElem? h.ticks_eq, hnotified⟩

theorem signalling_step (hm : m.Rooted) (hrest : ∀ n ∈ m.nodes, n.AtRest) :
    m.step.2.Signalling m.step.1.notifying := by
  have hsize : m.step.2.nodes.size = m.nodes.size := (follows_step m).1
  refine ⟨hm.apply .step, atRest_step hrest, fun id hid => ?_, fun i n' hn' => ?_⟩
  · obtain ⟨report, hmem, -⟩ := mem_notifying.1 hid
    obtain ⟨j, k, _, _, _, hk, -, heq⟩ := exists_passes_of_mem hrest hmem
    injection heq with hid
    rw [hid, (hm j k hk).index_eq, hsize]
    exact (Array.getElem?_eq_some_iff.1 hk).1
  · obtain ⟨n, hn, -⟩ := (follows_step m).2 i n' hn'
    obtain ⟨told, heard, report, hpasses⟩ := exists_passes hrest hn
    obtain rfl : heard.tick.2 = n' := Option.some.inj (hpasses.step_eq.symm.trans hn')
    have hid : heard.tick.2.id = n.id := hpasses.listens.id_eq.trans hpasses.keeps.id_eq
    rw [hid, hpasses.mem_notifying_iff hm hrest hn, hpasses.pending_eq hm hn]

def lastNotifying (m : Mesh) (events : List MeshEvent) : List NodeId :=
  ((m.reports events).getLast?.map StepReport.notifying).getD []

theorem reports_append_singleton (m : Mesh) (events : List MeshEvent) (event : MeshEvent) :
    m.reports (events ++ [event]) =
      m.reports events ++ ((m.applyAll events).apply event).1.report?.toList := by
  induction events generalizing m with
  | nil => simp [reports, applyAll]
  | cons first events ih =>
    rw [List.cons_append, reports, ih, reports, List.append_assoc]
    rfl

theorem signalling_applyAll (events : List MeshEvent) :
    (empty.applyAll events).Signalling (empty.lastNotifying events) := by
  induction events using List.reverseRecOn with
  | nil => exact signalling_empty
  | append_singleton events event ih =>
    rw [applyAll_concat, lastNotifying, reports_append_singleton]
    by_cases he : event = .step
    · subst he
      have hreport : ((empty.applyAll events).apply .step).1.report? =
          some (empty.applyAll events).step.1 := rfl
      rw [hreport, Option.toList_some, List.getLast?_concat]
      exact signalling_step ih.rooted ih.atRest
    · rw [(joined_apply _ he).1, Option.toList_none, List.append_nil]
      exact ih.apply he

theorem Passes.signals_eq (hm : m.Signalling notifying) (hn : m.nodes[i]? = some n)
    (h : m.Passes i n told heard report) : heard.tick.2.signals =
      n.signals + m.nodes.toList.countP fun k =>
        (n.host.neighbors.lookup k.id.address).isSome && decide (k.id ∈ notifying) := by
  have hticked : heard.tick.2.signals = heard.signals := by
    rw [signals, h.ticked.tally_eq]
    rfl
  obtain ⟨old, hold, htold⟩ := (unsignalled_reported m).2 i told h.told_eq
  obtain rfl : old = n := Option.some.inj (hold.symm.trans hn)
  have hbefore : told.advertise.2.signals = old.signals := htold
  rw [hticked, (h.attends hm.rooted hn).signals_eq, hbefore, h.table_eq, countP_congestedSenders]
  congr 1
  refine List.countP_congr fun k hk => ?_
  obtain ⟨j, hj⟩ := Array.mem_iff_getElem?.1 (Array.mem_toList_iff.1 hk)
  rw [Bool.and_comm, Bool.and_eq_true, Bool.and_eq_true, decide_eq_true_iff, hm.pending_iff j k hj]

theorem Signalling.mem_congestedSenders_iff (hm : m.Signalling notifying) {a : Address} :
    a ∈ m.congestedSenders ↔ ∃ id ∈ notifying, id.address = a := by
  rw [mem_congestedSenders]
  constructor
  · rintro ⟨k, hk, hpending, haddress⟩
    obtain ⟨j, hj⟩ := Array.mem_iff_getElem?.1 hk
    exact ⟨k.id, (hm.pending_iff j k hj).1 hpending, haddress⟩
  · rintro ⟨id, hid, haddress⟩
    have hlt := hm.index_lt id hid
    have hj := Array.getElem?_eq_getElem hlt
    have hsame : m.nodes[id.index].id = id := NodeId.index_inj.1 (hm.rooted _ _ hj).index_eq
    exact ⟨_, Array.getElem_mem _, (hm.pending_iff _ _ hj).2 (hsame.symm ▸ hid),
      hsame.symm ▸ haddress⟩

theorem Passes.get?_eq (hm : m.Signalling notifying) (hn : m.nodes[i]? = some n)
    (h : m.Passes i n told heard report) (handle : NeighborHandle) :
    heard.host.neighbors.get? handle = (n.host.neighbors.get? handle).map fun e =>
      { e with congested := decide (∃ id ∈ notifying, id.address = e.address) } := by
  rw [(h.attends hm.rooted hn).get?_eq, h.table_eq]
  refine Option.map_congr fun e he => ?_
  -- The flags were all down when the interval began, so that those set now come from the senders.
  have hclear := (hm.atRest n (Array.mem_of_getElem? hn)).unflagged e
    (NeighborTable.mem_entries_of_get? he)
  simp only [hclear, Bool.false_or, hm.mem_congestedSenders_iff]

/-- In every interval of every run a node takes in one signal of each neighbor that notified in the
interval before and no other signal, and judges itself with the flags of these neighbors set and no other. -/
theorem signals_applyAll (events : List MeshEvent) :
    let m := empty.applyAll events
    let notifying := empty.lastNotifying events
    ∀ (i : Nat) (n : MeshNode), m.nodes[i]? = some n → ∃ told heard report,
      m.Passes i n told heard report ∧
        heard.tick.2.signals = n.signals + m.nodes.toList.countP (fun k =>
          (n.host.neighbors.lookup k.id.address).isSome && decide (k.id ∈ notifying)) ∧
        ∀ h, heard.host.neighbors.get? h = (n.host.neighbors.get? h).map fun e =>
          { e with congested := decide (∃ id ∈ notifying, id.address = e.address) } := by
  intro m notifying i n hn
  have hm : m.Signalling notifying := signalling_applyAll events
  obtain ⟨told, heard, report, hpasses⟩ := exists_passes hm.atRest hn
  exact ⟨told, heard, report, hpasses, hpasses.signals_eq hm hn, hpasses.get?_eq hm hn⟩

end Mesh

end CongestionRouting
