import CongestionRouting.Proofs.CountOption
import CongestionRouting.Proofs.Node.Interference

namespace CongestionRouting

theorem saturate16_saturate32 (n : Nat) : saturate16 (saturate32 n).toNat = saturate16 n := by
  apply UInt16.toNat_inj.1
  simp only [toNat_saturate16, toNat_saturate32]
  omega

/-- A message in which a report was looked for, and the count that was found. -/
structure Reception where
  message : List UInt8
  offset : Nat
  count : Option UInt16
  deriving DecidableEq

def Reception.accepted (r : Reception) : Nat := (r.count.map UInt16.toNat).getD 0

namespace Occurrence

def sent : Occurrence → Nat
  | ⟨.agent (.count (.sent n)), _⟩ => n
  | _ => 0

def made? : Occurrence → Option (List UInt8)
  | ⟨.agent .makeReport, .bytes report⟩ => some report
  | _ => none

def reception? : Occurrence → Option Reception
  | ⟨.agent (.receiveReport message offset), .count count⟩ => some ⟨message, offset, count⟩
  | _ => none

theorem sent_of_made {o : Occurrence} {report : List UInt8} (ho : o.made? = some report) :
    o.sent = 0 := by
  unfold made? at ho
  split at ho
  · rfl
  · exact absurd ho nofun

/-- Without traffic nothing is sent, reported or heard. -/
theorem silent_of_not_traffic {event : AgentEvent} (he : event.isTraffic = false) (answer : Answer) :
    let o : Occurrence := ⟨.agent event, answer⟩
    o.sent = 0 ∧ o.made? = none ∧ o.reception? = none := by
  cases event with
  | count _ | makeReport | receiveReport _ _ => cases he
  | start | stop | tick | signal _ | forget _ | reseed _ => exact ⟨rfl, rfl, rfl⟩

end Occurrence

namespace History

def sent (past : History) : Nat := (past.map Occurrence.sent).sum

def made (past : History) : List (List UInt8) := past.reverse.filterMap Occurrence.made?

/-- The packets sent since the last report. -/
def unreported (past : History) : Nat :=
  ((past.takeWhile fun o => o.made?.isNone).map Occurrence.sent).sum

/-- The packets that were sent before each report, and after the one before it. -/
def batches : History → List Nat
  | [] => []
  | o :: past => batches past ++ (o.made?.map fun _ => unreported past).toList

/-- The messages in which reports were looked for, the first in front. -/
def receptions (past : History) : List Reception := past.reverse.filterMap Occurrence.reception?

variable {past : History} {o : Occurrence}

theorem filterMap_reverse_cons {β : Type} (f : Occurrence → Option β) (o : Occurrence)
    (past : History) :
    (List.reverse (o :: past)).filterMap f = past.reverse.filterMap f ++ (f o).toList := by
  rw [List.reverse_cons, List.filterMap_append]
  cases hf : f o <;> simp [hf]

theorem made_cons (o : Occurrence) (past : History) : made (o :: past) = past.made ++ o.made?.toList :=
  filterMap_reverse_cons _ o past

theorem receptions_cons (o : Occurrence) (past : History) :
    receptions (o :: past) = past.receptions ++ o.reception?.toList :=
  filterMap_reverse_cons _ o past

theorem unreported_cons (o : Occurrence) (past : History) :
    unreported (o :: past) = if o.made?.isSome then 0 else o.sent + past.unreported := by
  unfold unreported
  rw [List.takeWhile_cons]
  cases o.made? <;> rfl

theorem sum_batches_add_unreported (past : History) :
    past.batches.sum + past.unreported = past.sent := by
  induction past with
  | nil => rfl
  | cons o past ih =>
    have hsent : sent (o :: past) = o.sent + sent past := rfl
    rw [hsent, batches, unreported_cons, List.sum_append]
    cases hm : o.made? with
    | none =>
      simp only [Option.map_none, Option.toList_none, List.sum_nil, Option.isSome_none,
        Bool.false_eq_true, if_false]
      omega
    | some report =>
      simp only [Option.map_some, Option.toList_some, List.sum_singleton, Option.isSome_some, if_true,
        Occurrence.sent_of_made hm]
      omega

end History

namespace Agent

/-- All the same that concerns reports. -/
structure Spares (a a' : Agent) : Prop where
  config_eq : a'.config = a.config
  sent_eq : a'.engine.counters.sent = a.engine.counters.sent
  received_eq : a'.tally.optionsReceived = a.tally.optionsReceived
  dropped_eq : a'.tally.optionsDropped = a.tally.optionsDropped

variable {ν ρ α τ : Type} [Neighborhood ν] [RouteStore ρ] [Advertiser α] [IntervalTimer τ] {a : Agent}
  {event : AgentEvent}

theorem spares_of_step (host : Host ν ρ α τ) (he : event.isTraffic = false) :
    a.Spares (a.step host event).2.1 := by
  cases event with
  | tick =>
    simp only [step]
    cases hreport : (a.tick host).1 with
    | none =>
      rw [tick_of_none hreport]
      exact ⟨rfl, rfl, rfl, rfl⟩
    | some report =>
      have hticked := ticked_of_report hreport
      refine ⟨hticked.config_eq, ?_, ?_, ?_⟩
      · rw [hticked.engine_eq]; rfl
      · rw [hticked.tally_eq]; rfl
      · rw [hticked.tally_eq]; rfl
  | signal sender =>
    simp only [step]
    rcases a.receiveSignal_counts sender host with ⟨n, heq⟩ | ⟨-, heq⟩
    · rw [heq]
      exact ⟨rfl, rfl, rfl, rfl⟩
    · rw [heq]
      refine ⟨rfl, rfl, ?_, ?_⟩ <;> cases (a.engine.request (afterSignal sender host)).1 <;> rfl
  | count _ | makeReport | receiveReport _ _ => cases he
  | start | stop | reseed _ | forget _ => exact ⟨rfl, rfl, rfl, rfl⟩

/-- The reports made so far, and the packets for the next one. -/
structure Reporting (type : OptionType) (past : History) (a : Agent) : Prop where
  type_eq : a.config.optionType = type
  sent_eq : a.engine.counters.sent = saturate32 past.unreported
  made_eq : past.made = past.batches.map fun k => CountOption.toBytes ⟨type, saturate16 k⟩

namespace Reporting

variable {type : OptionType} {past : History} {a' : Agent} {o : Occurrence}

theorem start {config : Config} (hc : Agent.ofConfig config = .ok a) :
    a.Reporting config.optionType [] := by
  rw [Agent.ofConfig_eq_ok hc]
  exact ⟨rfl, rfl, rfl⟩

theorem quiet (h : a.Reporting type past) (ho : o.made? = none) (hconfig : a'.config = a.config)
    (hsent : a'.engine.counters.sent = saturate32 (a.engine.counters.sent.toNat + o.sent)) :
    a'.Reporting type (o :: past) := by
  refine ⟨?_, ?_, ?_⟩
  · rw [hconfig, h.type_eq]
  · rw [hsent, h.sent_eq, saturate32_add, History.unreported_cons, ho, Nat.add_comm]
    rfl
  · rw [History.made_cons, History.batches, ho, Option.map_none, Option.toList_none,
      Option.toList_none, List.append_nil, List.append_nil, h.made_eq]

theorem makeReport (h : a.Reporting type past) :
    a.report.2.Reporting type (⟨.agent .makeReport, .bytes a.report.1.toBytes⟩ :: past) := by
  refine ⟨h.type_eq, ?_, ?_⟩
  · rw [History.unreported_cons]
    rfl
  · have hreport : a.report.1 = ⟨type, saturate16 past.unreported⟩ := by
      simp only [report, PacketCounters.takeSent, CountOption.ofCount, h.type_eq, h.sent_eq,
        saturate16_saturate32]
    rw [History.made_cons, History.batches, h.made_eq, List.map_append, hreport]
    rfl

/-- Only a report takes the packets sent, unless the counter is read out behind its back. -/
theorem step (h : a.Reporting type past) (host : Host ν ρ α τ) (he : event ≠ .count .takeSent) :
    (a.step host event).2.1.Reporting type (⟨.agent event, (a.step host event).1⟩ :: past) := by
  have hsame : a.engine.counters.sent = saturate32 (a.engine.counters.sent.toNat + 0) := by
    rw [Nat.add_zero, saturate32_toNat]
  -- What is no traffic spares the counter; of the traffic only a report reads it out.
  cases ht : event.isTraffic with
  | false =>
    have hspares := a.spares_of_step host ht
    obtain ⟨hzero, hnone, -⟩ := Occurrence.silent_of_not_traffic ht (a.step host event).1
    exact h.quiet hnone hspares.config_eq (by rw [hspares.sent_eq, hzero, ← hsame])
  | true =>
    cases event with
    | makeReport => exact h.makeReport
    | receiveReport message offset =>
      simp only [Agent.step, Agent.receiveReport]
      split <;> exact h.quiet rfl rfl hsame
    | count event =>
      cases event with
      | sent n => exact h.quiet rfl rfl rfl
      | takeSent => exact absurd rfl he
      | received _ | expected _ | restart => exact h.quiet rfl rfl hsame
    | start | stop | tick | signal _ | forget _ | reseed _ => cases ht

end Reporting

/-- What was made of the messages heard so far. -/
structure Receiving (type : OptionType) (past : History) (a : Agent) : Prop where
  type_eq : a.config.optionType = type
  tally_eq : a.tally.optionsReceived + a.tally.optionsDropped = past.receptions.length
  count_eq : ∀ r ∈ past.receptions,
    r.count = (CountOption.decodeAt type r.message r.offset).toOption.map CountOption.count

namespace Receiving

variable {type : OptionType} {past : History} {a' : Agent} {o : Occurrence}

theorem start {config : Config} (hc : Agent.ofConfig config = .ok a) :
    a.Receiving config.optionType [] := by
  rw [Agent.ofConfig_eq_ok hc]
  exact ⟨rfl, rfl, nofun⟩

theorem quiet (h : a.Receiving type past) (ho : o.reception? = none) (hconfig : a'.config = a.config)
    (hreceived : a'.tally.optionsReceived = a.tally.optionsReceived)
    (hdropped : a'.tally.optionsDropped = a.tally.optionsDropped) : a'.Receiving type (o :: past) := by
  have hsame : History.receptions (o :: past) = past.receptions := by
    rw [History.receptions_cons, ho, Option.toList_none, List.append_nil]
  refine ⟨?_, ?_, ?_⟩
  · rw [hconfig, h.type_eq]
  · rw [hsame, hreceived, hdropped, h.tally_eq]
  · rw [hsame]
    exact h.count_eq

theorem receiveReport (h : a.Receiving type past) (message : List UInt8) (offset : Nat) :
    (a.receiveReport message offset).2.Receiving type
      (⟨.agent (.receiveReport message offset), .count (a.receiveReport message offset).1⟩ :: past) := by
  have hcount : (a.receiveReport message offset).1 =
      (CountOption.decodeAt type message offset).toOption.map CountOption.count := by
    rw [← h.type_eq, Agent.receiveReport]
    cases CountOption.decodeAt a.config.optionType message offset <;> rfl
  have htally : (a.receiveReport message offset).2.tally.optionsReceived +
      (a.receiveReport message offset).2.tally.optionsDropped =
        a.tally.optionsReceived + a.tally.optionsDropped + 1 := by
    unfold Agent.receiveReport
    split
    · exact Nat.add_right_comm _ _ _
    · rfl
  refine ⟨?_, ?_, ?_⟩
  · rw [← h.type_eq, Agent.receiveReport]
    split <;> rfl
  · rw [htally, h.tally_eq, History.receptions_cons, List.length_append]
    rfl
  · rw [History.receptions_cons]
    intro r hmem
    rcases List.mem_append.1 hmem with hold | hnew
    · exact h.count_eq r hold
    · obtain rfl : r = _ := List.mem_singleton.1 hnew
      exact hcount

theorem step (h : a.Receiving type past) (host : Host ν ρ α τ) (event : AgentEvent) :
    (a.step host event).2.1.Receiving type (⟨.agent event, (a.step host event).1⟩ :: past) := by
  cases ht : event.isTraffic with
  | false =>
    have hspares := a.spares_of_step host ht
    obtain ⟨-, -, hnone⟩ := Occurrence.silent_of_not_traffic ht (a.step host event).1
    exact h.quiet hnone hspares.config_eq hspares.received_eq hspares.dropped_eq
  | true =>
    cases event with
    | receiveReport message offset => exact h.receiveReport message offset
    | count _ | makeReport => exact h.quiet rfl rfl rfl rfl
    | start | stop | tick | signal _ | forget _ | reseed _ => cases ht

end Receiving

/-- A message without a report leaves the counts as they are. -/
theorem receiveReport_of_malformed {message : List UInt8} {offset : Nat}
    (hm : CountOption.Malformed a.config.optionType (message.drop offset)) :
    (a.receiveReport message offset).1 = none ∧
      (a.receiveReport message offset).2.engine = a.engine := by
  have hnone := CountOption.decode_toOption_eq_none_iff.2 hm
  unfold Agent.receiveReport CountOption.decodeAt
  cases hd : CountOption.decode a.config.optionType (message.drop offset) with
  | error e => exact ⟨rfl, rfl⟩
  | ok option =>
    rw [hd] at hnone
    exact absurd hnone nofun

end Agent

/-- Which report a message brings, between other bytes; another message brings none. -/
inductive Reception.Brings (made : List (List UInt8)) : Option Nat → Reception → Prop where
  | report {i : Nat} {report : List UInt8} (h : made[i]? = some report) (before after : List UInt8)
      (count : Option UInt16) :
      Brings made (some i) ⟨before ++ report ++ after, before.length, count⟩
  | other (r : Reception) : Brings made none r

/-- A report is accepted with the number of packets that it was made for, if sixteen bits hold that. -/
def Reception.ReadsBack (batches : List Nat) (label : Option Nat) (r : Reception) : Prop :=
  ∀ i, label = some i →
    ∃ k, batches[i]? = some k ∧ r.count = some (UInt16.ofNat (min k 65535))

/-- What was accepted of the messages that bring a report. -/
def Reception.credit (labels : List (Option Nat)) (receptions : List Reception) : Nat :=
  (List.zipWith (fun label r => if label.isSome then r.accepted else 0) labels receptions).sum

namespace Reception

variable {type : OptionType} {batches : List Nat} {labels : List (Option Nat)}
  {receptions : List Reception}

theorem Brings.readsBack {label : Option Nat} {r : Reception}
    (hb : Brings (batches.map fun k => CountOption.toBytes ⟨type, saturate16 k⟩) label r)
    (hr : r.count = (CountOption.decodeAt type r.message r.offset).toOption.map CountOption.count) :
    ReadsBack batches label r := by
  cases hb with
  | other _ => exact nofun
  | report h before after count =>
    rw [List.getElem?_map] at h
    obtain ⟨k, hk, rfl⟩ := Option.map_eq_some_iff.1 h
    rintro _ ⟨⟩
    refine ⟨k, hk, ?_⟩
    rw [hr, CountOption.decodeAt_toBytes ⟨type, saturate16 k⟩ before after]
    rfl

/-- Reports that are each heard once together stand for no more than all batches. -/
theorem sum_batches_le {indexes : List Nat} (hn : indexes.Nodup)
    (hi : ∀ i ∈ indexes, i < batches.length) :
    (indexes.map fun i => batches[i]?.getD 0).sum ≤ batches.sum := by
  obtain ⟨kept, hperm, hsub⟩ : List.Subperm indexes (List.range batches.length) :=
    hn.subperm fun i hmem => List.mem_range.2 (hi i hmem)
  have hall : (List.range batches.length).map (fun i => batches[i]?.getD 0) = batches := by
    refine List.ext_getElem (by rw [List.length_map, List.length_range]) fun i _ hi => ?_
    rw [List.getElem_map, List.getElem_range, List.getElem?_eq_getElem hi, Option.getD_some]
  calc (indexes.map fun i => batches[i]?.getD 0).sum
      = (kept.map fun i => batches[i]?.getD 0).sum := ((hperm.map _).sum_eq).symm
    _ ≤ ((List.range batches.length).map fun i => batches[i]?.getD 0).sum :=
      (hsub.map _).sum_le_sum fun _ _ => Nat.zero_le _
    _ = batches.sum := by rw [hall]

theorem credit_le (h : List.Forall₂ (ReadsBack batches) labels receptions) :
    credit labels receptions ≤ (labels.reduceOption.map fun i => batches[i]?.getD 0).sum ∧
      ∀ i ∈ labels.reduceOption, i < batches.length := by
  induction h with
  | nil => exact ⟨Nat.le_refl 0, nofun⟩
  | @cons label r labels receptions hr _ ih =>
    have hcredit : credit (label :: labels) (r :: receptions) =
        (if label.isSome then r.accepted else 0) + credit labels receptions := rfl
    rw [hcredit]
    cases label with
    | none =>
      rw [List.reduceOption_cons_of_none]
      simpa using ih
    | some i =>
      obtain ⟨k, hk, hcount⟩ := hr i rfl
      -- What was accepted is the count that was made, cut to sixteen bits.
      have hle : r.accepted ≤ k := by
        have hnat : (UInt16.ofNat (min k 65535)).toNat = min k 65535 := toNat_saturate16 k
        rw [accepted, hcount, Option.map_some, Option.getD_some, hnat]
        exact Nat.min_le_left _ _
      rw [List.reduceOption_cons_of_some, List.map_cons, List.sum_cons, hk, Option.getD_some]
      refine ⟨Nat.add_le_add hle ih.1, fun j hmem => ?_⟩
      rcases List.mem_cons.1 hmem with rfl | hold
      · exact (List.getElem?_eq_some_iff.1 hk).1
      · exact ih.2 j hold

theorem credit_le_of_brings (hn : labels.reduceOption.Nodup)
    (hb : List.Forall₂ (Brings (batches.map fun k => CountOption.toBytes ⟨type, saturate16 k⟩))
      labels receptions)
    (hr : ∀ r ∈ receptions,
      r.count = (CountOption.decodeAt type r.message r.offset).toOption.map CountOption.count) :
    List.Forall₂ (ReadsBack batches) labels receptions ∧ credit labels receptions ≤ batches.sum := by
  obtain ⟨hlength, hzip⟩ := List.forall₂_iff_zip.1 hb
  have hcounts : List.Forall₂ (ReadsBack batches) labels receptions :=
    List.forall₂_iff_zip.2 ⟨hlength, fun {_ r} hmem =>
      (hzip hmem).readsBack (hr r (List.of_mem_zip hmem).2)⟩
  obtain ⟨hcredit, hindexes⟩ := credit_le hcounts
  exact ⟨hcounts, Nat.le_trans hcredit (sum_batches_le hn hindexes)⟩

end Reception

namespace Node

variable {ν ρ α τ : Type} [Neighborhood ν] [RouteStore ρ] [Advertiser α] [IntervalTimer τ]
  {s : Node ν ρ α τ} {type : OptionType} {past : History}

theorem reporting_run (h : s.agent.Reporting type past) {events : List (NodeEvent ν ρ α τ)}
    (he : .agent (.count .takeSent) ∉ events) :
    (s.run events).agent.Reporting type (s.history past events) := by
  induction events generalizing s past with
  | nil => exact h
  | cons event events ih =>
    obtain ⟨hne, hrest⟩ := List.ne_and_not_mem_of_not_mem_cons he
    cases event with
    | host change => exact ih (s := { s with host := change s.host }) h hrest
    | agent event => exact ih (h.step s.host fun heq => hne (by rw [heq])) hrest

variable {ν' ρ' α' τ' : Type} [Neighborhood ν'] [RouteStore ρ'] [Advertiser α'] [IntervalTimer τ']

/-- A node reports each packet it sent once. The parent is any node that expects the same type, and hears
any messages, each report of the child in one of them at the most: it accepts a report with the count it
was made with, so no more altogether than was sent, and it accepts and counts no message without a
report. -/
theorem sent_reported_once {config config' : Config} {agent agent' : Agent}
    (hc : Agent.ofConfig config = .ok agent) (hc' : Agent.ofConfig config' = .ok agent')
    (htype : config'.optionType = config.optionType) (host : Host ν ρ α τ) (host' : Host ν' ρ' α' τ')
    {events : List (NodeEvent ν ρ α τ)} (events' : List (NodeEvent ν' ρ' α' τ'))
    (he : .agent (.count .takeSent) ∉ events) :
    let child : Node ν ρ α τ := ⟨agent, host⟩
    let parent : Node ν' ρ' α' τ' := ⟨agent', host'⟩
    let past := child.history [] events
    let heard := (parent.history [] events').receptions
    let informed := (parent.run events').agent
    past.made = past.batches.map (fun k =>
        CountOption.toBytes ⟨config.optionType, UInt16.ofNat (min k 65535)⟩) ∧
      (child.run events).agent.engine.counters.sent.toNat = min past.unreported 4294967295 ∧
      ((∀ k ∈ past.batches, k ≤ 65535) → past.unreported < UInt32.size →
        (past.batches.map fun k => min k 65535).sum +
          (child.run events).agent.engine.counters.sent.toNat = past.sent) ∧
      (∀ labels : List (Option Nat), labels.reduceOption.Nodup →
        List.Forall₂ (Reception.Brings past.made) labels heard →
          List.Forall₂ (Reception.ReadsBack past.batches) labels heard ∧
          Reception.credit labels heard ≤ past.sent) ∧
      (∀ r ∈ heard, r.count = none ↔
        CountOption.Malformed config.optionType (r.message.drop r.offset)) ∧
      (∀ message offset, CountOption.Malformed config.optionType (message.drop offset) →
        (informed.receiveReport message offset).1 = none ∧
          (informed.receiveReport message offset).2.engine.counters = informed.engine.counters) ∧
      informed.tally.optionsReceived + informed.tally.optionsDropped = heard.length := by
  intro child parent past heard informed
  have hreporting : (child.run events).agent.Reporting config.optionType past :=
    reporting_run (.start hc) he
  have hreceiving : informed.Receiving config.optionType (parent.history [] events') :=
    htype ▸ run_induction (fun _ _ host event h => h.step host event) (.start hc') events'
  have hsum := past.sum_batches_add_unreported
  have hleft : (child.run events).agent.engine.counters.sent.toNat = min past.unreported 4294967295 := by
    rw [hreporting.sent_eq, toNat_saturate32]
  refine ⟨hreporting.made_eq, hleft, fun hsmall hfew => ?_, fun labels hn hbrings => ?_, fun r hmem => ?_,
    fun message offset hm => ?_, hreceiving.tally_eq⟩
  · have hkept : past.batches.map (fun k => min k 65535) = past.batches :=
      (List.map_congr_left fun k hmem => Nat.min_eq_left (hsmall k hmem)).trans (List.map_id _)
    rw [hkept, hleft, Nat.min_eq_left (Nat.le_of_lt_succ hfew), hsum]
  · rw [hreporting.made_eq] at hbrings
    obtain ⟨hcounts, hcredit⟩ := Reception.credit_le_of_brings hn hbrings hreceiving.count_eq
    exact ⟨hcounts, by omega⟩
  · rw [hreceiving.count_eq r hmem, Option.map_eq_none_iff, CountOption.decodeAt,
      CountOption.decode_toOption_eq_none_iff]
  · rw [← hreceiving.type_eq] at hm
    obtain ⟨hnone, hengine⟩ := Agent.receiveReport_of_malformed hm
    exact ⟨hnone, congrArg Engine.counters hengine⟩

/-- The second report is lost, and the third one comes before the first, with bytes around it. In between
come a message that is cut short, one of another type and one of another length. -/
theorem sent_reported_once_reordered :
    let agent : Agent := ⟨.standard, .ofConfig .standard, .zero, none⟩
    let host : SessionHost NeighborTable := ⟨.empty 4, .empty 2, .lowered, .idle⟩
    let s : Node NeighborTable RouteList UnreliableFlag CountingTimer := ⟨agent, host⟩
    let events : List (NodeEvent NeighborTable RouteList UnreliableFlag CountingTimer) :=
      [.agent .start, .agent (.count (.sent 3)), .agent .makeReport, .agent (.count (.sent 300)),
        .agent .tick, .agent .makeReport, .agent .stop, .agent (.count (.sent 2)), .agent .makeReport,
        .agent (.count (.sent 5))]
    let events' : List (NodeEvent NeighborTable RouteList UnreliableFlag CountingTimer) :=
      [.agent (.receiveReport [9, 0x0a, 2, 0, 2, 7] 1), .agent (.receiveReport [0x0a, 2, 0] 0),
        .agent (.receiveReport [0x0b, 2, 0, 9] 0), .agent .start, .agent .tick,
        .agent (.receiveReport [0x0a, 3, 0, 9] 0), .agent (.receiveReport [0x0a, 2, 0, 3] 0)]
    let labels : List (Option Nat) := [some 2, none, none, none, some 0]
    let past := s.history [] events
    let heard := (s.history [] events').receptions
    Agent.ofConfig .standard = .ok agent ∧ .agent (.count .takeSent) ∉ events ∧
      past.made = [[0x0a, 2, 0, 3], [0x0a, 2, 1, 44], [0x0a, 2, 0, 2]] ∧
      labels.reduceOption.Nodup ∧ List.Forall₂ (Reception.Brings past.made) labels heard ∧
      heard.map Reception.count = [some 2, none, none, none, some 3] ∧
      (past.batches.map fun k => min k 65535).sum +
        (s.run events).agent.engine.counters.sent.toNat = past.sent ∧
      Reception.credit labels heard ≤ past.sent ∧
      (s.run events').agent.tally.optionsReceived + (s.run events').agent.tally.optionsDropped =
        heard.length := by
  intro agent host s events events' labels past heard
  have hc : Agent.ofConfig .standard = .ok agent := rfl
  have he : .agent (.count .takeSent) ∉ events := by simp [events]
  have hmade : past.made = [[0x0a, 2, 0, 3], [0x0a, 2, 1, 44], [0x0a, 2, 0, 2]] := by decide
  have hn : labels.reduceOption.Nodup := by decide
  have hfirst : past.made[0]? = some [0x0a, 2, 0, 3] := by rw [hmade]; rfl
  have hthird : past.made[2]? = some [0x0a, 2, 0, 2] := by rw [hmade]; rfl
  have hbrings : List.Forall₂ (Reception.Brings past.made) labels heard :=
    .cons (.report hthird [9] [7] (some 2)) (.cons (.other _) (.cons (.other _)
      (.cons (.other _) (.cons (.report hfirst [] [] (some 3)) .nil))))
  obtain ⟨-, -, hsum, hlabels, -, -, htally⟩ := sent_reported_once hc hc rfl host host events' he
  exact ⟨hc, he, hmade, hn, hbrings, by decide, hsum (by decide) (by decide),
    (hlabels labels hn hbrings).2, htally⟩

end Node

end CongestionRouting
