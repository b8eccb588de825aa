import CongestionRouting.Proofs.Session.Neighbors
import CongestionRouting.Proofs.Verdict

namespace CongestionRouting.Session

/-- The neighbor tables that sessions come to. -/
def Reached (t : NeighborTable) : Prop :=
  ∃ capacity routes core events,
    ((start (.empty capacity) routes core).run events).host.neighbors = t

theorem reached_run (capacity : Nat) (routes : RouteList) (core : SessionCore)
    (events : List SessionEvent) :
    Reached ((start (.empty capacity) routes core).run events).host.neighbors :=
  ⟨capacity, routes, core, events, rfl⟩

theorem Reached.orderly {t : NeighborTable} (ht : Reached t) : t.Orderly := by
  obtain ⟨capacity, routes, core, events, rfl⟩ := ht
  exact orderly_run (.empty capacity) events

/-- The threshold is exact, and no product or quotient on the way to it is too large. A node calls itself
congested if it received fewer packets, or, where the neighborhood counts, if more than half of its
neighbors have their flag set; that the flags are not looked at after too few packets makes no difference.
It still does with fewer packets received, more expected, a higher ratio or more flags. -/
theorem verdict_exact {n d : UInt32} {ratio : ThresholdRatio} {t : NeighborTable}
    (hr : ThresholdRatio.make n d = .ok ratio) (ht : Reached t) (composition : Composition)
    (counters : PacketCounters) :
    let verdict := CongestionRule.judge ⟨ratio, composition⟩ counters t
    let few := (counters.received.toNat + 1) * d.toNat ≤ counters.expected.toNat * n.toNat
    let most := t.entries.length < 2 * t.flagged.length
    counters.expected.toNat * n.toNat < UInt64.size ∧
      verdict.threshold.toNat = ⌊(counters.expected.toNat * n.toNat / d.toNat : ℚ)⌋₊ ∧
      verdict.threshold ≤ counters.expected ∧
      (verdict.selfCongested = true ↔ few ∨ composition = .selfOrNeighborhood ∧ most) ∧
      (verdict.neighborsCongested = true ↔ ¬few ∧ most) ∧
      (few → verdict.congested = 0 ∧ verdict.total = 0) ∧
      (¬few → verdict.congested = t.flagged.length ∧ verdict.total = t.entries.length) ∧
      ∀ {n' d' : UInt32} {ratio' : ThresholdRatio} {t' : NeighborTable} {counters' : PacketCounters},
        ThresholdRatio.make n' d' = .ok ratio' → Reached t' →
        counters'.received ≤ counters.received → counters.expected ≤ counters'.expected →
        (n.toNat / d.toNat : ℚ) ≤ n'.toNat / d'.toNat →
        (∀ address, address ∈ t'.addresses ↔ address ∈ t.addresses) → t.flagged ⊆ t'.flagged →
        verdict.selfCongested = true →
        (CongestionRule.judge ⟨ratio', composition⟩ counters' t').selfCongested = true := by
  obtain ⟨rfl, rfl⟩ := ThresholdRatio.make_eq_ok_iff.1 hr
  intro verdict few most
  let rule : CongestionRule := ⟨ratio, composition⟩
  have hself := rule.selfCongested_judge_iff counters ht.orderly
  have hneighbors := rule.neighborsCongested_judge_iff counters ht.orderly
  rw [NeighborTable.mostCongested_iff] at hself hneighbors
  have hthreshold : verdict.threshold = ratio.threshold counters.expected :=
    rule.threshold_judge counters t
  refine ⟨ratio.product_lt counters.expected, ?_, ?_, hself, hneighbors, fun hfew => ?_,
    fun henough => ?_, ?_⟩
  · rw [hthreshold, ratio.threshold_eq_floor, ThresholdRatio.value, mul_div_assoc]
  · rw [hthreshold]
    exact ratio.threshold_le counters.expected
  · have hjudge : verdict = _ := rule.judge_of_tooFew hfew t
    exact hjudge ▸ ⟨rfl, rfl⟩
  · have hjudge : verdict = _ := rule.judge_of_enough henough ht.orderly
    exact hjudge ▸ ⟨rfl, rfl⟩
  · intro n' d' ratio' t' counters' hr' ht' hreceived hexpected hratio hsame hflagged
    obtain ⟨rfl, rfl⟩ := ThresholdRatio.make_eq_ok_iff.1 hr'
    let rule' : CongestionRule := ⟨ratio', composition⟩
    exact rule.selfCongested_mono rule' ht.orderly ht'.orderly rfl hratio hreceived hexpected hsame
      hflagged

/-- One packet is missing of the most that there can be, and none may. The majority of the flags is not
looked at, and neither a ratio in lower terms nor another flag makes a difference. -/
theorem verdict_exact_missing :
    let hop (n : UInt16) : Address := ⟨#v[0xfe80, 0, 0, 0, 0, 0, 0, n]⟩
    let events : List SessionEvent :=
      [.host (.insertNeighbor (hop 1) true), .host (.insertNeighbor (hop 2) true),
        .host (.removeNeighbor ⟨0, 0⟩), .host (.insertNeighbor (hop 3) true),
        .host (.insertNeighbor (hop 4) false), .host (.recordSignal (hop 2)),
        .host (.recordSignal (hop 3))]
    let more : List SessionEvent := events ++ [.host (.setCongested ⟨2, 0⟩ true)]
    let t := ((start (.empty 3) (.empty 0) .absent).run events).host.neighbors
    let t' := ((start (.empty 3) (.empty 0) .absent).run more).host.neighbors
    let whole : ThresholdRatio := ⟨0xffffffff, 0xffffffff, by decide, by decide⟩
    let one : ThresholdRatio := ⟨1, 1, by decide, by decide⟩
    let counters : PacketCounters := ⟨0xfffffffe, 0xffffffff, 0⟩
    let verdict := CongestionRule.judge ⟨whole, .selfOnly⟩ counters t
    ThresholdRatio.make 0xffffffff 0xffffffff = .ok whole ∧ Reached t ∧
      t.entries.length < 2 * t.flagged.length ∧ verdict.selfCongested = true ∧
      verdict.neighborsCongested ≠ true ∧ verdict.congested = 0 ∧
      ThresholdRatio.make 1 1 = .ok one ∧ Reached t' ∧ t'.flagged.length = 3 ∧
      (CongestionRule.judge ⟨one, .selfOnly⟩ counters t').selfCongested = true := by
  intro hop events more t t' whole one counters verdict
  have hwhole : ThresholdRatio.make 0xffffffff 0xffffffff = .ok whole := rfl
  have hone : ThresholdRatio.make 1 1 = .ok one := rfl
  have ht : Reached t := reached_run 3 (.empty 0) .absent events
  have ht' : Reached t' := reached_run 3 (.empty 0) .absent more
  have hmost : t.entries.length < 2 * t.flagged.length := by decide
  have hfew : (counters.received.toNat + 1) * (0xffffffff : UInt32).toNat ≤
      counters.expected.toNat * (0xffffffff : UInt32).toNat := by decide
  have hratio : ((0xffffffff : UInt32).toNat / (0xffffffff : UInt32).toNat : ℚ) ≤
      (1 : UInt32).toNat / (1 : UInt32).toNat := by
    rw [show (0xffffffff : UInt32).toNat = 4294967295 from rfl, show (1 : UInt32).toNat = 1 from rfl]
    norm_num
  have haddresses : t'.addresses = t.addresses := by decide
  have hflagged : t.flagged ⊆ t'.flagged := by decide
  have hthree : t'.flagged.length = 3 := by decide
  obtain ⟨-, -, -, hself, hneighbors, hnone, -, hmore⟩ :=
    verdict_exact hwhole ht .selfOnly counters
  have hcongested : verdict.selfCongested = true := hself.2 (.inl hfew)
  have hunlooked : verdict.neighborsCongested ≠ true := fun h => (hneighbors.1 h).1 hfew
  have huncounted : verdict.congested = 0 := (hnone hfew).1
  have hstays := hmore hone ht' UInt32.le_rfl UInt32.le_rfl hratio (fun _ => by rw [haddresses]) hflagged
    hcongested
  exact ⟨hwhole, ht, hmost, hcongested, hunlooked, huncounted, hone, ht', hthree, hstays⟩

end CongestionRouting.Session
