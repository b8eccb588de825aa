import CongestionRouting.Proofs.Neighbor.Consistent
import CongestionRouting.Proofs.Threshold

namespace CongestionRouting

namespace NeighborTable

variable {t t' : NeighborTable}

def mostCongested (t : NeighborTable) : Bool :=
  t.entries.length < 2 * t.entries.countP Neighbor.congested

def flagged (t : NeighborTable) : List Address :=
  (t.entries.filter Neighbor.congested).map Neighbor.address

theorem length_flagged (t : NeighborTable) :
    t.flagged.length = t.entries.countP Neighbor.congested := by
  rw [flagged, List.length_map, List.countP_eq_length_filter]

theorem mostCongested_iff : t.mostCongested = true ↔ t.entries.length < 2 * t.flagged.length := by
  rw [mostCongested, decide_eq_true_eq, length_flagged]

namespace Orderly

variable (ht : t.Orderly)

include ht

theorem count_flags : (CongestionRule.flags t).count true = t.flagged.length := by
  rw [ht.flags_eq, length_flagged, List.count, List.countP_map]
  exact List.countP_congr fun _ _ => by simp

theorem length_flags : (CongestionRule.flags t).length = t.entries.length := by
  rw [ht.flags_eq, List.length_map]

/-- A table is too small for the product to saturate. -/
theorem isMajority_eq : isMajority t.flagged.length t.entries.length = t.mostCongested := by
  have hle : t.entries.countP Neighbor.congested ≤ UInt32.size :=
    List.countP_le_length.trans ht.length_entries_le
  have hsize : UInt64.size - 1 = 18446744073709551615 := rfl
  have hsize' : UInt32.size = 4294967296 := rfl
  rw [length_flagged, isMajority, mostCongested, hsize, Nat.min_eq_left (by omega)]

theorem nodup_flagged : t.flagged.Nodup :=
  ht.nodup_addresses.sublist (List.filter_sublist.map Neighbor.address)

theorem mostCongested_mono (ht' : t'.Orderly)
    (hneighbors : ∀ address, address ∈ t'.addresses ↔ address ∈ t.addresses)
    (hflagged : t.flagged ⊆ t'.flagged) (hm : t.mostCongested = true) : t'.mostCongested = true := by
  have hlength : t'.entries.length = t.entries.length := by
    have hperm := (List.perm_ext_iff_of_nodup ht'.nodup_addresses ht.nodup_addresses).2 hneighbors
    simpa only [addresses, List.length_map] using hperm.length_eq
  -- Each neighbor has its flag once, so a larger set of flags is also a longer list of them.
  have hle : t.flagged.length ≤ t'.flagged.length :=
    (List.subperm_of_subset ht.nodup_flagged hflagged).length_le
  rw [mostCongested_iff] at hm ⊢
  omega

end Orderly

end NeighborTable

namespace CongestionRule

variable {rule rule' : CongestionRule} {counters counters' : PacketCounters} {t t' : NeighborTable}

def TooFew (rule : CongestionRule) (counters : PacketCounters) : Prop :=
  (counters.received.toNat + 1) * rule.threshold.denominator.toNat ≤
    counters.expected.toNat * rule.threshold.numerator.toNat

instance (rule : CongestionRule) (counters : PacketCounters) : Decidable (rule.TooFew counters) :=
  inferInstanceAs (Decidable (_ ≤ _))

theorem threshold_judge {ν : Type} [Neighborhood ν] (rule : CongestionRule)
    (counters : PacketCounters) (table : ν) :
    (rule.judge counters table).threshold = rule.threshold.threshold counters.expected := by
  unfold judge
  dsimp only
  split <;> rfl

/-- Where too few packets arrived nobody is counted. -/
theorem judge_of_tooFew {ν : Type} [Neighborhood ν] (rule : CongestionRule)
    (h : rule.TooFew counters) (table : ν) :
    rule.judge counters table =
      { selfCongested := true
        neighborsCongested := false
        received := counters.received
        expected := counters.expected
        threshold := rule.threshold.threshold counters.expected
        congested := 0
        total := 0 } := by
  unfold judge
  rw [if_pos (ThresholdRatio.lt_threshold_iff.2 h)]

theorem judge_of_enough (rule : CongestionRule) (h : ¬rule.TooFew counters) (ht : t.Orderly) :
    rule.judge counters t =
      { selfCongested := rule.composition = .selfOrNeighborhood && t.mostCongested
        neighborsCongested := t.mostCongested
        received := counters.received
        expected := counters.expected
        threshold := rule.threshold.threshold counters.expected
        congested := t.flagged.length
        total := t.entries.length } := by
  unfold judge
  simp only [if_neg (mt ThresholdRatio.lt_threshold_iff.1 h), ht.count_flags, ht.length_flags,
    ht.isMajority_eq]

/-- That the neighbors are not looked at after too few packets makes no difference. -/
theorem selfCongested_judge_iff (rule : CongestionRule) (counters : PacketCounters) (ht : t.Orderly) :
    (rule.judge counters t).selfCongested = true ↔
      rule.TooFew counters ∨ rule.composition = .selfOrNeighborhood ∧ t.mostCongested = true := by
  by_cases h : rule.TooFew counters
  · rw [rule.judge_of_tooFew h]
    exact iff_of_true rfl (.inl h)
  · rw [rule.judge_of_enough h ht, Bool.and_eq_true, decide_eq_true_eq]
    exact (or_iff_right h).symm

theorem neighborsCongested_judge_iff (rule : CongestionRule) (counters : PacketCounters)
    (ht : t.Orderly) : (rule.judge counters t).neighborsCongested = true ↔
      ¬rule.TooFew counters ∧ t.mostCongested = true := by
  by_cases h : rule.TooFew counters
  · rw [rule.judge_of_tooFew h]
    exact iff_of_false nofun fun hboth => hboth.1 h
  · rw [rule.judge_of_enough h ht]
    exact (and_iff_right h).symm

theorem TooFew.mono (hreceived : counters'.received ≤ counters.received)
    (hexpected : counters.expected ≤ counters'.expected)
    (hratio : rule.threshold.value ≤ rule'.threshold.value) (h : rule.TooFew counters) :
    rule'.TooFew counters' := by
  rw [TooFew, ← ThresholdRatio.lt_threshold_iff, ThresholdRatio.lt_threshold_iff_value] at h ⊢
  have hnonneg := rule.threshold.value_nonneg
  calc (counters'.received.toNat + 1 : ℚ) ≤ counters.received.toNat + 1 := by
        gcongr
        exact hreceived
    _ ≤ counters.expected.toNat * rule.threshold.value := h
    _ ≤ counters'.expected.toNat * rule'.threshold.value := by
        gcongr
        exact hexpected

/-- Congestion stays with fewer packets received, more expected, a higher ratio and more flags. -/
theorem selfCongested_mono (rule rule' : CongestionRule) (ht : t.Orderly) (ht' : t'.Orderly)
    (hrule : rule'.composition = rule.composition)
    (hratio : rule.threshold.value ≤ rule'.threshold.value)
    (hreceived : counters'.received ≤ counters.received)
    (hexpected : counters.expected ≤ counters'.expected)
    (hneighbors : ∀ address, address ∈ t'.addresses ↔ address ∈ t.addresses)
    (hflagged : t.flagged ⊆ t'.flagged) (h : (rule.judge counters t).selfCongested = true) :
    (rule'.judge counters' t').selfCongested = true := by
  rw [selfCongested_judge_iff rule counters ht] at h
  rw [selfCongested_judge_iff rule' counters' ht']
  rcases h with hfew | ⟨hcomposition, hmost⟩
  · exact .inl (hfew.mono hreceived hexpected hratio)
  · exact .inr ⟨hrule.trans hcomposition, ht.mostCongested_mono ht' hneighbors hflagged hmost⟩

end CongestionRule

end CongestionRouting
