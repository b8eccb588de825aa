import CongestionRouting.Threshold
import Mathlib

namespace CongestionRouting.ThresholdRatio

variable {n d : UInt32} {r : ThresholdRatio}

theorem make_eq_ok_iff : make n d = .ok r ↔ r.numerator = n ∧ r.denominator = d := by
  have hpos := r.numerator_pos
  have hle := r.numerator_le
  unfold make
  constructor
  · intro h
    split_ifs at h
    injection h with h
    rw [← h]
    exact ⟨rfl, rfl⟩
  · rintro ⟨rfl, rfl⟩
    rw [if_neg (by omega), dif_neg (by omega), dif_pos hle]

theorem denominator_pos (r : ThresholdRatio) : 0 < r.denominator.toNat :=
  Nat.lt_of_lt_of_le r.numerator_pos r.numerator_le

def value (r : ThresholdRatio) : ℚ := r.numerator.toNat / r.denominator.toNat

theorem value_nonneg (r : ThresholdRatio) : 0 ≤ r.value :=
  div_nonneg (Nat.cast_nonneg _) (Nat.cast_nonneg _)

theorem threshold_eq_floor (r : ThresholdRatio) (expected : UInt32) :
    (r.threshold expected).toNat = ⌊expected.toNat * r.value⌋₊ := by
  rw [toNat_threshold, value, ← mul_div_assoc, ← Nat.cast_mul, Nat.floor_div_eq_div]

theorem product_lt (expected : UInt32) (r : ThresholdRatio) :
    expected.toNat * r.numerator.toNat < UInt64.size :=
  Nat.mul_lt_mul'' expected.toNat_lt_size r.numerator.toNat_lt_size

theorem lt_threshold_iff {received expected : UInt32} : received < r.threshold expected ↔
    (received.toNat + 1) * r.denominator.toNat ≤ expected.toNat * r.numerator.toNat := by
  rw [UInt32.lt_iff_toNat_lt, toNat_threshold, ← Nat.add_one_le_iff,
    Nat.le_div_iff_mul_le r.denominator_pos]

theorem lt_threshold_iff_value {received expected : UInt32} : received < r.threshold expected ↔
    (received.toNat + 1 : ℚ) ≤ expected.toNat * r.value := by
  have hden : (0 : ℚ) < r.denominator.toNat := Nat.cast_pos.2 r.denominator_pos
  rw [lt_threshold_iff, value, ← mul_div_assoc, le_div_iff₀ hden]
  exact_mod_cast Iff.rfl

end CongestionRouting.ThresholdRatio
