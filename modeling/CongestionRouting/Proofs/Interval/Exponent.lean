import CongestionRouting.Config
import Mathlib

namespace CongestionRouting

namespace DetectionInterval

variable {i : DetectionInterval} {n : Nat}

theorem nanos_ofSeconds_pow (hn : n ≤ maxExponent) :
    (Duration.ofSeconds (UInt64.ofNat (2 ^ n))).nanos = 2 ^ n * Duration.nanosPerSecond := by
  have hfits : 2 ^ n < UInt64.size :=
    calc 2 ^ n ≤ 2 ^ maxExponent := Nat.pow_le_pow_right (by decide) hn
      _ < UInt64.size := by decide
  change (UInt64.ofNat (2 ^ n)).toNat * Duration.nanosPerSecond = _
  rw [UInt64.toNat_ofNat_of_lt' hfits]

theorem ofExponent_eq_ok_iff : ofExponent n = .ok i ↔
    n ≤ maxExponent ∧ i.duration.nanos = 2 ^ n * Duration.nanosPerSecond := by
  unfold ofExponent
  split
  · next hn =>
    rw [and_iff_right hn, Except.ok.injEq, ← nanos_ofSeconds_pow hn]
    constructor
    · rintro rfl
      rfl
    · intro hnanos
      exact congrArg mk (Duration.ext_nanos hnanos.symm)
  · next hn => exact iff_of_false nofun fun h => hn h.1

theorem trailingZeros_two_pow {places : Nat} (hn : n < places) : trailingZeros places (2 ^ n) = n := by
  induction places generalizing n with
  | zero => exact absurd hn (Nat.not_lt_zero n)
  | succ places ih =>
    cases n with
    | zero => rfl
    | succ n =>
      rw [trailingZeros, Nat.pow_succ, Nat.mul_mod_left, if_pos rfl, Nat.mul_div_cancel _ (by decide),
        ih (Nat.lt_of_succ_lt_succ hn)]

theorem exponent_of_seconds (hsubsecond : i.duration.subsecond = 0)
    (hseconds : i.duration.seconds = 2 ^ n) :
    i.exponent = if n ≤ maxExponent then some n else none := by
  have hn : n < 64 := by
    have hlt := i.duration.seconds_lt
    rw [hseconds] at hlt
    exact (Nat.pow_lt_pow_iff_right (by decide)).1 hlt
  have hpower : (2 ^ n).isPowerOfTwo := ⟨n, rfl⟩
  simp only [exponent, hsubsecond, hpower, hseconds, trailingZeros_two_pow hn, ne_eq, not_true_eq_false,
    if_false]

theorem exponent_eq_some_iff : i.exponent = some n ↔
    n ≤ maxExponent ∧ i.duration.nanos = 2 ^ n * Duration.nanosPerSecond := by
  constructor
  · intro h
    have hsubsecond : i.duration.subsecond = 0 := by
      by_contra hne
      simp only [exponent, ne_eq, hne, not_false_eq_true, if_true, reduceCtorEq] at h
    have hpower : i.duration.seconds.isPowerOfTwo := by
      by_contra hne
      simp only [exponent, ne_eq, hsubsecond, hne, not_true_eq_false, not_false_eq_true, if_true, if_false,
        reduceCtorEq] at h
    obtain ⟨k, hk⟩ := hpower
    rw [exponent_of_seconds hsubsecond hk, Option.ite_none_right_eq_some, Option.some.injEq] at h
    obtain ⟨hle, rfl⟩ := h
    rw [i.duration.nanos_eq, hsubsecond, hk, Nat.add_zero]
    exact ⟨hle, rfl⟩
  · rintro ⟨hn, hnanos⟩
    have hseconds : i.duration.seconds = 2 ^ n := by
      rw [Duration.seconds, hnanos]
      exact Nat.mul_div_cancel _ (by decide)
    have hsubsecond : i.duration.subsecond = 0 := by
      rw [Duration.subsecond, hnanos]
      exact Nat.mul_mod_left _ _
    rw [exponent_of_seconds hsubsecond hseconds, if_pos hn]

theorem exponent_eq_some_iff_ofExponent : i.exponent = some n ↔ ofExponent n = .ok i :=
  exponent_eq_some_iff.trans ofExponent_eq_ok_iff.symm

theorem exponent_eq_none_iff :
    i.exponent = none ↔ ¬∃ n ≤ maxExponent, ofExponent n = .ok i := by
  rw [Option.eq_none_iff_forall_ne_some]
  constructor
  · rintro h ⟨n, -, hn⟩
    exact h n (exponent_eq_some_iff_ofExponent.2 hn)
  · intro h n hn
    exact h ⟨n, (exponent_eq_some_iff.1 hn).1, exponent_eq_some_iff_ofExponent.1 hn⟩

theorem isZero_iff : i.isZero = true ↔ i.duration = .zero := by
  rw [isZero, decide_eq_true_iff]
  exact ⟨fun h => Duration.ext_nanos h, congrArg Duration.nanos⟩

theorem ne_zero_of_ofExponent (h : ofExponent n = .ok i) : i.duration ≠ .zero := by
  intro hzero
  have hnanos := (ofExponent_eq_ok_iff.1 h).2
  rw [hzero] at hnanos
  exact absurd hnanos (Nat.ne_of_lt (Nat.mul_pos (Nat.two_pow_pos n) (by decide)))

end DetectionInterval

namespace Config

variable {c : Config}

/-- Where some interval would be accepted, the interval alone decides. -/
theorem check_eq_of_others (hothers : ∃ i, { c with interval := i }.check = .ok ()) :
    c.check = if c.interval.isZero then .error .zeroInterval
      else if c.interval.exponent = none then .error (.intervalNotPowerOfTwo c.interval)
      else .ok () := by
  obtain ⟨i, hi⟩ := hothers
  unfold check at hi ⊢
  dsimp only at hi
  split at hi
  · exact absurd hi nofun
  split at hi
  · exact absurd hi nofun
  rw [hi]

/-- An interval is accepted if it is one of those in use. The zero interval has a refusal of its own. -/
theorem check_cases_of_others (hothers : ∃ i, { c with interval := i }.check = .ok ()) :
    let used := ∃ n ≤ DetectionInterval.maxExponent, DetectionInterval.ofExponent n = .ok c.interval
    (c.check = .ok () ↔ used) ∧
      (c.check = .error .zeroInterval ↔ c.interval.duration = .zero) ∧
      (c.check = .error (.intervalNotPowerOfTwo c.interval) ↔ c.interval.duration ≠ .zero ∧ ¬used) := by
  intro used
  rw [check_eq_of_others hothers]
  split
  · next hzero =>
    have hinterval : c.interval.duration = .zero := DetectionInterval.isZero_iff.1 hzero
    have hunused : ¬used := by
      rintro ⟨n, -, hn⟩
      exact DetectionInterval.ne_zero_of_ofExponent hn hinterval
    exact ⟨iff_of_false nofun hunused, iff_of_true rfl hinterval,
      iff_of_false nofun fun h => h.1 hinterval⟩
  · next hzero =>
    have hinterval : c.interval.duration ≠ .zero := fun h => hzero (DetectionInterval.isZero_iff.2 h)
    split
    · next hnone =>
      have hunused : ¬used := DetectionInterval.exponent_eq_none_iff.1 hnone
      exact ⟨iff_of_false nofun hunused, iff_of_false nofun hinterval, iff_of_true rfl ⟨hinterval, hunused⟩⟩
    · next hsome =>
      have hused : used := Classical.byContradiction fun h => hsome (DetectionInterval.exponent_eq_none_iff.2 h)
      exact ⟨iff_of_true rfl hused, iff_of_false nofun hinterval, iff_of_false nofun fun h => h.2 hused⟩

end Config

end CongestionRouting
