import Mathlib

namespace CongestionRouting

namespace Vote

open Finset

variable (n : ℕ) (adj : ℕ → ℕ → Prop) [DecidableRel adj]

def degree (v : ℕ) : ℕ := #{u ∈ range n | adj v u}

def ayes (x : ℕ → Bool) (v : ℕ) : ℕ := #{u ∈ range n | adj v u ∧ x u = true}

def weight (b : Bool) : ℤ := if b then 1 else 0

/-- The pairs of neighbors of which one votes aye in the first vote and the other in the second. -/
def agreement (x y : ℕ → Bool) : ℤ := ∑ v ∈ range n, weight (x v) * ayes n adj y v

def energy (x y : ℕ → Bool) : ℤ :=
  ∑ v ∈ range n, (2 * degree n adj v + 1) * (weight (x v) + weight (y v)) - 4 * agreement n adj x y

variable {n adj} {x y z : ℕ → Bool}

theorem weight_nonneg (b : Bool) : 0 ≤ weight b := by
  cases b <;> decide

theorem weight_le_one (b : Bool) : weight b ≤ 1 := by
  cases b <;> decide

theorem ayes_le_degree (x : ℕ → Bool) (v : ℕ) : ayes n adj x v ≤ degree n adj v :=
  card_le_card fun _ hu => by
    simp only [mem_filter] at hu ⊢
    exact ⟨hu.1, hu.2.1⟩

theorem degree_congr {adj' : ℕ → ℕ → Prop} [DecidableRel adj'] {v : ℕ}
    (hadj : ∀ u < n, adj v u ↔ adj' v u) : degree n adj v = degree n adj' v :=
  congrArg card (filter_congr fun u hu => hadj u (mem_range.1 hu))

theorem ayes_congr {adj' : ℕ → ℕ → Prop} [DecidableRel adj'] {v : ℕ}
    (hadj : ∀ u < n, adj v u ↔ adj' v u) (h : ∀ u < n, x u = y u) :
    ayes n adj x v = ayes n adj' y v :=
  congrArg card (filter_congr fun u hu => by rw [hadj u (mem_range.1 hu), h u (mem_range.1 hu)])

theorem ayes_eq_sum (x : ℕ → Bool) (v : ℕ) :
    (ayes n adj x v : ℤ) = ∑ u ∈ range n, if adj v u then weight (x u) else 0 := by
  unfold ayes weight
  rw [card_filter, Nat.cast_sum]
  apply sum_congr rfl
  intro u _
  by_cases hadj : adj v u <;> cases x u <;> simp [hadj]

theorem agreement_comm (hsymm : ∀ u < n, ∀ v < n, adj u v → adj v u) (x y : ℕ → Bool) :
    agreement n adj x y = agreement n adj y x := by
  unfold agreement
  simp only [ayes_eq_sum, mul_sum]
  rw [sum_comm]
  apply sum_congr rfl
  intro u hu
  apply sum_congr rfl
  intro v hv
  have hmutual : adj v u ↔ adj u v :=
    ⟨hsymm v (mem_range.1 hv) u (mem_range.1 hu), hsymm u (mem_range.1 hu) v (mem_range.1 hv)⟩
  by_cases hadj : adj u v
  · rw [if_pos (hmutual.2 hadj), if_pos hadj, mul_comm]
  · rw [if_neg (mt hmutual.1 hadj), if_neg hadj, mul_zero, mul_zero]

theorem agreement_le (x y : ℕ → Bool) :
    agreement n adj x y ≤ ∑ v ∈ range n, weight (x v) * degree n adj v := by
  apply sum_le_sum
  intro v _
  exact mul_le_mul_of_nonneg_left (by exact_mod_cast ayes_le_degree y v) (weight_nonneg _)

/-- A pair of neighbors takes no more energy away than its two votes bring in. -/
theorem energy_nonneg (hsymm : ∀ u < n, ∀ v < n, adj u v → adj v u) (x y : ℕ → Bool) :
    0 ≤ energy n adj x y := by
  have hx : agreement n adj x y ≤ ∑ v ∈ range n, weight (x v) * degree n adj v := agreement_le x y
  have hy : agreement n adj y x ≤ ∑ v ∈ range n, weight (y v) * degree n adj v := agreement_le y x
  rw [agreement_comm hsymm y x] at hy
  have hvotes : (0 : ℤ) ≤ ∑ v ∈ range n, (weight (x v) + weight (y v)) :=
    sum_nonneg fun v _ => add_nonneg (weight_nonneg _) (weight_nonneg _)
  have hsplit : ∑ v ∈ range n, (2 * (degree n adj v : ℤ) + 1) * (weight (x v) + weight (y v)) =
      2 * ∑ v ∈ range n, weight (x v) * degree n adj v +
        2 * ∑ v ∈ range n, weight (y v) * degree n adj v +
        ∑ v ∈ range n, (weight (x v) + weight (y v)) := by
    rw [mul_sum, mul_sum, ← sum_add_distrib, ← sum_add_distrib]
    exact sum_congr rfl fun v _ => by ring
  unfold energy
  omega

/-- The vote of each member is that of the majority of its neighbors the round before. -/
def Follows (n : ℕ) (adj : ℕ → ℕ → Prop) [DecidableRel adj] (x y : ℕ → Bool) : Prop :=
  ∀ v < n, x v = decide (degree n adj v < 2 * ayes n adj y v)

theorem Follows.congr {adj' : ℕ → ℕ → Prop} [DecidableRel adj'] {x' y' : ℕ → Bool}
    (h : Follows n adj x y) (hadj : ∀ u < n, ∀ v < n, adj u v ↔ adj' u v)
    (hx : ∀ v < n, x v = x' v) (hy : ∀ v < n, y v = y' v) : Follows n adj' x' y' := by
  intro v hv
  rw [← hx v hv, h v hv, degree_congr (hadj v hv), ayes_congr (hadj v hv) hy]

theorem Follows.swap (h : Follows 2 (· ≠ ·) x y) : x 0 = y 1 ∧ x 1 = y 0 := by
  have hpair : ∀ v, ayes 2 (· ≠ ·) y v = ayes 2 (· ≠ ·) (fun u => if u = 0 then y 0 else y 1) v := by
    refine fun v => ayes_congr (fun _ _ => Iff.rfl) fun u hu => ?_
    obtain rfl | rfl : u = 0 ∨ u = 1 := by omega
    · rfl
    · rfl
  rw [h 0 (by decide), h 1 (by decide), hpair, hpair]
  generalize y 0 = a
  generalize y 1 = b
  revert a b
  decide

/-- A vote with the majority adds no energy, and takes some away if it is another than before. -/
theorem weight_mul_le (v : ℕ) (hxv : x v = decide (degree n adj v < 2 * ayes n adj y v)) (b : Bool) :
    (weight (x v) - weight b) * (2 * degree n adj v + 1 - 4 * ayes n adj y v) ≤
      -(if x v = b then 0 else 1) := by
  by_cases hmajority : degree n adj v < 2 * ayes n adj y v
  · rw [hxv, decide_eq_true hmajority]
    cases b with
    | false =>
      simp only [weight, if_true, Bool.false_eq_true, if_false, sub_zero, one_mul, reduceCtorEq]
      omega
    | true => simp
  · rw [hxv, decide_eq_false hmajority]
    cases b with
    | false => simp
    | true =>
      simp only [weight, if_true, Bool.false_eq_true, if_false, zero_sub, neg_one_mul]
      omega

/-- The energy of two rounds is at least that of the next two and one more for each changed vote. -/
theorem energy_add_le (hsymm : ∀ u < n, ∀ v < n, adj u v → adj v u) (hx : Follows n adj x y)
    (z : ℕ → Bool) :
    energy n adj x y + #{v ∈ range n | x v ≠ z v} ≤ energy n adj y z := by
  -- By symmetry both agreements are sums over the votes of the middle round.
  have hchange : energy n adj x y - energy n adj y z = ∑ v ∈ range n,
      (weight (x v) - weight (z v)) * (2 * degree n adj v + 1 - 4 * ayes n adj y v) := by
    unfold energy
    rw [agreement_comm hsymm y z]
    unfold agreement
    rw [mul_sum, mul_sum, ← sum_sub_distrib, ← sum_sub_distrib, ← sum_sub_distrib]
    exact sum_congr rfl fun v _ => by ring
  have hterms : ∑ v ∈ range n,
      (weight (x v) - weight (z v)) * (2 * degree n adj v + 1 - 4 * ayes n adj y v) ≤
        ∑ v ∈ range n, -(if x v = z v then (0 : ℤ) else 1) :=
    sum_le_sum fun v hv => weight_mul_le v (hx v (mem_range.1 hv)) (z v)
  have hcount : ∑ v ∈ range n, -(if x v = z v then (0 : ℤ) else 1) =
      -(#{v ∈ range n | x v ≠ z v} : ℤ) := by
    rw [sum_neg_distrib, card_filter, Nat.cast_sum]
    congr 1
    exact sum_congr rfl fun v _ => by by_cases h : x v = z v <;> simp [h]
  rw [hcount] at hterms
  omega

theorem energy_le (hx : Follows n adj x y) {D : ℕ} (hD : ∀ v < n, degree n adj v ≤ D) :
    energy n adj x y ≤ (2 * D + 1) * n := by
  have hsplit : energy n adj x y = ∑ v ∈ range n,
      (weight (x v) * (2 * degree n adj v + 1 - 4 * ayes n adj y v) +
        (2 * degree n adj v + 1) * weight (y v)) := by
    unfold energy agreement
    rw [mul_sum, ← sum_sub_distrib]
    exact sum_congr rfl fun v _ => by ring
  have hterm : ∀ v ∈ range n, weight (x v) * (2 * degree n adj v + 1 - 4 * ayes n adj y v) +
      (2 * degree n adj v + 1) * weight (y v) ≤ (2 * D + 1 : ℤ) := by
    intro v hv
    have hvote := weight_mul_le v (hx v (mem_range.1 hv)) false
    have hdegree := hD v (mem_range.1 hv)
    have hone := weight_le_one (y v)
    have hweight : (2 * (degree n adj v : ℤ) + 1) * weight (y v) ≤ 2 * degree n adj v + 1 :=
      mul_le_of_le_one_right (by omega) hone
    have hneg : -(if x v = false then (0 : ℤ) else 1) ≤ 0 := by split <;> simp
    have hzero : weight false = 0 := rfl
    rw [hzero, sub_zero] at hvote
    omega
  rw [hsplit]
  have hsum := sum_le_sum hterm
  rw [sum_const, card_range, nsmul_eq_mul, mul_comm] at hsum
  exact hsum

variable {votes : ℕ → ℕ → Bool}

structure Rounds (n : ℕ) (adj : ℕ → ℕ → Prop) [DecidableRel adj] (votes : ℕ → ℕ → Bool) :
    Prop where
  symm : ∀ u < n, ∀ v < n, adj u v → adj v u
  follows : ∀ k, Follows n adj (votes (k + 1)) (votes k)

namespace Rounds

variable (h : Rounds n adj votes)

include h

/-- Equal rounds are followed by equal rounds. -/
theorem next_eq {j k : ℕ} (heq : ∀ v < n, votes j v = votes k v) :
    ∀ v < n, votes (j + 1) v = votes (k + 1) v := by
  intro v hv
  rw [h.follows j v hv, h.follows k v hv, ayes_congr (fun _ _ => Iff.rfl) heq]

theorem energy_add_le_of_changing {k : ℕ}
    (hchanging : ∀ j < k, ∃ v < n, votes (j + 2) v ≠ votes j v) :
    energy n adj (votes (k + 1)) (votes k) + k ≤ energy n adj (votes 1) (votes 0) := by
  induction k with
  | zero => simp
  | succ k ih =>
    have hbefore := ih fun j hj => hchanging j (Nat.lt_succ_of_lt hj)
    obtain ⟨v, hv, hne⟩ := hchanging k (Nat.lt_succ_self k)
    have hfall := energy_add_le h.symm (h.follows (k + 1)) (votes k)
    have hpos : 0 < #{v ∈ range n | votes (k + 1 + 1) v ≠ votes k v} :=
      card_pos.2 ⟨v, mem_filter.2 ⟨mem_range.2 hv, hne⟩⟩
    push_cast
    omega

/-- From some round on, which the number of neighbors bounds, the votes repeat every second round. -/
theorem repeats {D : ℕ} (hD : ∀ v < n, degree n adj v ≤ D) {k : ℕ} (hk : (2 * D + 1) * n ≤ k) :
    ∀ v < n, votes (k + 2) v = votes k v := by
  obtain ⟨j, hj, hsame⟩ : ∃ j ≤ (2 * D + 1) * n, ∀ v < n, votes (j + 2) v = votes j v := by
    -- Otherwise each of these rounds takes energy away, more than there is.
    by_contra hnever
    push Not at hnever
    have hfall := h.energy_add_le_of_changing (k := (2 * D + 1) * n + 1) fun j hj =>
      hnever j (Nat.le_of_lt_succ hj)
    have hstart : energy n adj (votes 1) (votes 0) ≤ _ := energy_le (h.follows 0) hD
    have hend := energy_nonneg h.symm (votes ((2 * D + 1) * n + 1 + 1)) (votes ((2 * D + 1) * n + 1))
    push_cast at hfall
    omega
  have hlater : ∀ i, j ≤ i → ∀ v < n, votes (i + 2) v = votes i v := by
    intro i hi
    induction i, hi using Nat.le_induction with
    | base => exact hsame
    | succ i _ ih => exact h.next_eq ih
  exact hlater k (hj.trans hk)

theorem silent {k : ℕ} (hk : ∀ v < n, votes k v = false) : ∀ v < n, votes (k + 1) v = false := by
  intro v hv
  have hayes : ayes n adj (votes k) v = 0 := by
    unfold ayes
    rw [card_eq_zero, filter_eq_empty_iff]
    rintro u hu ⟨-, haye⟩
    rw [hk u (mem_range.1 hu)] at haye
    exact absurd haye nofun
  rw [h.follows k v hv, hayes]
  exact decide_eq_false (Nat.not_lt_zero _)

end Rounds

end Vote

end CongestionRouting
