import CongestionRouting.Mesh.Delivery
import CongestionRouting.Random.ChaCha
import Mathlib

namespace CongestionRouting

variable {bound i : Nat}

theorem ncard_words {low high : Nat} (hhigh : high ≤ UInt32.size) :
    {w : UInt32 | low ≤ w.toNat ∧ w.toNat < high}.ncard = high - low := by
  have hinjective : Function.Injective UInt32.toNat := fun _ _ => UInt32.toNat_inj.1
  have himage : UInt32.toNat '' {w | low ≤ w.toNat ∧ w.toNat < high} = Finset.Ico low high := by
    ext r
    rw [Finset.coe_Ico, Set.mem_Ico]
    constructor
    · rintro ⟨w, hw, rfl⟩
      exact hw
    · intro hr
      have hword : (UInt32.ofNat r).toNat = r := UInt32.toNat_ofNat_of_lt' (hr.2.trans_le hhigh)
      refine ⟨UInt32.ofNat r, ?_, hword⟩
      change low ≤ (UInt32.ofNat r).toNat ∧ (UInt32.ofNat r).toNat < high
      rwa [hword]
  rw [← Set.ncard_image_of_injective _ hinjective, himage, Set.ncard_coe_finset, Nat.card_Ico]

theorem ceilDiv_add_sub (hb : 0 < bound) (m n : Nat) :
    (m + n) ⌈/⌉ bound - m ⌈/⌉ bound = n / bound ∨ (m + n) ⌈/⌉ bound - m ⌈/⌉ bound = n ⌈/⌉ bound := by
  have hmore : (m + n) ⌈/⌉ bound ≤ m ⌈/⌉ bound + n ⌈/⌉ bound := by
    rw [ceilDiv_le_iff_le_mul hb, Nat.mul_add]
    exact Nat.add_le_add (le_smul_ceilDiv hb) (le_smul_ceilDiv hb)
  have hless : m ⌈/⌉ bound + n / bound ≤ (m + n) ⌈/⌉ bound := by
    have hsum : m + bound - 1 + n = m + n + bound - 1 := by omega
    rw [Nat.ceilDiv_eq_add_pred_div, Nat.ceilDiv_eq_add_pred_div, ← hsum]
    exact Nat.div_add_div_le_add_div ..
  have hone : n ⌈/⌉ bound ≤ n / bound + 1 := by
    rw [ceilDiv_le_iff_le_mul hb, Nat.mul_add_one]
    exact (Nat.lt_mul_div_succ n hb).le
  omega

section Scale

/-- The product of a word and a bound fits into 64 bits, and the draw is its upper half. -/
theorem scaleWord_eq_shift (hbound : bound ≤ UInt32.size) (w : UInt32) :
    scaleWord bound w = ((w.toUInt64 * UInt64.ofNat bound) >>> 32).toNat := by
  have hfits : bound < UInt64.size := hbound.trans_lt (by decide)
  have hproduct : w.toNat * bound < 2 ^ 64 :=
    calc w.toNat * bound ≤ w.toNat * UInt32.size := Nat.mul_le_mul_left _ hbound
      _ < UInt32.size * UInt32.size := Nat.mul_lt_mul_of_pos_right w.toNat_lt (by decide)
      _ = 2 ^ 64 := rfl
  rw [UInt64.toNat_shiftRight, UInt64.toNat_mul, UInt32.toNat_toUInt64, UInt64.toNat_ofNat_of_lt' hfits,
    Nat.mod_eq_of_lt hproduct, Nat.shiftRight_eq_div_pow]
  rfl

theorem scaleWord_lt_iff (w : UInt32) : scaleWord bound w < i ↔ w.toNat * bound < i * UInt32.size :=
  Nat.div_lt_iff_lt_mul (by decide)

/-- The words that lead to a position are those from one quotient up to the next. -/
theorem scaleWord_eq_iff (hb : 0 < bound) (w : UInt32) : scaleWord bound w = i ↔
    (i * UInt32.size) ⌈/⌉ bound ≤ w.toNat ∧ w.toNat < (i * UInt32.size + UInt32.size) ⌈/⌉ bound := by
  have hsucc : i * UInt32.size + UInt32.size = (i + 1) * UInt32.size := (Nat.succ_mul _ _).symm
  rw [hsucc, ← not_le, ceilDiv_le_iff_le_mul hb, ceilDiv_le_iff_le_mul hb, Nat.mul_comm bound, not_le,
    ← not_lt, ← scaleWord_lt_iff, ← scaleWord_lt_iff, not_lt, Nat.lt_succ_iff, Nat.le_antisymm_iff,
    and_comm]

theorem ncard_scaleWord_eq (hi : i < bound) : {w : UInt32 | scaleWord bound w = i}.ncard =
    (i * UInt32.size + UInt32.size) ⌈/⌉ bound - (i * UInt32.size) ⌈/⌉ bound := by
  have hb : 0 < bound := Nat.zero_lt_of_lt hi
  have hlast : (i * UInt32.size + UInt32.size) ⌈/⌉ bound ≤ UInt32.size := by
    rw [ceilDiv_le_iff_le_mul hb, ← Nat.succ_mul]
    exact Nat.mul_le_mul_right _ hi
  simp only [scaleWord_eq_iff hb]
  exact ncard_words hlast

end Scale

namespace Delivery

variable {γ : Type} [RandomSource γ]

/-- A link that loses all packets or none decides as the word would that it does not draw. -/
theorem deliver_iff (d : Delivery) (random : γ) : (d.deliver random).1 = true ↔
    (RandomSource.next random).1.toNat * 100 < d.percent.toNat * UInt32.size := by
  unfold deliver
  split
  · next hnone => simp only [hnone, UInt8.toNat_zero, Nat.zero_mul, Nat.not_lt_zero, Bool.false_eq_true]
  split
  · next hall =>
    have hword := (RandomSource.next random).1.toNat_lt
    rw [hall, show (100 : UInt8).toNat = 100 from rfl, Nat.mul_comm]
    exact iff_of_true rfl (Nat.mul_lt_mul_of_pos_left hword (by decide))
  · rw [← scaleWord_lt_iff]
    exact decide_eq_true_iff

theorem ncard_delivered (d : Delivery) :
    {w : UInt32 | w.toNat * 100 < d.percent.toNat * UInt32.size}.ncard =
      (d.percent.toNat * UInt32.size) ⌈/⌉ 100 := by
  have hlast : (d.percent.toNat * UInt32.size) ⌈/⌉ 100 ≤ UInt32.size := by
    rw [ceilDiv_le_iff_le_mul (by decide)]
    exact Nat.mul_le_mul_right _ d.percent_le
  have hwords : ∀ w : UInt32, w.toNat * 100 < d.percent.toNat * UInt32.size ↔
      0 ≤ w.toNat ∧ w.toNat < (d.percent.toNat * UInt32.size) ⌈/⌉ 100 := by
    intro w
    rw [← not_le (b := w.toNat), ceilDiv_le_iff_le_mul (by decide), Nat.mul_comm 100, not_le]
    exact (and_iff_right (Nat.zero_le _)).symm
  simp only [hwords]
  exact ncard_words hlast

end Delivery

/-- Draws are as even as the number of words allows, and no position is out of reach. A packet arrives for
its share of the words, rounded up, and where it arrives with a word it does so at each higher share. -/
theorem draws_even {γ : Type} [RandomSource γ] (hbound : bound ≤ UInt32.size) (hi : i < bound) :
    let leading : Set UInt32 := {w | scaleWord bound w = i}
    (leading.ncard = UInt32.size / bound ∨ leading.ncard = UInt32.size ⌈/⌉ bound) ∧
      leading.Nonempty ∧
      (∀ random : γ, (drawBelow bound random).1 = scaleWord bound (RandomSource.next random).1 ∧
        (drawBelow bound random).1 < bound) ∧
      (∀ w : UInt32, scaleWord bound w = ((w.toUInt64 * UInt64.ofNat bound) >>> 32).toNat) ∧
      ∀ d : Delivery,
        let delivered : Set UInt32 := {w | w.toNat * 100 < d.percent.toNat * UInt32.size}
        (∀ random : γ, (d.deliver random).1 = true ↔ (RandomSource.next random).1 ∈ delivered) ∧
          delivered.ncard = (d.percent.toNat * UInt32.size) ⌈/⌉ 100 ∧
          ∀ (d' : Delivery) (random random' : γ), d.percent ≤ d'.percent →
            (RandomSource.next random).1 = (RandomSource.next random').1 →
            (d.deliver random).1 = true → (d'.deliver random').1 = true := by
  intro leading
  have hb : 0 < bound := Nat.zero_lt_of_lt hi
  have hcount : leading.ncard = UInt32.size / bound ∨ leading.ncard = UInt32.size ⌈/⌉ bound := by
    rw [ncard_scaleWord_eq hi]
    exact ceilDiv_add_sub hb _ _
  have hnonempty : leading.Nonempty := by
    have hquotient : 0 < UInt32.size / bound := Nat.div_pos hbound hb
    have hrounded : UInt32.size ⌊/⌋ bound ≤ UInt32.size ⌈/⌉ bound := floorDiv_le_ceilDiv
    rw [Nat.floorDiv_eq_div] at hrounded
    apply Set.nonempty_of_ncard_ne_zero
    omega
  refine ⟨hcount, hnonempty, fun random => ⟨rfl, scaleWord_lt hb _⟩, scaleWord_eq_shift hbound,
    fun d => ⟨d.deliver_iff, d.ncard_delivered, fun d' random random' hmore hsame harrived => ?_⟩⟩
  rw [Delivery.deliver_iff, hsame] at harrived
  rw [Delivery.deliver_iff]
  exact harrived.trans_le (Nat.mul_le_mul_right _ (UInt8.le_iff_toNat_le.1 hmore))

/-- The last of three positions, and a packet in a hundred. The first word with which that is lost is the
one after the word that is just small enough. -/
theorem draws_even_thirds :
    let source (w : UInt32) : ChaCha := ⟨Vector.replicate 8 0, 0, [w]⟩
    let one : Delivery := ⟨1, by decide⟩
    let leading : Set UInt32 := {w | scaleWord 3 w = 2}
    let delivered : Set UInt32 := {w | w.toNat * 100 < one.percent.toNat * UInt32.size}
    3 ≤ UInt32.size ∧ 2 < 3 ∧ (leading.ncard = 1431655765 ∨ leading.ncard = 1431655766) ∧
      leading.Nonempty ∧ delivered.ncard = 42949673 ∧ (one.deliver (source 42949672)).1 = true ∧
      (one.deliver (source 42949673)).1 ≠ true ∧ (Delivery.always.deliver (source 42949672)).1 = true := by
  intro source one leading delivered
  have hbound : 3 ≤ UInt32.size := by decide
  have hi : 2 < 3 := by decide
  obtain ⟨hcount, hnonempty, -, -, hdelivery⟩ := draws_even (γ := ChaCha) hbound hi
  obtain ⟨hiff, hshare, hmore⟩ := hdelivery one
  have hpart : (one.percent.toNat * UInt32.size) ⌈/⌉ 100 = 42949673 := by
    rw [Nat.ceilDiv_eq_add_pred_div]
    decide
  have hjust : (one.deliver (source 42949672)).1 = true := by
    rw [hiff]
    exact (by decide : 42949672 * 100 < 1 * UInt32.size)
  have hlost : (one.deliver (source 42949673)).1 ≠ true := by
    rw [Ne, hiff]
    exact (by decide : ¬42949673 * 100 < 1 * UInt32.size)
  have halways : (Delivery.always.deliver (source 42949672)).1 = true :=
    hmore .always (source 42949672) (source 42949672) (by decide) rfl hjust
  exact ⟨hbound, hi, hcount, hnonempty, hshare.trans hpart, hjust, hlost, halways⟩

end CongestionRouting
