import CongestionRouting.Text.Blank
import CongestionRouting.Text.Numeral
import Mathlib

namespace CongestionRouting.Text

variable {cs core before after : List Char} {c : Char} {limit m n : Nat}

def AllBlank (cs : List Char) : Prop := ∀ c ∈ cs, isBlank c = true

instance (cs : List Char) : Decidable (AllBlank cs) := List.decidableBAll _ cs

theorem allBlank_nil : AllBlank [] := List.forall_mem_nil _

theorem AllBlank.not_mem (h : AllBlank cs) (hc : isBlank c = false) : c ∉ cs := fun hmem =>
  absurd ((h c hmem).symm.trans hc) nofun

/-- One text is the other with blanks around it, and has none at its own ends. -/
structure Trims (cs core : List Char) : Prop where
  exists_blanks : ∃ before after, AllBlank before ∧ AllBlank after ∧ cs = before ++ core ++ after
  head : ∀ c ∈ core.head?, isBlank c = false
  last : ∀ c ∈ core.getLast?, isBlank c = false

section Trim

theorem head?_dropWhile (cs : List Char) : ∀ c ∈ (cs.dropWhile isBlank).head?, isBlank c = false := by
  intro c hc
  have hnot := List.head?_dropWhile_not isBlank cs
  rwa [Option.mem_def.1 hc] at hnot

theorem dropWhile_append (hb : AllBlank before) (hcs : ∀ c ∈ cs.head?, isBlank c = false) :
    (before ++ cs).dropWhile isBlank = cs := by
  rw [List.dropWhile_append_of_pos hb]
  cases cs with
  | nil => rfl
  | cons c cs => rw [List.dropWhile_cons_of_neg (Bool.not_eq_true _ ▸ hcs c rfl)]

theorem allBlank_takeWhile (cs : List Char) : AllBlank (cs.takeWhile isBlank) :=
  List.all_eq_true.1 List.all_takeWhile

theorem AllBlank.reverse (h : AllBlank cs) : AllBlank cs.reverse :=
  fun c hc => h c (List.mem_reverse.1 hc)

theorem AllBlank.append (hb : AllBlank before) (ha : AllBlank after) : AllBlank (before ++ after) :=
  List.forall_mem_append.2 ⟨hb, ha⟩

theorem trims_trim (cs : List Char) : Trims cs (trim cs) := by
  let rest := cs.dropWhile isBlank
  have hrest : rest = trim cs ++ (rest.reverse.takeWhile isBlank).reverse := by
    rw [trim, ← List.reverse_append, List.takeWhile_append_dropWhile, List.reverse_reverse]
  refine ⟨⟨cs.takeWhile isBlank, (rest.reverse.takeWhile isBlank).reverse, allBlank_takeWhile cs,
    (allBlank_takeWhile _).reverse, ?_⟩, fun c hc => ?_, fun c hc => ?_⟩
  · rw [List.append_assoc, ← hrest, List.takeWhile_append_dropWhile]
  · refine head?_dropWhile cs c ?_
    change c ∈ rest.head?
    rw [hrest, List.head?_append, Option.mem_def.1 hc, Option.some_or, Option.mem_def]
  · rw [trim, List.getLast?_reverse] at hc
    exact head?_dropWhile _ c hc

theorem trim_eq_iff : trim cs = core ↔ Trims cs core := by
  constructor
  · rintro rfl
    exact trims_trim cs
  · rintro ⟨⟨before, after, hb, ha, rfl⟩, hhead, hlast⟩
    rw [trim, List.append_assoc]
    cases core with
    | nil =>
      have hnone : (before ++ after).dropWhile isBlank = [] :=
        List.dropWhile_eq_nil_iff.2 (hb.append ha)
      rw [List.nil_append, hnone]
      rfl
    | cons c core =>
      have hfront : (before ++ (c :: core ++ after)).dropWhile isBlank = c :: core ++ after :=
        dropWhile_append hb hhead
      have hback : (after.reverse ++ (c :: core).reverse).dropWhile isBlank = (c :: core).reverse :=
        dropWhile_append ha.reverse (by rwa [List.head?_reverse])
      rw [hfront, List.reverse_append, hback, List.reverse_reverse]

end Trim

/-- The text is an unsigned decimal numeral of that value, perhaps with a sign in front. -/
def Denotes (cs : List Char) (n : Nat) : Prop :=
  ∃ digits, (cs = digits ∨ cs = '+' :: digits) ∧ digits ≠ [] ∧
    (∀ c ∈ digits, c.isDigit = true) ∧ Nat.ofDigitChars 10 digits 0 = n

theorem isBlank_of_isDigit (hc : c.isDigit = true) : isBlank c = false := by
  rw [Char.isDigit, Bool.and_eq_true, decide_eq_true_eq, decide_eq_true_eq] at hc
  change 48 ≤ c.toNat ∧ c.toNat ≤ 57 at hc
  rw [isBlank, List.any_eq_false]
  rintro ⟨low, high⟩ hmem
  simp only [blankRanges, List.mem_cons, Prod.mk.injEq, List.not_mem_nil, or_false] at hmem
  rw [Bool.and_eq_true, decide_eq_true_eq, decide_eq_true_eq]
  omega

theorem le_ofDigitChars (n : Nat) (cs : List Char) : n ≤ Nat.ofDigitChars 10 cs n := by
  rw [Nat.ofDigitChars_eq_ofDigitChars_zero]
  exact Nat.le_trans (Nat.le_mul_of_pos_left n (by positivity)) (Nat.le_add_right _ _)

/-- Digits are read as their value, unless it is too large. -/
theorem readDigits_eq_ok_iff (hn : n ≤ limit) : readDigits limit n cs = .ok m ↔
    (∀ c ∈ cs, c.isDigit = true) ∧ Nat.ofDigitChars 10 cs n = m ∧ m ≤ limit := by
  induction cs generalizing n with
  | nil =>
    rw [readDigits, Except.ok.injEq, Nat.ofDigitChars_nil]
    constructor
    · rintro rfl
      exact ⟨List.forall_mem_nil _, rfl, hn⟩
    · exact fun h => h.2.1
  | cons c cs ih =>
    rw [Nat.ofDigitChars_cons, List.forall_mem_cons]
    by_cases hc : c.isDigit = true
    · rw [readDigits, digit?, if_pos hc]
      dsimp only
      by_cases hle : 10 * n + (c.toNat - '0'.toNat) ≤ limit
      · rw [if_pos hle, ih hle, and_iff_right hc]
      · rw [if_neg hle, iff_false_left (by simp)]
        rintro ⟨-, rfl, hm⟩
        exact hle ((le_ofDigitChars _ cs).trans hm)
    · rw [readDigits, digit?, if_neg hc]
      exact iff_of_false (by simp) fun h => hc h.1.1

theorem readNumeral_eq_ok_iff : readNumeral limit cs = .ok n ↔ Denotes cs n ∧ n ≤ limit := by
  -- Digits alone and digits behind a sign are never the same text.
  have hsign : ¬ '+'.isDigit = true := by decide
  unfold readNumeral Denotes
  split
  · refine iff_of_false nofun ?_
    rintro ⟨⟨digits, hcs, hne, -⟩, -⟩
    rcases hcs with rfl | hcs
    · exact hne rfl
    · exact absurd hcs nofun
  · refine iff_of_false nofun ?_
    rintro ⟨⟨digits, hcs, hne, hd, -⟩, -⟩
    rcases hcs with rfl | hcs
    · exact hsign (hd '+' List.mem_cons_self)
    · exact hne (List.tail_eq_of_cons_eq hcs).symm
  · next cs hne =>
    rw [readDigits_eq_ok_iff (Nat.zero_le limit)]
    constructor
    · rintro ⟨hd, hvalue, hle⟩
      exact ⟨⟨cs, .inr rfl, fun h => hne (h ▸ rfl), hd, hvalue⟩, hle⟩
    · rintro ⟨⟨digits, hcs, -, hd, hvalue⟩, hle⟩
      rcases hcs with rfl | hcs
      · exact absurd (hd '+' List.mem_cons_self) hsign
      · obtain rfl := List.tail_eq_of_cons_eq hcs
        exact ⟨hd, hvalue, hle⟩
  · next hnil hlone hcons =>
    rw [readDigits_eq_ok_iff (Nat.zero_le limit)]
    constructor
    · rintro ⟨hd, hvalue, hle⟩
      exact ⟨⟨cs, .inl rfl, hnil, hd, hvalue⟩, hle⟩
    · rintro ⟨⟨digits, hcs, -, hd, hvalue⟩, hle⟩
      rcases hcs with rfl | rfl
      · exact ⟨hd, hvalue, hle⟩
      · exact absurd rfl (hcons digits)

theorem readUInt32_eq_ok_iff {w : UInt32} : readUInt32 cs = .ok w ↔ Denotes cs w.toNat := by
  have hw : w.toNat ≤ 0xffffffff := Nat.le_of_lt_succ w.toNat_lt
  unfold readUInt32
  cases hread : readNumeral 0xffffffff cs with
  | error e =>
    refine iff_of_false nofun fun hd => ?_
    exact absurd (hread.symm.trans (readNumeral_eq_ok_iff.2 ⟨hd, hw⟩)) nofun
  | ok n =>
    obtain ⟨hd, hn⟩ := readNumeral_eq_ok_iff.1 hread
    have hvalue : (UInt32.ofNat n).toNat = n := UInt32.toNat_ofNat_of_lt' (Nat.lt_succ_of_le hn)
    rw [Except.map, Except.ok.injEq]
    constructor
    · rintro rfl
      rwa [hvalue]
    · intro hd'
      have heq := hread.symm.trans (readNumeral_eq_ok_iff.2 ⟨hd', hw⟩)
      rw [Except.ok.injEq] at heq
      rw [heq, UInt32.ofNat_toNat]

namespace Denotes

theorem ne_nil (h : Denotes cs n) : cs ≠ [] := by
  obtain ⟨digits, rfl | rfl, hne, -⟩ := h
  · exact hne
  · exact List.cons_ne_nil _ _

theorem isDigit_or_sign (h : Denotes cs n) (hc : c ∈ cs) : c.isDigit = true ∨ c = '+' := by
  obtain ⟨digits, rfl | rfl, -, hd, -⟩ := h
  · exact .inl (hd c hc)
  · exact (List.mem_cons.1 hc).symm.imp_left (hd c)

theorem isBlank_eq_false (h : Denotes cs n) (hc : c ∈ cs) : isBlank c = false := by
  rcases h.isDigit_or_sign hc with hd | rfl
  · exact isBlank_of_isDigit hd
  · decide

/-- Blanks around a numeral are trimmed away, and nothing else. -/
theorem trims (h : Denotes cs n) (hb : AllBlank before) (ha : AllBlank after) :
    Trims (before ++ cs ++ after) cs where
  exists_blanks := ⟨before, after, hb, ha, rfl⟩
  head _ hc := h.isBlank_eq_false (List.mem_of_mem_head? hc)
  last _ hc := h.isBlank_eq_false (List.mem_of_mem_getLast? hc)

end Denotes

theorem denotes_toString (w : UInt32) : Denotes (toString w).toList w.toNat := by
  have hdigits : (toString w).toList = Nat.toDigits 10 w.toNat := Nat.toList_repr
  refine ⟨Nat.toDigits 10 w.toNat, .inl hdigits, Nat.toDigits_ne_nil, fun c hc => ?_, ?_⟩
  · exact Nat.isDigit_of_mem_toDigits (by decide) (by decide) hc
  · exact Nat.ofDigitChars_toDigits (by decide) (by decide)

end CongestionRouting.Text
