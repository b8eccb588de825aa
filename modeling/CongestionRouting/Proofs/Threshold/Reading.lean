import CongestionRouting.Proofs.Text.Reading
import CongestionRouting.Proofs.Threshold

namespace CongestionRouting.ThresholdRatio

open Text

variable {cs left right : List Char} {s : String} {n d : UInt32}
  {answer : Except RatioParseError ThresholdRatio}

/-- The sides of the first slash, without the blanks around the text and around them. -/
def Sides (cs left right : List Char) : Prop :=
  ∃ core l r, Trims cs core ∧ core = l ++ '/' :: r ∧ '/' ∉ l ∧ Trims l left ∧ Trims r right

section Cut

theorem isBlank_slash : isBlank '/' = false := by decide

theorem splitAtSlash_append (hl : '/' ∉ left) (right : List Char) :
    splitAtSlash (left ++ '/' :: right) = some (left, right) := by
  have hne : ∀ c ∈ left, decide (c ≠ '/') = true := fun c hc =>
    decide_eq_true fun heq => hl (heq ▸ hc)
  unfold splitAtSlash
  rw [List.dropWhile_append_of_pos hne, List.takeWhile_append_of_pos hne,
    List.dropWhile_cons_of_neg (by decide), List.takeWhile_cons_of_neg (by decide), List.append_nil]

theorem splitAtSlash_of_not_mem (h : '/' ∉ cs) : splitAtSlash cs = none := by
  have hne : ∀ c ∈ cs, decide (c ≠ '/') = true := fun c hc => decide_eq_true fun heq => h (heq ▸ hc)
  unfold splitAtSlash
  rw [List.dropWhile_eq_nil_iff.2 hne]

/-- A slash is no blank, so it stays. -/
theorem slash_mem_trim : '/' ∈ trim cs ↔ '/' ∈ cs := by
  obtain ⟨before, after, hb, ha, hcs⟩ := (trims_trim cs).exists_blanks
  have hbefore := hb.not_mem isBlank_slash
  have hafter := ha.not_mem isBlank_slash
  conv_rhs => rw [hcs]
  simp [hbefore, hafter]

theorem exists_sides (h : '/' ∈ cs) : ∃ left right, Sides cs left right := by
  obtain ⟨l, r, hcore, hl⟩ := List.eq_append_cons_of_mem (slash_mem_trim.2 h)
  exact ⟨trim l, trim r, trim cs, l, r, trims_trim cs, hcore, hl, trims_trim l, trims_trim r⟩

theorem parse_of_not_mem (h : '/' ∉ s.toList) : parse s = .error .missingSlash := by
  rw [parse, splitAtSlash_of_not_mem (mt slash_mem_trim.1 h)]

theorem parse_of_words (h : Sides s.toList left right) (hn : Denotes left n.toNat)
    (hd : Denotes right d.toNat) : parse s = (make n d).mapError .invalid := by
  obtain ⟨core, l, r, hcore, rfl, hl, hleft, hright⟩ := h
  simp only [parse, trim_eq_iff.2 hcore, splitAtSlash_append hl, trim_eq_iff.2 hleft,
    trim_eq_iff.2 hright, readUInt32_eq_ok_iff.2 hn, readUInt32_eq_ok_iff.2 hd]

theorem parse_of_no_words (h : Sides s.toList left right)
    (hnone : ¬∃ n d : UInt32, Denotes left n.toNat ∧ Denotes right d.toNat) :
    parse s = .error .invalidNumber := by
  obtain ⟨core, l, r, hcore, rfl, hl, hleft, hright⟩ := h
  simp only [parse, trim_eq_iff.2 hcore, splitAtSlash_append hl, trim_eq_iff.2 hleft,
    trim_eq_iff.2 hright]
  cases hn : readUInt32 left with
  | error e => rfl
  | ok n =>
    cases hd : readUInt32 right with
    | error e => rfl
    | ok d => exact absurd ⟨n, d, readUInt32_eq_ok_iff.1 hn, readUInt32_eq_ok_iff.1 hd⟩ hnone

end Cut

/-- What there is to read in a text: no slash, no two numbers, the first objection to them, or a ratio. -/
inductive Reading (cs : List Char) : Except RatioParseError ThresholdRatio → Prop
  | missingSlash (none : '/' ∉ cs) : Reading cs (.error .missingSlash)
  | invalidNumber {left right : List Char} (sides : Sides cs left right)
      (none : ¬∃ n d : UInt32, Denotes left n.toNat ∧ Denotes right d.toNat) :
      Reading cs (.error .invalidNumber)
  | zeroDenominator {left right : List Char} {n d : UInt32} (sides : Sides cs left right)
      (numerator : Denotes left n.toNat) (denominator : Denotes right d.toNat)
      (zero : d.toNat = 0) : Reading cs (.error (.invalid .zeroDenominator))
  | zeroNumerator {left right : List Char} {n d : UInt32} (sides : Sides cs left right)
      (numerator : Denotes left n.toNat) (denominator : Denotes right d.toNat)
      (positive : d.toNat ≠ 0) (zero : n.toNat = 0) :
      Reading cs (.error (.invalid .zeroNumerator))
  | aboveOne {left right : List Char} {n d : UInt32} (sides : Sides cs left right)
      (numerator : Denotes left n.toNat) (denominator : Denotes right d.toNat)
      (positive : d.toNat ≠ 0) (above : d.toNat < n.toNat) :
      Reading cs (.error (.invalid (.aboveOne n d)))
  | ratio {left right : List Char} {r : ThresholdRatio} (sides : Sides cs left right)
      (numerator : Denotes left r.numerator.toNat)
      (denominator : Denotes right r.denominator.toNat) : Reading cs (.ok r)

theorem reading_parse (s : String) : Reading s.toList (parse s) := by
  by_cases hslash : '/' ∈ s.toList
  · obtain ⟨left, right, hsides⟩ := exists_sides hslash
    by_cases hwords : ∃ n d : UInt32, Denotes left n.toNat ∧ Denotes right d.toNat
    · obtain ⟨n, d, hn, hd⟩ := hwords
      rw [parse_of_words hsides hn hd, make]
      split_ifs with hzero hnone hle
      · exact .zeroDenominator hsides hn hd hzero
      · exact .zeroNumerator hsides hn hd hzero hnone
      · exact .ratio hsides hn hd
      · exact .aboveOne hsides hn hd hzero (Nat.not_le.1 hle)
    · rw [parse_of_no_words hsides hwords]
      exact .invalidNumber hsides hwords
  · rw [parse_of_not_mem hslash]
    exact .missingSlash hslash

theorem parse_eq_iff : parse s = answer ↔ Reading s.toList answer := by
  constructor
  · rintro rfl
    exact reading_parse s
  · intro h
    cases h with
    | missingSlash none => exact parse_of_not_mem none
    | invalidNumber sides none => exact parse_of_no_words sides none
    | zeroDenominator sides numerator denominator zero =>
      rw [parse_of_words sides numerator denominator, make, if_pos zero]
      rfl
    | zeroNumerator sides numerator denominator positive zero =>
      rw [parse_of_words sides numerator denominator, make, if_neg positive, dif_pos zero]
      rfl
    | aboveOne sides numerator denominator positive above =>
      rw [parse_of_words sides numerator denominator, make, if_neg positive, dif_neg (by omega),
        dif_neg (Nat.not_le.2 above)]
      rfl
    | ratio sides numerator denominator =>
      rw [parse_of_words sides numerator denominator, make_eq_ok_iff.2 ⟨rfl, rfl⟩]
      rfl

section Written

variable {before after before' after' : List Char} {m k : Nat}

theorem sides_of_denotes (hl : Denotes left m) (hr : Denotes right k) (hbefore : AllBlank before)
    (hafter : AllBlank after) (hbefore' : AllBlank before') (hafter' : AllBlank after') :
    Sides (before ++ left ++ after ++ '/' :: (before' ++ right ++ after')) left right := by
  refine ⟨left ++ after ++ '/' :: (before' ++ right), left ++ after, before' ++ right, ?_, rfl, ?_,
    ?_, ?_⟩
  · refine ⟨⟨before, after', hbefore, hafter', by simp⟩, fun c hc => ?_, fun c hc => ?_⟩
    · rw [List.append_assoc, List.head?_append_of_ne_nil _ hl.ne_nil] at hc
      exact hl.isBlank_eq_false (List.mem_of_mem_head? hc)
    · rw [← List.cons_append, ← List.append_assoc, List.getLast?_append_of_ne_nil _ hr.ne_nil] at hc
      exact hr.isBlank_eq_false (List.mem_of_mem_getLast? hc)
  -- No numeral has a slash, so that the one between them is the first.
  · rw [List.mem_append, not_or]
    refine ⟨fun hmem => ?_, hafter.not_mem isBlank_slash⟩
    rcases hl.isDigit_or_sign hmem with hd | heq
    · exact absurd hd (by decide)
    · exact absurd heq (by decide)
  · simpa using hl.trims allBlank_nil hafter
  · simpa using hr.trims hbefore' allBlank_nil

end Written

def IsWord (cs : List Char) (n : Nat) : Prop := Denotes cs n ∧ n < UInt32.size

section Answers

variable {m k : Nat}

theorem isWord_toNat_iff {w : UInt32} : IsWord cs w.toNat ↔ Denotes cs w.toNat :=
  and_iff_left w.toNat_lt_size

theorem IsWord.exists_word (h : IsWord cs m) : ∃ w : UInt32, Denotes cs w.toNat ∧ w.toNat = m := by
  have hw : (UInt32.ofNat m).toNat = m := UInt32.toNat_ofNat_of_lt' h.2
  exact ⟨UInt32.ofNat m, hw.symm ▸ h.1, hw⟩

theorem slash_mem_iff : '/' ∈ cs ↔ ∃ left right, Sides cs left right := by
  refine ⟨exists_sides, ?_⟩
  rintro ⟨left, right, core, l, r, hcore, rfl, -⟩
  rw [← slash_mem_trim, trim_eq_iff.2 hcore]
  exact List.mem_append_right l List.mem_cons_self

theorem exists_parse_eq_ok_iff :
    (∃ r, parse s = .ok r ∧ r.numerator.toNat = m ∧ r.denominator.toNat = k) ↔
      ∃ left right, Sides s.toList left right ∧ Denotes left m ∧ Denotes right k ∧ 1 ≤ m ∧ m ≤ k ∧
        k ≤ 2 ^ 32 - 1 := by
  constructor
  · rintro ⟨r, hr, rfl, rfl⟩
    cases parse_eq_iff.1 hr with
    | ratio sides numerator denominator =>
      exact ⟨_, _, sides, numerator, denominator, r.numerator_pos, r.numerator_le,
        Nat.le_pred_of_lt r.denominator.toNat_lt⟩
  · rintro ⟨left, right, sides, hm, hk, hpos, hle, hlt⟩
    obtain ⟨n, hn, rfl⟩ := IsWord.exists_word ⟨hm, by simp only [UInt32.size]; omega⟩
    obtain ⟨d, hd, rfl⟩ := IsWord.exists_word ⟨hk, by simp only [UInt32.size]; omega⟩
    exact ⟨⟨n, d, hpos, hle⟩, parse_eq_iff.2 (.ratio sides hn hd), rfl, rfl⟩

theorem parse_eq_missingSlash_iff : parse s = .error .missingSlash ↔ '/' ∉ s.toList := by
  rw [parse_eq_iff]
  constructor
  · rintro ⟨none⟩
    exact none
  · exact .missingSlash

theorem parse_eq_invalidNumber_iff : parse s = .error .invalidNumber ↔
    ∃ left right, Sides s.toList left right ∧
      ((¬∃ n, IsWord left n) ∨ ¬∃ d, IsWord right d) := by
  rw [parse_eq_iff]
  constructor
  · rintro (_ | ⟨sides, none⟩)
    refine ⟨_, _, sides, not_and_or.1 ?_⟩
    rintro ⟨⟨m, hm⟩, k, hk⟩
    obtain ⟨n, hn, -⟩ := hm.exists_word
    obtain ⟨d, hd, -⟩ := hk.exists_word
    exact none ⟨n, d, hn, hd⟩
  · rintro ⟨left, right, sides, none⟩
    refine .invalidNumber sides ?_
    rintro ⟨n, d, hn, hd⟩
    rcases none with hleft | hright
    · exact hleft ⟨_, isWord_toNat_iff.2 hn⟩
    · exact hright ⟨_, isWord_toNat_iff.2 hd⟩

theorem parse_eq_zeroDenominator_iff : parse s = .error (.invalid .zeroDenominator) ↔
    ∃ left right, Sides s.toList left right ∧ (∃ n, IsWord left n) ∧ IsWord right 0 := by
  rw [parse_eq_iff]
  constructor
  · rintro (_ | _ | ⟨sides, numerator, denominator, zero⟩)
    exact ⟨_, _, sides, ⟨_, isWord_toNat_iff.2 numerator⟩, zero ▸ isWord_toNat_iff.2 denominator⟩
  · rintro ⟨left, right, sides, ⟨m, hm⟩, hzero⟩
    obtain ⟨n, hn, -⟩ := hm.exists_word
    obtain ⟨d, hd, heq⟩ := hzero.exists_word
    exact .zeroDenominator sides hn hd heq

theorem parse_eq_zeroNumerator_iff : parse s = .error (.invalid .zeroNumerator) ↔
    ∃ left right, Sides s.toList left right ∧ IsWord left 0 ∧ ∃ d, IsWord right d ∧ d ≠ 0 := by
  rw [parse_eq_iff]
  constructor
  · rintro (_ | _ | _ | ⟨sides, numerator, denominator, positive, zero⟩)
    exact ⟨_, _, sides, zero ▸ isWord_toNat_iff.2 numerator, _, isWord_toNat_iff.2 denominator,
      positive⟩
  · rintro ⟨left, right, sides, hzero, k, hk, hne⟩
    obtain ⟨n, hn, heq⟩ := hzero.exists_word
    obtain ⟨d, hd, rfl⟩ := hk.exists_word
    exact .zeroNumerator sides hn hd hne heq

theorem parse_eq_aboveOne_iff : parse s = .error (.invalid (.aboveOne n d)) ↔
    ∃ left right, Sides s.toList left right ∧ IsWord left n.toNat ∧ IsWord right d.toNat ∧
      d.toNat ≠ 0 ∧ d.toNat < n.toNat := by
  rw [parse_eq_iff]
  constructor
  · rintro (_ | _ | _ | _ | ⟨sides, numerator, denominator, positive, above⟩)
    exact ⟨_, _, sides, isWord_toNat_iff.2 numerator, isWord_toNat_iff.2 denominator, positive, above⟩
  · rintro ⟨left, right, sides, hn, hd, hne, habove⟩
    exact .aboveOne sides hn.1 hd.1 hne habove

end Answers

/-- A text is read as a ratio exactly if its two sides are numerals whose fraction is above zero and up to
one. Without a slash there are no sides; a side that is no numeral of a word is told next, and then the
first objection to the fraction. So a ratio is read back from what is written of it, with whatever blanks
around the numerals. -/
theorem parse_fraction :
    (∀ s : String,
      ('/' ∈ s.toList ↔ ∃ left right, Sides s.toList left right) ∧
      (∀ n d, (∃ r, parse s = .ok r ∧ r.numerator.toNat = n ∧ r.denominator.toNat = d) ↔
        ∃ left right, Sides s.toList left right ∧ Denotes left n ∧ Denotes right d ∧ 1 ≤ n ∧ n ≤ d ∧
          d ≤ 2 ^ 32 - 1) ∧
      (parse s = .error .missingSlash ↔ '/' ∉ s.toList) ∧
      (parse s = .error .invalidNumber ↔ ∃ left right, Sides s.toList left right ∧
        ((¬∃ n, IsWord left n) ∨ ¬∃ d, IsWord right d)) ∧
      (parse s = .error (.invalid .zeroDenominator) ↔ ∃ left right, Sides s.toList left right ∧
        (∃ n, IsWord left n) ∧ IsWord right 0) ∧
      (parse s = .error (.invalid .zeroNumerator) ↔ ∃ left right, Sides s.toList left right ∧
        IsWord left 0 ∧ ∃ d, IsWord right d ∧ d ≠ 0) ∧
      ∀ n d : UInt32, parse s = .error (.invalid (.aboveOne n d)) ↔
        ∃ left right, Sides s.toList left right ∧ IsWord left n.toNat ∧ IsWord right d.toNat ∧
          d.toNat ≠ 0 ∧ d.toNat < n.toNat) ∧
    ∀ r : ThresholdRatio, parse (toString r) = .ok r ∧
      ∀ before after before' after' : String, AllBlank before.toList → AllBlank after.toList →
        AllBlank before'.toList → AllBlank after'.toList →
        parse (before ++ toString r.numerator ++ after ++ "/" ++
          (before' ++ toString r.denominator ++ after')) = .ok r := by
  refine ⟨fun s => ⟨slash_mem_iff, fun n d => exists_parse_eq_ok_iff, parse_eq_missingSlash_iff,
    parse_eq_invalidNumber_iff, parse_eq_zeroDenominator_iff, parse_eq_zeroNumerator_iff,
    fun n d => parse_eq_aboveOne_iff⟩, fun r => ?_⟩
  have hread : ∀ before after before' after' : String, AllBlank before.toList →
      AllBlank after.toList → AllBlank before'.toList → AllBlank after'.toList →
      parse (before ++ toString r.numerator ++ after ++ "/" ++
        (before' ++ toString r.denominator ++ after')) = .ok r := by
    intro before after before' after' hbefore hafter hbefore' hafter'
    refine parse_eq_iff.2 (.ratio ?_ (denotes_toString _) (denotes_toString _))
    simpa using sides_of_denotes (denotes_toString r.numerator) (denotes_toString r.denominator)
      hbefore hafter hbefore' hafter'
  refine ⟨?_, hread⟩
  have htext : toString r = "" ++ toString r.numerator ++ "" ++ "/" ++
      ("" ++ toString r.denominator ++ "") := by
    simp [ToString.toString]
  rw [htext]
  exact hread "" "" "" "" allBlank_nil allBlank_nil allBlank_nil allBlank_nil

/-- Blanks of several kinds do no harm, and neither do a sign and zeros in front. -/
theorem parse_fraction_padded :
    let r : ThresholdRatio := ⟨2, 3, by decide, by decide⟩
    AllBlank "\u2003".toList ∧ AllBlank "\t".toList ∧ AllBlank "\u00a0".toList ∧
      AllBlank "\n ".toList ∧ parse "\u20032\t/\u00a03\n " = .ok r ∧
      ∃ r', parse "+002/3" = .ok r' ∧ r'.numerator.toNat = 2 ∧ r'.denominator.toNat = 3 := by
  intro r
  have hbefore : AllBlank "\u2003".toList := by decide
  have hafter : AllBlank "\t".toList := by decide
  have hbefore' : AllBlank "\u00a0".toList := by decide
  have hafter' : AllBlank "\n ".toList := by decide
  have hread := (parse_fraction.2 r).2 "\u2003" "\t" "\u00a0" "\n " hbefore hafter hbefore' hafter'
  have htext : "\u2003" ++ toString r.numerator ++ "\t" ++ "/" ++
      ("\u00a0" ++ toString r.denominator ++ "\n ") = "\u20032\t/\u00a03\n " := by decide
  rw [htext] at hread
  have htwo : Denotes "+002".toList 2 := ⟨['0', '0', '2'], by simp [Nat.ofDigitChars_cons]⟩
  have hthree : Denotes "3".toList 3 := ⟨['3'], by simp [Nat.ofDigitChars_cons]⟩
  have hsides : Sides "+002/3".toList "+002".toList "3".toList := by
    simpa using sides_of_denotes htwo hthree allBlank_nil allBlank_nil allBlank_nil allBlank_nil
  have hsigned := ((parse_fraction.1 "+002/3").2.1 2 3).2 ⟨_, _, hsides, htwo, hthree, by decide⟩
  exact ⟨hbefore, hafter, hbefore', hafter', hread, hsigned⟩

end CongestionRouting.ThresholdRatio
