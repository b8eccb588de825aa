import CongestionRouting.Interval.Parser
import Mathlib

namespace CongestionRouting.DetectionInterval

variable {cs gap digits rest : List Char} {total d : Duration}

/-- Only spaces, tabs, line feeds and form feeds. -/
def IsGap (cs : List Char) : Prop := ∀ c ∈ cs, c ∈ [' ', '\t', '\n', '\x0c']

def TimeUnit.name : TimeUnit → List Char
  | .milliseconds => ['m', 's']
  | .seconds => ['s']
  | .minutes => ['m']

structure Measure where
  before : List Char
  digits : List Char
  between : List Char
  unit : TimeUnit
  isGap_before : IsGap before
  digits_ne_nil : digits ≠ []
  isDigit_digits : ∀ c ∈ digits, c.isDigit = true
  isGap_between : IsGap between

namespace Measure

def text (m : Measure) : List Char := m.before ++ (m.digits ++ (m.between ++ m.unit.name))

def number (m : Measure) : Nat := Nat.ofDigitChars 10 m.digits 0

def nanos (m : Measure) : Nat :=
  match m.unit with
  | .milliseconds => m.number * 1000000
  | .seconds => m.number * 1000000000
  | .minutes => m.number * 60 * 1000000000

/-- The number has 64 bits, and as minutes it has them in seconds. -/
def InRange (m : Measure) : Prop :=
  m.number < UInt64.size ∧ (m.unit = .minutes → m.number * 60 < UInt64.size)

def tokens (m : Measure) : List (Option Token) := [some (.number m.number), some (.unit m.unit)]

end Measure

/-- The text is that of the measures, and a gap behind them. -/
def Written (cs : List Char) (measures : List Measure) : Prop :=
  ∃ gap, IsGap gap ∧ cs = measures.flatMap Measure.text ++ gap

def totalNanos (measures : List Measure) : Nat := (measures.map Measure.nanos).sum

/-- There are numbers and a span for all that is read. -/
structure Fits (measures : List Measure) : Prop where
  inRange : ∀ m ∈ measures, m.InRange
  le_longest : totalNanos measures ≤ Duration.longest.nanos

theorem isGap_eq_true_iff {c : Char} : isGap c = true ↔ c ∈ [' ', '\t', '\n', '\x0c'] := by
  simp [isGap, or_assoc]

section Tokens

theorem tokens_cons {c : Char} (hm : c ≠ 'm') (hs : c ≠ 's') (cs : List Char) :
    tokens (c :: cs) =
      if isGap c then tokens cs
      else if c.isDigit then
        some (.number (Nat.ofDigitChars 10 (c :: cs.takeWhile Char.isDigit) 0)) ::
          tokens (cs.dropWhile Char.isDigit)
      else [none] := by
  rw [tokens]
  · intro _ h
    exact absurd h hm
  · exact hm
  · exact hs

theorem tokens_gap_append (hg : IsGap gap) (cs : List Char) : tokens (gap ++ cs) = tokens cs := by
  induction gap with
  | nil => rfl
  | cons c gap ih =>
    have hc : isGap c = true := isGap_eq_true_iff.2 (hg c List.mem_cons_self)
    have hm : c ≠ 'm' := by
      rintro rfl
      exact absurd hc (by decide)
    have hs : c ≠ 's' := by
      rintro rfl
      exact absurd hc (by decide)
    rw [List.cons_append, tokens_cons hm hs, if_pos hc]
    exact ih fun c hc => hg c (List.mem_cons_of_mem _ hc)

/-- A letter m is a unit of its own only if no s follows. -/
theorem tokens_unit_append (u : TimeUnit) (hs : cs.head? ≠ some 's') :
    tokens (u.name ++ cs) = some (.unit u) :: tokens cs := by
  cases u with
  | milliseconds => rw [TimeUnit.name, List.cons_append, List.cons_append, List.nil_append, tokens]
  | seconds => rw [TimeUnit.name, List.cons_append, List.nil_append, tokens]
  | minutes =>
    rw [TimeUnit.name, List.cons_append, List.nil_append, tokens]
    rintro rest rfl
    exact hs rfl

/-- A number takes in all digits that there are. -/
theorem tokens_digits_append (hne : digits ≠ []) (hd : ∀ c ∈ digits, c.isDigit = true)
    (hr : ∀ c, cs.head? = some c → c.isDigit = false) :
    tokens (digits ++ cs) = some (.number (Nat.ofDigitChars 10 digits 0)) :: tokens cs := by
  cases digits with
  | nil => exact absurd rfl hne
  | cons c digits =>
    have hc : c.isDigit = true := hd c List.mem_cons_self
    have hrun : ∀ a ∈ digits, a.isDigit = true := fun a ha => hd a (List.mem_cons_of_mem _ ha)
    have hstop : cs.takeWhile Char.isDigit = [] ∧ cs.dropWhile Char.isDigit = cs := by
      cases cs with
      | nil => exact ⟨rfl, rfl⟩
      | cons a cs => simp [hr a rfl]
    have hm : c ≠ 'm' := by
      rintro rfl
      exact absurd hc (by decide)
    have hs : c ≠ 's' := by
      rintro rfl
      exact absurd hc (by decide)
    have hgap : ¬isGap c = true := by
      intro hgap
      rw [isGap_eq_true_iff] at hgap
      simp only [List.mem_cons, List.not_mem_nil, or_false] at hgap
      rcases hgap with rfl | rfl | rfl | rfl <;> exact absurd hc (by decide)
    rw [List.cons_append, tokens_cons hm hs, if_neg hgap, if_pos hc,
      List.takeWhile_append_of_pos hrun, List.dropWhile_append_of_pos hrun, hstop.1, hstop.2,
      List.append_nil]

theorem tokens_cases (cs : List Char) :
    (IsGap cs ∧ tokens cs = []) ∨
    (∃ gap u rest, IsGap gap ∧ cs = gap ++ (u.name ++ rest) ∧
      tokens cs = some (.unit u) :: tokens rest) ∨
    (∃ gap digits rest, IsGap gap ∧ digits ≠ [] ∧ (∀ c ∈ digits, c.isDigit = true) ∧
      cs = gap ++ (digits ++ rest) ∧
      tokens cs = some (.number (Nat.ofDigitChars 10 digits 0)) :: tokens rest) ∨
    tokens cs = [none] := by
  fun_induction tokens cs with
  | case1 => exact .inl ⟨nofun, rfl⟩
  | case2 rest => exact .inr (.inl ⟨[], .milliseconds, rest, nofun, rfl, rfl⟩)
  | case3 rest => exact .inr (.inl ⟨[], .minutes, rest, nofun, rfl, rfl⟩)
  | case4 rest => exact .inr (.inl ⟨[], .seconds, rest, nofun, rfl, rfl⟩)
  | case5 c rest hms hm hs hc ih =>
    have hcons : ∀ {gap}, IsGap gap → IsGap (c :: gap) := by
      intro gap hg a ha
      rcases List.mem_cons.1 ha with rfl | ha
      · exact isGap_eq_true_iff.1 hc
      · exact hg a ha
    rcases ih with ⟨hg, ht⟩ | ⟨gap, u, tail, hg, rfl, ht⟩ | ⟨gap, digits, tail, hg, hne, hd, rfl, ht⟩ |
      ht
    · exact .inl ⟨hcons hg, ht⟩
    · exact .inr (.inl ⟨c :: gap, u, tail, hcons hg, rfl, ht⟩)
    · exact .inr (.inr (.inl ⟨c :: gap, digits, tail, hcons hg, hne, hd, rfl, ht⟩))
    · exact .inr (.inr (.inr ht))
  | case6 c rest hms hm hs hgap hc ih =>
    refine .inr (.inr (.inl ⟨[], c :: rest.takeWhile Char.isDigit, rest.dropWhile Char.isDigit, nofun,
      nofun, ?_, ?_, rfl⟩))
    · intro a ha
      rcases List.mem_cons.1 ha with rfl | ha
      · exact hc
      · exact List.all_eq_true.1 List.all_takeWhile a ha
    · rw [List.nil_append, List.cons_append, List.takeWhile_append_dropWhile]
  | case7 => exact .inr (.inr (.inr rfl))

end Tokens

theorem IsGap.head?_ne (hg : IsGap gap) : gap.head? ≠ some 's' := by
  intro hs
  exact absurd (hg 's' (List.mem_of_mem_head? hs)) (by decide)

namespace Measure

variable (m : Measure)

theorem head?_text_append_ne (cs : List Char) : (m.text ++ cs).head? ≠ some 's' := by
  intro hs
  rw [text, List.append_assoc, List.head?_append, List.append_assoc, List.head?_append] at hs
  cases hb : m.before.head? with
  | some c =>
    rw [hb, Option.some_or] at hs
    exact m.isGap_before.head?_ne (hb.trans hs)
  | none =>
    obtain ⟨c, rest, hdigits⟩ := List.exists_cons_of_ne_nil m.digits_ne_nil
    rw [hb, Option.none_or, hdigits, List.head?_cons, Option.some_or, Option.some_inj] at hs
    have hc : c.isDigit = true := m.isDigit_digits c (hdigits ▸ List.mem_cons_self)
    exact absurd (hs ▸ hc) (by decide)

theorem tokens_text_append (hs : cs.head? ≠ some 's') :
    DetectionInterval.tokens (m.text ++ cs) = m.tokens ++ DetectionInterval.tokens cs := by
  have hunit : ∀ c, (m.between ++ (m.unit.name ++ cs)).head? = some c → c.isDigit = false := by
    intro c hc
    cases hb : m.between with
    | nil =>
      rw [hb] at hc
      cases hu : m.unit <;> (rw [hu] at hc; exact Option.some.inj hc ▸ by decide)
    | cons a between =>
      rw [hb] at hc
      obtain rfl : a = c := Option.some.inj hc
      have ha := m.isGap_between a (hb ▸ List.mem_cons_self)
      simp only [List.mem_cons, List.not_mem_nil, or_false] at ha
      rcases ha with rfl | rfl | rfl | rfl <;> decide
  simp only [text, List.append_assoc]
  rw [tokens_gap_append m.isGap_before,
    tokens_digits_append m.digits_ne_nil m.isDigit_digits hunit, tokens_gap_append m.isGap_between,
    tokens_unit_append m.unit hs]
  rfl

end Measure

theorem Written.tokens_eq {measures : List Measure} (hw : Written cs measures) :
    tokens cs = measures.flatMap Measure.tokens := by
  obtain ⟨gap, hg, rfl⟩ := hw
  induction measures with
  | nil =>
    rw [List.flatMap_nil, List.nil_append, ← List.append_nil gap, tokens_gap_append hg, tokens,
      List.flatMap_nil]
  | cons m measures ih =>
    have hs : (measures.flatMap Measure.text ++ gap).head? ≠ some 's' := by
      cases measures with
      | nil => exact hg.head?_ne
      | cons next measures =>
        rw [List.flatMap_cons, List.append_assoc]
        exact next.head?_text_append_ne _
    rw [List.flatMap_cons, List.append_assoc, m.tokens_text_append hs, ih, List.flatMap_cons]

/-- A text whose tokens are numbers and units in turn is written. -/
theorem exists_written_of_tokens {pairs : List (Nat × TimeUnit)}
    (ht : tokens cs = pairs.flatMap fun p => [some (.number p.1), some (.unit p.2)]) :
    ∃ measures, Written cs measures := by
  induction pairs generalizing cs with
  | nil =>
    rcases tokens_cases cs with ⟨hg, -⟩ | ⟨_, _, _, -, -, h⟩ | ⟨_, _, _, -, -, -, -, h⟩ | h
    · exact ⟨[], cs, hg, rfl⟩
    all_goals exact absurd (h.symm.trans ht) nofun
  | cons p pairs ih =>
    rw [List.flatMap_cons, List.cons_append, List.cons_append, List.nil_append] at ht
    rcases tokens_cases cs with
      ⟨-, h⟩ | ⟨_, _, _, -, -, h⟩ | ⟨before, digits, rest, hbefore, hne, hd, hcs, h⟩ | h
    · exact absurd (h.symm.trans ht) nofun
    · exact absurd (h.symm.trans ht) nofun
    · have hrest := List.tail_eq_of_cons_eq (h.symm.trans ht)
      rcases tokens_cases rest with
        ⟨-, h⟩ | ⟨between, u, tail, hbetween, hrest', h⟩ | ⟨_, _, _, -, -, -, -, h⟩ | h
      · exact absurd (h.symm.trans hrest) nofun
      · obtain ⟨measures, gap, hgap, htail⟩ := ih (List.tail_eq_of_cons_eq (h.symm.trans hrest))
        refine ⟨⟨before, digits, between, u, hbefore, hne, hd, hbetween⟩ :: measures, gap, hgap, ?_⟩
        rw [List.flatMap_cons, List.append_assoc, ← htail, hcs, hrest']
        simp only [Measure.text, List.append_assoc]
      · exact absurd (h.symm.trans hrest) nofun
      · exact absurd (h.symm.trans hrest) nofun
    · exact absurd (h.symm.trans ht) nofun

theorem exists_pairs_of_addMeasures {ts : List (Option Token)} (h : addMeasures total ts = .ok d) :
    ∃ pairs : List (Nat × TimeUnit),
      ts = pairs.flatMap fun p => [some (.number p.1), some (.unit p.2)] := by
  fun_induction addMeasures total ts with
  | case1 => exact ⟨[], rfl⟩
  | case5 total n rest hn u next hnext ih =>
    obtain ⟨pairs, rfl⟩ := ih h
    exact ⟨(n, u) :: pairs, rfl⟩
  | case2 | case3 | case4 | case6 | case7 | case8 => exact absurd h nofun

section Sum

variable {measures : List Measure}

theorem Measure.nanos_eq (m : Measure) : m.nanos = m.number * m.unit.nanos := by
  unfold nanos TimeUnit.nanos
  cases m.unit <;> simp only [Nat.mul_assoc]

theorem ofNanos?_eq_none_iff {n : Nat} :
    Duration.ofNanos? n = none ↔ UInt64.size * Duration.nanosPerSecond ≤ n := by
  unfold Duration.ofNanos?
  split <;> simp_all

/-- A span that is too long stays so with another one added. -/
theorem ofNanos?_bind_add? (total : Duration) (n : Nat) :
    (Duration.ofNanos? n).bind total.add? = Duration.ofNanos? (total.nanos + n) := by
  cases hn : Duration.ofNanos? n with
  | none =>
    rw [ofNanos?_eq_none_iff] at hn
    exact (ofNanos?_eq_none_iff.2 (by omega)).symm
  | some d => rw [Option.bind_some, Duration.add?, Duration.ofNanos?_eq_some_iff.1 hn]

theorem addMeasures_cons (m : Measure) (ts : List (Option Token)) :
    addMeasures total (m.tokens ++ ts) =
      if m.number < UInt64.size then
        (Duration.ofNanos? (total.nanos + m.nanos)).elim (.error .overflow) (addMeasures · ts)
      else .error .overflow := by
  rw [Measure.tokens, List.cons_append, List.cons_append, List.nil_append, addMeasures,
    ofNanos?_bind_add?, Measure.nanos_eq]
  cases Duration.ofNanos? (total.nanos + m.number * m.unit.nanos) <;> rfl

theorem addMeasures_flatMap (measures : List Measure) (total : Duration) :
    addMeasures total (measures.flatMap Measure.tokens) =
      if ∀ m ∈ measures, m.number < UInt64.size then
        (Duration.ofNanos? (total.nanos + totalNanos measures)).elim (.error .overflow) .ok
      else .error .overflow := by
  induction measures generalizing total with
  | nil =>
    have htotal : Duration.ofNanos? total.nanos = some total := Duration.ofNanos?_eq_some_iff.2 rfl
    rw [if_pos nofun, totalNanos, List.map_nil, List.sum_nil, Nat.add_zero, htotal]
    rfl
  | cons m measures ih =>
    have hsum : totalNanos (m :: measures) = m.nanos + totalNanos measures := List.sum_cons
    rw [List.flatMap_cons, addMeasures_cons, hsum, ← Nat.add_assoc]
    simp only [List.forall_mem_cons]
    by_cases hm : m.number < UInt64.size
    · simp only [hm, if_true, true_and]
      cases hnext : Duration.ofNanos? (total.nanos + m.nanos) with
      | none =>
        -- What is too much already does not become less.
        rw [ofNanos?_eq_none_iff] at hnext
        rw [ofNanos?_eq_none_iff.2 (Nat.le_trans hnext (Nat.le_add_right _ _))]
        simp only [Option.elim_none, ite_self]
      | some next =>
        rw [Option.elim_some, ih next, Duration.ofNanos?_eq_some_iff.1 hnext]
    · simp only [hm, if_false, false_and]

/-- The seconds of minutes are counted in the sum, so that only the numbers need a bound of their own. -/
theorem fits_iff : Fits measures ↔ (∀ m ∈ measures, m.number < UInt64.size) ∧
    totalNanos measures < UInt64.size * Duration.nanosPerSecond := by
  have hlongest : totalNanos measures ≤ Duration.longest.nanos ↔
      totalNanos measures < UInt64.size * Duration.nanosPerSecond := by
    unfold Duration.longest
    simp only [UInt64.size, Duration.nanosPerSecond]
    omega
  constructor
  · intro h
    exact ⟨fun m hm => (h.inRange m hm).1, hlongest.1 h.le_longest⟩
  · rintro ⟨hnumber, htotal⟩
    refine ⟨fun m hm => ⟨hnumber m hm, fun hu => ?_⟩, hlongest.2 htotal⟩
    have hle : m.nanos ≤ totalNanos measures :=
      List.le_sum_of_mem (List.mem_map_of_mem hm)
    simp only [Measure.nanos, hu] at hle
    simp only [UInt64.size, Duration.nanosPerSecond] at htotal ⊢
    omega

theorem parse_of_written {s : String} (hw : Written s.toList measures) :
    parse s =
      if ∀ m ∈ measures, m.number < UInt64.size then
        (Duration.ofNanos? (totalNanos measures)).elim (.error (.unreadable .overflow s))
          fun d => .ok ⟨d⟩
      else .error (.unreadable .overflow s) := by
  have hzero : Duration.zero.nanos + totalNanos measures = totalNanos measures := Nat.zero_add _
  rw [parse, hw.tokens_eq, addMeasures_flatMap, hzero]
  by_cases hnumber : ∀ m ∈ measures, m.number < UInt64.size
  · simp only [if_pos hnumber]
    cases Duration.ofNanos? (totalNanos measures) <;> rfl
  · simp only [if_neg hnumber]

/-- A text is read as the sum of its measures, if they fit, and otherwise they are too large. Any other
text cannot be read. -/
theorem parse_written (s : String) :
    (∀ measures, Written s.toList measures →
      (Fits measures → ∃ i, parse s = .ok i ∧ i.duration.nanos = totalNanos measures) ∧
        (¬Fits measures → parse s = .error (.unreadable .overflow s))) ∧
      ((¬∃ measures, Written s.toList measures) → ∃ fault, parse s = .error (.unreadable fault s)) := by
  refine ⟨fun measures hw => ⟨fun hfits => ?_, fun hlarge => ?_⟩, fun hnone => ?_⟩
  · obtain ⟨hnumber, htotal⟩ := fits_iff.1 hfits
    refine ⟨⟨⟨totalNanos measures, htotal⟩⟩, ?_, rfl⟩
    rw [parse_of_written hw, if_pos hnumber, Duration.ofNanos?, dif_pos htotal, Option.elim_some]
  · rw [parse_of_written hw]
    by_cases hnumber : ∀ m ∈ measures, m.number < UInt64.size
    · have htotal : Duration.ofNanos? (totalNanos measures) = none := by
        rw [ofNanos?_eq_none_iff]
        exact Nat.not_lt.1 fun hlt => hlarge (fits_iff.2 ⟨hnumber, hlt⟩)
      rw [if_pos hnumber, htotal, Option.elim_none]
    · rw [if_neg hnumber]
  · unfold parse
    cases hsum : addMeasures .zero (tokens s.toList) with
    | error fault => exact ⟨fault, rfl⟩
    | ok d =>
      obtain ⟨pairs, hpairs⟩ := exists_pairs_of_addMeasures hsum
      exact absurd (exists_written_of_tokens hpairs) hnone

/-- The most seconds that there are, the last 60 of them as a minute, and most of another second. One
millisecond more is too much. -/
theorem parse_written_longest :
    let seconds : Measure :=
      ⟨[], "18446744073709551555".toList, [' '], .seconds, nofun, by simp, by simp, by simp [IsGap]⟩
    let minute : Measure := ⟨[], ['1'], [], .minutes, nofun, nofun, by simp, nofun⟩
    let most : Measure :=
      ⟨['\t'], ['9', '9', '9'], [], .milliseconds, by simp [IsGap], nofun, by simp, nofun⟩
    let more : Measure := ⟨[], ['1'], [], .milliseconds, nofun, nofun, by simp, nofun⟩
    let text := "18446744073709551555 s1m\t999ms "
    let longer := "18446744073709551555 s1m\t999ms1ms"
    Written text.toList [seconds, minute, most] ∧ Fits [seconds, minute, most] ∧
      (∃ i, parse text = .ok i ∧ i.duration.nanos = totalNanos [seconds, minute, most]) ∧
      Written longer.toList [seconds, minute, most, more] ∧ ¬Fits [seconds, minute, most, more] ∧
      parse longer = .error (.unreadable .overflow longer) := by
  intro seconds minute most more text longer
  have hw : Written text.toList [seconds, minute, most] := ⟨[' '], by simp [IsGap], by decide⟩
  have hfits : Fits [seconds, minute, most] := fits_iff.2 (by decide)
  have hw' : Written longer.toList [seconds, minute, most, more] := ⟨[], nofun, by decide⟩
  have hlarge : ¬Fits [seconds, minute, most, more] := by
    rw [fits_iff]
    decide
  exact ⟨hw, hfits, ((parse_written text).1 _ hw).1 hfits, hw', hlarge,
    ((parse_written longer).1 _ hw').2 hlarge⟩

end Sum

end CongestionRouting.DetectionInterval
