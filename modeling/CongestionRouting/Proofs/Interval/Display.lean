import CongestionRouting.Proofs.Interval.Reading

namespace CongestionRouting

namespace Text

variable {places n : Nat}

theorem digitChar_eq_zero_iff (hn : n < 10) : Nat.digitChar n = '0' ↔ n = 0 := by
  decide +revert

theorem fixedDigits_eq_zero_iff (width n : Nat) :
    (∀ c ∈ fixedDigits width n, c = '0') ↔ 10 ^ width ∣ n := by
  induction width generalizing n with
  | zero => simp [fixedDigits]
  | succ width ih =>
    rw [fixedDigits, List.forall_mem_append, ih, List.forall_mem_singleton,
      digitChar_eq_zero_iff (Nat.mod_lt n (by decide)), ← Nat.dvd_iff_mod_eq_zero, Nat.pow_succ']
    -- The last digit tells of one factor ten, and those before it of the rest.
    constructor
    · rintro ⟨hhigh, hlow⟩
      rw [← Nat.mul_div_cancel' hlow]
      exact Nat.mul_dvd_mul_left 10 hhigh
    · intro h
      have hlow : 10 ∣ n := (Nat.dvd_mul_right 10 (10 ^ width)).trans h
      exact ⟨(Nat.dvd_div_iff_mul_dvd hlow).2 h, hlow⟩

theorem dropTrailingZeros_eq_nil_iff {ds : List Char} :
    dropTrailingZeros ds = [] ↔ ∀ c ∈ ds, c = '0' := by
  rw [dropTrailingZeros, List.reverse_eq_nil_iff, List.dropWhile_eq_nil_iff]
  simp only [List.mem_reverse, decide_eq_true_eq]

theorem decimalText_of_dvd (h : 10 ^ places ∣ n) :
    decimalText places n = Nat.toDigits 10 (n / 10 ^ places) := by
  rw [← fixedDigits_eq_zero_iff, ← dropTrailingZeros_eq_nil_iff] at h
  rw [decimalText, fractionText, h]
  exact List.append_nil _

theorem exists_fractionText (h : ¬10 ^ places ∣ n) : ∃ ds, fractionText places n = '.' :: ds := by
  rw [← fixedDigits_eq_zero_iff, ← dropTrailingZeros_eq_nil_iff] at h
  obtain ⟨d, ds, hds⟩ := List.exists_cons_of_ne_nil h
  exact ⟨d :: ds, by rw [fractionText, hds]⟩

end Text

namespace Duration

variable {d : Duration}

/-- A positive number of whole seconds, or of whole milliseconds that make no second. -/
def IsWhole (d : Duration) : Prop :=
  0 < d.nanos ∧ (nanosPerSecond ∣ d.nanos ∨ d.nanos < nanosPerSecond ∧ 1000000 ∣ d.nanos)

instance : DecidablePred IsWhole := fun _ => inferInstanceAs (Decidable (_ ∧ (_ ∨ _)))

theorem isWhole_iff_of_second_le (h : nanosPerSecond ≤ d.nanos) : d.IsWhole ↔ 10 ^ 9 ∣ d.nanos := by
  unfold IsWhole nanosPerSecond at *
  omega

theorem isWhole_iff_of_lt_second (hlt : d.nanos < nanosPerSecond) (hle : 1000000 ≤ d.nanos) :
    d.IsWhole ↔ 10 ^ 6 ∣ d.nanos := by
  unfold IsWhole nanosPerSecond at *
  omega

theorem not_isWhole_of_lt (h : d.nanos < 1000000) : ¬d.IsWhole := by
  unfold IsWhole nanosPerSecond
  omega

end Duration

namespace DetectionInterval

variable {c : Char} {cs rest : List Char} {d : Duration} {n places : Nat} {s : String}

/-- The character belongs to no token and to no gap. -/
def Foreign (c : Char) : Prop :=
  c ≠ 'm' ∧ c ≠ 's' ∧ isGap c = false ∧ c.isDigit = false

instance : DecidablePred Foreign := fun _ => inferInstanceAs (Decidable (_ ∧ _ ∧ _ ∧ _))

theorem tokens_foreign (hc : Foreign c) (cs : List Char) : tokens (c :: cs) = [none] := by
  obtain ⟨hm, hs, hgap, hdigit⟩ := hc
  rw [tokens_cons hm hs, hgap, hdigit]
  rfl

theorem tokens_toDigits_append (n : Nat) (hr : ∀ c, cs.head? = some c → c.isDigit = false) :
    tokens (Nat.toDigits 10 n ++ cs) = some (.number n) :: tokens cs := by
  have hdigits : ∀ c ∈ Nat.toDigits 10 n, c.isDigit = true := fun c hc =>
    Nat.isDigit_of_mem_toDigits (by decide) (by decide) hc
  rw [tokens_digits_append Nat.toDigits_ne_nil hdigits hr,
    Nat.ofDigitChars_toDigits (by decide) (by decide)]

/-- A number that something unknown follows lacks its unit, whatever stands behind. -/
theorem parse_foreign (hn : n < UInt64.size) (hc : Foreign c)
    (hs : s.toList = Nat.toDigits 10 n ++ c :: rest) :
    parse s = .error (.unreadable .expectedMeasure s) := by
  have hstop : ∀ a, (c :: rest).head? = some a → a.isDigit = false := by
    rintro a ⟨⟩
    exact hc.2.2.2
  have hsum : addMeasures .zero [some (.number n), none] = .error .expectedMeasure := by
    rw [addMeasures, if_pos hn]
    simp
  rw [parse, hs, tokens_toDigits_append n hstop, tokens_foreign hc, hsum]

def Measure.bare (n : Nat) (u : TimeUnit) : Measure where
  before := []
  digits := Nat.toDigits 10 n
  between := []
  unit := u
  isGap_before := nofun
  digits_ne_nil := Nat.toDigits_ne_nil
  isDigit_digits _ hc := Nat.isDigit_of_mem_toDigits (by decide) (by decide) hc
  isGap_between := nofun

theorem Measure.number_bare (n : Nat) (u : TimeUnit) : (bare n u).number = n :=
  Nat.ofDigitChars_toDigits (by decide) (by decide)

theorem parse_bare {u : TimeUnit} (hn : n < UInt64.size) (hd : d.nanos = n * u.nanos)
    (hs : s.toList = Nat.toDigits 10 n ++ u.name) : parse s = .ok ⟨d⟩ := by
  have hw : Written s.toList [.bare n u] := by
    refine ⟨[], nofun, ?_⟩
    rw [hs, List.flatMap_singleton, List.append_nil]
    rfl
  have htotal : totalNanos [.bare n u] = d.nanos := by
    rw [totalNanos, List.map_singleton, List.sum_singleton, Measure.nanos_eq, Measure.number_bare, hd]
    rfl
  have hnumber : ∀ m ∈ [Measure.bare n u], m.number < UInt64.size := by
    rw [List.forall_mem_singleton, Measure.number_bare]
    exact hn
  rw [parse_of_written hw, if_pos hnumber, htotal, Duration.ofNanos?_eq_some_iff.2 rfl,
    Option.elim_some]

/-- The reader stops at the point of a fraction. -/
theorem parse_fractional (hdvd : ¬10 ^ places ∣ n) (hn : n / 10 ^ places < UInt64.size)
    (hs : s.toList = Text.decimalText places n ++ rest) :
    parse s = .error (.unreadable .expectedMeasure s) := by
  obtain ⟨ds, hds⟩ := Text.exists_fractionText hdvd
  have hpoint : Foreign '.' := by decide
  rw [Text.decimalText, hds, List.append_assoc, List.cons_append] at hs
  exact parse_foreign hn hpoint hs

theorem parse_decimalText (places : Nat) {u : TimeUnit} (hu : u.nanos = 10 ^ places)
    (hn : d.nanos / 10 ^ places < UInt64.size)
    (hs : s.toList = Text.decimalText places d.nanos ++ u.name) :
    parse s =
      if 10 ^ places ∣ d.nanos then .ok ⟨d⟩ else .error (.unreadable .expectedMeasure s) := by
  by_cases hdvd : 10 ^ places ∣ d.nanos
  · have hd : d.nanos = d.nanos / 10 ^ places * u.nanos := by rw [hu, Nat.div_mul_cancel hdvd]
    rw [Text.decimalText_of_dvd hdvd] at hs
    rw [if_pos hdvd, parse_bare hn hd hs]
  · rw [if_neg hdvd, parse_fractional hdvd hn hs]

/-- With a unit that is unknown, it misses the unit if not the fraction. -/
theorem parse_decimalText_foreign (places : Nat) (hc : Foreign c)
    (hn : n / 10 ^ places < UInt64.size) (hs : s.toList = Text.decimalText places n ++ c :: rest) :
    parse s = .error (.unreadable .expectedMeasure s) := by
  by_cases hdvd : 10 ^ places ∣ n
  · rw [Text.decimalText_of_dvd hdvd] at hs
    exact parse_foreign hn hc hs
  · exact parse_fractional hdvd hn hs

/-- An interval is read from its own text as itself if it is whole, and not at all otherwise. -/
theorem parse_toString (d : Duration) :
    parse (toString (⟨d⟩ : DetectionInterval)) =
      if d.IsWhole then .ok ⟨d⟩
      else .error (.unreadable .expectedMeasure (toString (⟨d⟩ : DetectionInterval))) := by
  have hs : (toString (⟨d⟩ : DetectionInterval)).toList = d.text := String.toList_ofList
  -- Only a number of seconds can come near to the bound of numbers.
  have hdiv : ∀ k, d.nanos < 1000000000 → d.nanos / k < UInt64.size := fun k hlt =>
    Nat.lt_of_le_of_lt (Nat.div_le_self _ _) (hlt.trans (by decide))
  rw [Duration.text] at hs
  split_ifs at hs with hseconds hmillis hmicros
  · rw [parse_decimalText 9 (u := .seconds) rfl d.seconds_lt hs]
    simp only [Duration.isWhole_iff_of_second_le hseconds]
  · rw [not_le] at hseconds
    rw [parse_decimalText 6 (u := .milliseconds) rfl (hdiv _ hseconds) hs]
    simp only [Duration.isWhole_iff_of_lt_second hseconds hmillis]
  · rw [not_le] at hseconds hmillis
    rw [if_neg (Duration.not_isWhole_of_lt hmillis)]
    -- The unit starts with a letter that is unknown, and so does the next one.
    exact parse_decimalText_foreign 3 (by decide) (hdiv _ hseconds) hs
  · rw [not_le] at hseconds hmillis
    rw [if_neg (Duration.not_isWhole_of_lt hmillis)]
    exact parse_decimalText_foreign 0 (by decide) (hdiv _ hseconds) hs

end DetectionInterval

end CongestionRouting
