import CongestionRouting.CountOption
import Mathlib.Logic.Basic

namespace CongestionRouting.CountOption

variable {expected : OptionType} {bytes : List UInt8} {o : CountOption}
  {answer : Except CountOptionError CountOption}

/-- The two bytes of a count make it up again. -/
theorem join_bytes (c : UInt16) :
    (c >>> 8).toUInt8.toUInt16 <<< 8 ||| c.toUInt8.toUInt16 = c := by
  apply UInt16.toNat_inj.1
  have hlow : c.toUInt8.toUInt16.toNat = c.toNat % 2 ^ 8 := by simp
  have hhigh : ((c >>> 8).toUInt8.toUInt16 <<< 8).toNat = (c.toNat / 2 ^ 8) <<< 8 := by
    have := c.toNat_lt
    simp [Nat.shiftLeft_eq, Nat.shiftRight_eq_div_pow]
    omega
  have hlt : c.toNat % 2 ^ 8 < 2 ^ 8 := Nat.mod_lt _ (by decide)
  rw [UInt16.toNat_or, hlow, hhigh, ← Nat.shiftLeft_add_eq_or_of_lt hlt, Nat.shiftLeft_eq]
  omega

theorem split_bytes (high low : UInt8) :
    ((high.toUInt16 <<< 8 ||| low.toUInt16) >>> 8).toUInt8 = high ∧
      (high.toUInt16 <<< 8 ||| low.toUInt16).toUInt8 = low := by
  have hhigh := high.toNat_lt
  have hlow := low.toNat_lt
  have hshift : (high.toUInt16 <<< 8).toNat = high.toNat <<< 8 := by
    simp [Nat.shiftLeft_eq]
    omega
  have hjoin : (high.toUInt16 <<< 8 ||| low.toUInt16).toNat = high.toNat * 2 ^ 8 + low.toNat := by
    rw [UInt16.toNat_or, hshift, UInt8.toNat_toUInt16, ← Nat.shiftLeft_add_eq_or_of_lt hlow,
      Nat.shiftLeft_eq]
  constructor
  · apply UInt8.toNat_inj.1
    rw [UInt16.toNat_toUInt8, UInt16.toNat_shiftRight, hjoin]
    simp [Nat.shiftRight_eq_div_pow]
    omega
  · apply UInt8.toNat_inj.1
    rw [UInt16.toNat_toUInt8, hjoin]
    omega

theorem length_toBytes (o : CountOption) : o.toBytes.length = encodedLength := rfl

theorem toBytes_eq_bytes (o : CountOption) : ∃ high low : UInt8,
    o.toBytes = [o.type.code, 2, high, low] ∧ o.count.toNat = 256 * high.toNat + low.toNat := by
  refine ⟨(o.count >>> 8).toUInt8, o.count.toUInt8, rfl, ?_⟩
  have := o.count.toNat_lt
  simp [Nat.shiftRight_eq_div_pow]
  omega

theorem toBytes_eq_iff {type length high low : UInt8} : o.toBytes = [type, length, high, low] ↔
    length = payloadLength ∧ o = ⟨⟨type⟩, high.toUInt16 <<< 8 ||| low.toUInt16⟩ := by
  obtain ⟨⟨code⟩, count⟩ := o
  simp only [toBytes, List.cons.injEq, and_true, mk.injEq, OptionType.mk.injEq]
  constructor
  · rintro ⟨rfl, rfl, rfl, rfl⟩
    exact ⟨rfl, rfl, (join_bytes count).symm⟩
  · rintro ⟨rfl, rfl, rfl⟩
    exact ⟨rfl, rfl, split_bytes high low⟩

theorem decode_toBytes (expected : OptionType) (o : CountOption) : decode expected o.toBytes =
    if o.type = expected then .ok o else .error (.unexpectedType expected o.type) := by
  simp only [toBytes, decode, ne_eq, not_true_eq_false, if_false, join_bytes, ite_not]

theorem decodeAt_toBytes (o : CountOption) (before after : List UInt8) :
    decodeAt o.type (before ++ o.toBytes ++ after) before.length = .ok o := by
  rw [decodeAt, List.append_assoc, List.drop_left]
  simp only [toBytes, List.cons_append, decode, ne_eq, not_true_eq_false, if_false, join_bytes]

/-- No sub-option of that type: cut short, or with another type or another length. -/
def Malformed (expected : OptionType) (bytes : List UInt8) : Prop :=
  bytes.length < encodedLength ∨ bytes[0]? ≠ some expected.code ∨ bytes[1]? ≠ some payloadLength

instance (expected : OptionType) (bytes : List UInt8) : Decidable (Malformed expected bytes) :=
  inferInstanceAs (Decidable (_ ∨ _))

theorem decode_toOption_eq_none_iff {expected : OptionType} {bytes : List UInt8} :
    (decode expected bytes).toOption = none ↔ Malformed expected bytes := by
  unfold decode Malformed
  split
  · next type length high low rest =>
    have htype : (⟨type⟩ : OptionType) = expected ↔ type = expected.code :=
      ⟨fun h => congrArg OptionType.code h, fun h => by rw [h]⟩
    by_cases ht : type = expected.code
    · by_cases hl : length = payloadLength
      · simp [ht, hl, encodedLength, Except.toOption]
      · simp [ht, hl, Except.toOption]
    · simp [htype, ht, Except.toOption]
  · next hshort =>
    refine iff_of_true rfl (.inl ?_)
    match bytes, hshort with
    | [], _ | [_], _ | [_, _], _ | [_, _, _], _ => simp [encodedLength]
    | type :: length :: high :: low :: rest, h => exact absurd rfl (h type length high low rest)

/-- What there is to read in front of a message: too few bytes, the first fault, or a sub-option. -/
inductive Reading (expected : OptionType) (bytes : List UInt8) :
    Except CountOptionError CountOption → Prop
  | truncated (short : bytes.length < encodedLength) :
      Reading expected bytes (.error (.truncated bytes.length))
  | unexpectedType {found : OptionType} (long : encodedLength ≤ bytes.length)
      (type : bytes[0]? = some found.code) (other : found ≠ expected) :
      Reading expected bytes (.error (.unexpectedType expected found))
  | invalidLength {length : UInt8} (long : encodedLength ≤ bytes.length)
      (type : bytes[0]? = some expected.code) (second : bytes[1]? = some length)
      (other : length ≠ payloadLength) : Reading expected bytes (.error (.invalidLength length))
  | ok {o : CountOption} (front : bytes.take encodedLength = o.toBytes) (type : o.type = expected) :
      Reading expected bytes (.ok o)

theorem exists_of_long (hl : encodedLength ≤ bytes.length) :
    ∃ type length high low rest, bytes = type :: length :: high :: low :: rest := by
  match bytes, hl with
  | [], hl | [_], hl | [_, _], hl | [_, _, _], hl => simp [encodedLength] at hl
  | type :: length :: high :: low :: rest, _ => exact ⟨type, length, high, low, rest, rfl⟩

theorem long_of_take (ht : bytes.take encodedLength = o.toBytes) : encodedLength ≤ bytes.length := by
  rw [← length_toBytes o, ← ht]
  exact List.length_take_le' ..

theorem reading_decode (expected : OptionType) (bytes : List UInt8) :
    Reading expected bytes (decode expected bytes) := by
  unfold decode
  split
  · next type length high low rest =>
    have hl : encodedLength ≤ (type :: length :: high :: low :: rest).length :=
      Nat.le_add_left 4 rest.length
    split
    · next ht => exact .unexpectedType hl rfl ht
    · next ht =>
      rw [not_ne_iff] at ht
      split
      · next hp => exact .invalidLength hl (ht ▸ rfl) rfl hp
      · next hp => exact .ok (toBytes_eq_iff.2 ⟨not_ne_iff.1 hp, rfl⟩).symm ht
  · next hnone =>
    refine .truncated (Nat.not_le.1 fun hl => ?_)
    obtain ⟨type, length, high, low, rest, rfl⟩ := exists_of_long hl
    exact hnone type length high low rest rfl

theorem decode_eq_iff : decode expected bytes = answer ↔ Reading expected bytes answer := by
  constructor
  · rintro rfl
    exact reading_decode expected bytes
  · intro h
    cases h with
    | truncated short =>
      unfold decode
      split
      · next type length high low rest =>
        exact absurd short (Nat.not_lt.2 (Nat.le_add_left 4 rest.length))
      · rfl
    | unexpectedType long type other =>
      obtain ⟨_, length, high, low, rest, rfl⟩ := exists_of_long long
      obtain rfl := Option.some.inj type
      rw [decode, if_pos other]
    | invalidLength long type second other =>
      obtain ⟨_, _, high, low, rest, rfl⟩ := exists_of_long long
      obtain rfl := Option.some.inj type
      obtain rfl := Option.some.inj second
      rw [decode, if_neg (not_ne_iff.2 rfl), if_pos other]
    | ok front type =>
      obtain ⟨_, length, high, low, rest, rfl⟩ := exists_of_long (long_of_take front)
      obtain ⟨rfl, rfl⟩ := toBytes_eq_iff.1 front.symm
      rw [decode, if_neg (not_ne_iff.2 type), if_neg (not_ne_iff.2 rfl)]

theorem encodedLength_le_length_drop {message : List UInt8} {offset : Nat} :
    encodedLength ≤ (message.drop offset).length ↔ offset + 4 ≤ message.length := by
  rw [List.length_drop, encodedLength]
  omega

/-- A sub-option is read at a place exactly if its bytes stand there, and otherwise the first of three
faults is told: too few bytes are left, the type is another one, or else the length is. A buffer takes a
sub-option into its first four bytes, if it has them, and otherwise stays as it is. -/
theorem codec_exact :
    (∀ (type : OptionType) (n : UInt32) (before after : List UInt8),
      ∃ o, decodeAt type (before ++ (ofCount type n).toBytes ++ after) before.length = .ok o ∧
        o.type = type ∧ o.count.toNat = min n.toNat 65535) ∧
    (∀ (expected : OptionType) (message : List UInt8) (offset : Nat),
      (∀ o, decodeAt expected message offset = .ok o ↔
        offset + 4 ≤ message.length ∧ (message.drop offset).take 4 = o.toBytes ∧
          o.type = expected) ∧
      (∀ available, decodeAt expected message offset = .error (.truncated available) ↔
        message.length < offset + 4 ∧ available = message.length - offset) ∧
      (∀ wanted found, decodeAt expected message offset = .error (.unexpectedType wanted found) ↔
        offset + 4 ≤ message.length ∧ wanted = expected ∧ message[offset]? = some found.code ∧
          found ≠ expected) ∧
      ∀ length, decodeAt expected message offset = .error (.invalidLength length) ↔
        offset + 4 ≤ message.length ∧ message[offset]? = some expected.code ∧
          message[offset + 1]? = some length ∧ length ≠ 2) ∧
    ∀ (o : CountOption) (buffer : List UInt8),
      (∃ high low : UInt8, o.toBytes = [o.type.code, 2, high, low] ∧
        o.count.toNat = 256 * high.toNat + low.toNat) ∧
      o.write buffer =
        if 4 ≤ buffer.length then (.ok 4, o.toBytes ++ buffer.drop 4)
        else (.error ⟨buffer.length⟩, buffer) := by
  refine ⟨fun type n before after => ?_, fun expected message offset => ?_, fun o buffer => ?_⟩
  · exact ⟨ofCount type n, decodeAt_toBytes (ofCount type n) before after, rfl,
      toNat_saturate16 n.toNat⟩
  · have hlong : encodedLength ≤ (message.drop offset).length ↔ offset + 4 ≤ message.length :=
      encodedLength_le_length_drop
    have hfirst : (message.drop offset)[0]? = message[offset]? := List.getElem?_drop
    have hsecond : (message.drop offset)[1]? = message[offset + 1]? := List.getElem?_drop
    refine ⟨fun o => ?_, fun available => ?_, fun wanted found => ?_, fun length => ?_⟩
    -- Each of the four answers has one reading.
    all_goals rw [decodeAt, decode_eq_iff]
    all_goals constructor
    · rintro (_ | _ | _ | ⟨front, type⟩)
      exact ⟨hlong.1 (long_of_take front), front, type⟩
    · rintro ⟨-, front, type⟩
      exact .ok front type
    · rintro (short | _ | _ | _)
      exact ⟨Nat.not_le.1 (mt hlong.2 (Nat.not_le.2 short)), List.length_drop⟩
    · rintro ⟨short, rfl⟩
      rw [← List.length_drop]
      exact .truncated (Nat.not_le.1 (mt hlong.1 (Nat.not_le.2 short)))
    · rintro (_ | ⟨long, type, other⟩ | _ | _)
      exact ⟨hlong.1 long, rfl, hfirst ▸ type, other⟩
    · rintro ⟨long, rfl, type, other⟩
      exact .unexpectedType (hlong.2 long) (hfirst.trans type) other
    · rintro (_ | _ | ⟨long, type, second, other⟩ | _)
      exact ⟨hlong.1 long, hfirst ▸ type, hsecond ▸ second, other⟩
    · rintro ⟨long, type, second, other⟩
      exact .invalidLength (hlong.2 long) (hfirst.trans type) (hsecond.trans second) other
  · refine ⟨toBytes_eq_bytes o, ?_⟩
    unfold write encode encodedLength
    by_cases hroom : 4 ≤ buffer.length
    · rw [if_pos hroom, if_pos hroom]
    · rw [if_neg hroom, if_neg hroom]

end CongestionRouting.CountOption
