import CongestionRouting.Text.Decimal

namespace CongestionRouting

abbrev Duration.nanosPerSecond : Nat := 1000000000

structure Duration where
  nanos : Nat
  nanos_lt : nanos < UInt64.size * Duration.nanosPerSecond
  deriving DecidableEq

namespace Duration

theorem ext_nanos {a b : Duration} (h : a.nanos = b.nanos) : a = b := by
  cases a
  cases b
  simp_all

def zero : Duration := ⟨0, by decide⟩

/-- One nanosecond less than 2 ^ 64 seconds. -/
def longest : Duration := ⟨UInt64.size * nanosPerSecond - 1, by decide⟩

def saturate (n : Nat) : Duration :=
  ⟨min n longest.nanos, Nat.lt_of_le_of_lt (Nat.min_le_right _ _) longest.nanos_lt⟩

def ofNanos? (n : Nat) : Option Duration :=
  if h : n < UInt64.size * nanosPerSecond then some ⟨n, h⟩ else none

def ofSeconds (s : UInt64) : Duration :=
  ⟨s.toNat * nanosPerSecond, Nat.mul_lt_mul_of_pos_right s.toNat_lt_size (by decide)⟩

def seconds (d : Duration) : Nat := d.nanos / nanosPerSecond

def subsecond (d : Duration) : Nat := d.nanos % nanosPerSecond

instance : LE Duration := ⟨fun a b => a.nanos ≤ b.nanos⟩

instance : LT Duration := ⟨fun a b => a.nanos < b.nanos⟩

instance (a b : Duration) : Decidable (a ≤ b) := Nat.decLe a.nanos b.nanos

instance (a b : Duration) : Decidable (a < b) := Nat.decLt a.nanos b.nanos

theorem le_iff {a b : Duration} : a ≤ b ↔ a.nanos ≤ b.nanos := Iff.rfl

theorem lt_iff {a b : Duration} : a < b ↔ a.nanos < b.nanos := Iff.rfl

instance : Min Duration := ⟨fun a b => if a ≤ b then a else b⟩

def saturatingAdd (a b : Duration) : Duration := saturate (a.nanos + b.nanos)

def add? (a b : Duration) : Option Duration := ofNanos? (a.nanos + b.nanos)

def double (d : Duration) : Duration := saturate (2 * d.nanos)

@[simp]
theorem nanos_saturate (n : Nat) : (saturate n).nanos = min n longest.nanos := rfl

theorem ofNanos?_eq_some_iff {n : Nat} {d : Duration} : ofNanos? n = some d ↔ d.nanos = n := by
  unfold ofNanos?
  split
  · rw [Option.some_inj]
    exact ⟨fun h => h ▸ rfl, fun h => ext_nanos h.symm⟩
  · next hn => exact ⟨nofun, fun h => absurd (h ▸ d.nanos_lt) hn⟩

theorem seconds_lt (d : Duration) : d.seconds < UInt64.size :=
  Nat.div_lt_of_lt_mul (Nat.mul_comm _ _ ▸ d.nanos_lt)

theorem nanos_eq (d : Duration) : d.nanos = d.seconds * nanosPerSecond + d.subsecond :=
  (Nat.div_add_mod' d.nanos nanosPerSecond).symm

/-- A span is written in the largest of seconds, milliseconds, microseconds and nanoseconds that
does not exceed it, as an exact decimal fraction. -/
def text (d : Duration) : List Char :=
  if nanosPerSecond ≤ d.nanos then Text.decimalText 9 d.nanos ++ ['s']
  else if 1000000 ≤ d.nanos then Text.decimalText 6 d.nanos ++ ['m', 's']
  else if 1000 ≤ d.nanos then Text.decimalText 3 d.nanos ++ ['\u00b5', 's']
  else Text.decimalText 0 d.nanos ++ ['n', 's']

instance : ToString Duration := ⟨fun d => String.ofList d.text⟩

end Duration

end CongestionRouting
