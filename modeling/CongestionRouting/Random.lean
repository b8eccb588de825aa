namespace CongestionRouting

/-- A source gives a word and the source that follows it. -/
class RandomSource (γ : Type) where
  next : γ → UInt32 × γ

/-- The part of `bound` that a word is of all words: a number below `bound`. -/
def scaleWord (bound : Nat) (word : UInt32) : Nat := word.toNat * bound / UInt32.size

theorem scaleWord_lt {bound : Nat} (h : 0 < bound) (word : UInt32) :
    scaleWord bound word < bound := by
  rw [scaleWord, Nat.div_lt_iff_lt_mul (by decide), Nat.mul_comm]
  exact Nat.mul_lt_mul_of_pos_left word.toNat_lt h

def drawBelow {γ : Type} [RandomSource γ] (bound : Nat) (source : γ) : Nat × γ :=
  let (word, source) := RandomSource.next source
  (scaleWord bound word, source)

end CongestionRouting
