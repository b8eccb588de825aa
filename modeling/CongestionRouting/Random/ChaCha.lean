import CongestionRouting.Random

namespace CongestionRouting

abbrev ChaChaBlock := Vector UInt32 16

namespace ChaChaBlock

def rotateLeft (w : UInt32) (n : UInt32) : UInt32 := (w <<< n) ||| (w >>> (32 - n))

/-- Adds the word at `j` to the one at `i`, and turns the difference from it of the word at `k`. -/
def mix (i j k : Fin 16) (n : UInt32) (b : ChaChaBlock) : ChaChaBlock :=
  let sum := b[i] + b[j]
  let turned := rotateLeft (b[k] ^^^ sum) n
  (b.set i sum).set k turned

def quarterRound (i j k l : Fin 16) (b : ChaChaBlock) : ChaChaBlock :=
  (((b.mix i j l 16).mix k l j 12).mix i j l 8).mix k l j 7

def doubleRound (b : ChaChaBlock) : ChaChaBlock :=
  ((((((((b.quarterRound 0 4 8 12).quarterRound 1 5 9 13).quarterRound 2 6 10 14).quarterRound
    3 7 11 15).quarterRound 0 5 10 15).quarterRound 1 6 11 12).quarterRound 2 7 8 13).quarterRound
    3 4 9 14)

def constants : Vector UInt32 4 := #v[0x61707865, 0x3320646e, 0x79622d32, 0x6b206574]

/-- The initial words: the constants, the key, the block number, and a nonce of zero. -/
def initial (key : Vector UInt32 8) (number : UInt64) : ChaChaBlock :=
  constants ++ key ++ #v[number.toUInt32, (number >>> 32).toUInt32, 0, 0]

def ofKey (key : Vector UInt32 8) (number : UInt64) : ChaChaBlock :=
  let start := initial key number
  Vector.zipWith (· + ·) start (Nat.repeat doubleRound 10 start)

end ChaChaBlock

structure ChaCha where
  key : Vector UInt32 8
  nextBlock : UInt64
  pending : List UInt32
  deriving DecidableEq

namespace ChaCha

/-- One step of the congruential generator that spreads a seed over the key. -/
def stretchSeed (s : UInt64) : UInt64 := s * 0x5851f42d4c957f2d + 0xa17654e46fbe17f3

def seedWord (s : UInt64) : UInt32 :=
  let word := (((s >>> 18) ^^^ s) >>> 27).toUInt32
  let turn := (s >>> 59).toUInt32
  (word >>> turn) ||| (word <<< (32 - turn))

def ofSeed (seed : UInt64) : ChaCha where
  key := Vector.ofFn fun i => seedWord (Nat.repeat stretchSeed (i.val + 1) seed)
  nextBlock := 0
  pending := []

def next (source : ChaCha) : UInt32 × ChaCha :=
  match source.pending with
  | [] =>
    let block := ChaChaBlock.ofKey source.key source.nextBlock
    (block[(0 : Fin 16)], ⟨source.key, source.nextBlock + 1, block.toList.tail⟩)
  | word :: pending => (word, ⟨source.key, source.nextBlock, pending⟩)

instance : RandomSource ChaCha := ⟨next⟩

end ChaCha

end CongestionRouting
