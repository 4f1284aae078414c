/-!
# The keystream

A seed of 64 bits stands for an endless stream of words of 32 bits. The seed is stretched to a key
of eight words by a linear congruential sequence whose state is shifted, folded and rotated into a
word. The stream is cut into blocks of sixteen words: a block is the sum of a state of constants,
key and block number and of that state after six double rounds of mixing.
-/

namespace TileRoute.Keystream

def nextState (s : UInt64) : UInt64 := s * 6364136223846793005 + 11634580027462260723

def rotateLeft (x n : UInt32) : UInt32 := x <<< n ||| x >>> (32 - n)

def output (s : UInt64) : UInt32 :=
  let folded := (((s >>> 18) ^^^ s) >>> 27).toUInt32
  let turn := (s >>> 59).toUInt32
  folded >>> turn ||| folded <<< ((32 - turn) % 32)

def keyFrom : Nat → UInt64 → List UInt32
  | 0, _ => []
  | n + 1, s => output (nextState s) :: keyFrom n (nextState s)

def key (seed : UInt64) : List UInt32 := keyFrom 8 seed

def quarter (a b c d : UInt32) : UInt32 × UInt32 × UInt32 × UInt32 :=
  let a := a + b
  let d := rotateLeft (d ^^^ a) 16
  let c := c + d
  let b := rotateLeft (b ^^^ c) 12
  let a := a + b
  let d := rotateLeft (d ^^^ a) 8
  let c := c + d
  let b := rotateLeft (b ^^^ c) 7
  (a, b, c, d)

def mix (block : Array UInt32) (i j k l : Nat) : Array UInt32 :=
  let (a, b, c, d) :=
    quarter (block.getD i 0) (block.getD j 0) (block.getD k 0) (block.getD l 0)
  (((block.setIfInBounds i a).setIfInBounds j b).setIfInBounds k c).setIfInBounds l d

/-- Mixes the columns of a block and then its diagonals. -/
def doubleRound (block : Array UInt32) : Array UInt32 :=
  let columns := mix (mix (mix (mix block 0 4 8 12) 1 5 9 13) 2 6 10 14) 3 7 11 15
  mix (mix (mix (mix columns 0 5 10 15) 1 6 11 12) 2 7 8 13) 3 4 9 14

def doubleRounds : Nat → Array UInt32 → Array UInt32
  | 0, block => block
  | n + 1, block => doubleRounds n (doubleRound block)

/-- The state that a block starts from: four constants, the key and the number of the block. -/
def initial (key : List UInt32) (number : UInt64) : Array UInt32 :=
  let constants : List UInt32 := [0x61707865, 0x3320646e, 0x79622d32, 0x6b206574]
  (constants ++ key ++ [number.toUInt32, (number >>> 32).toUInt32, 0, 0]).toArray

def block (key : List UInt32) (number : UInt64) : Array UInt32 :=
  let state := initial key number
  Array.zipWith (· + ·) state (doubleRounds 6 state)

def word (seed : UInt64) (i : Nat) : UInt32 :=
  (block (key seed) (UInt64.ofNat (i / 16))).getD (i % 16) 0

/-- Two words in a row as one number, the first one low. -/
def pair (seed : UInt64) (i : Nat) : Nat :=
  (word seed (2 * i)).toNat + 4294967296 * (word seed (2 * i + 1)).toNat

theorem pair_lt (seed : UInt64) (i : Nat) : pair seed i < 18446744073709551616 := by
  have low := (word seed (2 * i)).toNat_lt
  have high := (word seed (2 * i + 1)).toNat_lt
  simp only [pair]
  omega

end TileRoute.Keystream
