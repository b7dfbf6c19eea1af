/-!
# Keystream

The unpredictable-looking words behind the random numbers: the ChaCha stream cipher with twelve
rounds. A key fixes an endless sequence of words, and each word can be computed from its position
alone.
-/

namespace ZMachine.Random

/-- The sixteen words on which a block is computed. -/
abbrev Block := Vector UInt32 16

/-- The eight words that select a keystream. -/
abbrev Key := Vector UInt32 8

/-- A word turned left by a number of bits. -/
def rotateLeft (word : UInt32) (bits : UInt32) : UInt32 :=
  (word <<< bits) ||| (word >>> (32 - bits))

/-- The quarter round on four places of a block. -/
def quarterRound (a b c d : Fin 16) (block : Block) : Block :=
  let block := block.set a (block[a] + block[b])
  let block := block.set d (rotateLeft (block[d] ^^^ block[a]) 16)
  let block := block.set c (block[c] + block[d])
  let block := block.set b (rotateLeft (block[b] ^^^ block[c]) 12)
  let block := block.set a (block[a] + block[b])
  let block := block.set d (rotateLeft (block[d] ^^^ block[a]) 8)
  let block := block.set c (block[c] + block[d])
  block.set b (rotateLeft (block[b] ^^^ block[c]) 7)

/-- Two rounds: the four columns, then the four diagonals. -/
def doubleRound (block : Block) : Block :=
  block
    |> quarterRound 0 4 8 12 |> quarterRound 1 5 9 13
    |> quarterRound 2 6 10 14 |> quarterRound 3 7 11 15
    |> quarterRound 0 5 10 15 |> quarterRound 1 6 11 12
    |> quarterRound 2 7 8 13 |> quarterRound 3 4 9 14

/-- The block from which block number `number` of a keystream is computed. -/
def initialBlock (key : Key) (number : Nat) : Block :=
  #v[0x61707865, 0x3320646e, 0x79622d32, 0x6b206574,
    key[0], key[1], key[2], key[3], key[4], key[5], key[6], key[7],
    UInt32.ofNat number, UInt32.ofNat (number / 4294967296), 0, 0]

/-- Block number `number` of a keystream: twelve rounds added to the initial block. -/
def keystreamBlock (key : Key) (number : Nat) : Block :=
  let start := initialBlock key number
  Vector.zipWith (· + ·) (Nat.repeat doubleRound 6 start) start

/-- The word at a position of a keystream. -/
def keystreamWord (key : Key) (position : Nat) : UInt32 :=
  (keystreamBlock key (position / 16))[position % 16]

/-- One step of the linear congruential sequence that spreads a seed over a key. -/
def spread (state : UInt64) : UInt64 :=
  state * 6364136223846793005 + 11634580027462260723

/-- The key word read off a state of the spreading sequence. -/
def spreadWord (state : UInt64) : UInt32 :=
  let turn := (state >>> 59).toUInt32
  let word := (((state >>> 18) ^^^ state) >>> 27).toUInt32
  (word >>> turn) ||| (word <<< ((32 - turn) % 32))

/-- The key for a seed. -/
def keyOfSeed (seed : UInt64) : Key :=
  Vector.ofFn fun index => spreadWord (Nat.repeat spread (index.val + 1) seed)

end ZMachine.Random
