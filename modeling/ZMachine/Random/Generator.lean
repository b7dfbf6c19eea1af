import ZMachine.Random.Keystream

/-!
# Random numbers

A generator is a place in a keystream. Numbers in a range are drawn by multiplication, and draws
that would favour some numbers are thrown away. A story can make the sequence predictable by a seed
or ask for an unpredictable one, for which the generator carries a seed of its own.
-/

namespace ZMachine.Random

/-- Whether a sequence can be repeated by naming its seed. -/
inductive Mode where
  | predictable
  | unpredictable
deriving Repr, DecidableEq

/-- A place in a keystream. -/
structure Generator where
  key : Key
  position : Nat := 0
  mode : Mode
  /-- The seed for the next unpredictable sequence. -/
  entropy : UInt64

namespace Generator

/-- The predictable generator for a seed. -/
def ofSeed (seed : UInt64) (entropy : UInt64 := 0) : Generator :=
  { key := keyOfSeed seed, mode := .predictable, entropy }

/-- An unpredictable generator, from a seed that nobody knows. -/
def ofEntropy (entropy : UInt64) : Generator :=
  { key := keyOfSeed entropy, mode := .unpredictable, entropy := spread entropy }

/-- Starts a predictable sequence. -/
def seed (generator : Generator) (value : UInt64) : Generator :=
  ofSeed value generator.entropy

/-- Starts an unpredictable sequence. -/
def reseed (generator : Generator) : Generator :=
  ofEntropy generator.entropy

/-- The next word of the keystream. -/
def next (generator : Generator) : UInt32 × Generator :=
  (keystreamWord generator.key generator.position,
    { generator with position := generator.position + 1 })

/-- How often a draw is repeated at most. A draw is thrown away less than once in 65536 times, so
the bound is never reached in practice. -/
def maxDraws : Nat := 65536

/-- The number of words that a keystream can have at a position. -/
def wordCount : Nat := 4294967296

/-- The greatest low half of a product that is accepted for a range of `size` numbers. -/
def acceptedZone (size : Nat) : Nat :=
  wordCount - 1 - (wordCount - size) % size

/-- Draws a number below `size`, repeating rejected draws at most `draws` times. -/
def below (size : Nat) : (draws : Nat) → Generator → Nat × Generator
  | 0, generator => (0, generator)
  | draws + 1, generator =>
    let (word, generator) := generator.next
    let product := word.toNat * size
    if product % wordCount ≤ acceptedZone size then (product / wordCount, generator)
    else below size draws generator

/-- A number from 1 to `range`; an empty range gives 0 and draws nothing. -/
def random (generator : Generator) (range : UInt16) : UInt16 × Generator :=
  if range = 0 then (0, generator)
  else
    let (number, generator) := generator.below range.toNat maxDraws
    (UInt16.ofNat (number + 1), generator)

/-- A number from 0 to 32767. -/
def unsigned (generator : Generator) : UInt16 × Generator :=
  let (number, generator) := generator.below 32768 maxDraws
  (UInt16.ofNat number, generator)

end Generator

end ZMachine.Random
