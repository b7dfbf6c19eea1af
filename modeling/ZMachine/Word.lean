/-!
# Words and bytes

A word is two bytes, the more significant one first. Arithmetic and ordering read a word as a signed
number. Addresses are natural numbers; only jumps compute them modulo the range of a program
counter.
-/

namespace ZMachine

/-- The number of addresses that a program counter can hold. -/
def addressCount : Nat := 4294967296

/-- The address that a signed offset leads to; addresses wrap around at both ends. -/
def addressBy (address : Nat) (offset : Int) : Nat :=
  ((address + offset) % addressCount).toNat

namespace Word

/-- The signed reading of a word. -/
def signed (word : UInt16) : Int :=
  word.toInt16.toInt

/-- The word made of a high and a low byte. -/
def ofBytes (high low : UInt8) : UInt16 :=
  UInt16.ofNat (high.toNat * 256 + low.toNat)

/-- The more significant byte of a word. -/
def high (word : UInt16) : UInt8 :=
  UInt8.ofNat (word.toNat / 256)

/-- The less significant byte of a word. -/
def low (word : UInt16) : UInt8 :=
  UInt8.ofNat word.toNat

/-- The word congruent to an integer. -/
def ofInt (number : Int) : UInt16 :=
  UInt16.ofNat (number % 65536).toNat

end Word

end ZMachine
