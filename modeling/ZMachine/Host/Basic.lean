import ZMachine.Host.Request

/-!
# Hosts

A host answers the requests of the machine. Everything that a story can learn about the world
outside its memory comes from a host, so a statement about all hosts is a statement about all
displays, all inputs and all sources of chance.
-/

namespace ZMachine

/-- What the machine needs of its surroundings. A refusal is a text that says why. -/
class Host (η : Type) where
  /-- Shows text or arranges the screen. -/
  display : Request → η → Except String Unit × η
  /-- Where the next text would appear. -/
  cursor : η → Except String Cursor × η
  /-- A line of input for a buffer of the given capacity, which the host may exceed. -/
  readLine : Nat → η → Except String String × η
  /-- A single key. -/
  readChar : η → Except String Char × η
  /-- A random number from 1 to a positive range. -/
  random : UInt16 → η → UInt16 × η
  /-- Makes the random numbers predictable. -/
  seed : UInt64 → η → η
  /-- Makes the random numbers unpredictable. -/
  reseed : η → η

/-- The key that stands for a line: its first character, or the end of the line. -/
def Host.keyOfLine (line : String) : Char :=
  line.toList.headD '\n'

end ZMachine
