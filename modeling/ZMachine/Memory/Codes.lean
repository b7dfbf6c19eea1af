import ZMachine.Memory.Access

/-!
# Packed text in memory

Text is packed three codes of five bits to a word. The topmost bit of a word marks the end of a
text.
-/

namespace ZMachine

namespace Word

/-- Whether a word of packed text is the last one. -/
def isLast (word : UInt16) : Bool :=
  32768 ≤ word.toNat

/-- The three codes of a word of packed text. -/
def codes (word : UInt16) : List Nat :=
  [word.toNat / 1024 % 32, word.toNat / 32 % 32, word.toNat % 32]

end Word

namespace Memory

/-- The number of bytes of the packed text at an address, of which `consumed` are known not to hold
its end. The text ends with its last word, or once `limit` bytes are consumed. -/
def textLength (memory : Memory) (address : Nat) (limit : Option Nat) (consumed : Nat) :
    Except Fault Nat :=
  if limit.any (· ≤ consumed) then .ok consumed
  else if memory.bytes.size < address + consumed + 2 then
    .error (.outsideStory (address + consumed))
  else if Word.isLast (memory.bytes.wordAt (address + consumed)) then .ok (consumed + 2)
  else memory.textLength address limit (consumed + 2)
termination_by memory.bytes.size - (address + consumed)

/-- The codes of the text in a number of bytes at an address. -/
def codesIn (memory : Memory) (address length : Nat) : List Nat :=
  (List.range (length / 2)).flatMap fun index =>
    Word.codes (memory.bytes.wordAt (address + 2 * index))

/-- The codes of the packed text at an address, and the number of bytes it takes. -/
def readCodes (memory : Memory) (address : Nat) (limit : Option Nat) :
    Except Fault (Nat × List Nat) := do
  let length ← memory.textLength address limit 0
  return (length, memory.codesIn address length)

end Memory

end ZMachine
