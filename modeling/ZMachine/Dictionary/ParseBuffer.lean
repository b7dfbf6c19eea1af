import ZMachine.Dictionary.Lookup

/-!
# Parse buffers

A story receives the words of a line in a parse buffer. Its first byte tells how many words fit, its
second byte how many there are, and each word takes four bytes: the address of its entry, its
length, and its position in the text buffer.
-/

namespace ZMachine

namespace ParseBuffer

/-- Where the text begins in a text buffer. -/
def textOffset (version : Nat) : Nat :=
  if 5 ≤ version then 2 else 1

/-- Writes a word into a slot. -/
def writeSlot (slot offset : Nat) (word : ParsedWord) : MemoryM Unit := do
  Memory.writeWord slot word.address
  Memory.writeByte (slot + 2) word.length
  Memory.writeByte (slot + 3) (UInt8.ofNat (min (word.position.toNat + offset) 255))

/-- Writes words into the slots from an address on. With `skipUnknown` the slots of words that are
not in the dictionary are left alone. -/
def writeSlots (offset : Nat) (skipUnknown : Bool) : (slot : Nat) → List ParsedWord → MemoryM Unit
  | _, [] => pure ()
  | slot, word :: words => do
    if skipUnknown && word.address = 0 then pure () else writeSlot slot offset word
    writeSlots offset skipUnknown (slot + 4) words

/-- Fills a parse buffer with as many words as fit and tells how many these are. -/
def fill (buffer : Nat) (skipUnknown : Bool) (words : List ParsedWord) : MemoryM Nat := do
  let capacity ← Memory.inspect (·.readByte buffer)
  let count := min words.length capacity.toNat
  Memory.writeByte (buffer + 1) (UInt8.ofNat count)
  let offset ← Memory.inspect fun memory => .ok (textOffset memory.version)
  writeSlots offset skipUnknown (buffer + 2) (words.take count)
  return count

end ParseBuffer

namespace Dictionary

/-- Splits a line, looks its words up and fills a parse buffer with them. -/
def tokeniseInto (codec : Codec) (line : String) (buffer : Nat) (skipUnknown : Bool) :
    EStateM Fault (Dictionary × Memory) Nat := fun (dictionary, memory) =>
  match parse memory codec (dictionary.tokenize line) dictionary with
  | .error fault dictionary => .error fault (dictionary, memory)
  | .ok words dictionary =>
    match ParseBuffer.fill buffer skipUnknown words memory with
    | .error fault memory => .error fault (dictionary, memory)
    | .ok count memory => .ok count (dictionary, memory)

end Dictionary

end ZMachine
