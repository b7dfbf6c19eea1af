import ZMachine.Memory.Basic

/-!
# Access to memory

Loads and stores of a story are bounded by the regions of its memory. The machine itself fetches
instructions, text and tables from anywhere in the file.
-/

namespace ZMachine.Memory

/-- Loads a byte below high memory. -/
def readByte (memory : Memory) (address : Nat) : Except Fault UInt8 :=
  if memory.header.highBase ≤ address ∨ memory.bytes.size ≤ address then
    .error (.accessViolation address false)
  else .ok (memory.bytes.byteAt address)

/-- Loads a word below high memory. -/
def readWord (memory : Memory) (address : Nat) : Except Fault UInt16 :=
  if memory.header.highBase ≤ address + 1 ∨ memory.bytes.size ≤ address + 1 then
    .error (.accessViolation address false)
  else .ok (memory.bytes.wordAt address)

/-- Stores a byte in dynamic memory. -/
def writeByte (address : Nat) (value : UInt8) : MemoryM Unit := fun memory =>
  if memory.header.staticBase ≤ address then .error (.accessViolation address true) memory
  else .ok () { memory with bytes := memory.bytes.setByte address value }

/-- Stores a word in dynamic memory. -/
def writeWord (address : Nat) (value : UInt16) : MemoryM Unit := fun memory =>
  if memory.header.staticBase ≤ address + 1 then .error (.accessViolation address true) memory
  else .ok () { memory with bytes := memory.bytes.setWord address value }

/-- Fetches a byte from anywhere in the file. -/
def fetchByte (memory : Memory) (address : Nat) : Except Fault UInt8 :=
  if memory.bytes.size ≤ address then .error (.outsideStory address)
  else .ok (memory.bytes.byteAt address)

/-- Fetches a word from anywhere in the file. -/
def fetchWord (memory : Memory) (address : Nat) : Except Fault UInt16 :=
  if memory.bytes.size < address + 2 then .error (.outsideStory address)
  else .ok (memory.bytes.wordAt address)

/-- Fetches a stretch of bytes from anywhere in the file. -/
def fetchBytes (memory : Memory) (address count : Nat) : Except Fault (List UInt8) :=
  if memory.bytes.size < address + count then .error (.outsideStory address)
  else .ok (memory.bytes.extract address (address + count)).toList

/-- Checks that a stretch of bytes lies in dynamic memory. -/
def checkDynamic (memory : Memory) (address count : Nat) : Except Fault Unit :=
  if memory.header.staticBase < address + count then .error (.accessViolation address true)
  else .ok ()

/-- Stores bytes one after the other. -/
def writeBytes (address : Nat) : List UInt8 → MemoryM Unit
  | [] => pure ()
  | value :: values => do
    writeByte address value
    writeBytes (address + 1) values

/-- Gives every byte of a stretch of dynamic memory one value. -/
def fill (address count : Nat) (value : UInt8) : MemoryM Unit := do
  inspect (·.checkDynamic address count)
  writeBytes address (List.replicate count value)

/-- The address behind a packed address, where `offset` shifts the packed addresses of versions 6
and 7. -/
def unpack (version packed offset : Nat) : Nat :=
  if 1 ≤ version ∧ version ≤ 3 then packed * 2
  else if version = 4 ∨ version = 5 then packed * 4
  else if version = 6 ∨ version = 7 then packed * 4 + offset * 8
  else packed * 8

/-- The address of a routine. -/
def unpackRoutine (memory : Memory) (packed : UInt16) : Nat :=
  unpack memory.version packed.toNat memory.header.routinesOffset

/-- The address of a string. -/
def unpackString (memory : Memory) (packed : UInt16) : Nat :=
  unpack memory.version packed.toNat memory.header.stringsOffset

end ZMachine.Memory
