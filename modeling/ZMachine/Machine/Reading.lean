import ZMachine.Machine.Stream

/-!
# Reading input

A line of input is put into the text buffer of the story, in small letters and as ZSCII codes, and
its words into the parse buffer.
-/

namespace ZMachine

namespace Memory

/-- The text of `count` ZSCII bytes from an address on, after the text `before`. -/
def readText (memory : Memory) (codec : Codec) : (count address : Nat) → (before : String) →
    Except Fault String
  | 0, _, before => .ok before
  | count + 1, address, before =>
    match memory.readByte address with
    | .error fault => .error fault
    | .ok byte =>
      let text :=
        match codec.charOfZscii byte.toNat with
        | none => before
        | some c => before.push c
      memory.readText codec count (address + 1) text

end Memory

namespace Machine

variable {η : Type}

/-- The code that ends a line of input. -/
def returnCode : UInt16 := 13

/-- Shows the status line of versions 1 to 3: the object in the first global variable, and the two
numbers after it. -/
def showStatus [Host η] : MachineM η Unit := do
  let machine ← get
  if 3 < machine.version then pure ()
  else
    let location ← inspect (·.memory.readCell 16)
    let first ← inspect (·.memory.readCell 17)
    let second ← inspect (·.memory.readCell 18)
    let name ←
      if location = 0 then pure ""
      else
        inspect fun machine =>
          machine.objects.shortName machine.memory machine.codec machine.abbreviations
            location.toNat
    display
      (.showStatus name (Word.signed first) (Word.signed second) machine.memory.header.isTimed)

/-- The codes that a line leaves in a text buffer of a capacity. -/
def bufferCodes (codec : Codec) (capacity : Nat) (line : String) : List UInt8 :=
  ((Text.lowercase line).toList.take capacity).map fun c => UInt8.ofNat (codec.zsciiOrMark c)

/-- The text of the codes in a text buffer. -/
def bufferText (codec : Codec) (codes : List UInt8) : String :=
  String.ofList (codes.filterMap fun code => codec.charOfZscii code.toNat)

/-- The number of characters that fit into a text buffer whose first byte is `size`. -/
def bufferCapacity (version size : Nat) : Nat :=
  if version ≤ 4 then size - 1 else size

/-- Writes codes into a text buffer: up to version 4 they end with a zero, later they begin with
their number. -/
def writeBuffer (version buffer : Nat) (codes : List UInt8) : MemoryM Unit := do
  if version ≤ 4 then
    Memory.writeBytes (buffer + 1) codes
    Memory.writeByte (buffer + 1 + codes.length) 0
  else
    Memory.writeBytes (buffer + 2) codes
    Memory.writeByte (buffer + 1) (UInt8.ofNat codes.length)

/-- Fills a parse buffer with the words of a line, if the story has a dictionary. -/
def tokeniseLine (line : String) (parse : Nat) (skipUnknown : Bool) (otherwise : MachineM η Unit) :
    MachineM η Unit := fun machine =>
  match machine.dictionary with
  | none => otherwise machine
  | some dictionary =>
    match Dictionary.tokeniseInto machine.codec line parse skipUnknown (dictionary, machine.memory)
      with
    | .ok _ (dictionary, memory) => .ok () { machine with memory, dictionary := some dictionary }
    | .error fault (dictionary, memory) =>
      .error fault { machine with memory, dictionary := some dictionary }

/-- Reads a line into a text buffer and, unless its address is 0, a parse buffer. -/
def readLine [Host η] (text parse : Nat) : MachineM η Unit := do
  let version ← inspect fun machine => .ok machine.version
  if version ≤ 3 then showStatus
  let size ← inspect (·.memory.readByte text)
  let capacity := bufferCapacity version size.toNat
  let line ← answer .input (Host.readLine capacity)
  let codec ← inspect fun machine => .ok machine.codec
  let codes := bufferCodes codec capacity line
  onMemory (writeBuffer version text codes)
  if parse ≠ 0 then
    tokeniseLine (bufferText codec codes) parse false (onMemory (Memory.writeByte (parse + 1) 0))

/-- Reads a key and gives its code. -/
def readKey [Host η] : MachineM η UInt16 := do
  let key ← answer .input Host.readChar
  let codec ← inspect fun machine => .ok machine.codec
  if key = '\n' ∨ key = '\r' then return returnCode
  else return UInt16.ofNat (codec.zsciiOrMark key)

/-- Fills a parse buffer with the words of a text buffer, by the dictionary of the story or by one
at another address. -/
def tokenise (text parse dictionary : Nat) (skipUnknown : Bool) : MachineM η Unit := do
  let length ← inspect (·.memory.readByte (text + 1))
  let line ← inspect fun machine =>
    machine.memory.readText machine.codec length.toNat (text + 2) ""
  if dictionary = 0 then tokeniseLine line parse skipUnknown (pure ())
  else
    let words ← inspect fun machine => Dictionary.read machine.memory dictionary
    let codec ← inspect fun machine => .ok machine.codec
    onMemory fun memory =>
      match Dictionary.tokeniseInto codec line parse skipUnknown (words, memory) with
      | .ok _ (_, memory) => .ok () memory
      | .error fault (_, memory) => .error fault memory

/-- Stores words one after the other. -/
def writeWords (address : Nat) : List UInt16 → MemoryM Unit
  | [] => pure ()
  | word :: words => do
    Memory.writeWord address word
    writeWords (address + 2) words

/-- Packs a word of a text buffer as the dictionary has it. -/
def encodeText (text length start target : Nat) : MachineM η Unit := do
  let word ← inspect fun machine =>
    machine.memory.readText machine.codec length (text + start) ""
  let codec ← inspect fun machine => .ok machine.codec
  onMemory (writeWords target (codec.encode word))

end Machine

end ZMachine
