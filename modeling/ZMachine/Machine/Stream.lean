import ZMachine.Machine.Basic

/-!
# Output streams

Text goes to the screen, unless it is deselected. A story can divert text to a table in its memory
instead: a word that counts the characters, followed by their ZSCII codes. Diversions nest.
-/

namespace ZMachine.Machine

variable {η : Type}

/-- How deep diversions to tables may nest. -/
def maxTables : Nat := 16

/-- Writes characters after the first `count` ones of a table and gives the new count, which the
table does not have yet. -/
def writeTableChars (codec : Codec) (table : Nat) : (count : UInt16) → List Char → MemoryM UInt16
  | count, [] => pure count
  | count, c :: rest => do
    Memory.writeByte (table + 2 + count.toNat) (UInt8.ofNat (codec.zsciiOrMark c))
    writeTableChars codec table (count + 1) rest

/-- Adds a text to a table. -/
def writeTable (codec : Codec) (table : Nat) (text : String) : MemoryM Unit := do
  let count ← Memory.inspect (·.readWord table)
  let count ← writeTableChars codec table count text.toList
  Memory.writeWord table count

/-- Sends a text to where output goes. -/
def outputText [Host η] (text : String) : MachineM η Unit := do
  let machine ← get
  match machine.streams.tables with
  | table :: _ => onMemory (writeTable machine.codec table text)
  | [] => if machine.streams.screenOff then pure () else display (.print text)

/-- Sends a line end to where output goes. -/
def outputNewLine [Host η] : MachineM η Unit := do
  let streams ← inspect fun machine => .ok machine.streams
  if !streams.tables.isEmpty || streams.screenOff then outputText "\n" else display .newLine

/-- Changes where output goes. -/
def setStreams (change : Streams → Streams) : MachineM η Unit :=
  modify fun machine => { machine with streams := change machine.streams }

/-- Switches the transcript on or off and tells the story and the host. -/
def setTranscript [Host η] (enabled : Bool) : MachineM η Unit := do
  setStreams ({ · with transcript := enabled })
  let flags ← inspect (·.memory.readWord Header.flags2Address)
  let flags := if enabled then flags ||| 1 else flags &&& 0xFFFE
  onMemory (Memory.writeWord Header.flags2Address flags)
  display (.setTranscript enabled)

/-- Diverts output to an empty table. -/
def openTable (table : Nat) : MachineM η Unit := do
  let streams ← inspect fun machine => .ok machine.streams
  if maxTables ≤ streams.tables.length then
    throw (.display "output stream 3 nested more than 16 deep")
  else
    onMemory (Memory.writeWord table 0)
    setStreams fun streams => { streams with tables := table :: streams.tables }

/-- Selects an output stream, or deselects it if its number is negative. -/
def selectStream [Host η] (stream : Int) (table : Option UInt16) : MachineM η Unit :=
  if stream = 1 then setStreams ({ · with screenOff := false })
  else if stream = -1 then setStreams ({ · with screenOff := true })
  else if stream = 2 then setTranscript true
  else if stream = -2 then setTranscript false
  else if stream = 3 then
    match table with
    | none => throw (.missingOperand "output_stream" 1)
    | some table => openTable table.toNat
  else if stream = -3 then setStreams fun streams => { streams with tables := streams.tables.tail }
  else pure ()

end ZMachine.Machine
