import ZMachine.Archive
import ZMachine.Dictionary.ParseBuffer
import ZMachine.Host.Basic
import ZMachine.Instruction.Decode
import ZMachine.Memory.Variable
import ZMachine.Object.Attribute
import ZMachine.Object.Property
import ZMachine.Object.Tree

/-!
# The machine

A machine is a story in memory together with the views of its tables, the host that answers its
requests and the archive that keeps its saved games. Everything that an instruction does is a
`MachineM` action; an action that fails keeps what it has done before the failure.
-/

namespace ZMachine

/-- Where output goes. -/
structure Streams where
  /-- Whether the screen is deselected. -/
  screenOff : Bool := false
  /-- Whether a transcript is kept. -/
  transcript : Bool := false
  /-- The tables in memory that output is diverted to, the innermost first. -/
  tables : List Nat := []
deriving Repr, DecidableEq

/-- A story being played on a host. -/
structure Machine (η : Type) where
  memory : Memory
  decoder : Decoder
  codec : Codec
  abbreviations : AbbreviationTable
  objects : ObjectTable
  /-- The dictionary that the header names. -/
  dictionary : Option Dictionary
  host : η
  archive : Archive
  settings : Settings
  streams : Streams := {}
  instructionCount : Nat := 0

/-- How an instruction ended. -/
inductive Outcome where
  /-- The next instruction follows. -/
  | advanced
  /-- The program counter was moved. -/
  | branched
  | called
  | returned (value : UInt16)
  | restarted
  /-- The story is over. -/
  | quit
deriving Repr, DecidableEq

/-- An operation of a machine. -/
abbrev MachineM (η : Type) := EStateM Fault (Machine η)

namespace Machine

variable {η : Type}

/-- A machine with a freshly loaded story. -/
def start (settings : Settings) (image : Image) (host : η) (archive : Archive) :
    Except Fault (Machine η) := do
  let memory ← Memory.load settings image
  let codec ← Codec.ofMemory memory
  let dictionary ← Dictionary.ofMemory? memory
  return {
    decoder := { version := memory.version }
    abbreviations := .ofMemory memory
    objects := .ofMemory memory
    memory, codec, dictionary, host, archive, settings }

/-- The version of the story. -/
def version (machine : Machine η) : Nat :=
  machine.memory.version

/-- Runs a query as an action. -/
def inspect {α : Type} (query : Machine η → Except Fault α) : MachineM η α := fun machine =>
  match query machine with
  | .ok value => .ok value machine
  | .error fault => .error fault machine

/-- Runs an operation on the memory. -/
def onMemory {α : Type} (action : MemoryM α) : MachineM η α
  | ⟨memory, decoder, codec, abbreviations, objects, dictionary, host, archive, settings, streams,
      instructionCount⟩ =>
    match action memory with
    | .ok value memory =>
      .ok value ⟨memory, decoder, codec, abbreviations, objects, dictionary, host, archive,
        settings, streams, instructionCount⟩
    | .error fault memory =>
      .error fault ⟨memory, decoder, codec, abbreviations, objects, dictionary, host, archive,
        settings, streams, instructionCount⟩

/-- Moves the program counter. -/
def jumpTo (address : Nat) : MachineM η Unit :=
  modify fun machine => { machine with memory := { machine.memory with pc := address } }

/-- Takes the answer of a host, whose refusals become faults. -/
def answer {α : Type} (blame : String → Fault) (request : η → Except String α × η) :
    MachineM η α := fun machine =>
  match request machine.host with
  | (.ok value, host) => .ok value { machine with host }
  | (.error reason, host) => .error (blame reason) { machine with host }

/-- Shows text or arranges the screen. -/
def display [Host η] (request : Request) : MachineM η Unit :=
  answer .display (Host.display request)

/-- Stores the result of an instruction. -/
def storeResult (instruction : Instruction) (value : UInt16) : MachineM η Unit :=
  match instruction.store with
  | none => pure ()
  | some name => onMemory (Memory.writeVariable name value)

/-- Stores the result of an instruction and goes on. -/
def conclude (instruction : Instruction) (value : UInt16) : MachineM η Outcome := do
  storeResult instruction value
  return .advanced

/-- The value of an operand that an instruction needs. -/
def need (instruction : Instruction) (values : List UInt16) (index : Nat) : MachineM η UInt16 :=
  match values[index]? with
  | some value => pure value
  | none => throw (.missingOperand instruction.name index)

/-- The value of an operand that an instruction can do without. -/
def optional (values : List UInt16) (index : Nat) (default : UInt16) : UInt16 :=
  values[index]?.getD default

/-- The fault of an operation that the machine does not have. -/
def unsupported {α : Type} (instruction : Instruction) : MachineM η α :=
  throw (.unsupportedOpcode instruction.name instruction.address)

end Machine

end ZMachine
