import ZMachine.Machine.Arithmetic
import ZMachine.Machine.Exchange
import ZMachine.Machine.Table
import ZMachine.Machine.World

/-!
# Running a story

A step decodes the instruction at the program counter, moves the program counter past it, fetches
its operands and carries it out. A run takes steps until the story is over, a fault occurs, or a
limit is reached.
-/

namespace ZMachine.Machine

variable {η : Type}

/-- The value of an operand; `named` tells that the operand names a variable and is not to be read.
-/
def operandValue (named : Bool) (operand : Operand) : MemoryM UInt16 :=
  if operand.kind = .byVariable ∧ named = false then
    Memory.readVariable (Word.low operand.value)
  else pure operand.value

/-- The values of operands, fetched from left to right. Only the first one can name a variable. -/
def operandValues : (named : Bool) → List Operand → MemoryM (List UInt16)
  | _, [] => pure []
  | named, operand :: operands => do
    let value ← operandValue named operand
    let values ← operandValues false operands
    return value :: values

/-- Carries an instruction out. The program counter already stands after it. -/
def execute [Host η] (instruction : Instruction) : MachineM η Outcome :=
  match instruction.opcode? with
  | none => throw (.invalidOpcode instruction.encoding instruction.address)
  | some opcode => do
    let values ← onMemory (operandValues opcode.takesVariable instruction.operands)
    match opcode.family? with
    | some .arithmetic => arithmetic instruction opcode values
    | some .table => table instruction opcode values
    | some .object => world instruction opcode values
    | some .routine => routine instruction opcode values
    | some .exchange => exchange instruction opcode values
    | none => unsupported instruction

/-- Moves past a decoded instruction. -/
def advance (machine : Machine η) (instruction : Instruction) (decoder : Decoder) : Machine η :=
  { machine with
    decoder
    memory := { machine.memory with pc := machine.memory.pc + instruction.size }
    instructionCount := machine.instructionCount + 1 }

/-- Skips a recoverable fault if the settings say so. -/
def tolerating (action : MachineM η Outcome) : MachineM η Outcome := fun machine =>
  match action machine with
  | .ok outcome machine => .ok outcome machine
  | .error fault machine =>
    if fault.isRecoverable && machine.settings.tolerateAccessViolations then .ok .advanced machine
    else .error fault machine

/-- Decodes the instruction at the program counter. -/
def nextInstruction (machine : Machine η) : Except Fault (Instruction × Decoder) :=
  machine.decoder.decode machine.memory machine.codec machine.abbreviations machine.memory.pc

/-- Whether the next step asks the player for input. -/
def awaitsInput (machine : Machine η) : Bool :=
  match machine.nextInstruction with
  | .error _ => false
  | .ok (instruction, _) =>
    instruction.opcode? = some .sread || instruction.opcode? = some .readChar

/-- Takes one step. -/
def step [Host η] : MachineM η Outcome := fun machine =>
  match machine.nextInstruction with
  | .error fault => .error fault machine
  | .ok (instruction, decoder) =>
    tolerating (execute instruction) (machine.advance instruction decoder)

/-- Takes steps until the story is over, at most `steps` of them. -/
def runFor [Host η] : (steps : Nat) → MachineM η Unit
  | 0 => pure ()
  | steps + 1 => do
    let outcome ← step
    if outcome = .quit then pure () else runFor steps

/-- The number of steps that stands for no limit at all: more than can be taken in a lifetime. -/
def endlessSteps : Nat := 4611686018427387904

/-- Runs the story to its end, or up to a limit of instructions. -/
def run [Host η] (limit : Option Nat) : MachineM η Unit :=
  runFor (limit.getD endlessSteps)

end ZMachine.Machine
