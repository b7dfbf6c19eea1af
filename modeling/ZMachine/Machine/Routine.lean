import ZMachine.Machine.Basic
import ZMachine.Machine.Stream

/-!
# Routines and branches

Calling a routine makes a frame for it, fills its locals with their initial values and puts the
arguments over the first of them. Returning gives the result to the variable that the call named. A
branch may return instead of jumping.
-/

namespace ZMachine.Machine

variable {η : Type}

/-- Leaves the running routine with a result. -/
def returnValue (value : UInt16) : MachineM η Outcome := do
  let frame ← onMemory Memory.popFrame
  jumpTo frame.returnPc
  match frame.returnStore with
  | none => pure ()
  | some name => onMemory (Memory.writeVariable name value)
  return .returned value

/-- Takes the branch of an instruction if the condition has the right sense. -/
def branchIf (instruction : Instruction) (condition : Bool) : MachineM η Outcome :=
  match instruction.branch with
  | none => return .advanced
  | some branch =>
    if condition ≠ branch.onTrue then return .advanced
    else
      match branch.target with
      | .returnFalse => returnValue 0
      | .returnTrue => returnValue 1
      | .address address => do
        jumpTo address
        return .branched

/-- Reads initial values for `count` locals from `number` on, out of the words at an address. -/
def readInitials : (count number address : Nat) → MemoryM Unit
  | 0, _, _ => pure ()
  | count + 1, number, address => do
    let value ← Memory.inspect (·.fetchWord address)
    Memory.writeVariable (UInt8.ofNat number) value
    readInitials count (number + 1) (address + 2)

/-- Gives arguments to at most `count` locals from `number` on. -/
def writeArguments : (count number : Nat) → List UInt16 → MemoryM Unit
  | 0, _, _ => pure ()
  | _, _, [] => pure ()
  | count + 1, number, argument :: arguments => do
    Memory.writeVariable (UInt8.ofNat number) argument
    writeArguments count (number + 1) arguments

/-- Enters the routine at an address. Up to version 4 the initial values of the locals stand before
its first instruction. -/
def enterRoutine (address : Nat) (arguments : List UInt16) (returnStore : Option UInt8) :
    MemoryM Unit := do
  let count ← Memory.inspect (·.fetchByte address)
  let memory ← get
  Memory.pushFrame memory.pc count.toNat returnStore
  let hasInitials := memory.version ≤ 4
  if hasInitials then readInitials count.toNat 1 (address + 1)
  writeArguments count.toNat 1 arguments
  let start := if hasInitials then address + 1 + 2 * count.toNat else address + 1
  modify fun memory => { memory.setArgCount arguments.length with pc := start }

/-- Calls the routine at a packed address. Calling 0 does nothing and gives 0. -/
def callRoutine (packed : UInt16) (arguments : List UInt16) (returnStore : Option UInt8) :
    MachineM η Outcome := do
  if packed = 0 then
    match returnStore with
    | none => pure ()
    | some name => onMemory (Memory.writeVariable name 0)
    return .advanced
  else
    let address ← inspect fun machine => .ok (machine.memory.unpackRoutine packed)
    onMemory (enterRoutine address arguments returnStore)
    return .called

/-- Leaves routines until the number of suspended ones is `depth`, and then the running one with a
result. -/
def throwTo (value : UInt16) (depth : Nat) : MachineM η Outcome := do
  onMemory (Memory.unwindTo depth)
  returnValue value

/-- Takes a value off the evaluation stack for a variable, or, in version 6, for the result of the
instruction. -/
def pull (instruction : Instruction) (values : List UInt16) : MachineM η Outcome := do
  if instruction.store.isSome then
    if values.isEmpty then
      let value ← onMemory Memory.pop
      conclude instruction value
    else unsupported instruction
  else
    let name ← need instruction values 0
    let value ← onMemory Memory.pop
    onMemory (Memory.pokeVariable (Word.low name) value)
    return .advanced

/-- Moves the program counter by a signed offset. -/
def jumpBy (offset : Int) : MachineM η Outcome := do
  let pc ← inspect fun machine => .ok machine.memory.pc
  jumpTo (addressBy pc (offset - 2))
  return .branched

/-- The calls, returns and stack operations. -/
def routine [Host η] (instruction : Instruction) (opcode : Opcode) (values : List UInt16) :
    MachineM η Outcome :=
  match opcode with
  | .callVs | .callVs2 | .callVn | .callVn2 | .call1s | .call1n | .call2s | .call2n => do
    let packed ← need instruction values 0
    callRoutine packed values.tail instruction.store
  | .ret => do
    let value ← need instruction values 0
    returnValue value
  | .rtrue => returnValue 1
  | .rfalse => returnValue 0
  | .retPopped => do
    let value ← onMemory Memory.pop
    returnValue value
  | .printRet => do
    match instruction.text with
    | none => pure ()
    | some text => outputText text
    outputNewLine
    returnValue 1
  | .push => do
    let value ← need instruction values 0
    onMemory (Memory.push value)
    return .advanced
  | .pull => pull instruction values
  | .pop => do
    let _ ← onMemory Memory.pop
    return .advanced
  | .catchFrame => do
    let depth ← inspect fun machine => .ok machine.memory.frameDepth
    conclude instruction (UInt16.ofNat depth)
  | .throwTo => do
    let value ← need instruction values 0
    let depth ← need instruction values 1
    throwTo value depth.toNat
  | .checkArgCount => do
    let number ← need instruction values 0
    let given ← inspect fun machine => .ok machine.memory.frame.argCount
    branchIf instruction (number.toNat ≤ given)
  | .jump => do
    let offset ← need instruction values 0
    jumpBy (Word.signed offset)
  | _ => unsupported instruction

end ZMachine.Machine
