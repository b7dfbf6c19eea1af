import ZMachine.Machine.Routine

/-!
# Variables and tables

Loads and stores through variables and tables. The address of a place in a table is a word, so it is
computed modulo 65536.
-/

namespace ZMachine

namespace Memory

/-- Copies bytes one after the other, so that a byte copied before can be copied again. -/
def copyForward : (count source target : Nat) → MemoryM Unit
  | 0, _, _ => pure ()
  | count + 1, source, target => do
    let byte ← inspect (·.readByte source)
    writeByte target byte
    copyForward count (source + 1) (target + 1)

/-- The bytes from an address on, if all may be loaded, after those in `before`. -/
def readBytes (memory : Memory) : (count address : Nat) → (before : Array UInt8) →
    Except Fault (List UInt8)
  | 0, _, before => .ok before.toList
  | count + 1, address, before =>
    match memory.readByte address with
    | .error fault => .error fault
    | .ok byte => memory.readBytes count (address + 1) (before.push byte)

/-- Stores zeros one after the other. -/
def clearBytes : (count address : Nat) → MemoryM Unit
  | 0, _ => pure ()
  | count + 1, address => do
    writeByte address 0
    clearBytes count (address + 1)

/-- Copies a table to another one, or clears it if there is no other one. A negative size asks for a
copy from the first byte to the last, even if the tables overlap. -/
def copyTable (source target : Nat) (size : Int) : MemoryM Unit := do
  if target = 0 then clearBytes size.natAbs source
  else if size < 0 then copyForward size.natAbs source target
  else
    let bytes ← inspect (·.readBytes size.natAbs source #[])
    writeBytes target bytes

/-- The field at an address, a word or a byte. -/
def readField (memory : Memory) (isWord : Bool) (address : UInt16) : Except Fault UInt16 :=
  if isWord then memory.readWord address.toNat
  else (memory.readByte address.toNat).map UInt8.toUInt16

/-- The address of the first of `count` fields, `step` apart, that has a value; 0 if there is none.
-/
def scanTable (memory : Memory) (value step : UInt16) (isWord : Bool) :
    (count : Nat) → (address : UInt16) → Except Fault UInt16
  | 0, _ => .ok 0
  | count + 1, address =>
    match memory.readField isWord address with
    | .error fault => .error fault
    | .ok field =>
      if field = value then .ok address
      else memory.scanTable value step isWord count (address + step)

end Memory

namespace Machine

variable {η : Type}

/-- The form of a table search when none is given: words that follow each other. -/
def defaultForm : UInt16 := 0x82

/-- The operations on variables and tables. -/
def table (instruction : Instruction) (opcode : Opcode) (values : List UInt16) :
    MachineM η Outcome :=
  match opcode with
  | .load => do
    let name ← need instruction values 0
    let value ← inspect (·.memory.peekVariable (Word.low name))
    conclude instruction value
  | .store => do
    let name ← need instruction values 0
    let value ← need instruction values 1
    onMemory (Memory.pokeVariable (Word.low name) value)
    return .advanced
  | .loadw => do
    let start ← need instruction values 0
    let index ← need instruction values 1
    let value ← inspect (·.memory.readWord (start + index * 2).toNat)
    conclude instruction value
  | .loadb => do
    let start ← need instruction values 0
    let index ← need instruction values 1
    let value ← inspect (·.memory.readByte (start + index).toNat)
    conclude instruction value.toUInt16
  | .storew => do
    let start ← need instruction values 0
    let index ← need instruction values 1
    let value ← need instruction values 2
    onMemory (Memory.writeWord (start + index * 2).toNat value)
    return .advanced
  | .storeb => do
    let start ← need instruction values 0
    let index ← need instruction values 1
    let value ← need instruction values 2
    onMemory (Memory.writeByte (start + index).toNat (Word.low value))
    return .advanced
  | .copyTable => do
    let source ← need instruction values 0
    let target ← need instruction values 1
    let size ← need instruction values 2
    onMemory (Memory.copyTable source.toNat target.toNat (Word.signed size))
    return .advanced
  | .scanTable => do
    let value ← need instruction values 0
    let start ← need instruction values 1
    let count ← need instruction values 2
    let form := optional values 3 defaultForm
    let found ← inspect fun machine =>
      machine.memory.scanTable value (form &&& 0x7F) (form &&& 0x80 ≠ 0) count.toNat start
    storeResult instruction found
    branchIf instruction (found ≠ 0)
  | _ => unsupported instruction

end Machine

end ZMachine
