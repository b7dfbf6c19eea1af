import ZMachine.Memory.Access

/-!
# Variables

A variable is named by a byte: 0 is the top of the evaluation stack, 1 to 15 are the locals of the
running routine, and the rest are globals, which are words in memory.
-/

namespace ZMachine.Memory

/-- How many values an evaluation stack can hold. -/
def stackLimit : Nat := 1024

/-- Puts a value on the evaluation stack. -/
def push (value : UInt16) : MemoryM Unit := fun memory =>
  if stackLimit ≤ memory.frame.stack.length then .error (.stackOverflow memory.pc) memory
  else .ok () { memory with frame := { memory.frame with stack := value :: memory.frame.stack } }

/-- Takes the top value off the evaluation stack. -/
def pop : MemoryM UInt16 := fun memory =>
  match memory.frame.stack with
  | [] => .error .stackUnderflow memory
  | value :: stack => .ok value { memory with frame := { memory.frame with stack } }

/-- The top value of the evaluation stack. -/
def peek (memory : Memory) : Except Fault UInt16 :=
  match memory.frame.stack with
  | [] => .error .stackUnderflow
  | value :: _ => .ok value

/-- Replaces the top value of the evaluation stack. -/
def poke (value : UInt16) : MemoryM Unit := fun memory =>
  match memory.frame.stack with
  | [] => .error .stackUnderflow memory
  | _ :: stack => .ok () { memory with frame := { memory.frame with stack := value :: stack } }

/-- The number of values on the evaluation stack. -/
def stackDepth (memory : Memory) : Nat :=
  memory.frame.stack.length

/-- The address of a global variable. -/
def globalAddress (memory : Memory) (name : UInt8) : Nat :=
  memory.header.globals + (name.toNat - 16) * 2

/-- The value of a variable other than the stack. -/
def readCell (memory : Memory) (name : UInt8) : Except Fault UInt16 :=
  if name < 16 then
    if memory.frame.localCount < name.toNat then
      .error (.illegalVariable name.toNat memory.frame.localCount)
    else .ok (memory.frame.getLocal name.toNat)
  else memory.readWord (memory.globalAddress name)

/-- Changes a variable other than the stack. -/
def writeCell (name : UInt8) (value : UInt16) : MemoryM Unit := fun memory =>
  if name < 16 then
    if memory.frame.localCount < name.toNat then
      .error (.illegalVariable name.toNat memory.frame.localCount) memory
    else .ok () { memory with frame := memory.frame.setLocal name.toNat value }
  else writeWord (memory.globalAddress name) value memory

/-- Reads a variable; the stack loses its top value. -/
def readVariable (name : UInt8) : MemoryM UInt16 :=
  if name = 0 then pop else inspect (·.readCell name)

/-- Writes a variable; the stack gains a value. -/
def writeVariable (name : UInt8) (value : UInt16) : MemoryM Unit :=
  if name = 0 then push value else writeCell name value

/-- Reads a variable in place; the stack keeps its top value. -/
def peekVariable (memory : Memory) (name : UInt8) : Except Fault UInt16 :=
  if name = 0 then memory.peek else memory.readCell name

/-- Writes a variable in place; the top value of the stack is replaced. -/
def pokeVariable (name : UInt8) (value : UInt16) : MemoryM Unit :=
  if name = 0 then poke value else writeCell name value

end ZMachine.Memory
