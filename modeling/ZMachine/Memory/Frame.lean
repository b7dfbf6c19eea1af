import ZMachine.Memory.Basic

/-!
# Call frames

Calling a routine suspends the frame of the caller and hides its evaluation stack; returning brings
both back.
-/

namespace ZMachine.Memory

/-- How many locals a routine can have. -/
def maxLocals : Nat := 15

/-- Enters a routine with a number of locals, all zero. -/
def pushFrame (returnPc localCount : Nat) (returnStore : Option UInt8) : MemoryM Unit :=
  fun memory =>
    if maxLocals < localCount then .error (.illegalVariable localCount maxLocals) memory
    else .ok ()
      { memory with
        frame := { returnPc, localCount, returnStore }
        frames := memory.frame :: memory.frames }

/-- Leaves the running routine. The result is its frame. -/
def popFrame : MemoryM Frame := fun memory =>
  match memory.frames with
  | [] => .error .noFrame memory
  | caller :: frames => .ok memory.frame { memory with frame := caller, frames }

/-- The number of suspended routines. -/
def frameDepth (memory : Memory) : Nat :=
  memory.frames.length

/-- Leaves a number of routines, as far as there are any. -/
def dropFrames : Nat → Memory → Memory
  | 0, memory => memory
  | count + 1, memory =>
    match memory.frames with
    | [] => memory
    | caller :: frames => dropFrames count { memory with frame := caller, frames }

/-- Leaves routines until a number of them is suspended. -/
def unwindTo (depth : Nat) : MemoryM Unit := fun memory =>
  if memory.frameDepth < depth then .error .noFrame memory
  else .ok () (memory.dropFrames (memory.frameDepth - depth))

/-- Notes how many arguments the running routine was given. -/
def setArgCount (memory : Memory) (count : Nat) : Memory :=
  { memory with frame := { memory.frame with argCount := count } }

end ZMachine.Memory
