import ZMachine.Header

/-!
# Memory

The memory of a running story: its bytes, the program counter, and a frame for every routine that
has been called and not left. The header divides the bytes into dynamic memory, which the story may
change, static memory, which it may only read, and high memory, which holds code and text.

An operation that changes memory is a `MemoryM` action. An action that fails keeps the changes made
before the failure.
-/

namespace ZMachine

/-- What a routine works with: its locals and its own evaluation stack. -/
structure Frame where
  /-- Where the caller goes on. -/
  returnPc : Nat := 0
  /-- The variable of the caller that takes the result. -/
  returnStore : Option UInt8 := none
  localCount : Nat := 0
  /-- How many arguments the caller gave. -/
  argCount : Nat := 0
  locals : Vector UInt16 15 := Vector.replicate 15 0
  /-- The evaluation stack, its top first. -/
  stack : List UInt16 := []
deriving Repr, DecidableEq

namespace Frame

/-- A local variable, counted from 1. -/
def getLocal (frame : Frame) (number : Nat) : UInt16 :=
  frame.locals[number - 1]?.getD 0

/-- The frame with a new value for a local variable. -/
def setLocal (frame : Frame) (number : Nat) (value : UInt16) : Frame :=
  { frame with locals := frame.locals.setIfInBounds (number - 1) value }

end Frame

/-- The state of a story. -/
structure Memory where
  bytes : Image
  /-- The bytes as they were loaded. -/
  pristine : Image
  header : Header
  pc : Nat
  /-- The frame of the running routine. -/
  frame : Frame := {}
  /-- The frames of the routines that wait for a result, the innermost first. -/
  frames : List Frame := []
deriving DecidableEq

/-- An operation on memory. -/
abbrev MemoryM := EStateM Fault Memory

namespace Memory

/-- Runs a query as an action. -/
def inspect {α : Type} (query : Memory → Except Fault α) : MemoryM α := fun memory =>
  match query memory with
  | .ok value => .ok value memory
  | .error fault => .error fault memory

/-- The memory of a freshly loaded story. The image is checked before it is touched. -/
def load (settings : Settings) (image : Image) : Except Fault Memory := do
  Header.check image
  let image := Header.normalize settings image
  let header ← Header.parse image
  return { bytes := image, pristine := image, header, pc := header.initialPc }

/-- The version of the story. -/
def version (memory : Memory) : Nat :=
  memory.header.version

/-- The number of bytes of the story. -/
def size (memory : Memory) : Nat :=
  memory.bytes.size

end Memory

end ZMachine
