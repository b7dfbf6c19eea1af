import ZMachine.Machine.Routine

/-!
# Arithmetic and comparison

Words are added, subtracted and multiplied modulo 65536. Division and ordering read them as signed
numbers; quotients are cut off toward zero.
-/

namespace ZMachine

namespace Word

/-- The quotient, cut off toward zero. -/
def divide (dividend divisor : UInt16) : UInt16 :=
  ofInt ((signed dividend).tdiv (signed divisor))

/-- The remainder, which has the sign of the dividend. -/
def remainder (dividend divisor : UInt16) : UInt16 :=
  ofInt ((signed dividend).tmod (signed divisor))

/-- The word moved left, or right for a negative number of places; zeros come in. -/
def logicalShift (word : UInt16) (places : Int) : UInt16 :=
  if 16 ≤ places.natAbs then 0
  else if 0 ≤ places then word <<< UInt16.ofNat places.natAbs
  else word >>> UInt16.ofNat places.natAbs

/-- The word moved left, or right for a negative number of places; on the left, copies of the sign
come in. -/
def arithmeticShift (word : UInt16) (places : Int) : UInt16 :=
  if 0 ≤ places then logicalShift word places
  else if 16 ≤ places.natAbs then if signed word < 0 then 0xFFFF else 0
  else (word.toInt16 >>> Int16.ofNat places.natAbs).toUInt16

end Word

namespace Machine

variable {η : Type}

/-- Combines the first two operands and stores the result. -/
def combine (instruction : Instruction) (values : List UInt16)
    (operation : UInt16 → UInt16 → UInt16) : MachineM η Outcome := do
  let left ← need instruction values 0
  let right ← need instruction values 1
  conclude instruction (operation left right)

/-- Divides the first operand by the second, which may not be 0. -/
def combineNonzero (instruction : Instruction) (values : List UInt16)
    (operation : UInt16 → UInt16 → UInt16) : MachineM η Outcome := do
  let left ← need instruction values 0
  let right ← need instruction values 1
  if right = 0 then throw (.divisionByZero instruction.address)
  else conclude instruction (operation left right)

/-- Compares the first two operands and branches. -/
def compare (instruction : Instruction) (values : List UInt16) (relation : UInt16 → UInt16 → Bool) :
    MachineM η Outcome := do
  let left ← need instruction values 0
  let right ← need instruction values 1
  branchIf instruction (relation left right)

/-- Changes a variable in place and gives its new value. -/
def updateVariable (name : UInt8) (change : UInt16 → UInt16) : MachineM η UInt16 := do
  let value ← inspect (·.memory.peekVariable name)
  onMemory (Memory.pokeVariable name (change value))
  return change value

/-- Changes the variable that the first operand names. -/
def count (instruction : Instruction) (values : List UInt16) (change : UInt16 → UInt16) :
    MachineM η Outcome := do
  let name ← need instruction values 0
  let _ ← updateVariable (Word.low name) change
  return .advanced

/-- Changes the variable that the first operand names and branches on its new value and the second
operand. -/
def countAndCompare (instruction : Instruction) (values : List UInt16) (change : UInt16 → UInt16)
    (relation : Int → Int → Bool) : MachineM η Outcome := do
  let name ← need instruction values 0
  let limit ← need instruction values 1
  let value ← updateVariable (Word.low name) change
  branchIf instruction (relation (Word.signed value) (Word.signed limit))

/-- A random number for a positive range; otherwise the random numbers are seeded or made
unpredictable. -/
def randomNumber [Host η] (range : Int) : MachineM η UInt16 := fun machine =>
  if 0 < range then
    let (number, host) := Host.random (Word.ofInt range) machine.host
    .ok number { machine with host }
  else if range < 0 then
    .ok 0 { machine with host := Host.seed (UInt64.ofNat range.natAbs) machine.host }
  else .ok 0 { machine with host := Host.reseed machine.host }

/-- The operations on numbers. -/
def arithmetic [Host η] (instruction : Instruction) (opcode : Opcode) (values : List UInt16) :
    MachineM η Outcome :=
  match opcode with
  | .je => do
    let value ← need instruction values 0
    let _ ← need instruction values 1
    branchIf instruction (values.tail.contains value)
  | .jl => compare instruction values fun left right => Word.signed left < Word.signed right
  | .jg => compare instruction values fun left right => Word.signed left > Word.signed right
  | .jz => do
    let value ← need instruction values 0
    branchIf instruction (value = 0)
  | .test => compare instruction values fun bits flags => bits &&& flags = flags
  | .or => combine instruction values (· ||| ·)
  | .and => combine instruction values (· &&& ·)
  | .not => do
    let value ← need instruction values 0
    conclude instruction (~~~value)
  | .logShift =>
    combine instruction values fun word places => Word.logicalShift word (Word.signed places)
  | .artShift =>
    combine instruction values fun word places => Word.arithmeticShift word (Word.signed places)
  | .add => combine instruction values (· + ·)
  | .sub => combine instruction values (· - ·)
  | .mul => combine instruction values (· * ·)
  | .div => combineNonzero instruction values Word.divide
  | .mod => combineNonzero instruction values Word.remainder
  | .inc => count instruction values (· + 1)
  | .dec => count instruction values (· - 1)
  | .incChk => countAndCompare instruction values (· + 1) fun value limit => value > limit
  | .decChk => countAndCompare instruction values (· - 1) fun value limit => value < limit
  | .random => do
    let range ← need instruction values 0
    let number ← randomNumber (Word.signed range)
    conclude instruction number
  | _ => unsupported instruction

end Machine

end ZMachine
