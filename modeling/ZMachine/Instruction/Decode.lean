import ZMachine.Abbreviation
import ZMachine.Instruction.Basic

/-!
# Decoding instructions

An instruction begins with its opcode and the kinds of its operands, in one of four forms. The
operands follow. What comes after them depends on the operation: a variable for the result, one or
two bytes for a branch, a text.
-/

namespace ZMachine

/-- Reads bytes one after the other; the state is the address of the next one. -/
abbrev Fetching := StateT Nat (Except Fault)

namespace Fetching

/-- The next byte. -/
def byte (memory : Memory) : Fetching UInt8 := fun address => do
  return (← memory.fetchByte address, address + 1)

/-- The next word. -/
def word (memory : Memory) : Fetching UInt16 := fun address => do
  return (← memory.fetchWord address, address + 2)

/-- Runs a reader if the condition holds. -/
def onlyIf {α : Type} (condition : Bool) (reader : Fetching α) : Fetching (Option α) :=
  if condition then some <$> reader else return none

end Fetching

/-- The first part of an instruction: its form and number, and the kinds of its operands so far as
the opcode byte gives them. -/
structure Opening where
  form : Form
  opcodeClass : OpcodeClass
  number : Nat
  kinds : List OperandKind
deriving Repr, DecidableEq

namespace Opening

/-- The byte that announces an extended opcode from version 5 on. -/
def extendedMark : UInt8 := 0xBE

/-- The kind of an operand in the long form, which has a single bit for it. -/
def longKind (bit : Bool) : OperandKind :=
  if bit then .byVariable else .smallConstant

/-- What an opcode byte says in the long, short and variadic forms. -/
def ofByte (byte : UInt8) : Opening :=
  let value := byte.toNat
  if 192 ≤ value then
    { form := .variadic
      opcodeClass := if value / 32 % 2 = 0 then .op2 else .var
      number := value % 32
      kinds := [] }
  else if 128 ≤ value then
    let kind := OperandKind.ofBits (value / 16)
    if kind = .omitted then
      { form := .short, opcodeClass := .op0, number := value % 16, kinds := [] }
    else { form := .short, opcodeClass := .op1, number := value % 16, kinds := [kind] }
  else
    { form := .long
      opcodeClass := .op2
      number := value % 32
      kinds := [longKind (value / 64 % 2 = 1), longKind (value / 32 % 2 = 1)] }

/-- Reads the opcode of an instruction. -/
def read (version : Nat) (memory : Memory) : Fetching Opening := do
  let first ← Fetching.byte memory
  if first = extendedMark ∧ 5 ≤ version then
    let number ← Fetching.byte memory
    return { form := .extended, opcodeClass := .ext, number := number.toNat, kinds := [] }
  else return ofByte first

/-- The four kinds in a byte of operand types, the first in the highest bits. -/
def kindsOfByte (byte : UInt8) : List OperandKind :=
  [.ofBits (byte.toNat / 64), .ofBits (byte.toNat / 16), .ofBits (byte.toNat / 4),
    .ofBits byte.toNat]

/-- Reads the kinds of the operands that the opcode byte leaves open. -/
def readKinds (opening : Opening) (memory : Memory) : Fetching (List OperandKind) := do
  if opening.form = .variadic ∨ opening.form = .extended then
    let first ← Fetching.byte memory
    if Opcode.hasDoubleTypeByte opening.opcodeClass opening.number then
      let second ← Fetching.byte memory
      return kindsOfByte first ++ kindsOfByte second
    else return kindsOfByte first
  else return opening.kinds

end Opening

/-- Reads operands of the given kinds. -/
def Operand.readAll (memory : Memory) : List OperandKind → Fetching (List Operand)
  | [] => return []
  | kind :: kinds => do
    let value ←
      if kind = .largeConstant then Fetching.word memory
      else UInt8.toUInt16 <$> Fetching.byte memory
    let operands ← readAll memory kinds
    return ⟨kind, value⟩ :: operands

namespace Branch

/-- The signed reading of the fourteen bits of a long branch offset. -/
def longOffset (first second : UInt8) : Int :=
  let raw := first.toNat % 64 * 256 + second.toNat
  if 8192 ≤ raw then raw - 16384 else raw

/-- Where a branch leads whose offset counts from the address `after`. -/
def targetOf (after : Nat) (offset : Int) : BranchTarget :=
  if offset = 0 then .returnFalse
  else if offset = 1 then .returnTrue
  else .address (addressBy after (offset - 2))

/-- Reads a branch: the sense of the condition and an offset of six or fourteen bits. -/
def read (memory : Memory) : Fetching Branch := do
  let first ← Fetching.byte memory
  let onTrue : Bool := 128 ≤ first.toNat
  let offset : Int ←
    if first.toNat / 64 % 2 = 1 then pure (first.toNat % 64 : Int)
    else longOffset first <$> Fetching.byte memory
  let after ← get
  return { onTrue, offset, target := targetOf after offset }

end Branch

/-- A decoder for the instructions of a version. The alphabet locked in by one text holds for the
next; it changes in versions 1 and 2 only. -/
structure Decoder where
  version : Nat
  alphabet : Nat := 0
deriving Repr, DecidableEq

namespace Decoder

/-- Reads the text of an instruction. -/
def readText (decoder : Decoder) (memory : Memory) (codec : Codec)
    (abbreviations : AbbreviationTable) : Fetching Decoded := fun address => do
  let (length, codes) ← memory.readCodes address none
  let decoded ← codec.decode (abbreviations.expand memory codec) decoder.alphabet codes
  return (decoded, address + length)

/-- Reads an instruction and the alphabet that its text locks in. -/
def read (decoder : Decoder) (memory : Memory) (codec : Codec)
    (abbreviations : AbbreviationTable) (start : Nat) : Fetching (Instruction × Nat) := do
  let opening ← Opening.read decoder.version memory
  let kinds ← opening.readKinds memory
  let operands ← Operand.readAll memory (kinds.takeWhile (· ≠ .omitted))
  let entry := Opcode.lookup decoder.version opening.opcodeClass opening.number
  let store ← Fetching.onlyIf (entry.any (·.stores)) (Fetching.byte memory)
  let branch ← Fetching.onlyIf (entry.any (·.branches)) (Branch.read memory)
  let decoded ←
    Fetching.onlyIf (entry.any (·.carriesText)) (decoder.readText memory codec abbreviations)
  let after ← get
  let instruction : Instruction :=
    { address := start
      form := opening.form
      opcodeClass := opening.opcodeClass
      number := opening.number
      entry
      operands
      store
      branch
      text := decoded.map (·.text)
      size := after - start }
  return (instruction, (decoded.map (·.alphabet)).getD decoder.alphabet)

/-- Decodes the instruction at an address. -/
def decode (decoder : Decoder) (memory : Memory) (codec : Codec)
    (abbreviations : AbbreviationTable) (address : Nat) :
    Except Fault (Instruction × Decoder) := do
  let ((instruction, alphabet), _) ← decoder.read memory codec abbreviations address address
  return (instruction, { decoder with alphabet })

/-- Forgets the alphabet that a text has locked in. -/
def reset (decoder : Decoder) : Decoder :=
  { decoder with alphabet := 0 }

end Decoder

end ZMachine
