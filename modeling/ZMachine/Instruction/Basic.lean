import ZMachine.Opcode.Catalog
import ZMachine.Text.Quoted

/-!
# Instructions

A decoded instruction: the operation and its operands, where its result goes, where it branches to,
and the text it carries. Listings show one instruction to a line.
-/

namespace ZMachine

open Text

/-- How an operand is given. -/
inductive OperandKind where
  | largeConstant
  | smallConstant
  | byVariable
  | omitted
deriving Repr, DecidableEq

namespace OperandKind

/-- The kind that the two low bits of a number stand for. -/
def ofBits (bits : Nat) : OperandKind :=
  match bits % 4 with
  | 0 => largeConstant
  | 1 => smallConstant
  | 2 => byVariable
  | _ => omitted

/-- The number of bytes that an operand takes. -/
def size : OperandKind → Nat
  | largeConstant => 2
  | smallConstant | byVariable => 1
  | omitted => 0

end OperandKind

/-- An operand: a constant, or the name of a variable. -/
structure Operand where
  kind : OperandKind
  value : UInt16
deriving Repr, DecidableEq

namespace Operand

/-- How many operands an instruction can have. -/
def maxCount : Nat := 8

/-- The operands with one more, if there is room for it. -/
def append (operands : List Operand) (operand : Operand) : List Operand :=
  if operands.length < maxCount then operands ++ [operand] else operands

end Operand

/-- The layouts of an instruction. -/
inductive Form where
  | long
  | short
  | extended
  | variadic
deriving Repr, DecidableEq

/-- Where a branch that is taken leads. -/
inductive BranchTarget where
  | returnFalse
  | returnTrue
  | address (address : Nat)
deriving Repr, DecidableEq

/-- When and where to an instruction branches. -/
structure Branch where
  /-- Whether the branch is taken when the condition holds or when it fails. -/
  onTrue : Bool
  offset : Int
  target : BranchTarget
deriving Repr, DecidableEq

/-- A decoded instruction. -/
structure Instruction where
  address : Nat
  form : Form
  opcodeClass : OpcodeClass
  number : Nat
  /-- What the catalog says; nothing if the encoding is illegal. -/
  entry : Option CatalogEntry
  operands : List Operand
  /-- The variable that takes the result. -/
  store : Option UInt8
  branch : Option Branch
  text : Option String
  /-- The number of bytes. -/
  size : Nat
deriving Repr, DecidableEq

namespace Instruction

/-- The operation, if the encoding is legal. -/
def opcode? (instruction : Instruction) : Option Opcode :=
  instruction.entry.map (·.opcode)

/-- The name of the operation. -/
def name (instruction : Instruction) : String :=
  match instruction.entry with
  | some entry => entry.name
  | none => "unknown"

/-- The encoding of the operation, for messages about illegal ones. -/
def encoding (instruction : Instruction) : String :=
  instruction.opcodeClass.label ++ ":0x" ++ hex 2 instruction.number

end Instruction

/-- An operand in a listing. -/
def Operand.listing (operand : Operand) : String :=
  let value := operand.value.toNat
  if operand.kind = .byVariable then
    if value = 0 then "(SP)+"
    else if value < 16 then "L" ++ hex 2 (value - 1)
    else "G" ++ hex 2 (value - 16)
  else "#" ++ hex 4 value

/-- A branch in a listing. -/
def Branch.listing (branch : Branch) : String :=
  let target :=
    match branch.target with
    | .returnFalse => "RFALSE"
    | .returnTrue => "RTRUE"
    | .address address => hex 5 address
  " [" ++ (if branch.onTrue then "TRUE" else "FALSE") ++ "] " ++ target

/-- The line of a listing that shows an instruction. -/
def Instruction.listing (instruction : Instruction) : String :=
  let operands :=
    match instruction.operands with
    | [] => ""
    | operands => " " ++ String.intercalate ", " (operands.map (·.listing))
  let store :=
    match instruction.store with
    | none => ""
    | some name => " -> V" ++ hex 2 name.toNat
  let branch :=
    match instruction.branch with
    | none => ""
    | some branch => branch.listing
  let text :=
    match instruction.text with
    | none => ""
    | some text => " " ++ quoted text
  hex 5 instruction.address ++ ": " ++ instruction.name ++ operands ++ store ++ branch ++ text

end ZMachine
