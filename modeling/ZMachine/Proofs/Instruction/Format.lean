import ZMachine.Proofs.Memory.Holding

/-!
# How instructions are written

The format of instructions, as a writer sees it: an opcode and operands in one of four forms, and
after them a variable for the result, a branch and a text where the operation has them. A
`WrittenInstruction` is a choice of all these. It gives the bytes that stand for it, and the
instruction that is meant by them.
-/

namespace ZMachine

namespace OperandKind

/-- The two bits that stand for a kind. -/
def bits : OperandKind → Nat
  | largeConstant => 0
  | smallConstant => 1
  | byVariable => 2
  | omitted => 3

theorem bits_lt (kind : OperandKind) : kind.bits < 4 := by
  cases kind <;> simp [bits]

theorem ofBits_of_mod {number : Nat} {kind : OperandKind} (same : number % 4 = kind.bits) :
    ofBits number = kind := by
  cases kind <;> simp [ofBits, same, bits]

/-- The byte of four type fields. -/
def typeByte (first second third fourth : OperandKind) : UInt8 :=
  UInt8.ofNat (first.bits * 64 + second.bits * 16 + third.bits * 4 + fourth.bits)

theorem kindsOfByte_typeByte (first second third fourth : OperandKind) :
    Opening.kindsOfByte (typeByte first second third fourth) = [first, second, third, fourth] := by
  have firstSmall := first.bits_lt
  have secondSmall := second.bits_lt
  have thirdSmall := third.bits_lt
  have fourthSmall := fourth.bits_lt
  have value : (typeByte first second third fourth).toNat =
      first.bits * 64 + second.bits * 16 + third.bits * 4 + fourth.bits := by
    rw [typeByte, UInt8.toNat_ofNat']
    omega
  simp only [Opening.kindsOfByte, value, List.cons.injEq, and_true]
  refine ⟨ofBits_of_mod ?_, ofBits_of_mod ?_, ofBits_of_mod ?_, ofBits_of_mod ?_⟩ <;> omega

/-- The bytes of type fields, four fields to a byte. -/
def typeBytes : List OperandKind → List UInt8
  | first :: second :: third :: fourth :: rest =>
    typeByte first second third fourth :: typeBytes rest
  | _ => []

theorem typeBytes_of_four {kinds : List OperandKind} (four : kinds.length = 4)
    (others : List OperandKind) :
    ∃ byte, Opening.kindsOfByte byte = kinds ∧
      typeBytes (kinds ++ others) = byte :: typeBytes others := by
  match kinds, four with
  | [first, second, third, fourth], _ =>
      exact ⟨_, kindsOfByte_typeByte first second third fourth, rfl⟩

end OperandKind

/-- An operand that is written in one byte. -/
inductive ByteOperand where
  | constant (value : UInt8)
  | named (name : UInt8)
deriving Repr, DecidableEq

namespace ByteOperand

/-- The kind of the operand. -/
def kind : ByteOperand → OperandKind
  | constant _ => .smallConstant
  | named _ => .byVariable

/-- The byte of the operand. -/
def byte : ByteOperand → UInt8
  | constant value => value
  | named name => name

/-- The bit of the long form that tells a variable from a constant. -/
def longBit : ByteOperand → Nat
  | constant _ => 0
  | named _ => 1

theorem longBit_lt (operand : ByteOperand) : operand.longBit < 2 := by
  cases operand <;> simp [longBit]

theorem longKind_longBit (operand : ByteOperand) :
    Opening.longKind (decide (operand.longBit = 1)) = operand.kind := by
  cases operand <;> rfl

end ByteOperand

/-- An operand as it is written. -/
inductive WrittenOperand where
  | inByte (operand : ByteOperand)
  | inWord (value : UInt16)
deriving Repr, DecidableEq

namespace WrittenOperand

/-- The kind of the operand. -/
def kind : WrittenOperand → OperandKind
  | inByte operand => operand.kind
  | inWord _ => .largeConstant

/-- The bytes of the operand. -/
def bytes : WrittenOperand → List UInt8
  | inByte operand => [operand.byte]
  | inWord value => Word.bytes value

/-- The operand that is meant. -/
def meant : WrittenOperand → Operand
  | inByte operand => ⟨operand.kind, operand.byte.toUInt16⟩
  | inWord value => ⟨.largeConstant, value⟩

theorem kind_ne_omitted (operand : WrittenOperand) : operand.kind ≠ .omitted := by
  rcases operand with (_ | _) | _ <;> simp [kind, ByteOperand.kind]

theorem bits_kind_lt (operand : WrittenOperand) : operand.kind.bits < 3 := by
  rcases operand with (_ | _) | _ <;> simp [kind, ByteOperand.kind, OperandKind.bits]

end WrittenOperand

/-- Operands whose kinds are given by a number of type fields. The first field after those of the
operands, if there is any, says that there are no more; the fields behind it may say anything. -/
structure FieldOperands (fields : Nat) where
  operands : List WrittenOperand
  unused : List OperandKind
  filled : operands.length + unused.length = fields
  closed : ∀ kind ∈ unused.head?, kind = .omitted

namespace FieldOperands

variable {fields : Nat} (written : FieldOperands fields)

/-- The type fields. -/
def kinds : List OperandKind :=
  written.operands.map (·.kind) ++ written.unused

theorem length_kinds : written.kinds.length = fields := by
  simpa [kinds] using written.filled

/-- The type fields give the kinds of the operands and nothing else. -/
theorem takeWhile_kinds :
    written.kinds.takeWhile (· ≠ .omitted) = written.operands.map (·.kind) := by
  have present : ∀ kind ∈ written.operands.map (·.kind), decide (kind ≠ .omitted) = true := by
    intro kind member
    rcases List.mem_map.mp member with ⟨operand, _, rfl⟩
    simpa using operand.kind_ne_omitted
  rw [kinds, List.takeWhile_append_of_pos present]
  cases shape : written.unused with
  | nil => simp
  | cons kind rest =>
      have closing := written.closed kind (by simp [shape])
      simp [closing]

end FieldOperands

/-- The number of type fields of a variadic operation. -/
def typeFields (number : Nat) : Nat :=
  if Opcode.hasDoubleTypeByte .var number then 8 else 4

/-- The opcode and the operands of an instruction, in one of the four forms. Operations with two
operands have two forms. -/
inductive WrittenHead where
  | long (number : Fin 32) (first second : ByteOperand)
  | short (number : Fin 16) (operand : Option WrittenOperand)
  | variadicTwo (number : Fin 32) (operands : FieldOperands 4)
  | variadic (number : Fin 32) (operands : FieldOperands (typeFields number))
  | extended (number : UInt8) (operands : FieldOperands 4)

namespace WrittenHead

/-- The form, class and number, and the kinds that the opcode gives. -/
def opening : WrittenHead → Opening
  | long number first second => ⟨.long, .op2, number, [first.kind, second.kind]⟩
  | short number none => ⟨.short, .op0, number, []⟩
  | short number (some operand) => ⟨.short, .op1, number, [operand.kind]⟩
  | variadicTwo number _ => ⟨.variadic, .op2, number, []⟩
  | variadic number _ => ⟨.variadic, .var, number, []⟩
  | extended number _ => ⟨.extended, .ext, number.toNat, []⟩

/-- The operands in their order. -/
def operands : WrittenHead → List WrittenOperand
  | long _ first second => [.inByte first, .inByte second]
  | short _ operand => operand.toList
  | variadicTwo _ written => written.operands
  | variadic _ written => written.operands
  | extended _ written => written.operands

/-- The opcode, which is one byte except in the extended form. -/
def opcodeBytes : WrittenHead → List UInt8
  | long number first second => [UInt8.ofNat (first.longBit * 64 + second.longBit * 32 + number)]
  | short number operand =>
    [UInt8.ofNat (128 + (operand.elim .omitted (·.kind)).bits * 16 + number)]
  | variadicTwo number _ => [UInt8.ofNat (192 + number)]
  | variadic number _ => [UInt8.ofNat (224 + number)]
  | extended number _ => [Opening.extendedMark, number]

/-- The type fields, where the form has any. -/
def fields : WrittenHead → List OperandKind
  | long .. | short .. => []
  | variadicTwo _ written => written.kinds
  | variadic _ written => written.kinds
  | extended _ written => written.kinds

/-- The bytes up to the end of the operands. -/
def bytes (head : WrittenHead) : List UInt8 :=
  head.opcodeBytes ++ OperandKind.typeBytes head.fields ++ head.operands.flatMap (·.bytes)

end WrittenHead

/-- A branch as it is written: a short offset in one byte, or a signed one in two. -/
inductive WrittenBranch where
  | near (onTrue : Bool) (offset : Fin 64)
  | far (onTrue : Bool) (offset : Int) (atLeast : -8192 ≤ offset) (atMost : offset ≤ 8191)

namespace WrittenBranch

/-- Whether the branch is taken when the condition holds. -/
def onTrue : WrittenBranch → Bool
  | near onTrue _ => onTrue
  | far onTrue .. => onTrue

/-- The offset of the branch. -/
def offset : WrittenBranch → Int
  | near _ offset => (offset : Nat)
  | far _ offset .. => offset

/-- The bytes of the branch. The topmost bit is the sense of the condition. -/
def bytes : WrittenBranch → List UInt8
  | near onTrue offset => [UInt8.ofNat (onTrue.toNat * 128 + 64 + offset)]
  | far onTrue offset .. =>
    [UInt8.ofNat (onTrue.toNat * 128 + (offset % 16384).toNat / 256),
      UInt8.ofNat ((offset % 16384).toNat % 256)]

/-- The branch that is meant, if the bytes begin at an address. -/
def meant (branch : WrittenBranch) (address : Nat) : Branch :=
  { onTrue := branch.onTrue
    offset := branch.offset
    target := Branch.targetOf (address + branch.bytes.length) branch.offset }

end WrittenBranch

/-- An instruction as it is written. -/
structure WrittenInstruction where
  head : WrittenHead
  store : Option UInt8
  branch : Option WrittenBranch
  text : Option PackedText

namespace WrittenInstruction

variable (written : WrittenInstruction)

/-- The bytes of the branch, if there is one. -/
def branchBytes : List UInt8 :=
  (written.branch.map (·.bytes)).getD []

/-- The bytes of the text, if there is one. -/
def textBytes : List UInt8 :=
  (written.text.map (·.bytes)).getD []

/-- The bytes of the instruction. -/
def bytes : List UInt8 :=
  written.head.bytes ++ (written.store.toList ++ (written.branchBytes ++ written.textBytes))

/-- The instruction is legal in a version, and has what follows the operands of its operation. -/
structure Legal (version : Nat) (entry : CatalogEntry) : Prop where
  listed : Opcode.lookup version written.head.opening.opcodeClass written.head.opening.number =
    some entry
  stores : written.store.isSome = entry.stores
  branches : written.branch.isSome = entry.branches
  carriesText : written.text.isSome = entry.carriesText

/-- The instruction that is meant at an address, with a text that has been read. -/
def meant (address : Nat) (entry : CatalogEntry) (text : Option String) : Instruction where
  address
  form := written.head.opening.form
  opcodeClass := written.head.opening.opcodeClass
  number := written.head.opening.number
  entry := some entry
  operands := written.head.operands.map (·.meant)
  store := written.store
  branch := written.branch.map
    (·.meant (address + written.head.bytes.length + written.store.toList.length))
  text
  size := written.bytes.length

end WrittenInstruction

end ZMachine
