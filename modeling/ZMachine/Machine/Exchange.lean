import ZMachine.Machine.Reading
import ZMachine.Machine.Saving

/-!
# Exchange with the player

The operations that print, read, arrange the screen, save and restore, and those on the machine as a
whole. What the host does not have it ignores.
-/

namespace ZMachine.Machine

variable {η : Type}

/-- Prints the string at an address. -/
def printString [Host η] (address : Nat) : MachineM η Unit := do
  let (text, _) ← inspect fun machine =>
    machine.abbreviations.stringAt machine.memory machine.codec address
  outputText text

/-- Prints `count` rows of a table, each `width` characters long and `stride` bytes after the one
before. `first` tells whether the next row is the first one. -/
def printRows [Host η] (width stride : Nat) :
    (count address : Nat) → (first : Bool) → MachineM η Unit
  | 0, _, _ => pure ()
  | count + 1, address, first => do
    if !first then outputNewLine
    let row ← inspect fun machine => machine.memory.readText machine.codec width address ""
    outputText row
    printRows width stride count (address + stride) false

/-- Goes on with the next instruction after an action. -/
def advancing (action : MachineM η Unit) : MachineM η Outcome := do
  action
  return .advanced

/-- The operations that print text. -/
def printing [Host η] (instruction : Instruction) (opcode : Opcode) (values : List UInt16) :
    MachineM η Unit :=
  match opcode with
  | .print =>
    match instruction.text with
    | none => pure ()
    | some text => outputText text
  | .printAddr => do
    let address ← need instruction values 0
    printString address.toNat
  | .printPaddr => do
    let packed ← need instruction values 0
    let address ← inspect fun machine => .ok (machine.memory.unpackString packed)
    printString address
  | .printChar => do
    let zscii ← need instruction values 0
    let codec ← inspect fun machine => .ok machine.codec
    match codec.charOfZscii zscii.toNat with
    | none => pure ()
    | some c => outputText (String.singleton c)
  | .printNum => do
    let number ← need instruction values 0
    outputText (Text.decimal (Word.signed number))
  | .printUnicode => do
    let code ← need instruction values 0
    outputText (String.singleton ((Codec.charOfCode? code.toNat).getD '?'))
  | .printTable => do
    let start ← need instruction values 0
    let width ← need instruction values 1
    let height := optional values 2 1
    let skip := optional values 3 0
    printRows width.toNat (width.toNat + skip.toNat) height.toNat start.toNat true
  | .newLine => outputNewLine
  | .showStatus => showStatus
  | _ => unsupported instruction

/-- The operations that arrange the screen. -/
def screenModel [Host η] (instruction : Instruction) (opcode : Opcode) (values : List UInt16) :
    MachineM η Unit :=
  match opcode with
  | .splitWindow => do
    let lines ← need instruction values 0
    display (.splitWindow lines)
  | .setWindow => do
    let window ← need instruction values 0
    display (.setWindow window)
  | .eraseWindow => do
    let window ← need instruction values 0
    display (.eraseWindow (Word.signed window))
  | .eraseLine => do
    let value ← need instruction values 0
    display (.eraseLine value)
  | .setCursor => do
    let line ← need instruction values 0
    let column ← need instruction values 1
    display (.setCursor ⟨line, column⟩)
  | .getCursor => do
    let table ← need instruction values 0
    let cursor ← answer .display Host.cursor
    onMemory (Memory.writeWord table.toNat cursor.line)
    onMemory (Memory.writeWord (table.toNat + 2) cursor.column)
  | .setTextStyle => do
    let style ← need instruction values 0
    display (.setTextStyle style)
  | .bufferMode => do
    let flag ← need instruction values 0
    display (.setBufferMode (flag ≠ 0))
  | .setColour => do
    let foreground ← need instruction values 0
    let background ← need instruction values 1
    display (.setColour foreground background)
  | .setTrueColour => pure ()
  | .soundEffect =>
    display (.soundEffect (optional values 0 1) (optional values 1 0) (optional values 2 0))
  | _ => unsupported instruction

/-- The operations that deal with the player and with the machine as a whole. -/
def exchange [Host η] (instruction : Instruction) (opcode : Opcode) (values : List UInt16) :
    MachineM η Outcome :=
  match opcode with
  | .print | .printAddr | .printPaddr | .printChar | .printNum | .printUnicode | .printTable
  | .newLine | .showStatus => advancing (printing instruction opcode values)
  | .checkUnicode => do
    let code ← need instruction values 0
    conclude instruction (if (Codec.charOfCode? code.toNat).isSome then 3 else 0)
  | .sread => do
    let text ← need instruction values 0
    readLine text.toNat (optional values 1 0).toNat
    conclude instruction returnCode
  | .readChar => do
    let code ← readKey
    conclude instruction code
  | .tokenise => do
    let text ← need instruction values 0
    let parse ← need instruction values 1
    advancing
      (tokenise text.toNat parse.toNat (optional values 2 0).toNat (optional values 3 0 ≠ 0))
  | .encodeText => do
    let text ← need instruction values 0
    let length ← need instruction values 1
    let start ← need instruction values 2
    let target ← need instruction values 3
    advancing (encodeText text.toNat length.toNat start.toNat target.toNat)
  | .outputStream => do
    let stream ← need instruction values 0
    advancing (selectStream (Word.signed stream) values[1]?)
  | .inputStream => do
    let _ ← need instruction values 0
    return .advanced
  | .save => save instruction
  | .restore => restore instruction
  | .saveUndo => saveUndo instruction
  | .restoreUndo => restoreUndo instruction
  | .restart => restart
  | .quit => return .quit
  | .verify => do
    let valid ← inspect fun machine =>
      .ok (machine.memory.checksum == machine.memory.header.checksum)
    branchIf instruction valid
  | .piracy => branchIf instruction true
  | .nop => return .advanced
  | .setFont => do
    let font ← need instruction values 0
    conclude instruction (if font ≤ 1 then 1 else 0)
  | _ => advancing (screenModel instruction opcode values)

end ZMachine.Machine
