/-!
# Opcodes

The operations of the machine, independent of how a version of the story format encodes them.
-/

namespace ZMachine

/-- What an instruction does. The last eighteen belong to the version 6 screen model. -/
inductive Opcode where
  | je | jl | jg | decChk | incChk | jin | test | or | and | testAttr | setAttr | clearAttr
  | store | insertObj | loadw | loadb | getProp | getPropAddr | getNextProp | add | sub | mul
  | div | mod | call2s | call2n | setColour | throwTo | jz | getSibling | getChild | getParent
  | getPropLen | inc | dec | printAddr | call1s | removeObj | printObj | ret | jump | printPaddr
  | load | not | call1n | rtrue | rfalse | print | printRet | nop | save | restore | restart
  | retPopped | pop | catchFrame | quit | newLine | showStatus | verify | piracy | callVs
  | storew | storeb | putProp | sread | printChar | printNum | random | push | pull | splitWindow
  | setWindow | callVs2 | eraseWindow | eraseLine | setCursor | getCursor | setTextStyle
  | bufferMode | outputStream | inputStream | soundEffect | readChar | scanTable | callVn
  | callVn2 | tokenise | encodeText | copyTable | printTable | checkArgCount | logShift
  | artShift | setFont | saveUndo | restoreUndo | printUnicode | checkUnicode | setTrueColour
  | drawPicture | pictureData | erasePicture | setMargins | moveWindow | windowSize | windowStyle
  | getWindProp | scrollWindow | popStack | readMouse | mouseWindow | pushStack | putWindProp
  | printForm | makeMenu | pictureTable | bufferScreen
deriving Repr, DecidableEq

/-- The groups into which the operations fall by what they work on. -/
inductive OpcodeFamily where
  | arithmetic
  | table
  | object
  | routine
  | exchange
deriving Repr, DecidableEq

namespace Opcode

/-- Whether the first operand names a variable and so is never read as one. -/
def takesVariable : Opcode → Bool
  | inc | dec | incChk | decChk | load | store | pull => true
  | _ => false

/-- The group of an operation; the operations of the version 6 screen belong to none. -/
def family? : Opcode → Option OpcodeFamily
  | .add | .sub | .mul | .div | .mod | .or | .and | .not | .logShift | .artShift | .je | .jl
  | .jg | .jz | .test | .inc | .dec | .incChk | .decChk | .random => some .arithmetic
  | .load | .store | .loadw | .loadb | .storew | .storeb | .copyTable | .scanTable => some .table
  | .getParent | .getChild | .getSibling | .jin | .testAttr | .setAttr | .clearAttr | .insertObj
  | .removeObj | .getProp | .getPropAddr | .getPropLen | .getNextProp | .putProp
  | .printObj => some .object
  | .callVs | .callVs2 | .callVn | .callVn2 | .call1s | .call1n | .call2s | .call2n | .ret
  | .rtrue | .rfalse | .retPopped | .printRet | .push | .pull | .pop | .catchFrame | .throwTo
  | .checkArgCount | .jump => some .routine
  | .print | .printAddr | .printPaddr | .printChar | .printNum | .printUnicode | .checkUnicode
  | .printTable | .newLine | .showStatus | .sread | .readChar | .tokenise | .encodeText
  | .outputStream | .inputStream | .save | .restore | .saveUndo | .restoreUndo | .restart | .quit
  | .verify | .piracy | .nop | .setFont | .splitWindow | .setWindow | .eraseWindow | .eraseLine
  | .setCursor | .getCursor | .setTextStyle | .bufferMode | .setColour | .setTrueColour
  | .soundEffect => some .exchange
  | _ => none

end Opcode

end ZMachine
