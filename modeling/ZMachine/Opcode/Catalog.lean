import ZMachine.Opcode.Basic

/-!
# The opcode catalog

Each encoding of an operation, with the versions it is legal in and what follows its operands. An
encoding that the catalog does not list for a version is illegal there.
-/

namespace ZMachine

/-- The encoding classes, told apart by how the operands are given. -/
inductive OpcodeClass where
  | op0
  | op1
  | op2
  | var
  | ext
deriving Repr, DecidableEq

/-- The usual short name of an encoding class. -/
def OpcodeClass.label : OpcodeClass → String
  | op0 => "0OP"
  | op1 => "1OP"
  | op2 => "2OP"
  | var => "VAR"
  | ext => "EXT"

/-- What may stand after the operands of an instruction. -/
inductive Trailer where
  | stores
  | branches
  | carriesText
deriving Repr, DecidableEq

/-- One encoding of an operation. -/
structure CatalogEntry where
  opcodeClass : OpcodeClass
  number : Nat
  opcode : Opcode
  name : String
  firstVersion : Nat
  lastVersion : Nat
  stores : Bool
  branches : Bool
  carriesText : Bool
deriving Repr, DecidableEq

namespace Opcode

/-- A row of the catalog. -/
def entry (opcodeClass : OpcodeClass) (number : Nat) (opcode : Opcode) (name : String)
    (firstVersion lastVersion : Nat) (trailers : List Trailer) : CatalogEntry where
  opcodeClass
  number
  opcode
  name
  firstVersion
  lastVersion
  stores := trailers.contains .stores
  branches := trailers.contains .branches
  carriesText := trailers.contains .carriesText

/-- Every encoding of every operation. -/
def catalog : List CatalogEntry :=
  [
    entry .op2 0x01 .je "je" 1 8 [.branches],
    entry .op2 0x02 .jl "jl" 1 8 [.branches],
    entry .op2 0x03 .jg "jg" 1 8 [.branches],
    entry .op2 0x04 .decChk "dec_chk" 1 8 [.branches],
    entry .op2 0x05 .incChk "inc_chk" 1 8 [.branches],
    entry .op2 0x06 .jin "jin" 1 8 [.branches],
    entry .op2 0x07 .test "test" 1 8 [.branches],
    entry .op2 0x08 .or "or" 1 8 [.stores],
    entry .op2 0x09 .and "and" 1 8 [.stores],
    entry .op2 0x0A .testAttr "test_attr" 1 8 [.branches],
    entry .op2 0x0B .setAttr "set_attr" 1 8 [],
    entry .op2 0x0C .clearAttr "clear_attr" 1 8 [],
    entry .op2 0x0D .store "store" 1 8 [],
    entry .op2 0x0E .insertObj "insert_obj" 1 8 [],
    entry .op2 0x0F .loadw "loadw" 1 8 [.stores],
    entry .op2 0x10 .loadb "loadb" 1 8 [.stores],
    entry .op2 0x11 .getProp "get_prop" 1 8 [.stores],
    entry .op2 0x12 .getPropAddr "get_prop_addr" 1 8 [.stores],
    entry .op2 0x13 .getNextProp "get_next_prop" 1 8 [.stores],
    entry .op2 0x14 .add "add" 1 8 [.stores],
    entry .op2 0x15 .sub "sub" 1 8 [.stores],
    entry .op2 0x16 .mul "mul" 1 8 [.stores],
    entry .op2 0x17 .div "div" 1 8 [.stores],
    entry .op2 0x18 .mod "mod" 1 8 [.stores],
    entry .op2 0x19 .call2s "call_2s" 4 8 [.stores],
    entry .op2 0x1A .call2n "call_2n" 5 8 [],
    entry .op2 0x1B .setColour "set_colour" 5 8 [],
    entry .op2 0x1C .throwTo "throw" 5 8 [],
    entry .op1 0x00 .jz "jz" 1 8 [.branches],
    entry .op1 0x01 .getSibling "get_sibling" 1 8 [.stores, .branches],
    entry .op1 0x02 .getChild "get_child" 1 8 [.stores, .branches],
    entry .op1 0x03 .getParent "get_parent" 1 8 [.stores],
    entry .op1 0x04 .getPropLen "get_prop_len" 1 8 [.stores],
    entry .op1 0x05 .inc "inc" 1 8 [],
    entry .op1 0x06 .dec "dec" 1 8 [],
    entry .op1 0x07 .printAddr "print_addr" 1 8 [],
    entry .op1 0x08 .call1s "call_1s" 4 8 [.stores],
    entry .op1 0x09 .removeObj "remove_obj" 1 8 [],
    entry .op1 0x0A .printObj "print_obj" 1 8 [],
    entry .op1 0x0B .ret "ret" 1 8 [],
    entry .op1 0x0C .jump "jump" 1 8 [],
    entry .op1 0x0D .printPaddr "print_paddr" 1 8 [],
    entry .op1 0x0E .load "load" 1 8 [.stores],
    entry .op1 0x0F .not "not" 1 4 [.stores],
    entry .op1 0x0F .call1n "call_1n" 5 8 [],
    entry .op0 0x00 .rtrue "rtrue" 1 8 [],
    entry .op0 0x01 .rfalse "rfalse" 1 8 [],
    entry .op0 0x02 .print "print" 1 8 [.carriesText],
    entry .op0 0x03 .printRet "print_ret" 1 8 [.carriesText],
    entry .op0 0x04 .nop "nop" 1 8 [],
    entry .op0 0x05 .save "save" 1 3 [.branches],
    entry .op0 0x05 .save "save" 4 4 [.stores],
    entry .op0 0x06 .restore "restore" 1 3 [.branches],
    entry .op0 0x06 .restore "restore" 4 4 [.stores],
    entry .op0 0x07 .restart "restart" 1 8 [],
    entry .op0 0x08 .retPopped "ret_popped" 1 8 [],
    entry .op0 0x09 .pop "pop" 1 4 [],
    entry .op0 0x09 .catchFrame "catch" 5 8 [.stores],
    entry .op0 0x0A .quit "quit" 1 8 [],
    entry .op0 0x0B .newLine "new_line" 1 8 [],
    entry .op0 0x0C .showStatus "show_status" 1 8 [],
    entry .op0 0x0D .verify "verify" 3 8 [.branches],
    entry .op0 0x0F .piracy "piracy" 5 8 [.branches],
    entry .var 0x00 .callVs "call" 1 3 [.stores],
    entry .var 0x00 .callVs "call_vs" 4 8 [.stores],
    entry .var 0x01 .storew "storew" 1 8 [],
    entry .var 0x02 .storeb "storeb" 1 8 [],
    entry .var 0x03 .putProp "put_prop" 1 8 [],
    entry .var 0x04 .sread "sread" 1 4 [],
    entry .var 0x04 .sread "aread" 5 8 [.stores],
    entry .var 0x05 .printChar "print_char" 1 8 [],
    entry .var 0x06 .printNum "print_num" 1 8 [],
    entry .var 0x07 .random "random" 1 8 [.stores],
    entry .var 0x08 .push "push" 1 8 [],
    entry .var 0x09 .pull "pull" 1 5 [],
    entry .var 0x09 .pull "pull" 6 6 [.stores],
    entry .var 0x09 .pull "pull" 7 8 [],
    entry .var 0x0A .splitWindow "split_window" 3 8 [],
    entry .var 0x0B .setWindow "set_window" 3 8 [],
    entry .var 0x0C .callVs2 "call_vs2" 4 8 [.stores],
    entry .var 0x0D .eraseWindow "erase_window" 4 8 [],
    entry .var 0x0E .eraseLine "erase_line" 4 8 [],
    entry .var 0x0F .setCursor "set_cursor" 4 8 [],
    entry .var 0x10 .getCursor "get_cursor" 4 8 [],
    entry .var 0x11 .setTextStyle "set_text_style" 4 8 [],
    entry .var 0x12 .bufferMode "buffer_mode" 4 8 [],
    entry .var 0x13 .outputStream "output_stream" 3 8 [],
    entry .var 0x14 .inputStream "input_stream" 3 8 [],
    entry .var 0x15 .soundEffect "sound_effect" 3 8 [],
    entry .var 0x16 .readChar "read_char" 4 8 [.stores],
    entry .var 0x17 .scanTable "scan_table" 4 8 [.stores, .branches],
    entry .var 0x18 .not "not" 5 8 [.stores],
    entry .var 0x19 .callVn "call_vn" 5 8 [],
    entry .var 0x1A .callVn2 "call_vn2" 5 8 [],
    entry .var 0x1B .tokenise "tokenise" 5 8 [],
    entry .var 0x1C .encodeText "encode_text" 5 8 [],
    entry .var 0x1D .copyTable "copy_table" 5 8 [],
    entry .var 0x1E .printTable "print_table" 5 8 [],
    entry .var 0x1F .checkArgCount "check_arg_count" 5 8 [.branches],
    entry .ext 0x00 .save "save" 5 8 [.stores],
    entry .ext 0x01 .restore "restore" 5 8 [.stores],
    entry .ext 0x02 .logShift "log_shift" 5 8 [.stores],
    entry .ext 0x03 .artShift "art_shift" 5 8 [.stores],
    entry .ext 0x04 .setFont "set_font" 5 8 [.stores],
    entry .ext 0x05 .drawPicture "draw_picture" 6 6 [],
    entry .ext 0x06 .pictureData "picture_data" 6 6 [.branches],
    entry .ext 0x07 .erasePicture "erase_picture" 6 6 [],
    entry .ext 0x08 .setMargins "set_margins" 6 6 [],
    entry .ext 0x09 .saveUndo "save_undo" 5 8 [.stores],
    entry .ext 0x0A .restoreUndo "restore_undo" 5 8 [.stores],
    entry .ext 0x0B .printUnicode "print_unicode" 5 8 [],
    entry .ext 0x0C .checkUnicode "check_unicode" 5 8 [.stores],
    entry .ext 0x0D .setTrueColour "set_true_colour" 5 8 [],
    entry .ext 0x10 .moveWindow "move_window" 6 6 [],
    entry .ext 0x11 .windowSize "window_size" 6 6 [],
    entry .ext 0x12 .windowStyle "window_style" 6 6 [],
    entry .ext 0x13 .getWindProp "get_wind_prop" 6 6 [.stores],
    entry .ext 0x14 .scrollWindow "scroll_window" 6 6 [],
    entry .ext 0x15 .popStack "pop_stack" 6 6 [],
    entry .ext 0x16 .readMouse "read_mouse" 6 6 [],
    entry .ext 0x17 .mouseWindow "mouse_window" 6 6 [],
    entry .ext 0x18 .pushStack "push_stack" 6 6 [.branches],
    entry .ext 0x19 .putWindProp "put_wind_prop" 6 6 [],
    entry .ext 0x1A .printForm "print_form" 6 6 [],
    entry .ext 0x1B .makeMenu "make_menu" 6 6 [.branches],
    entry .ext 0x1C .pictureTable "picture_table" 6 6 [],
    entry .ext 0x1D .bufferScreen "buffer_screen" 6 6 [.stores]
  ]

/-- The catalog entry for an encoding in a version, if the encoding is legal there. -/
def lookup (version : Nat) (opcodeClass : OpcodeClass) (number : Nat) : Option CatalogEntry :=
  catalog.find? fun row =>
    row.opcodeClass = opcodeClass && row.number == number &&
      row.firstVersion ≤ version && version ≤ row.lastVersion

/-- Whether the operand types of an encoding take two bytes. -/
def hasDoubleTypeByte (opcodeClass : OpcodeClass) (number : Nat) : Bool :=
  opcodeClass = .var && (number == 0x0C || number == 0x1A)

end Opcode

end ZMachine
