import ZMachine.Toml.Number

/-!
# Reading TOML

A reader takes a text to the value of the table it describes. Each part consumes characters from the
front of a list and gives back the rest; a text with any mistake in it is refused as a whole.
-/

namespace ZMachine.Toml

/-- A part of the grammar: the value at the front of a text and the rest of the text. -/
abbrev Reader (α : Type) := List Char → Option (α × List Char)

/-- How deep arrays, inline tables and dotted keys may go. -/
def nestingLimit : Nat := 80

/-- Whether a character separates words on a line. -/
def isSpace (c : Char) : Bool :=
  c == ' ' || c == '\t'

/-- Whether a character may stand in a comment or between quotes. -/
def isPlain (c : Char) : Bool :=
  c == '\t' || (0x20 ≤ c.toNat && c.toNat ≤ 0x7E) || 0x80 ≤ c.toNat

/-- The text after spaces. -/
def skipSpaces (text : List Char) : List Char :=
  text.dropWhile isSpace

/-- The text after spaces, line ends and comments; `comment` tells whether a comment is open. -/
def skipLines (comment : Bool) : List Char → List Char
  | '\r' :: '\n' :: rest => skipLines false rest
  | '\n' :: rest => skipLines false rest
  | c :: rest =>
    if comment then if isPlain c then skipLines true rest else c :: rest
    else if isSpace c then skipLines false rest
    else if c == '#' then skipLines true rest
    else c :: rest
  | [] => []

/-- The text after the end of a line, which may hold spaces and a comment first. -/
def endLine (text : List Char) : Option (List Char) :=
  let text := skipSpaces text
  let text :=
    match text with
    | '#' :: rest => rest.dropWhile isPlain
    | _ => text
  match text with
  | [] => some []
  | '\n' :: rest => some rest
  | '\r' :: '\n' :: rest => some rest
  | _ => none

/-- The character that hexadecimal digits denote. -/
def escapedChar (digits : List Char) : Option Char :=
  if digits.all isHexDigit then
    let code := digitsValue 16 digits
    if code < 0xD800 || (0xDFFF < code && code < 0x110000) then some (Char.ofNat code) else none
  else none

/-- The character that a letter after a backslash denotes. -/
def shortEscape : Char → Option Char
  | 'b' => some (Char.ofNat 8)
  | 't' => some '\t'
  | 'n' => some '\n'
  | 'f' => some (Char.ofNat 12)
  | 'r' => some '\r'
  | '"' => some '"'
  | '\\' => some '\\'
  | _ => none

/-- Puts a character before the text that a reader gives. -/
def consText (c : Option Char) (result : Option (List Char × List Char)) :
    Option (List Char × List Char) := do
  let c ← c
  let (text, rest) ← result
  return (c :: text, rest)

/-- The rest of a string between double quotes. -/
def basicString : Reader (List Char)
  | [] => none
  | '"' :: rest => some ([], rest)
  | '\\' :: 'u' :: a :: b :: c :: d :: rest =>
    consText (escapedChar [a, b, c, d]) (basicString rest)
  | '\\' :: 'U' :: a :: b :: c :: d :: e :: f :: g :: h :: rest =>
    consText (escapedChar [a, b, c, d, e, f, g, h]) (basicString rest)
  | '\\' :: c :: rest => consText (shortEscape c) (basicString rest)
  | c :: rest => if isPlain c then consText (some c) (basicString rest) else none

/-- The rest of a string between single quotes. -/
def literalString : Reader (List Char)
  | [] => none
  | '\'' :: rest => some ([], rest)
  | c :: rest => if isPlain c then consText (some c) (literalString rest) else none

/-- Where the reader of a long string stands: in its text, after a backslash that ends a line, or in
the white space that such a backslash removes. -/
inductive Place where
  | inText
  | beforeBreak
  | inMargin
deriving DecidableEq

/-- The end of a long string whose closing quotes begin `rest`: up to two further quotes belong to
the string. -/
def closeLong (quote : Char) (rest : List Char) : List Char × List Char :=
  let extra := min 2 (rest.takeWhile (· == quote)).length
  (List.replicate extra quote, rest.drop extra)

/-- The rest of a string between triple double quotes. -/
def longBasicString : Place → Reader (List Char)
  | _, [] => none
  | .beforeBreak, '\r' :: '\n' :: rest => longBasicString .inMargin rest
  | .beforeBreak, c :: rest =>
    if c == '\n' then longBasicString .inMargin rest
    else if isSpace c then longBasicString .beforeBreak rest
    else none
  | place, '\r' :: '\n' :: rest =>
    if place = .inMargin then longBasicString .inMargin rest
    else consText (some '\n') (longBasicString .inText rest)
  | _, '"' :: '"' :: '"' :: rest => some (closeLong '"' rest)
  | _, '\\' :: 'u' :: a :: b :: c :: d :: rest =>
    consText (escapedChar [a, b, c, d]) (longBasicString .inText rest)
  | _, '\\' :: 'U' :: a :: b :: c :: d :: e :: f :: g :: h :: rest =>
    consText (escapedChar [a, b, c, d, e, f, g, h]) (longBasicString .inText rest)
  | _, '\\' :: '\r' :: '\n' :: rest => longBasicString .inMargin rest
  | _, '\\' :: c :: rest =>
    if c == '\n' then longBasicString .inMargin rest
    else if isSpace c then longBasicString .beforeBreak rest
    else consText (shortEscape c) (longBasicString .inText rest)
  | place, c :: rest =>
    if place = .inMargin && (isSpace c || c == '\n') then longBasicString .inMargin rest
    else if isPlain c || c == '\n' then consText (some c) (longBasicString .inText rest)
    else none

/-- The rest of a string between triple single quotes. -/
def longLiteralString : Reader (List Char)
  | [] => none
  | '\'' :: '\'' :: '\'' :: rest => some (closeLong '\'' rest)
  | '\r' :: '\n' :: rest => consText (some '\n') (longLiteralString rest)
  | c :: rest =>
    if isPlain c || c == '\n' then consText (some c) (longLiteralString rest) else none

/-- The text after one line end, if there is one: the line end after opening triple quotes is not
part of the string. -/
def skipFirstBreak : List Char → List Char
  | '\n' :: rest => rest
  | '\r' :: '\n' :: rest => rest
  | rest => rest

/-- A string in any of the four notations. -/
def string : Reader (List Char)
  | '"' :: '"' :: '"' :: rest => longBasicString .inText (skipFirstBreak rest)
  | '\'' :: '\'' :: '\'' :: rest => longLiteralString (skipFirstBreak rest)
  | '"' :: rest => basicString rest
  | '\'' :: rest => literalString rest
  | _ => none

/-- Whether a character may stand in a key without quotes. -/
def isKeyChar (c : Char) : Bool :=
  c.isAlphanum || c == '_' || c == '-'

/-- One part of a key. -/
def simpleKey : Reader String
  | '"' :: rest => do
    let (text, rest) ← basicString rest
    return (String.ofList text, rest)
  | '\'' :: rest => do
    let (text, rest) ← literalString rest
    return (String.ofList text, rest)
  | text =>
    let key := text.takeWhile isKeyChar
    if key.isEmpty then none else some (String.ofList key, text.dropWhile isKeyChar)

/-- A key: the parts before the last one, and the last one. At most `parts` parts are read. -/
def dottedKey : (parts : Nat) → Reader (List String × String)
  | 0, _ => none
  | parts + 1, text => do
    let (key, rest) ← simpleKey text
    match skipSpaces rest with
    | '.' :: rest =>
      let ((path, last), rest) ← dottedKey parts (skipSpaces rest)
      return ((key :: path, last), rest)
    | rest => return (([], key), rest)

/-- A key with at most as many parts as nesting allows, and the spaces after it. -/
def key : Reader (List String × String) :=
  dottedKey (nestingLimit - 1)

/-- Whether a character may belong to a number, a truth value or a time. -/
def isBareChar (c : Char) : Bool :=
  c.isAlphanum || c == '_' || c == '-' || c == '+' || c == '.' || c == ':'

/-- A value without quotes or brackets. A date may be joined to a time by one space. -/
def bareValue (text : List Char) : Option (Value × List Char) :=
  let run := text.takeWhile isBareChar
  let rest := text.dropWhile isBareChar
  let joined :=
    match rest with
    | ' ' :: next => afterDate run == some [] && isTimeWithOffset (next.takeWhile isBareChar)
    | _ => false
  if joined then some (.moment, (rest.drop 1).dropWhile isBareChar)
  else (bareValue? run).map (·, rest)

/-- The rest of an array, with at most `items` items. -/
def arrayItems (value : Reader Value) : (items : Nat) → Reader (List Value)
  | 0, _ => none
  | items + 1, text =>
    match skipLines false text with
    | ']' :: rest => some ([], rest)
    | text => do
      let (item, rest) ← value text
      match skipLines false rest with
      | ',' :: rest =>
        let (others, rest) ← arrayItems value items rest
        return (item :: others, rest)
      | ']' :: rest => return ([item], rest)
      | _ => none

/-- A key, an equals sign and a value. -/
def keyValue (value : Reader Value) (text : List Char) :
    Option ((List String × String × Value) × List Char) := do
  let ((path, last), rest) ← key text
  let '=' :: rest := rest | none
  let (item, rest) ← value (skipSpaces rest)
  return ((path, last, item), rest)

/-- The rest of an inline table after its first brace or a comma, with at most `items` entries more.
-/
def inlineEntries (value : Reader Value) : (items : Nat) → Entries → Reader Entries
  | 0, _, _ => none
  | items + 1, entries, text => do
    let ((path, last, item), rest) ← keyValue value (skipSpaces text)
    let entries ← entries.defineDotted path last item .inlined
    match skipSpaces rest with
    | ',' :: rest => inlineEntries value items entries rest
    | '\x7d' :: rest => return (entries, rest)
    | _ => none

/-- A value, with arrays and inline tables at most `depth` deep. -/
def value : (depth : Nat) → Reader Value
  | 0, _ => none
  | depth + 1, text =>
    match text with
    | '[' :: rest =>
      if depth = 0 then none
      else (arrayItems (value depth) (rest.length + 1) rest).map fun (items, rest) =>
        (.array items, rest)
    | '\x7b' :: rest =>
      if depth = 0 then none
      else
        match skipSpaces rest with
        | '\x7d' :: rest => some (.table .inlined [], rest)
        | _ =>
          (inlineEntries (value depth) (rest.length + 1) [] rest).map fun (entries, rest) =>
            (.table .inlined entries, rest)
    | '"' :: _ | '\'' :: _ =>
      (string text).map fun (chars, rest) => (.string (String.ofList chars), rest)
    | _ => bareValue text

/-- A settings file read up to some line: the finished tables, and the table that new lines add to.
-/
structure Draft where
  root : Entries := []
  current : Entries := []
  /-- The key of the current table; absent for the lines before the first header. -/
  place : Option (List String × String) := none
  /-- Whether the current table is an item of an array of tables. -/
  repeated : Bool := false

namespace Draft

/-- Puts the current table into its place. -/
def settle (draft : Draft) : Option Entries :=
  match draft.place with
  | none => some draft.current
  | some (path, last) =>
    Entries.changeAt false (fun _ entries =>
      if draft.repeated then
        match entries.get? last with
        | none => some (entries.put last (.tables [draft.current]))
        | some (.tables earlier) => some (entries.put last (.tables (draft.current :: earlier)))
        | some _ => none
      else some (entries.put last (.table .header draft.current))) path .header draft.root

/-- Starts the table under a header. A table that was only named before may be filled in. -/
def openTable (draft : Draft) (path : List String) (last : String) : Option Draft := do
  let root ← draft.settle
  let root ← Entries.changeAt false (fun _ entries =>
    match entries.get? last with
    | none | some (.table .implied _) => some entries
    | some _ => none) path .header root
  return { root, current := root.below (path ++ [last]), place := some (path, last) }

/-- Starts another table of an array of tables. -/
def openRepeated (draft : Draft) (path : List String) (last : String) : Option Draft := do
  let root ← draft.settle
  let root ← Entries.changeAt false (fun _ entries =>
    match entries.get? last with
    | none | some (.tables _) => some entries
    | some _ => none) path .header root
  return { root, current := [], place := some (path, last), repeated := true }

/-- Adds a key and a value to the current table. -/
def define (draft : Draft) (path : List String) (last : String) (item : Value) : Option Draft := do
  let current ← draft.current.defineDotted path last item .header
  return { draft with current }

/-- Reads one header or one key with its value, up to the end of the line. -/
def readLine (draft : Draft) (text : List Char) : Option (Draft × List Char) :=
  match text with
  | '[' :: '[' :: rest => do
    let ((path, last), rest) ← key (skipSpaces rest)
    let ']' :: ']' :: rest := rest | none
    return (← draft.openRepeated path last, ← endLine rest)
  | '[' :: rest => do
    let ((path, last), rest) ← key (skipSpaces rest)
    let ']' :: rest := rest | none
    return (← draft.openTable path last, ← endLine rest)
  | _ => do
    let ((path, last, item), rest) ← keyValue (value nestingLimit) text
    return (← draft.define path last item, ← endLine rest)

/-- Reads the remaining lines, at most `lines` of them. -/
def readLines : (lines : Nat) → Draft → List Char → Option Draft
  | 0, _, _ => none
  | lines + 1, draft, text =>
    match skipLines false text with
    | [] => some draft
    | text => do
      let (draft, rest) ← draft.readLine text
      readLines lines draft rest

end Draft

/-- The table that a text describes. -/
def parse? (text : String) : Option Entries := do
  let chars := text.toList
  let chars :=
    match chars with
    | c :: rest => if c.toNat == 0xFEFF then rest else chars
    | [] => chars
  let draft ← Draft.readLines (chars.length + 1) {} chars
  draft.settle

end ZMachine.Toml
