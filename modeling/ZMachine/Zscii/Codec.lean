import ZMachine.Memory.Codes

/-!
# Character sets

A story writes its text in ZSCII. A codec knows the three alphabets that packed text is spelled with
and the table that gives the codes from 155 on their characters. Later versions may bring alphabets
and a table of their own.
-/

namespace ZMachine

/-- The twenty-six letters of an alphabet. -/
abbrev Alphabet := Vector Char 26

/-- The characters of the codes from 155 on, unless a story brings its own. -/
def defaultUnicodeTable : List Char :=
  ['ä', 'ö', 'ü', 'Ä', 'Ö', 'Ü', 'ß', '»', '«', 'ë', 'ï', 'ÿ', 'Ë', 'Ï', 'á', 'é', 'í', 'ó', 'ú',
    'ý', 'Á', 'É', 'Í', 'Ó', 'Ú', 'Ý', 'à', 'è', 'ì', 'ò', 'ù', 'À', 'È', 'Ì', 'Ò', 'Ù', 'â', 'ê',
    'î', 'ô', 'û', 'Â', 'Ê', 'Î', 'Ô', 'Û', 'å', 'Å', 'ø', 'Ø', 'ã', 'ñ', 'õ', 'Ã', 'Ñ', 'Õ', 'æ',
    'Æ', 'ç', 'Ç', 'þ', 'ð', 'Þ', 'Ð', '£', 'œ', 'Œ', '¡', '¿']

namespace Alphabet

/-- The small letters. -/
def small : Alphabet :=
  #v['a', 'b', 'c', 'd', 'e', 'f', 'g', 'h', 'i', 'j', 'k', 'l', 'm', 'n', 'o', 'p', 'q', 'r',
    's', 't', 'u', 'v', 'w', 'x', 'y', 'z']

/-- The capital letters. -/
def capital : Alphabet :=
  #v['A', 'B', 'C', 'D', 'E', 'F', 'G', 'H', 'I', 'J', 'K', 'L', 'M', 'N', 'O', 'P', 'Q', 'R',
    'S', 'T', 'U', 'V', 'W', 'X', 'Y', 'Z']

/-- The digits and signs. The first place is taken by the escape to any character. -/
def signs : Alphabet :=
  #v[' ', '\n', '0', '1', '2', '3', '4', '5', '6', '7', '8', '9', '.', ',', '!', '?', '_', '#',
    '\'', '"', '/', '\\', '-', ':', '(', ')']

/-- The digits and signs of version 1, which has no line end among them but one sign more. -/
def firstSigns : Alphabet :=
  #v[' ', '0', '1', '2', '3', '4', '5', '6', '7', '8', '9', '.', ',', '!', '?', '_', '#', '\'',
    '"', '/', '\\', '<', '-', ':', '(', ')']

end Alphabet

/-- The alphabets and the character table of a story. -/
structure Codec where
  version : Nat
  small : Alphabet := .small
  capital : Alphabet := .capital
  signs : Alphabet
  unicode : List Char := defaultUnicodeTable
deriving DecidableEq

namespace Codec

/-- The first code that the character table translates. -/
def unicodeBase : Nat := 155

/-- The codec of a version without tables of its own. -/
def standard (version : Nat) : Codec :=
  { version, signs := if version = 1 then .firstSigns else .signs }

/-- An alphabet by number. -/
def alphabet (codec : Codec) (number : Nat) : Alphabet :=
  if number = 0 then codec.small else if number = 1 then codec.capital else codec.signs

/-- The letter that a code from 6 to 31 stands for in an alphabet. -/
def letter (codec : Codec) (number code : Nat) : Char :=
  (codec.alphabet number)[code - 6]?.getD ' '

/-- The character of a ZSCII code, if it prints any. Codes without a character print a question
mark. -/
def charOfZscii (codec : Codec) (zscii : Nat) : Option Char :=
  if zscii = 0 then none
  else if zscii = 9 then some '\t'
  else if zscii = 11 then some ' '
  else if zscii = 13 then some '\n'
  else if 32 ≤ zscii ∧ zscii ≤ 126 then some (Char.ofNat zscii)
  else if unicodeBase ≤ zscii ∧ zscii ≤ 251 then
    some (codec.unicode[zscii - unicodeBase]?.getD '?')
  else some '?'

/-- The ZSCII code of a character, if it has one. -/
def zsciiOfChar (codec : Codec) (c : Char) : Option Nat :=
  if c = '\n' then some 13
  else if 32 ≤ c.toNat ∧ c.toNat ≤ 126 then some c.toNat
  else (codec.unicode.idxOf? c).map (unicodeBase + ·)

/-- The ZSCII code of a character; characters without one become question marks. -/
def zsciiOrMark (codec : Codec) (c : Char) : Nat :=
  (codec.zsciiOfChar c).getD '?'.toNat

/-- The character with a code point of sixteen bits, if there is one. -/
def charOfCode? (code : Nat) : Option Char :=
  if 0xD800 ≤ code ∧ code ≤ 0xDFFF then none else some (Char.ofNat code)

/-- The character table at an address: a count, and a word for each character. -/
def readUnicodeTable (memory : Memory) (address : Nat) : Except Fault (List Char) := do
  let count ← memory.fetchByte address
  (List.range count.toNat).mapM fun index => do
    let code ← memory.fetchWord (address + 1 + index * 2)
    return (charOfCode? code.toNat).getD '?'

/-- The alphabet spelled by twenty-six ZSCII codes from a place of a list on. -/
def spelled (codec : Codec) (codes : List UInt8) (start : Nat) : Alphabet :=
  Vector.ofFn fun index =>
    (codec.charOfZscii (codes[start + index]?.getD 0).toNat).getD '?'

/-- The codec with the alphabets at an address. The escape and the line end keep their places. -/
def withAlphabets (codec : Codec) (memory : Memory) (address : Nat) : Except Fault Codec := do
  let codes ← memory.fetchBytes address 78
  return { codec with
    small := codec.spelled codes 0
    capital := codec.spelled codes 26
    signs := ((codec.spelled codes 52).set 0 ' ').set 1 '\n' }

/-- The codec of a story, with the tables that it brings. -/
def ofMemory (memory : Memory) : Except Fault Codec := do
  let codec := standard memory.version
  let codec ←
    if memory.header.unicodeTable = 0 then pure codec
    else do
      let unicode ← readUnicodeTable memory memory.header.unicodeTable
      pure { codec with unicode }
  if 5 ≤ memory.version ∧ memory.header.alphabetTable ≠ 0 then
    codec.withAlphabets memory memory.header.alphabetTable
  else return codec

end Codec

end ZMachine
