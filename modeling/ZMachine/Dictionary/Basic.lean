import ZMachine.Dictionary.Token
import ZMachine.Text.Blank
import ZMachine.Zscii.Decode
import ZMachine.Zscii.Encode

/-!
# Dictionaries

A dictionary lists the words that a story understands. It begins with the characters that separate
words; then come the length of an entry, the number of entries, which is negative if they are not
sorted, and the entries. Each entry begins with a packed word.
-/

namespace ZMachine

open Text

/-- A dictionary, and the word that was looked up last. -/
structure Dictionary where
  address : Nat
  separators : List Char
  entryLength : Nat
  /-- The number of entries, negative if they are not sorted. -/
  signedCount : Int
  /-- The address of the first entry. -/
  entries : Nat
  /-- The last word looked up, and its answer. -/
  memo : Option (String × UInt16) := none
deriving Repr, DecidableEq

namespace Dictionary

/-- The dictionary at an address. -/
def read (memory : Memory) (address : Nat) : Except Fault Dictionary := do
  let count ← memory.fetchByte address
  let separators ← memory.fetchBytes (address + 1) count.toNat
  let afterSeparators := address + 1 + count.toNat
  let entryLength ← memory.fetchByte afterSeparators
  let entryCount ← memory.fetchWord (afterSeparators + 1)
  return {
    address
    separators := separators.map fun byte => Char.ofNat byte.toNat
    entryLength := entryLength.toNat
    signedCount := Word.signed entryCount
    entries := afterSeparators + 3 }

/-- The dictionary that a header names, if it names one. -/
def ofMemory? (memory : Memory) : Except Fault (Option Dictionary) :=
  if memory.header.dictionary = 0 then .ok none
  else (read memory memory.header.dictionary).map some

/-- The number of entries. -/
def size (dictionary : Dictionary) : Nat :=
  dictionary.signedCount.natAbs

/-- Whether the entries are sorted. -/
def isSorted (dictionary : Dictionary) : Bool :=
  0 < dictionary.signedCount

/-- The address of an entry. -/
def entryAddress (dictionary : Dictionary) (index : Nat) : Nat :=
  dictionary.entries + index * dictionary.entryLength

/-- Whether a character separates words and is a word itself. -/
def isSeparator (dictionary : Dictionary) (c : Char) : Bool :=
  dictionary.separators.contains c

/-- The words of a line. -/
def tokenize (dictionary : Dictionary) (line : String) : List Token :=
  Token.split dictionary.isSeparator Text.isBlank line

/-- The text of an entry. -/
def word (dictionary : Dictionary) (memory : Memory) (codec : Codec) (index : Nat) :
    Except Fault String :=
  if dictionary.size ≤ index then
    .error (.invalidText (.dictionaryEntry index dictionary.size))
  else do
    let limit := if codec.version ≤ 3 then 4 else 6
    let (_, codes) ← memory.readCodes (dictionary.entryAddress index) (some limit)
    codec.decodeText Expansion.refuse codes

/-- The listing of a dictionary: its layout and its separators. -/
def listing (dictionary : Dictionary) : String :=
  let layout :=
    s!"Dictionary at 0x{hex 4 dictionary.address}: {decimal dictionary.separators.length} " ++
      s!"separators, entry length {decimal dictionary.entryLength}, " ++
      s!"{decimal dictionary.size} entries"
  layout ++ (if dictionary.isSorted then "" else " (unsorted)") ++ "\nseparators:" ++
    String.join (dictionary.separators.map fun c => " '" ++ String.singleton c ++ "'")

end Dictionary

end ZMachine
