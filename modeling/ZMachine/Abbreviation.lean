import ZMachine.Zscii.Decode

/-!
# Abbreviations

A story keeps up to 96 frequent strings in three tables of 32. Text refers to them by the number of
a table and a code. The text of an abbreviation may not refer to another.
-/

namespace ZMachine

/-- The place of the abbreviation tables. -/
structure AbbreviationTable where
  address : Nat
deriving Repr, DecidableEq

namespace AbbreviationTable

/-- The abbreviation tables that a header names. -/
def ofMemory (memory : Memory) : AbbreviationTable :=
  ⟨memory.header.abbreviations⟩

/-- The address of the string of an abbreviation. -/
def stringAddress (abbreviations : AbbreviationTable) (memory : Memory) (table index : Nat) :
    Except Fault Nat :=
  if table < 1 ∨ 3 < table ∨ 31 < index then
    .error (.invalidText (.abbreviationRange table index))
  else do
    let word ← memory.fetchWord (abbreviations.address + (32 * (table - 1) + index) * 2)
    return word.toNat * 2

/-- Blames the reference `table`, `index` for a reference inside its own string. -/
def blameReference (table index : Nat) : Fault → Fault
  | .nestedAbbreviation .. => .nestedAbbreviation table index
  | fault => fault

/-- The text of an abbreviation. -/
def expand (abbreviations : AbbreviationTable) (memory : Memory) (codec : Codec) : Expansion :=
  fun table index => do
    let address ← abbreviations.stringAddress memory table index
    let (_, codes) ← memory.readCodes address none
    (codec.decodeText Expansion.refuse codes).mapError (blameReference table index)

/-- The text of the string at an address, and the number of bytes it takes. -/
def stringAt (abbreviations : AbbreviationTable) (memory : Memory) (codec : Codec) (address : Nat) :
    Except Fault (String × Nat) := do
  let (length, codes) ← memory.readCodes address none
  let text ← codec.decodeText (abbreviations.expand memory codec) codes
  return (text, length)

end AbbreviationTable

end ZMachine
