import ZMachine.Text.Lowercase
import ZMachine.Zscii.Codec

/-!
# Writing packed text

Words are packed for comparison with the dictionary: in small letters, and cut off or filled up to a
fixed number of codes.
-/

namespace ZMachine

/-- The code that fills up the last word of a text. -/
def padCode : Nat := 5

namespace Word

/-- The word of packed text with three codes. -/
def ofCodes (first second third : Nat) : UInt16 :=
  UInt16.ofNat (first % 32 * 1024 + second % 32 * 32 + third % 32)

/-- The last word of a packed text, with three codes. -/
def lastOfCodes (first second third : Nat) : UInt16 :=
  UInt16.ofNat (32768 + first % 32 * 1024 + second % 32 * 32 + third % 32)

end Word

/-- Packs codes three to a word and marks the last word. -/
def packCodes : List Nat → List UInt16
  | [] => []
  | [first] => [Word.lastOfCodes first padCode padCode]
  | [first, second] => [Word.lastOfCodes first second padCode]
  | [first, second, third] => [Word.lastOfCodes first second third]
  | first :: second :: third :: rest => Word.ofCodes first second third :: packCodes rest

/-- The codes of packed words. -/
def unpackCodes (words : List UInt16) : List Nat :=
  words.flatMap Word.codes

namespace Codec

/-- The codes that shift to the second and to the third alphabet for one letter. -/
def shifts (codec : Codec) : Nat × Nat :=
  if codec.version < 3 then (2, 3) else (4, 5)

/-- The codes of one character. An alphabet is preferred to an escape, and in the third alphabet the
place of the escape itself is passed over. -/
def codesOfChar (codec : Codec) (c : Char) : List Nat :=
  if c = ' ' then [0]
  else
    match codec.small.toList.idxOf? c with
    | some place => [place + 6]
    | none =>
      match codec.signs.toList.tail.idxOf? c with
      | some place => [codec.shifts.2, place + 7]
      | none =>
        match codec.capital.toList.idxOf? c with
        | some place => [codec.shifts.1, place + 6]
        | none =>
          let zscii := codec.zsciiOrMark c
          [codec.shifts.2, 6, zscii / 32 % 32, zscii % 32]

/-- The codes of a text in small letters. -/
def encodeCodes (codec : Codec) (text : String) : List Nat :=
  (text.toList.flatMap Text.lowerChar).flatMap codec.codesOfChar

/-- The number of codes that tell dictionary words apart. -/
def resolution (codec : Codec) : Nat :=
  if codec.version ≤ 3 then 6 else 9

/-- Codes cut off or filled up to a length. -/
def fitted (length : Nat) (codes : List Nat) : List Nat :=
  codes.take length ++ List.replicate (length - codes.length) padCode

/-- A text packed as a dictionary word. -/
def encode (codec : Codec) (text : String) : List UInt16 :=
  packCodes (fitted codec.resolution (codec.encodeCodes text))

end Codec

end ZMachine
