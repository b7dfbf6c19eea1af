import ZMachine.Zscii.Codec

/-!
# Reading packed text

The codes of a text select letters. Low codes shift to another alphabet for one letter, lock another
alphabet in (versions 1 and 2), or refer to an abbreviation, whose text takes their place. A code 6
in the third alphabet is followed by the two halves of a ZSCII code.
-/

namespace ZMachine

/-- The text of a list of codes, and the alphabet locked in at its end. -/
structure Decoded where
  text : String
  alphabet : Nat
deriving Repr, DecidableEq

/-- How references to abbreviations are replaced: by the number of the table and the code after it.
-/
abbrev Expansion := Nat → Nat → Except Fault String

/-- Refuses every reference, as is right inside an abbreviation. -/
def Expansion.refuse : Expansion := fun table index =>
  .error (.nestedAbbreviation table index)

namespace Codec

/-- Reads codes after the text `text`. `locked` is the alphabet that holds until changed, `current`
the one for the next letter. A reference or a ZSCII code that is cut off by the end of the codes is
dropped. -/
def decodeAfter (codec : Codec) (expand : Expansion) (locked current : Nat) (text : String) :
    List Nat → Except Fault Decoded
  | [] => .ok ⟨text, locked⟩
  | code :: rest =>
    if code = 0 then codec.decodeAfter expand locked locked (text.push ' ') rest
    else if code = 1 ∧ codec.version = 1 then
      codec.decodeAfter expand locked locked (text.push '\n') rest
    else if code ≤ 3 ∧ (3 ≤ codec.version ∨ code = 1) then
      match rest with
      | [] => .ok ⟨text, locked⟩
      | index :: rest =>
        match expand code index with
        | .error fault => .error fault
        | .ok expansion => codec.decodeAfter expand locked locked (text ++ expansion) rest
    else if code ≤ 3 then
      codec.decodeAfter expand locked ((locked + code - 1) % 3) text rest
    else if code ≤ 5 ∧ codec.version < 3 then
      codec.decodeAfter expand ((locked + code - 3) % 3) ((locked + code - 3) % 3) text rest
    else if code = 4 then codec.decodeAfter expand locked 1 text rest
    else if code = 5 then codec.decodeAfter expand locked 2 text rest
    else if code = 6 ∧ current = 2 then
      match rest with
      | high :: low :: rest =>
        let text :=
          match codec.charOfZscii (high * 32 + low) with
          | none => text
          | some c => text.push c
        codec.decodeAfter expand locked locked text rest
      | _ => .ok ⟨text, locked⟩
    else codec.decodeAfter expand locked locked (text.push (codec.letter current code)) rest

/-- Reads codes, starting in an alphabet. -/
def decode (codec : Codec) (expand : Expansion) (alphabet : Nat) (codes : List Nat) :
    Except Fault Decoded :=
  codec.decodeAfter expand (alphabet % 3) (alphabet % 3) "" codes

/-- The text of codes, starting with small letters. -/
def decodeText (codec : Codec) (expand : Expansion) (codes : List Nat) : Except Fault String :=
  (codec.decode expand 0 codes).map (·.text)

end Codec

end ZMachine
