/-!
# Words of a line

A line is split at white space and at separators. White space only divides words; a separator is a
word of its own. Which characters are which is up to two tests.
-/

namespace ZMachine

/-- A word of a line. -/
structure Token where
  text : String
  /-- How many characters of the line stand before it. -/
  position : Nat
deriving Repr, DecidableEq

namespace Token

/-- The finished word, if one is being collected, before other words. -/
def finish (current : Option Token) (rest : List Token) : List Token :=
  match current with
  | none => rest
  | some token => token :: rest

/-- The word being collected with one more character, which stands at `position`. -/
def extend (current : Option Token) (c : Char) (position : Nat) : Token :=
  match current with
  | none => ⟨String.singleton c, position⟩
  | some token => { token with text := token.text.push c }

/-- Splits the rest of a line, which begins at `position`, while the word `current` is being
collected. -/
def splitFrom (isSeparator isBlank : Char → Bool) (position : Nat) (current : Option Token) :
    List Char → List Token
  | [] => finish current []
  | c :: rest =>
    if isSeparator c then
      finish current
        (⟨String.singleton c, position⟩ :: splitFrom isSeparator isBlank (position + 1) none rest)
    else if isBlank c then
      finish current (splitFrom isSeparator isBlank (position + 1) none rest)
    else splitFrom isSeparator isBlank (position + 1) (some (extend current c position)) rest

/-- The words of a line. -/
def split (isSeparator isBlank : Char → Bool) (line : String) : List Token :=
  splitFrom isSeparator isBlank 0 none line.toList

end Token

end ZMachine
