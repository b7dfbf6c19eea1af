import ZMachine.Text.CaseMap
import ZMachine.Text.Cased

/-!
# Lower case

Dictionary words are lower-cased character by character, input lines as a whole. The two differ for
the capital sigma only, whose lower-case form depends on whether it ends a word.
-/

namespace ZMachine.Text

/-- The lower-case form of a single character. Only the dotted capital I becomes two characters. -/
def lowerChar (c : Char) : List Char :=
  if c.toNat < 0x80 then [c.toLower]
  else if c.toNat == 0x130 then ['i', Char.ofNat 0x307]
  else
    match lowerCaseRuns.find? (·.contains c.toNat) with
    | some run => [Char.ofNat (c.toNat + run.offset).toNat]
    | none => [c]

/-- Whether the nearest character that is not case-ignorable is cased. -/
def meetsCased (neighbours : List Char) : Bool :=
  match neighbours.dropWhile (covers caseIgnorable) with
  | [] => false
  | c :: _ => covers cased c

/-- The lower-case form of a capital sigma between the characters `before`, nearest first, and
`after`. -/
def lowerSigma (before after : List Char) : Char :=
  if meetsCased before && !meetsCased after then 'ς' else 'σ'

/-- The lower-case form of the rest of a line whose beginning, last character first, is `before`. -/
def lowerAfter (before : List Char) : List Char → List Char
  | [] => []
  | c :: rest =>
    (if c == 'Σ' then [lowerSigma before rest] else lowerChar c) ++ lowerAfter (c :: before) rest

/-- The lower-case form of a line. -/
def lowercase (line : String) : String :=
  String.ofList (lowerAfter [] line.toList)

end ZMachine.Text
