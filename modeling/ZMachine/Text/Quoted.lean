import ZMachine.Text.Digits
import ZMachine.Text.ExtendingMark
import ZMachine.Text.Unprintable

/-!
# Quoted text

Listings and diagnostics show a text between double quotes, with everything that would not be seen
on a line written as an escape.
-/

namespace ZMachine.Text

/-- Whether a character is shown by its number inside quotes. -/
def isConcealed (c : Char) : Bool :=
  if c.toNat < 0x7F then c.toNat < 0x20
  else covers extendingMarks c || covers unprintable c

/-- A character as it stands inside quotes. -/
def escaped (c : Char) : String :=
  match c with
  | '\x00' => "\\0"
  | '\t' => "\\t"
  | '\r' => "\\r"
  | '\n' => "\\n"
  | '\\' => "\\\\"
  | '"' => "\\\""
  | c => if isConcealed c then "\\u\x7b" ++ hex 1 c.toNat ++ "\x7d" else String.singleton c

/-- A text between double quotes. -/
def quoted (text : String) : String :=
  "\"" ++ String.join (text.toList.map escaped) ++ "\""

end ZMachine.Text
