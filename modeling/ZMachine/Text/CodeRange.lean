/-!
# Ranges of code points

Character properties are given as sorted tables of inclusive ranges.
-/

namespace ZMachine.Text

/-- An inclusive range of code points, first and last. -/
abbrev CodeRange := Nat × Nat

/-- Whether a table of ranges covers a character. -/
def covers (table : Array CodeRange) (c : Char) : Bool :=
  table.any fun range => range.1 ≤ c.toNat && c.toNat ≤ range.2

end ZMachine.Text
