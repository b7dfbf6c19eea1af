/-!
# Scripted input

Input that replays a fixed list of lines and then has no more.
-/

namespace ZMachine

/-- The lines still to be read. -/
structure Script where
  lines : List String
deriving Repr, DecidableEq

namespace Script

/-- The next line. -/
def readLine (script : Script) : Except String String × Script :=
  match script.lines with
  | [] => (.error "script exhausted", script)
  | line :: lines => (.ok line, { lines })

/-- How many lines are left. -/
def remaining (script : Script) : Nat :=
  script.lines.length

end Script

end ZMachine
