import ZMachine.Host.Request
import ZMachine.Text.Digits

/-!
# A screen in memory

A screen without a device: text is kept as finished lines and the line being written, and the
arrangement of the windows is only remembered.
-/

namespace ZMachine

open Text

/-- What a player would see, kept as text. -/
structure Screen where
  /-- The finished lines, oldest first. -/
  lines : Array String := #[]
  /-- The line being written. -/
  current : String := ""
  status : Option String := none
  cursor : Cursor := ⟨1, 1⟩
  upperLines : UInt16 := 0
  window : UInt16 := 0
  transcript : Bool := false
deriving Repr, DecidableEq

namespace Screen

/-- Ends the line being written. -/
def finishLine (screen : Screen) : Screen :=
  { screen with lines := screen.lines.push screen.current, current := "" }

/-- Writes one character. -/
def put (screen : Screen) (c : Char) : Screen :=
  if c == '\n' then screen.finishLine else { screen with current := screen.current.push c }

/-- Writes a text. -/
def print (screen : Screen) (text : String) : Screen :=
  text.toList.foldl put screen

/-- Everything written, with a line end after each finished line. -/
def output (screen : Screen) : String :=
  String.join (screen.lines.toList.map (· ++ "\n")) ++ screen.current

/-- Forgets everything written. -/
def clear (screen : Screen) : Screen :=
  { screen with lines := #[], current := "" }

/-- The text of a status line. -/
def statusText (location : String) (first second : Int) (timed : Bool) : String :=
  if timed then s!"{location} | Time: {decimal first}:{twoPlaces second}"
  else s!"{location} | Score: {decimal first} | Moves: {decimal second}"

/-- What a request does to the screen. Requests for things that this screen does not have do
nothing. -/
def handle (screen : Screen) : Request → Screen
  | .print text => screen.print text
  | .newLine => screen.finishLine
  | .showStatus location first second timed =>
    { screen with status := some (statusText location first second timed) }
  | .splitWindow lines => { screen with upperLines := lines }
  | .setWindow window => { screen with window }
  | .eraseWindow window =>
    let screen := if window ≤ 0 then screen.clear else screen
    if window = -1 then { screen with upperLines := 0 } else screen
  | .setCursor cursor => { screen with cursor }
  | .setTranscript enabled => { screen with transcript := enabled }
  | _ => screen

end Screen

end ZMachine
