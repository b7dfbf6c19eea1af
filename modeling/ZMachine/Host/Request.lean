/-!
# Requests

What the machine can ask of its surroundings: showing text, arranging the screen, reading input and
drawing random numbers.
-/

namespace ZMachine

/-- A position on the screen, counted from 1. -/
structure Cursor where
  line : UInt16
  column : UInt16
deriving Repr, DecidableEq

/-- One thing asked of the surroundings. -/
inductive Request where
  | print (text : String)
  | newLine
  /-- The status line: the place, and either score and moves or hours and minutes. -/
  | showStatus (location : String) (first second : Int) (timed : Bool)
  | splitWindow (lines : UInt16)
  | setWindow (window : UInt16)
  | eraseWindow (window : Int)
  | eraseLine (value : UInt16)
  | setCursor (cursor : Cursor)
  | getCursor
  | setTextStyle (style : UInt16)
  | setBufferMode (buffered : Bool)
  | setColour (foreground background : UInt16)
  | soundEffect (number effect volume : UInt16)
  | setTranscript (enabled : Bool)
  | readLine (capacity : Nat)
  | readChar
  | random (range : UInt16)
  | seed (value : UInt64)
  | reseed
deriving Repr, DecidableEq

/-- The name of a request in messages. -/
def Request.name : Request → String
  | print .. => "print"
  | newLine => "new_line"
  | showStatus .. => "show_status"
  | splitWindow .. => "split_window"
  | setWindow .. => "set_window"
  | eraseWindow .. => "erase_window"
  | eraseLine .. => "erase_line"
  | setCursor .. => "set_cursor"
  | getCursor => "get_cursor"
  | setTextStyle .. => "set_text_style"
  | setBufferMode .. => "set_buffer_mode"
  | setColour .. => "set_colour"
  | soundEffect .. => "sound_effect"
  | setTranscript .. => "set_transcript"
  | readLine .. => "read_line"
  | readChar => "read_char"
  | random .. => "random"
  | seed .. => "seed"
  | reseed => "reseed"

end ZMachine
