import ZMachine.Host.Basic
import ZMachine.Random.Generator
import ZMachine.Text.Digits

/-!
# A plain terminal

A host without windows or cursor: the lower window is written as it comes, the upper window is
dropped, and the status line is written in brackets. Input is a stream of bytes, cut into lines.
-/

namespace ZMachine

open Text

/-- A terminal: the text written so far and the bytes not yet read. -/
structure Terminal where
  output : String := ""
  width : Nat
  /-- Whether text goes to the upper window and is dropped. -/
  upperWindow : Bool := false
  input : List UInt8
  /-- Whether lines are shown as they are read. -/
  echo : Bool
  generator : Random.Generator

namespace Terminal

/-- The line without a line feed at its end, and then without a carriage return at its end. -/
def trimLineEnd (line : String) : String :=
  let chars := line.toList.reverse
  let chars := if chars.head? = some '\n' then chars.tail else chars
  let chars := if chars.head? = some '\r' then chars.tail else chars
  String.ofList chars.reverse

/-- Writes a text, unless it goes to the upper window. -/
def print (terminal : Terminal) (text : String) : Terminal :=
  if terminal.upperWindow then terminal else { terminal with output := terminal.output ++ text }

/-- The status line: the place at the left, the rest at the right, and at least one space between.
-/
def statusLine (width : Nat) (location : String) (first second : Int) (timed : Bool) : String :=
  let right := if timed then s!"{decimal first}:{twoPlaces second}"
    else s!"{decimal first}/{decimal second}"
  let space := max 1 (width - (location.length + right.length + 2))
  "[" ++ location ++ String.ofList (List.replicate space ' ') ++ right ++ "]\n"

/-- What a request does to the terminal. -/
def handle (terminal : Terminal) : Request → Terminal
  | .print text => terminal.print text
  | .newLine => terminal.print "\n"
  | .showStatus location first second timed =>
    { terminal with
      output := terminal.output ++ statusLine terminal.width location first second timed }
  | .setWindow window => { terminal with upperWindow := window == 1 }
  | _ => terminal

/-- Takes the bytes of the next line, its end included. -/
def takeBytes (terminal : Terminal) : List UInt8 × Terminal :=
  let line := terminal.input.takeWhile (· != 10)
  let rest := terminal.input.dropWhile (· != 10)
  (line ++ rest.take 1, { terminal with input := rest.drop 1 })

/-- Reads a line. The end of the input and bytes that are not UTF-8 are refused. -/
def readLine (terminal : Terminal) : Except String String × Terminal :=
  let (bytes, terminal) := terminal.takeBytes
  if bytes.isEmpty then
    (.error "end of input: stdin closed or no more input available", terminal)
  else
    match String.fromUTF8? ⟨bytes.toArray⟩ with
    | none => (.error "stream did not contain valid UTF-8", terminal)
    | some text =>
      let line := trimLineEnd text
      let shown := if terminal.echo then line ++ "\n" else ""
      (.ok line, { terminal with output := terminal.output ++ shown })

instance : Host Terminal where
  display request terminal := (.ok (), terminal.handle request)
  cursor terminal := (.ok ⟨1, 1⟩, terminal)
  readLine _ terminal := terminal.readLine
  readChar terminal :=
    let (line, terminal) := terminal.readLine
    (line.map Host.keyOfLine, terminal)
  random range terminal :=
    let (number, generator) := terminal.generator.random range
    (number, { terminal with generator })
  seed value terminal := { terminal with generator := terminal.generator.seed value }
  reseed terminal := { terminal with generator := terminal.generator.reseed }

end Terminal

end ZMachine
