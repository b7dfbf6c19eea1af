import ZMachine.Host.Basic
import ZMachine.Host.Screen
import ZMachine.Host.Script
import ZMachine.Random.Generator

/-!
# Recorded play

A host for playing without a terminal: the screen is kept in memory, the input is a script, and
every request is written down. It can be told to refuse one kind of display request and to throw
prepared dice.
-/

namespace ZMachine

/-- Where random numbers come from. -/
inductive Chance where
  | generator (generator : Random.Generator)
  /-- The numbers still to be thrown. -/
  | dice (numbers : List UInt16)

/-- Play in memory, with a log of all requests. -/
structure Recorded where
  screen : Screen := {}
  script : Script
  chance : Chance
  /-- The name of the display requests that are refused. -/
  refused : Option String := none
  log : Array Request := #[]

namespace Recorded

/-- Writes a request down. -/
def note (host : Recorded) (request : Request) : Recorded :=
  { host with log := host.log.push request }

/-- Why a display request is refused, if it is. -/
def refusal? (host : Recorded) (request : Request) : Option String :=
  if host.refused = some request.name then some (request.name ++ " refused") else none

/-- Handles a display request. -/
def display (request : Request) (host : Recorded) : Except String Unit × Recorded :=
  let host := host.note request
  match host.refusal? request with
  | some reason => (.error reason, host)
  | none => (.ok (), { host with screen := host.screen.handle request })

/-- Tells where the cursor is. -/
def cursor (host : Recorded) : Except String Cursor × Recorded :=
  let host := host.note .getCursor
  match host.refusal? .getCursor with
  | some reason => (.error reason, host)
  | none => (.ok host.screen.cursor, host)

/-- Takes a line of the script. -/
def takeLine (host : Recorded) : Except String String × Recorded :=
  let (line, script) := host.script.readLine
  (line, { host with script })

/-- Throws a random number. -/
def random (range : UInt16) (host : Recorded) : UInt16 × Recorded :=
  match host.chance with
  | .generator generator =>
    let (number, generator) := generator.random range
    (number, { host with chance := .generator generator })
  | .dice numbers =>
    (numbers.headD 1, { host.note (.random range) with chance := .dice numbers.tail })

/-- Seeds the random numbers; prepared dice stay as they are. -/
def seed (value : UInt64) (host : Recorded) : Recorded :=
  match host.chance with
  | .generator generator => { host with chance := .generator (generator.seed value) }
  | .dice _ => host.note (.seed value)

/-- Makes the random numbers unpredictable; prepared dice stay as they are. -/
def reseed (host : Recorded) : Recorded :=
  match host.chance with
  | .generator generator => { host with chance := .generator generator.reseed }
  | .dice _ => host.note .reseed

instance : Host Recorded where
  display := display
  cursor := cursor
  readLine capacity host := (host.note (.readLine capacity)).takeLine
  readChar host :=
    let (line, host) := (host.note .readChar).takeLine
    (line.map Host.keyOfLine, host)
  random := random
  seed := seed
  reseed := reseed

end Recorded

end ZMachine
