import ZMachine.Host.Terminal
import ZMachine.Machine.Step

/-!
# The command line

What the program does with its arguments: it plays a story over the standard streams, or lists the
header of a story. Everything but the streams and the files themselves is decided here.
-/

namespace ZMachine.CommandLine

/-- What the arguments ask for. -/
structure Options where
  story : String := ""
  settingsFile : Option String := none
  seed : Option UInt64 := none
  headerOnly : Bool := false
  limit : Option Nat := none
deriving Repr, DecidableEq

/-- What the program leaves behind: its exit code and the texts on its two output streams. -/
structure Report where
  code : Nat := 0
  output : String := ""
  errors : String := ""
deriving Repr, DecidableEq

/-- What is found under a file name. -/
inductive FileAnswer where
  | contents (bytes : List UInt8)
  /-- The file cannot be opened. -/
  | closed (reason : String)
  /-- The file can be opened, but not read. -/
  | unreadable (reason : String)

/-- The explanation of the arguments. -/
def usage (program : String) : String :=
  String.intercalate "\n" [
    "zcore - Z-machine interpreter core",
    "",
    s!"Usage: {program} <story_file> [--config file.toml] [--seed n] [--header] [--limit n]",
    "",
    "  --config   read settings from a TOML file",
    "  --seed     start the random number generator in predictable mode",
    "  --header   print the story header and exit",
    "  --limit    stop after this many instructions",
    ""]

/-- A natural number below 2^64 in decimal digits, with an optional plus sign. -/
def number? (text : String) : Option Nat :=
  let digits :=
    match text.toList with
    | '+' :: rest => rest
    | chars => chars
  if digits.isEmpty || !digits.all Char.isDigit then none
  else
    let value := digits.foldl (fun value c => value * 10 + (c.toNat - '0'.toNat)) 0
    if value ≤ 18446744073709551615 then some value else none

/-- Adds the remaining arguments to the options. -/
def parseFrom (options : Options) : List String → Except String Options
  | [] => .ok options
  | "--config" :: rest =>
    match rest with
    | [] => .error "--config needs a file"
    | file :: rest => parseFrom { options with settingsFile := some file } rest
  | "--seed" :: rest =>
    match rest with
    | [] => .error "--seed needs a number"
    | value :: rest =>
      match number? value with
      | none => .error ("Invalid seed: " ++ value)
      | some seed => parseFrom { options with seed := some (UInt64.ofNat seed) } rest
  | "--limit" :: rest =>
    match rest with
    | [] => .error "--limit needs a number"
    | value :: rest =>
      match number? value with
      | none => .error ("Invalid limit: " ++ value)
      | some limit => parseFrom { options with limit := some limit } rest
  | "--header" :: rest => parseFrom { options with headerOnly := true } rest
  | argument :: rest =>
    if argument.startsWith "--" then .error ("Unknown option " ++ argument)
    else if options.story ≠ "" then .error ("Unexpected argument " ++ argument)
    else parseFrom { options with story := argument } rest

/-- The options that the arguments give. A story is needed. -/
def parse (arguments : List String) : Except String Options := do
  let options ← parseFrom {} arguments
  if options.story = "" then throw "No story file given" else return options

/-- The line that ends a failed program. -/
def failure (fault : Fault) : String :=
  "Error: " ++ fault.report ++ "\n"

/-- The report of a program that fails before the story begins. -/
def failed (fault : Fault) : Report :=
  { code := 1, errors := failure fault }

/-- The settings in a file. -/
def settingsIn (file : String) (answer : FileAnswer) : Except Fault Settings :=
  match answer with
  | .closed reason | .unreadable reason => .error (.settings (file ++ ": " ++ reason))
  | .contents bytes =>
    match String.fromUTF8? ⟨bytes.toArray⟩ with
    | none => .error (.settings (file ++ ": stream did not contain valid UTF-8"))
    | some text => Settings.ofToml text

/-- The settings that the options ask for. -/
def settingsFor (options : Options) (look : String → FileAnswer) : Except Fault Settings := do
  let settings ←
    match options.settingsFile with
    | none => pure {}
    | some file => settingsIn file (look file)
  return { settings with
    randomSeed := options.seed <|> settings.randomSeed
    instructionLimit := options.limit <|> settings.instructionLimit }

/-- The bytes of the story file, or why there are none. -/
def storyFor (options : Options) (look : String → FileAnswer) : Except String (List UInt8) :=
  match look options.story with
  | .contents bytes => .ok bytes
  | .closed reason => .error s!"Error: Cannot open story file '{options.story}': {reason}\n"
  | .unreadable reason => .error s!"Error: Cannot read story file '{options.story}': {reason}\n"

/-- What the arguments lead to: a report, or a machine that is ready to play. -/
inductive Plan where
  | finished (report : Report)
  | play (machine : Machine Terminal)

/-- The terminal for a player. `piped` tells that the input does not come from a keyboard. -/
def terminalFor (settings : Settings) (input : List UInt8) (piped : Bool) (entropy : UInt64) :
    Terminal :=
  { width := settings.screenWidth.toNat
    input
    echo := settings.echoPipedInput && piped
    generator :=
      match settings.randomSeed with
      | some seed => .ofSeed seed entropy
      | none => .ofEntropy entropy }

/-- Carries out the options, up to the point where the story begins. -/
def carryOut (options : Options) (look : String → FileAnswer) (input : List UInt8) (piped : Bool)
    (entropy : UInt64) : Plan :=
  match settingsFor options look with
  | .error fault => .finished (failed fault)
  | .ok settings =>
    match storyFor options look with
    | .error message => .finished { code := 1, errors := message }
    | .ok story =>
      if options.headerOnly then
        match Header.parse story.toArray with
        | .error fault => .finished (failed fault)
        | .ok header => .finished { output := header.listing ++ "\n" }
      else
        match Machine.start settings story.toArray (terminalFor settings input piped entropy) .empty
          with
        | .error fault => .finished (failed fault)
        | .ok machine => .play machine

/-- What the arguments lead to. -/
def plan (program : String) (arguments : List String) (look : String → FileAnswer)
    (input : List UInt8) (piped : Bool) (entropy : UInt64) : Plan :=
  if arguments.isEmpty then .finished { output := usage program }
  else
    match parse arguments with
    | .error message =>
      .finished
        { code := 2, output := usage program, errors := "Error: " ++ message ++ "\n\n" }
    | .ok options => carryOut options look input piped entropy

/-- The report of a story that ended with a fault. -/
def interrupted (fault : Fault) : Report :=
  { code := 1, errors := "\nError during execution: " ++ fault.message ++ "\n" ++ failure fault }

/-- Plays a story to its end on the input that the terminal holds. -/
def playOut (machine : Machine Terminal) : Report :=
  match Machine.run machine.settings.instructionLimit machine with
  | .ok _ machine => { output := machine.host.output }
  | .error fault machine => { interrupted fault with output := machine.host.output }

/-- Runs the program on complete input that is not typed. -/
def run (program : String) (arguments : List String) (look : String → FileAnswer)
    (input : List UInt8) (entropy : UInt64) : Report :=
  match plan program arguments look input true entropy with
  | .finished report => report
  | .play machine => playOut machine

end ZMachine.CommandLine
