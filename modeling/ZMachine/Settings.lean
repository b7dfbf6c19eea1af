import ZMachine.Fault
import ZMachine.Toml.Reader

/-!
# Settings

What a player can choose about the machine. Every setting has a default, so a settings file names
only those it changes; keys that are no setting are ignored.
-/

namespace ZMachine

/-- The player's choices. -/
structure Settings where
  screenWidth : UInt8 := 80
  screenHeight : UInt8 := 24
  /-- The kind of computer reported to the story; 6 is the IBM PC. -/
  interpreterNumber : UInt8 := 6
  interpreterVersion : UInt8 := 65
  /-- The seed of a predictable sequence of random numbers. -/
  randomSeed : Option UInt64 := none
  /-- Whether ordinary loads and stores outside their regions are skipped. -/
  tolerateAccessViolations : Bool := false
  /-- After how many instructions play stops. -/
  instructionLimit : Option Nat := none
  /-- Whether lines that do not come from a keyboard are shown as they are read. -/
  echoPipedInput : Bool := true
deriving Repr, DecidableEq

namespace Settings

/-- A setting that is a number from 0 to 255. -/
def byte (entries : Toml.Entries) (key : String) (default : UInt8) : Option UInt8 :=
  match entries.get? key with
  | none => some default
  | some (.integer number) =>
    if 0 ≤ number && number < 256 then some (UInt8.ofNat number.toNat) else none
  | some _ => none

/-- A setting that is a natural number or absent. -/
def count (entries : Toml.Entries) (key : String) : Option (Option Nat) :=
  match entries.get? key with
  | none => some none
  | some (.integer number) => if 0 ≤ number then some (some number.toNat) else none
  | some _ => none

/-- A setting that is true or false. -/
def flag (entries : Toml.Entries) (key : String) (default : Bool) : Option Bool :=
  match entries.get? key with
  | none => some default
  | some (.boolean value) => some value
  | some _ => none

/-- The settings in a table, if every setting in it is of the right kind. -/
def ofEntries? (entries : Toml.Entries) : Option Settings := do
  let defaults : Settings := {}
  return {
    screenWidth := ← byte entries "screen_width" defaults.screenWidth
    screenHeight := ← byte entries "screen_height" defaults.screenHeight
    interpreterNumber := ← byte entries "interpreter_number" defaults.interpreterNumber
    interpreterVersion := ← byte entries "interpreter_version" defaults.interpreterVersion
    randomSeed := (← count entries "random_seed").map UInt64.ofNat
    tolerateAccessViolations :=
      ← flag entries "tolerate_access_violations" defaults.tolerateAccessViolations
    instructionLimit := ← count entries "instruction_limit"
    echoPipedInput := ← flag entries "echo_piped_input" defaults.echoPipedInput }

/-- The settings in the text of a settings file. -/
def ofToml (text : String) : Except Fault Settings :=
  match (Toml.parse? text).bind ofEntries? with
  | some settings => .ok settings
  | none => .error (.settings "the settings file is not valid")

end Settings

end ZMachine
