import ZMachine.Text.Digits
import ZMachine.Text.Quoted

/-!
# Faults

Every way in which loading or running a story can fail. A fault keeps its cause as data; the
sentence shown to the player and the line written for a maintainer are both derived from it.
-/

namespace ZMachine

open Text

/-- What is wrong with the memory map of a story header. -/
inductive HeaderDefect where
  | tooLarge (size version limit : Nat)
  | staticBase (base size : Nat)
  | highBase (high static : Nat)
deriving Repr, DecidableEq

/-- What is wrong with a stored text or with the place it was asked from. -/
inductive TextDefect where
  | abbreviationRange (table index : Nat)
  | snapshotSize (held wanted : Nat)
  | dictionaryEntry (index size : Nat)
deriving Repr, DecidableEq

/-- Why a property could not be used. -/
inductive PropertyDefect where
  | noDefault
  | missing
  | wide (size : Nat)
  | noSuccessor
deriving Repr, DecidableEq

/-- Why an operation on a story failed. -/
inductive Fault where
  | storyTooSmall (size : Nat)
  | malformedHeader (defect : HeaderDefect)
  | unsupportedVersion (version : Nat)
  | accessViolation (address : Nat) (write : Bool)
  | outsideStory (address : Nat)
  | stackUnderflow
  | stackOverflow (pc : Nat)
  | illegalVariable (number locals : Nat)
  | noFrame
  | invalidOpcode (encoding : String) (pc : Nat)
  | unsupportedOpcode (name : String) (pc : Nat)
  | missingOperand (name : String) (index : Nat)
  | divisionByZero (pc : Nat)
  | invalidObject (object : Nat)
  | invalidAttribute (object index : Nat)
  | endlessSiblings (object : Nat)
  | propertyViolation (object property : Nat) (defect : PropertyDefect)
  | nestedAbbreviation (table index : Nat)
  | invalidText (defect : TextDefect)
  | display (detail : String)
  | input (detail : String)
  | settings (detail : String)
deriving Repr, DecidableEq

/-- The sentence for a defect of the memory map. -/
def HeaderDefect.message : HeaderDefect → String
  | tooLarge size version limit =>
    s!"{decimal size} bytes exceeds the version {decimal version} limit of {decimal limit}"
  | staticBase base size =>
    s!"static memory base 0x{hex 4 base} outside story of {decimal size} bytes"
  | highBase high static =>
    s!"high memory base 0x{hex 4 high} overlaps dynamic memory ending at 0x{hex 4 static}"

/-- The sentence for a defect of a stored text. -/
def TextDefect.message : TextDefect → String
  | abbreviationRange table index =>
    s!"abbreviation reference {decimal table}/{decimal index} out of range"
  | snapshotSize held wanted =>
    s!"snapshot holds {decimal held} bytes of dynamic memory, story has {decimal wanted}"
  | dictionaryEntry index size => s!"dictionary entry {decimal index} of {decimal size}"

/-- The sentence for an unusable property. -/
def PropertyDefect.message : PropertyDefect → String
  | noDefault => "no such default"
  | missing => "object does not have this property"
  | wide size => s!"cannot store a word in a property of {decimal size} bytes"
  | noSuccessor => "get_next_prop on a missing property"

namespace Fault

/-- The sentence that reports a fault to the player. -/
def message : Fault → String
  | storyTooSmall size => s!"Story file too small ({decimal size} bytes, need at least 64)"
  | malformedHeader defect => "Malformed header: " ++ defect.message
  | unsupportedVersion version => s!"Unsupported Z-machine version {decimal version}"
  | accessViolation address write =>
    "Access violation: " ++ (if write then "write to" else "read from") ++ " 0x" ++ hex 5 address
  | outsideStory address => s!"Address 0x{hex 5 address} is outside the story file"
  | stackUnderflow => "Evaluation stack underflow"
  | stackOverflow pc => s!"Evaluation stack overflow at 0x{hex 5 pc}"
  | illegalVariable number locals =>
    s!"Local variable {decimal number} accessed in a routine with {decimal locals} locals"
  | noFrame => "Return from the outermost routine"
  | invalidOpcode encoding pc => s!"Invalid opcode {encoding} at 0x{hex 5 pc}"
  | unsupportedOpcode name pc => s!"Opcode {name} at 0x{hex 5 pc} is not supported"
  | missingOperand name index => s!"{name} is missing operand {decimal index}"
  | divisionByZero pc => s!"Division by zero at 0x{hex 5 pc}"
  | invalidObject object => s!"Invalid object number {decimal object}"
  | invalidAttribute object index =>
    s!"Invalid attribute {decimal index} on object {decimal object}"
  | endlessSiblings object => s!"Object {decimal object} is missing from an endless sibling chain"
  | propertyViolation object property defect =>
    s!"Property {decimal property} of object {decimal object}: " ++ defect.message
  | nestedAbbreviation table index =>
    s!"Abbreviation {decimal table}/{decimal index} references another abbreviation"
  | invalidText defect => "Invalid text: " ++ defect.message
  | display detail => "Display error: " ++ detail
  | input detail => "Input error: " ++ detail
  | settings detail => "Configuration error: " ++ detail

/-- The word that names a kind of fault in diagnostics. -/
def kind : Fault → String
  | storyTooSmall .. => "StoryTooSmall"
  | malformedHeader .. => "MalformedHeader"
  | unsupportedVersion .. => "UnsupportedVersion"
  | accessViolation .. => "AccessViolation"
  | outsideStory .. => "ForcedAccessViolation"
  | stackUnderflow => "StackUnderflow"
  | stackOverflow .. => "StackOverflow"
  | illegalVariable .. => "IllegalVariable"
  | noFrame => "NoFrame"
  | invalidOpcode .. => "InvalidOpcode"
  | unsupportedOpcode .. => "UnsupportedOpcode"
  | missingOperand .. => "MissingOperand"
  | divisionByZero .. => "DivisionByZero"
  | invalidObject .. => "InvalidObject"
  | invalidAttribute .. => "InvalidAttribute"
  | endlessSiblings .. => "EndlessSiblings"
  | propertyViolation .. => "PropertyViolation"
  | nestedAbbreviation .. => "NestedAbbreviation"
  | invalidText .. => "InvalidText"
  | display .. => "Display"
  | input .. => "Input"
  | settings .. => "Config"

/-- What a diagnostic line shows of a fault besides its kind, in order. -/
def arguments : Fault → List String
  | storyTooSmall size => [decimal size]
  | malformedHeader defect => [quoted defect.message]
  | unsupportedVersion version => [decimal version]
  | accessViolation address write => [decimal address, if write then "true" else "false"]
  | outsideStory address => [decimal address]
  | stackUnderflow => []
  | stackOverflow pc => [decimal pc]
  | illegalVariable number locals => [decimal number, decimal locals]
  | noFrame => []
  | invalidOpcode encoding pc => [quoted encoding, decimal pc]
  | unsupportedOpcode name pc => [quoted name, decimal pc]
  | missingOperand name index => [quoted name, decimal index]
  | divisionByZero pc => [decimal pc]
  | invalidObject object => [decimal object]
  | invalidAttribute object index => [decimal object, decimal index]
  | endlessSiblings object => [decimal object]
  | propertyViolation object property defect =>
    [decimal object, decimal property, quoted defect.message]
  | nestedAbbreviation table index => [decimal table, decimal index]
  | invalidText defect => [quoted defect.message]
  | display detail => [quoted detail]
  | input detail => [quoted detail]
  | settings detail => [quoted detail]

/-- The line that reports a fault to a maintainer: its kind and its arguments. -/
def report (fault : Fault) : String :=
  match fault.arguments with
  | [] => fault.kind
  | arguments => fault.kind ++ "(" ++ String.intercalate ", " arguments ++ ")"

/-- Whether play may go on after the fault: only ordinary loads and stores outside their regions may
be skipped. -/
def isRecoverable : Fault → Bool
  | accessViolation .. => true
  | _ => false

end Fault

end ZMachine
