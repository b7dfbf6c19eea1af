import ZMachine.CommandLine

/-!
# The program

The standard streams and the files behind the command line. Input that is not typed is read as a
whole before the story begins; typed input is read when the story asks for it.
-/

namespace ZMachine.CommandLine

/-- The name of the program in its own messages. -/
def programName : String := "zcore"

/-- What the operating system says about a failed operation on a file. -/
def reasonOf : IO.Error → String
  | .noFileOrDirectory _ code details | .permissionDenied _ code details
  | .inappropriateType _ code details | .invalidArgument _ code details =>
    s!"{details} (os error {code})"
  | error => toString error

/-- Looks a file up. A directory can be opened, but not read. -/
def lookUp (file : String) : IO FileAnswer := do
  match ← (IO.FS.Handle.mk file .read).toBaseIO with
  | .error error => return .closed (reasonOf error)
  | .ok handle =>
    match ← handle.readBinToEnd.toBaseIO with
    | .error error => return .unreadable (reasonOf error)
    | .ok bytes => return .contents bytes.toList

/-- The files that the arguments name. -/
def lookUpAll (arguments : List String) : IO (String → FileAnswer) := do
  let found ← arguments.mapM fun file => do return (file, ← lookUp file)
  return fun file => (found.lookup file).getD (.closed "No such file or directory (os error 2)")

/-- All bytes of a stream. -/
partial def readAll (stream : IO.FS.Stream) (before : ByteArray := .empty) : IO ByteArray := do
  let bytes ← stream.read 65536
  if bytes.isEmpty then return before else readAll stream (before ++ bytes)

/-- Writes what the terminal holds and empties it. -/
def flush (machine : Machine Terminal) : IO (Machine Terminal) := do
  IO.print machine.host.output
  (← IO.getStdout).flush
  return { machine with host := { machine.host with output := "" } }

/-- Plays with typed input, at most `steps` steps. -/
partial def converse (input : IO.FS.Stream) (steps : Nat) (machine : Machine Terminal) :
    IO Report := do
  if steps = 0 then
    let _ ← flush machine
    return {}
  let machine ← if machine.awaitsInput then provide machine else pure machine
  match Machine.step machine with
  | .error fault machine =>
    let _ ← flush machine
    return interrupted fault
  | .ok outcome machine =>
    if outcome = .quit then
      let _ ← flush machine
      return {}
    else converse input (steps - 1) machine
where
  /-- Gives the terminal a typed line. -/
  provide (machine : Machine Terminal) : IO (Machine Terminal) := do
    let machine ← flush machine
    let line ← input.getLine
    let typed := machine.host.input ++ line.toUTF8.toList
    return { machine with host := { machine.host with input := typed } }

/-- Writes the texts of a report and gives its exit code. -/
def finish (report : Report) : IO UInt32 := do
  IO.print report.output
  (← IO.getStdout).flush
  IO.eprint report.errors
  return UInt32.ofNat report.code

/-- Gives a terminal input that is already complete. -/
def withInput (machine : Machine Terminal) (bytes : ByteArray) : Machine Terminal :=
  { machine with host := { machine.host with input := bytes.toList } }

/-- Runs the program on the standard streams. -/
def play (arguments : List String) : IO UInt32 := do
  let look ← lookUpAll arguments
  let entropy := UInt64.ofNat (← IO.rand 0 9223372036854775807)
  let input ← IO.getStdin
  let typed ← input.isTty
  match plan programName arguments look [] (!typed) entropy with
  | .finished report => finish report
  | .play machine =>
    if typed then
      let steps := machine.settings.instructionLimit.getD Machine.endlessSteps
      finish (← converse input steps machine)
    else finish (playOut (withInput machine (← readAll input)))

end ZMachine.CommandLine

/-- The entry point: plays the story that the arguments name. -/
def main (arguments : List String) : IO UInt32 :=
  ZMachine.CommandLine.play arguments
