import ZMachine.Machine.Routine

/-!
# Saving and restoring

Up to version 3 saving and restoring branch on success; later they store a result. A restored game
goes on where it was saved, as if saving had succeeded just now: it takes the branch of the saving
instruction, or stores 2 in place of its result.
-/

namespace ZMachine.Machine

variable {η : Type}

/-- The result that tells a story that it has been restored. -/
def restoredResult : UInt16 := 2

/-- A success as a word. -/
def successWord (success : Bool) : UInt16 :=
  if success then 1 else 0

/-- Saves the game. Up to version 3 the saved program counter is that of the instruction itself, so
that its branch can be found again. -/
def save (instruction : Instruction) : MachineM η Outcome := do
  let machine ← get
  let early := machine.version ≤ 3
  let state :=
    if early then { machine.memory with pc := instruction.address } else machine.memory
  let (success, archive) ← inspect fun _ => machine.archive.save state
  set { machine with archive }
  if early then branchIf instruction success else conclude instruction (successWord success)

/-- Stores the result of the saving instruction of a restored game. The program counter stands just
after that instruction, whose last byte names the variable. -/
def storeRestored : MachineM η Unit := do
  let pc ← inspect fun machine => .ok machine.memory.pc
  let name ← inspect (·.memory.fetchByte (pc - 1))
  onMemory (Memory.writeVariable name restoredResult)

/-- Takes the branch of the saving instruction of a restored game. -/
def branchRestored : MachineM η Unit := do
  let machine ← get
  let (saving, decoder) ← inspect fun machine =>
    machine.decoder.decode machine.memory machine.codec machine.abbreviations machine.memory.pc
  set { machine with decoder }
  jumpTo (machine.memory.pc + saving.size)
  let _ ← branchIf saving true

/-- Goes back to the saved game. -/
def restore (instruction : Instruction) : MachineM η Outcome := do
  let archive ← inspect fun machine => .ok machine.archive
  let success ← onMemory archive.restore
  let version ← inspect fun machine => .ok machine.version
  if success then
    if version ≤ 3 then branchRestored else storeRestored
    return .branched
  else if version ≤ 3 then branchIf instruction false
  else conclude instruction 0

/-- Notes the state of play for undoing. -/
def saveUndo (instruction : Instruction) : MachineM η Outcome := do
  let machine ← get
  let (success, archive) := machine.archive.saveUndo machine.memory
  set { machine with archive }
  conclude instruction (successWord success)

/-- Runs an operation on the archive and the memory. -/
def onArchive {α : Type} (action : EStateM Fault (Archive × Memory) α) : MachineM η α :=
  fun machine =>
    match action (machine.archive, machine.memory) with
    | .ok value (archive, memory) => .ok value { machine with archive, memory }
    | .error fault (archive, memory) => .error fault { machine with archive, memory }

/-- Goes back to the newest state noted for undoing. -/
def restoreUndo (instruction : Instruction) : MachineM η Outcome := do
  let success ← onArchive Archive.restoreUndo
  if success then
    storeRestored
    return .branched
  else conclude instruction 0

/-- Starts the story again. Output is no longer diverted, and the dictionary is read anew. -/
def restart : MachineM η Outcome := do
  modify fun machine =>
    { machine with
      memory := machine.memory.restart
      decoder := machine.decoder.reset
      streams := { machine.streams with tables := [] } }
  let dictionary ← inspect fun machine => Dictionary.ofMemory? machine.memory
  modify fun machine => { machine with dictionary }
  return .restarted

end ZMachine.Machine
