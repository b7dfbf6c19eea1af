import ZMachine.Memory.Snapshot

/-!
# Saved games

An archive keeps states of play: one saved game and a limited history for undoing moves. A story
only learns whether a request worked.
-/

namespace ZMachine

/-- Where states of play are kept. -/
inductive Archive where
  /-- Nothing is kept; every request fails. -/
  | absent
  /-- A saved game, and the latest states for undoing, the newest first, of which at most `depth`
  are kept. -/
  | snapshots (saved : Option Snapshot) (history : List Snapshot) (depth : Nat)
  /-- A broken device: saving and restoring are faults, and nothing can be undone. -/
  | broken

namespace Archive

/-- An empty archive with a history of limited depth. -/
def empty (depth : Nat := 8) : Archive :=
  .snapshots none [] depth

/-- Saves the game. -/
def save (archive : Archive) (memory : Memory) : Except Fault (Bool × Archive) :=
  match archive with
  | absent => .ok (false, archive)
  | snapshots _ history depth => .ok (true, .snapshots (some memory.snapshot) history depth)
  | broken => .error (.input "save refused")

/-- Goes back to the saved game, if there is one. -/
def restore (archive : Archive) : MemoryM Bool :=
  match archive with
  | absent => pure false
  | snapshots none _ _ => pure false
  | snapshots (some saved) _ _ => do
    Memory.restoreSnapshot saved
    return true
  | broken => throw (.input "restore refused")

/-- Notes the state of play for undoing. A full history loses its oldest state. -/
def saveUndo (archive : Archive) (memory : Memory) : Bool × Archive :=
  match archive with
  | snapshots saved history depth =>
    if depth = 0 then (false, archive)
    else (true, .snapshots saved (memory.snapshot :: history.take (depth - 1)) depth)
  | _ => (false, archive)

/-- Takes the newest state out of the history. -/
def takeUndo (archive : Archive) : Option Snapshot × Archive :=
  match archive with
  | snapshots saved (newest :: history) depth => (some newest, .snapshots saved history depth)
  | _ => (none, archive)

/-- Goes back to the newest state of the history, which is used up, if there is one. -/
def restoreUndo : EStateM Fault (Archive × Memory) Bool := fun (archive, memory) =>
  match archive.takeUndo with
  | (none, archive) => .ok false (archive, memory)
  | (some newest, archive) =>
    match Memory.restoreSnapshot newest memory with
    | .ok _ memory => .ok true (archive, memory)
    | .error fault memory => .error fault (archive, memory)

/-- Whether there is a saved game. -/
def hasSave : Archive → Bool
  | snapshots saved _ _ => saved.isSome
  | _ => false

/-- The number of states that can be undone. -/
def undoCount : Archive → Nat
  | snapshots _ history _ => history.length
  | _ => 0

end Archive

end ZMachine
