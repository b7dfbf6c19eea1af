import ZMachine.Memory.Frame

/-!
# Snapshots

A snapshot is all that can change while a story runs. Taking one and going back to it is how a game
is saved, restored and undone; going back to the loaded image is how it is restarted.
-/

namespace ZMachine

/-- A state of play. -/
structure Snapshot where
  pc : Nat
  /-- The bytes of dynamic memory. -/
  dynamic : Image
  frame : Frame
  frames : List Frame
deriving DecidableEq

namespace Memory

/-- The state of play. -/
def snapshot (memory : Memory) : Snapshot where
  pc := memory.pc
  dynamic := memory.bytes.extract 0 memory.header.staticBase
  frame := memory.frame
  frames := memory.frames

/-- Goes back to a state of play, which must have dynamic memory of the right size. -/
def restoreSnapshot (snapshot : Snapshot) : MemoryM Unit := fun memory =>
  if snapshot.dynamic.size ≠ memory.header.staticBase then
    .error (.invalidText (.snapshotSize snapshot.dynamic.size memory.header.staticBase)) memory
  else .ok ()
    { memory with
      bytes := memory.bytes.withStart snapshot.dynamic
      pc := snapshot.pc
      frame := snapshot.frame
      frames := snapshot.frames }

/-- The byte whose two low bits survive a restart: whether a transcript is kept, and whether the
letters have a fixed width. -/
def survivingAddress : Nat := Header.flags2Address + 1

/-- Goes back to the story as it was loaded, except for the bits that survive. -/
def restart (memory : Memory) : Memory :=
  let kept := memory.bytes.byteAt survivingAddress &&& 0x03
  let bytes := memory.bytes.withStart (memory.pristine.extract 0 memory.header.staticBase)
  { memory with
    bytes := bytes.setByte survivingAddress ((bytes.byteAt survivingAddress &&& 0xFC) ||| kept)
    pc := memory.header.initialPc
    frame := {}
    frames := [] }

/-- The sum of the loaded bytes from the end of the header to the length that the header gives. -/
def checksum (memory : Memory) : UInt16 :=
  (memory.pristine.extract Header.size memory.header.fileLength).foldl
    (fun sum byte => sum + byte.toUInt16) 0

end Memory

end ZMachine
