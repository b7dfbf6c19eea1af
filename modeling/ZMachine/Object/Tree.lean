import ZMachine.Object.Table

/-!
# The tree of objects

Each object links to its parent, to its next sibling and to its first child; 0 means none. Moving an
object means taking it out of the chain of siblings that it stands in and making it the first child
of its new parent. It takes its own children along.
-/

namespace ZMachine

/-- A link of an object. -/
inductive Link where
  | parent
  | sibling
  | child
deriving Repr, DecidableEq

/-- The place of a link among the three of an entry. -/
def Link.place : Link → Nat
  | parent => 0
  | sibling => 1
  | child => 2

namespace ObjectTable

/-- The address of a link of an object. -/
def linkAddress (table : ObjectTable) (object : Nat) (link : Link) : Except Fault Nat := do
  let entry ← table.entryAddress object
  return entry + table.attributeBytes + link.place * table.linkBytes

/-- The object to which a link leads. -/
def follow (table : ObjectTable) (memory : Memory) (object : Nat) (link : Link) :
    Except Fault Nat := do
  let address ← table.linkAddress object link
  if table.isSmall then return (← memory.fetchByte address).toNat
  else return (← memory.fetchWord address).toNat

/-- The object that holds an object. -/
def parent (table : ObjectTable) (memory : Memory) (object : Nat) : Except Fault Nat :=
  table.follow memory object .parent

/-- The next object with the same parent. -/
def sibling (table : ObjectTable) (memory : Memory) (object : Nat) : Except Fault Nat :=
  table.follow memory object .sibling

/-- The first object that an object holds. -/
def child (table : ObjectTable) (memory : Memory) (object : Nat) : Except Fault Nat :=
  table.follow memory object .child

/-- Stores the object to which a link at an address leads. The smaller layout has no room for
objects above 255. -/
def storeLink (table : ObjectTable) (address value : Nat) : MemoryM Unit :=
  if table.isSmall then
    if 255 < value then throw (.invalidObject value)
    else Memory.writeByte address (UInt8.ofNat value)
  else Memory.writeWord address (UInt16.ofNat value)

/-- Makes a link lead to an object. -/
def setLink (table : ObjectTable) (object : Nat) (link : Link) (value : Nat) : MemoryM Unit := do
  let address ← Memory.inspect fun _ => table.linkAddress object link
  table.storeLink address value

/-- The sibling just before an object in the chain that starts with `current`, if the object is in
that chain. At most `steps` links are followed. -/
def elder (table : ObjectTable) (memory : Memory) (object : Nat) :
    (steps current : Nat) → Except Fault (Option Nat)
  | 0, _ => .error (.endlessSiblings object)
  | steps + 1, current =>
    if current = 0 then .ok none
    else
      match table.sibling memory current with
      | .error fault => .error fault
      | .ok following =>
        if following = object then .ok (some current)
        else table.elder memory object steps following

/-- Closes the gap that an object leaves among the children of its parent. An object that is missing
there leaves none. -/
def closeGap (table : ObjectTable) (object parent next : Nat) : MemoryM Unit := do
  let first ← Memory.inspect (table.child · parent)
  if first = object then table.setLink parent .child next
  else
    match ← Memory.inspect (table.elder · object (table.maxObject + 1) first) with
    | none => pure ()
    | some elder => table.setLink elder .sibling next

/-- Takes an object out of its parent. -/
def remove (table : ObjectTable) (object : Nat) : MemoryM Unit := do
  let parent ← Memory.inspect (table.parent · object)
  if parent = 0 then pure ()
  else
    let next ← Memory.inspect (table.sibling · object)
    table.closeGap object parent next
    table.setLink object .parent 0
    table.setLink object .sibling 0

/-- Makes an object the first child of another. -/
def insert (table : ObjectTable) (object parent : Nat) : MemoryM Unit := do
  if parent = 0 then throw (.invalidObject 0)
  else
    table.remove object
    let first ← Memory.inspect (table.child · parent)
    table.setLink object .sibling first
    table.setLink parent .child object
    table.setLink object .parent parent

end ObjectTable

end ZMachine
