import ZMachine.Memory.Access

/-!
# The object table

A story describes its world by numbered objects. The table begins with the default values of the
properties; then each object has an entry with its attributes, its three links in the tree of
objects, and the address of its properties. Versions 1 to 3 have smaller entries than later ones.
-/

namespace ZMachine

/-- The place and layout of an object table. -/
structure ObjectTable where
  version : Nat
  address : Nat
deriving Repr, DecidableEq

namespace ObjectTable

/-- The object table that a header names. -/
def ofMemory (memory : Memory) : ObjectTable :=
  ⟨memory.version, memory.header.objectTable⟩

/-- Whether entries have the smaller layout. -/
def isSmall (table : ObjectTable) : Bool :=
  table.version ≤ 3

/-- The number of property defaults. -/
def defaultCount (table : ObjectTable) : Nat :=
  if table.isSmall then 31 else 63

/-- The number of bytes of an entry. -/
def entrySize (table : ObjectTable) : Nat :=
  if table.isSmall then 9 else 14

/-- The number of bytes of the attributes of an object. -/
def attributeBytes (table : ObjectTable) : Nat :=
  if table.isSmall then 4 else 6

/-- The number of bytes of a link. -/
def linkBytes (table : ObjectTable) : Nat :=
  if table.isSmall then 1 else 2

/-- The greatest object number. -/
def maxObject (table : ObjectTable) : Nat :=
  if table.isSmall then 255 else 65535

/-- The number of attributes of an object. -/
def maxAttributes (table : ObjectTable) : Nat :=
  table.attributeBytes * 8

/-- The address of the entry of an object. Objects are numbered from 1. -/
def entryAddress (table : ObjectTable) (object : Nat) : Except Fault Nat :=
  if object = 0 ∨ table.maxObject < object then .error (.invalidObject object)
  else .ok (table.address + table.defaultCount * 2 + (object - 1) * table.entrySize)

end ObjectTable

end ZMachine
