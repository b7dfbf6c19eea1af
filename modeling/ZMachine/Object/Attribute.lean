import ZMachine.Object.Table

/-!
# Attributes

The attributes of an object are bits, numbered from the most significant bit of the first byte of
its entry on.
-/

namespace ZMachine.ObjectTable

/-- The mask of an attribute in its byte. -/
def attributeMask (index : Nat) : UInt8 :=
  0x80 >>> UInt8.ofNat (index % 8)

/-- The address of the entry of an object, for an attribute that exists. -/
def attributeEntry (table : ObjectTable) (object index : Nat) : Except Fault Nat :=
  if table.maxAttributes ≤ index then .error (.invalidAttribute object index)
  else table.entryAddress object

/-- Whether an object has an attribute. -/
def hasAttribute (table : ObjectTable) (memory : Memory) (object index : Nat) :
    Except Fault Bool := do
  let entry ← table.attributeEntry object index
  let bytes ← memory.fetchBytes entry table.attributeBytes
  return bytes[index / 8]?.getD 0 &&& attributeMask index != 0

/-- A byte of attributes with one attribute given or taken away. -/
def withAttribute (byte : UInt8) (index : Nat) (value : Bool) : UInt8 :=
  if value then byte ||| attributeMask index else byte &&& ~~~attributeMask index

/-- Gives an object an attribute or takes it away. All its attributes must lie in dynamic memory. -/
def writeAttribute (table : ObjectTable) (object index : Nat) (value : Bool) : MemoryM Unit := do
  let entry ← Memory.inspect fun _ => table.attributeEntry object index
  Memory.inspect (·.checkDynamic entry table.attributeBytes)
  let byte ← Memory.inspect fun memory => .ok (memory.bytes.byteAt (entry + index / 8))
  Memory.writeByte (entry + index / 8) (withAttribute byte index value)

end ZMachine.ObjectTable
