import ZMachine.Machine.Routine

/-!
# The world of objects

The operations on objects. Object 0 has no relatives, no attributes and no properties: a question
about its links, an attribute or the address of a property is answered with nothing. To remove it or
to print its name does nothing. To read one of its properties, to ask for the next one, and to change
its attributes, its properties or its place are faults of the object table.
-/

namespace ZMachine.Machine

variable {η : Type}

/-- The answer to a question about an object, `nothing` for object 0. -/
def askObject {α : Type} (object : UInt16) (nothing : α)
    (question : ObjectTable → Memory → Nat → Except Fault α) : MachineM η α :=
  if object = 0 then pure nothing
  else inspect fun machine => question machine.objects machine.memory object.toNat

/-- Changes the objects. -/
def changeObjects (change : ObjectTable → MemoryM Unit) : MachineM η Outcome := do
  let objects ← inspect fun machine => .ok machine.objects
  onMemory (change objects)
  return .advanced

/-- Stores the object to which a link leads, and branches if there is one. -/
def followLink (instruction : Instruction) (values : List UInt16) (link : Link) :
    MachineM η Outcome := do
  let object ← need instruction values 0
  let related ← askObject object 0 fun objects memory object => objects.follow memory object link
  storeResult instruction (UInt16.ofNat related)
  branchIf instruction (related ≠ 0)

/-- The number of a property, which is a byte. -/
def needProperty (instruction : Instruction) (values : List UInt16) : MachineM η Nat := do
  let value ← need instruction values 1
  return (Word.low value).toNat

/-- The operations on objects, attributes and properties. -/
def world [Host η] (instruction : Instruction) (opcode : Opcode) (values : List UInt16) :
    MachineM η Outcome :=
  match opcode with
  | .getParent => do
    let object ← need instruction values 0
    let parent ← askObject object 0 ObjectTable.parent
    conclude instruction (UInt16.ofNat parent)
  | .getChild => followLink instruction values .child
  | .getSibling => followLink instruction values .sibling
  | .jin => do
    let object ← need instruction values 0
    let container ← need instruction values 1
    let inside ← askObject object false fun objects memory object =>
      (objects.parent memory object).map (· == container.toNat)
    branchIf instruction inside
  | .testAttr => do
    let object ← need instruction values 0
    let index ← need instruction values 1
    let has ← askObject object false fun objects memory object =>
      objects.hasAttribute memory object index.toNat
    branchIf instruction has
  | .setAttr => do
    let object ← need instruction values 0
    let index ← need instruction values 1
    changeObjects fun objects => objects.writeAttribute object.toNat index.toNat true
  | .clearAttr => do
    let object ← need instruction values 0
    let index ← need instruction values 1
    changeObjects fun objects => objects.writeAttribute object.toNat index.toNat false
  | .insertObj => do
    let object ← need instruction values 0
    let destination ← need instruction values 1
    changeObjects fun objects => objects.insert object.toNat destination.toNat
  | .removeObj => do
    let object ← need instruction values 0
    if object = 0 then return .advanced
    else changeObjects fun objects => objects.remove object.toNat
  | .getProp => do
    let object ← need instruction values 0
    let number ← needProperty instruction values
    let value ← inspect fun machine =>
      machine.objects.propertyValue machine.memory object.toNat number
    conclude instruction value
  | .getPropAddr => do
    let object ← need instruction values 0
    let number ← needProperty instruction values
    let address ← askObject object 0 fun objects memory object =>
      objects.propertyAddress memory object number
    conclude instruction (UInt16.ofNat address)
  | .getPropLen => do
    let address ← need instruction values 0
    let length ← inspect fun machine =>
      machine.objects.propertyLength machine.memory address.toNat
    conclude instruction (UInt16.ofNat length)
  | .getNextProp => do
    let object ← need instruction values 0
    let number ← needProperty instruction values
    let next ← inspect fun machine =>
      machine.objects.nextProperty machine.memory object.toNat number
    conclude instruction (UInt16.ofNat next)
  | .putProp => do
    let object ← need instruction values 0
    let number ← needProperty instruction values
    let value ← need instruction values 2
    changeObjects fun objects => objects.setProperty object.toNat number value
  | .printObj => do
    let object ← need instruction values 0
    if object = 0 then return .advanced
    else
      let name ← inspect fun machine =>
        machine.objects.shortName machine.memory machine.codec machine.abbreviations object.toNat
      outputText name
      return .advanced
  | _ => unsupported instruction

end ZMachine.Machine
