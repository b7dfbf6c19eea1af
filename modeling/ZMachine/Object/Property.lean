import ZMachine.Abbreviation
import ZMachine.Object.Table

/-!
# Names and properties

The properties of an object follow its short name: a list of blocks, each with a size and a number
in front of its data, that ends with a zero byte. A property that an object lacks has a default
value in the object table.
-/

namespace ZMachine

/-- A block of a property list. -/
structure Property where
  number : Nat
  size : Nat
  /-- The address of the data. -/
  dataAddress : Nat
deriving Repr, DecidableEq

/-- The address after the data of a property. -/
def Property.next (property : Property) : Nat :=
  property.dataAddress + property.size

namespace ObjectTable

/-- The address of the properties of an object. -/
def propertyTable (table : ObjectTable) (memory : Memory) (object : Nat) : Except Fault Nat := do
  let entry ← table.entryAddress object
  return (← memory.fetchWord (entry + (if table.isSmall then 7 else 12))).toNat

/-- The default value of a property. -/
def propertyDefault (table : ObjectTable) (memory : Memory) (number : Nat) :
    Except Fault UInt16 :=
  if number = 0 ∨ table.defaultCount < number then
    .error (.propertyViolation 0 number .noDefault)
  else memory.fetchWord (table.address + (number - 1) * 2)

/-- The codes of the short name of an object. -/
def nameCodes (table : ObjectTable) (memory : Memory) (object : Nat) :
    Except Fault (List Nat) := do
  let address ← table.propertyTable memory object
  let words ← memory.fetchByte address
  if words = 0 then return []
  else return (← memory.readCodes (address + 1) (some (words.toNat * 2))).2

/-- The short name of an object. -/
def shortName (table : ObjectTable) (memory : Memory) (codec : Codec)
    (abbreviations : AbbreviationTable) (object : Nat) : Except Fault String := do
  let codes ← table.nameCodes memory object
  codec.decodeText (abbreviations.expand memory codec) codes

/-- A size that is written in six bits, where 0 means 64. -/
def wideSize (byte : UInt8) : Nat :=
  if byte.toNat % 64 = 0 then 64 else byte.toNat % 64

/-- The property whose block begins at an address; none at the end of the list. -/
def propertyAt (table : ObjectTable) (memory : Memory) (address : Nat) :
    Except Fault (Option Property) := do
  let first ← memory.fetchByte address
  if first = 0 then return none
  else if table.isSmall then
    return some ⟨first.toNat % 32, first.toNat / 32 + 1, address + 1⟩
  else if 128 ≤ first.toNat then
    let second ← memory.fetchByte (address + 1)
    return some ⟨first.toNat % 64, wideSize second, address + 2⟩
  else return some ⟨first.toNat % 64, if 64 ≤ first.toNat then 2 else 1, address + 1⟩

/-- A block begins inside the file and ends after its beginning. -/
theorem lt_next_of_propertyAt {table : ObjectTable} {memory : Memory} {address : Nat}
    {property : Property} (found : table.propertyAt memory address = .ok (some property)) :
    address < memory.bytes.size ∧ address < property.next := by
  unfold propertyAt Memory.fetchByte at found
  by_cases inside : memory.bytes.size ≤ address
  · simp [inside, bind, Except.bind] at found
  · simp only [inside, if_false, bind, Except.bind, pure, Except.pure] at found
    refine ⟨by omega, ?_⟩
    split at found
    · simp at found
    · split at found
      · simp only [Except.ok.injEq, Option.some.injEq] at found
        subst found
        simp only [Property.next]
        omega
      · split at found
        · split at found
          · simp at found
          · simp only [Except.ok.injEq, Option.some.injEq] at found
            subst found
            simp only [Property.next]
            omega
        · simp only [Except.ok.injEq, Option.some.injEq] at found
          subst found
          simp only [Property.next]
          omega

/-- The properties from an address on, after those in `before`. -/
def propertiesFrom (table : ObjectTable) (memory : Memory) (address : Nat)
    (before : Array Property) : Except Fault (List Property) :=
  match _ : table.propertyAt memory address with
  | .error fault => .error fault
  | .ok none => .ok before.toList
  | .ok (some property) => table.propertiesFrom memory property.next (before.push property)
termination_by memory.bytes.size - address
decreasing_by
  have bounds := lt_next_of_propertyAt ‹_›
  omega

/-- The properties of an object, in the order in which they are stored. -/
def properties (table : ObjectTable) (memory : Memory) (object : Nat) :
    Except Fault (List Property) := do
  let address ← table.propertyTable memory object
  let words ← memory.fetchByte address
  table.propertiesFrom memory (address + 1 + words.toNat * 2) #[]

/-- A property of an object by number. -/
def findProperty (table : ObjectTable) (memory : Memory) (object number : Nat) :
    Except Fault (Option Property) := do
  return (← table.properties memory object).find? (·.number = number)

/-- The data of a property of an object. -/
def propertyData (table : ObjectTable) (memory : Memory) (object number : Nat) :
    Except Fault (Option (List UInt8)) := do
  match ← table.findProperty memory object number with
  | none => return none
  | some property => return some (← memory.fetchBytes property.dataAddress property.size)

/-- The value of a property: its byte or its first word, or the default if the object lacks it. -/
def propertyValue (table : ObjectTable) (memory : Memory) (object number : Nat) :
    Except Fault UInt16 := do
  match ← table.findProperty memory object number with
  | none => table.propertyDefault memory number
  | some property =>
    if property.size = 1 then return (← memory.fetchByte property.dataAddress).toUInt16
    else memory.fetchWord property.dataAddress

/-- Stores a value in the data of a property, which must be a byte or a word. -/
def storeProperty (object : Nat) (property : Property) (value : UInt16) : MemoryM Unit :=
  if property.size = 1 then Memory.writeByte property.dataAddress (Word.low value)
  else if property.size = 2 then Memory.writeWord property.dataAddress value
  else throw (.propertyViolation object property.number (.wide property.size))

/-- Changes the value of a property that an object has. -/
def setProperty (table : ObjectTable) (object number : Nat) (value : UInt16) : MemoryM Unit := do
  match ← Memory.inspect (table.findProperty · object number) with
  | none => throw (.propertyViolation object number .missing)
  | some property => storeProperty object property value

/-- The address of the data of a property, 0 if the object lacks it. -/
def propertyAddress (table : ObjectTable) (memory : Memory) (object number : Nat) :
    Except Fault Nat := do
  match ← table.findProperty memory object number with
  | none => return 0
  | some property => return property.dataAddress

/-- The size of the property whose data begins at an address, read off the byte before. -/
def propertyLength (table : ObjectTable) (memory : Memory) (dataAddress : Nat) :
    Except Fault Nat := do
  if dataAddress = 0 then return 0
  else
    let byte ← memory.fetchByte (dataAddress - 1)
    if table.isSmall then return byte.toNat / 32 + 1
    else if 128 ≤ byte.toNat then return wideSize byte
    else return if 64 ≤ byte.toNat then 2 else 1

/-- The number of the property after another one of an object, or of its first property for 0; the
last one is followed by 0. -/
def nextProperty (table : ObjectTable) (memory : Memory) (object number : Nat) :
    Except Fault Nat := do
  let list ← table.properties memory object
  if number = 0 then return (list.head?.map (·.number)).getD 0
  else
    match list.findIdx? (·.number = number) with
    | none => throw (.propertyViolation object number .noSuccessor)
    | some place => return (list[place + 1]?.map (·.number)).getD 0

end ObjectTable

end ZMachine
