import Mathlib.Data.List.Pairwise
import ZMachine.Proofs.Memory.Region
import ZMachine.Proofs.Object.Blocks

/-!
# Values of properties

The value of a property is stored among the very bytes that spell out the list of properties. What
reading the list looks at are the headers of the blocks, the zero byte behind them, and what leads
there from the entry of the object; none of these lies in the data of a block. So a value that is
stored leaves the list as it was, and with it the data of all other properties, unless the data lie
where the entry says where the list is.
-/

namespace ZMachine

/-- Where the data of a property are. -/
def Property.data (property : Property) : Set Nat :=
  Set.Ico property.dataAddress property.next

namespace ObjectTable

open Memory (Apart Confined SameIn)

variable {table : ObjectTable} {memory first second after : Memory}
  {object number start stop : Nat} {property : Property} {list : List Property} {region : Set Nat}
  {value : UInt16} {fault : Fault}

/-- The two bytes in the entry of an object that say where its properties are. -/
def pointerRegion (table : ObjectTable) (object : Nat) : Set Nat :=
  { place | ∃ entry, table.entryAddress object = .ok entry ∧
    place ∈ Set.Ico (entry + if table.isSmall then 7 else 12)
      (entry + (if table.isSmall then 7 else 12) + 2) }

theorem propertyTable_of_same (same : SameIn region first second)
    (pointer : table.pointerRegion object ⊆ region) :
    table.propertyTable second object = table.propertyTable first object := by
  unfold propertyTable
  cases located : table.entryAddress object with
  | error fault => rfl
  | ok entry =>
      have high := pointer ⟨entry, located, Nat.le_refl _, by omega⟩
      have low := pointer ⟨entry, located, Nat.le_succ _, by omega⟩
      simp only [bind, Except.bind, same.fetchWord high low]

namespace Block

theorem of_same (block : table.Block first start property) (same : SameIn region first second)
    (header : Set.Ico start property.dataAddress ⊆ region) :
    table.Block second start property := by
  have begins : start ∈ region := header ⟨Nat.le_refl start, block.start_lt_dataAddress⟩
  cases block with
  | small layout read nonzero => exact .small layout ((same.fetchByte begins).trans read) nonzero
  | short layout read nonzero clear =>
      exact .short layout ((same.fetchByte begins).trans read) nonzero clear
  | long layout read marked readSecond =>
      have goesOn : start + 1 ∈ region := header ⟨Nat.le_succ start, Nat.lt_succ_self _⟩
      exact .long layout ((same.fetchByte begins).trans read) marked
        ((same.fetchByte goesOn).trans readSecond)

end Block

namespace Blocks

/-- Blocks stay where they are as long as everything between their data does. -/
theorem of_same (blocks : table.Blocks first start list stop) (same : SameIn region first second)
    (headers : ∀ place, start ≤ place → place < stop →
      (∀ property ∈ list, place ∉ property.data) → place ∈ region) :
    table.Blocks second start list stop := by
  induction blocks with
  | none start => exact .none start
  | @next start stop property rest block others ih =>
      have data := block.dataAddress_lt_next
      have ends := others.start_le_stop
      refine .next (block.of_same same ?_) (ih ?_)
      · rintro place ⟨from_, below⟩
        apply headers place from_ (by omega)
        intro other member inside
        have behind := inside.1
        rcases List.mem_cons.mp member with rfl | later
        · omega
        · have := (others.within other later).1
          omega
      · intro place from_ below outside
        apply headers place (by have := block.start_lt_dataAddress; omega) below
        intro other member inside
        rcases List.mem_cons.mp member with rfl | later
        · have := inside.2
          omega
        · exact outside other later inside

/-- The data of different blocks do not overlap. -/
theorem apart_data (blocks : table.Blocks memory start list stop) :
    list.Pairwise fun one other => Apart one.data other.data := by
  induction blocks with
  | none start => exact .nil
  | @next start stop property rest block others ih =>
      refine .cons (fun later member => ?_) ih
      rintro place ⟨_, below⟩ ⟨behind, _⟩
      have := (others.within later member).1
      omega

end Blocks

/-- The list begins behind the address of the properties. -/
theorem listStart_eq_ok : table.listStart memory object = .ok start ↔
    ∃ address words, table.propertyTable memory object = .ok address ∧
      memory.fetchByte address = .ok words ∧ address + 1 + words.toNat * 2 = start := by
  constructor
  · intro located
    rcases query_bind_eq_ok.mp located with ⟨address, pointed, located⟩
    rcases query_bind_eq_ok.mp located with ⟨words, read, located⟩
    cases located
    exact ⟨address, words, pointed, read, rfl⟩
  · rintro ⟨address, words, pointed, read, rfl⟩
    exact query_bind_eq_ok.mpr ⟨address, pointed, query_bind_eq_ok.mpr ⟨words, read, rfl⟩⟩

/-- A change of the data of one property goes unnoticed by the list, unless it hits the pointer to
the list. -/
theorem properties_of_same (listed : table.properties first object = .ok list)
    (member : property ∈ list) (same : SameIn property.dataᶜ first second)
    (beside : Apart property.data (table.pointerRegion object)) :
    table.properties second object = .ok list := by
  rcases properties_eq_ok.mp listed with ⟨start, stop, located, blocks, zero⟩
  rcases listStart_eq_ok.mp located with ⟨address, words, pointed, read, behind⟩
  rcases blocks.within property member with ⟨low, high⟩
  refine properties_eq_ok.mpr ⟨start, stop, ?_, ?_, ?_⟩
  · refine listStart_eq_ok.mpr ⟨address, words, ?_, ?_, behind⟩
    · rw [propertyTable_of_same same beside.subset_compl, pointed]
    · rw [same.fetchByte, read]
      intro inside
      have := inside.1
      omega
  · exact blocks.of_same same fun place _ _ outside => outside property member
  · rw [same.fetchByte, zero]
    intro inside
    have := inside.2
    omega

/-- The data of the other properties are the same as before. -/
theorem propertyData_of_same (listed : table.properties first object = .ok list)
    (again : table.properties second object = .ok list) (member : property ∈ list)
    (same : SameIn property.dataᶜ first second) (different : number ≠ property.number) :
    table.propertyData second object number = table.propertyData first object number := by
  unfold propertyData
  rw [findProperty_eq listed, findProperty_eq again]
  cases search : list.find? (·.number = number) with
  | none => rfl
  | some other =>
      have apart : Apart property.data other.data := by
        rcases properties_eq_ok.mp listed with ⟨_, _, _, blocks, _⟩
        have symmetric : Std.Symm fun one other : Property => Apart one.data other.data :=
          ⟨fun _ _ apart => apart.symm⟩
        apply blocks.apart_data.forall member (List.mem_of_find?_eq_some search)
        rintro rfl
        have found := List.find?_some search
        simp only [decide_eq_true_eq] at found
        exact different found.symm
      have unchanged : second.fetchBytes other.dataAddress other.size =
          first.fetchBytes other.dataAddress other.size :=
        same.fetchBytes apart.subset_compl
      simp only [bind, Except.bind, unchanged]

/-- The image with a value in the data of a property of one or two bytes. -/
def withValue (image : Image) (property : Property) (value : UInt16) : Image :=
  if property.size = 1 then image.setByte property.dataAddress (Word.low value)
  else image.setWord property.dataAddress value

theorem storeProperty_eq_ok : storeProperty object property value memory = .ok () after ↔
    (property.size = 1 ∨ property.size = 2) ∧ property.next ≤ memory.header.staticBase ∧
      after = { memory with bytes := withValue memory.bytes property value } := by
  unfold storeProperty withValue Property.next
  by_cases single : property.size = 1
  · simp only [single, if_true, true_or, true_and, Memory.writeByte_eq_ok, Nat.succ_le_iff]
  · rw [if_neg single, if_neg single]
    by_cases double : property.size = 2
    · rw [if_pos double, Memory.writeWord_eq_ok, double]
      exact ⟨fun stored => ⟨Or.inr rfl, stored⟩, fun stored => stored.2⟩
    · rw [if_neg double]
      constructor
      · intro impossible
        cases impossible
      · rintro ⟨narrow, _⟩
        exact (narrow.elim single double).elim

theorem storeProperty_of_error
    (refused : storeProperty object property value memory = .error fault after) :
    after = memory := by
  unfold storeProperty at refused
  split at refused
  · exact Memory.eq_of_writeByte_error refused
  · split at refused
    · exact Memory.eq_of_writeWord_error refused
    · cases refused
      rfl

theorem setProperty_eq_ok : table.setProperty object number value memory = .ok () after ↔
    ∃ property, table.findProperty memory object number = .ok (some property) ∧
      storeProperty object property value memory = .ok () after := by
  constructor
  · intro success
    rcases bind_eq_ok.mp success with ⟨found, _, read, stored⟩
    rcases Memory.inspect_eq_ok.mp read with ⟨answer, rfl⟩
    cases found with
    | none => cases stored
    | some property => exact ⟨property, answer, stored⟩
  · rintro ⟨property, answer, stored⟩
    exact bind_eq_ok.mpr ⟨_, memory, Memory.inspect_eq_ok.mpr ⟨answer, rfl⟩, stored⟩

theorem setProperty_of_error
    (refused : table.setProperty object number value memory = .error fault after) :
    after = memory := by
  rcases bind_eq_error refused with unread | ⟨found, _, read, unstored⟩
  · exact (Memory.inspect_eq_error.mp unread).2
  · rcases Memory.inspect_eq_ok.mp read with ⟨_, rfl⟩
    cases found with
    | none =>
        cases unstored
        rfl
    | some property => exact storeProperty_of_error unstored

theorem findProperty_eq_some : table.findProperty memory object number = .ok (some property) ↔
    ∃ list, table.properties memory object = .ok list ∧
      list.find? (·.number = number) = some property := by
  rw [findProperty, query_bind_eq_ok]
  simp only [pure, Except.pure, Except.ok.injEq]

theorem sameIn_withValue (memory : Memory) (value : UInt16)
    (single : property.size = 1 ∨ property.size = 2) :
    SameIn property.dataᶜ memory
      { memory with bytes := withValue memory.bytes property value } := by
  have inside : ∀ offset < property.size, property.dataAddress + offset ∈ property.data :=
    fun offset short => ⟨by omega, by simp only [Property.next]; omega⟩
  have first := inside 0 (by omega)
  refine ⟨rfl, ?_, fun place outside => ?_⟩
  · unfold withValue
    split <;> simp
  · unfold withValue
    split
    · apply Image.byteAt_setByte_of_ne
      rintro rfl
      exact outside first
    · have second := inside 1 (by omega)
      apply Image.byteAt_setWord_of_ne
      · rintro rfl
        exact outside first
      · rintro rfl
        exact outside second

theorem toUInt16_low (word : UInt16) : (Word.low word).toUInt16 = word % 256 := by
  apply UInt16.toNat_inj.mp
  simp [Word.low]

/-- What storing a value in a property changes, and what is told about the object afterwards. -/
structure Stored (table : ObjectTable) (object : Nat) (property : Property) (value : UInt16)
    (before after : Memory) : Prop where
  rest : after = { before with bytes := after.bytes }
  size : after.bytes.size = before.bytes.size
  data : Confined property.data before after
  listed : Apart property.data (table.pointerRegion object) →
    table.properties after object = table.properties before object
  value : Apart property.data (table.pointerRegion object) →
    table.propertyValue after object property.number =
      .ok (if property.size = 1 then value % 256 else value)
  others : Apart property.data (table.pointerRegion object) → ∀ number ≠ property.number,
    table.propertyData after object number = table.propertyData before object number

theorem stored_of_setProperty
    (success : table.setProperty object number value memory = .ok () after) :
    ∃ property, table.findProperty memory object number = .ok (some property) ∧
      table.Stored object property value memory after := by
  rcases setProperty_eq_ok.mp success with ⟨property, found, stored⟩
  rcases storeProperty_eq_ok.mp stored with ⟨narrow, _, rfl⟩
  rcases findProperty_eq_some.mp found with ⟨list, listed, search⟩
  have member := List.mem_of_find?_eq_some search
  have same := sameIn_withValue memory value narrow
  have again := fun beside : Apart property.data (table.pointerRegion object) =>
    properties_of_same listed member same beside
  have number : property.number = number := by simpa using List.find?_some search
  refine ⟨property, found, rfl, same.size, same.bytes, fun beside => ?_, fun beside => ?_,
    fun beside other different => ?_⟩
  · rw [again beside, listed]
  · have inside : property.next ≤ memory.bytes.size :=
      ((views_of_properties listed).elim fun _ views => (views.2.inside property member).2)
    have bounds : property.dataAddress + property.size ≤ memory.bytes.size := inside
    have foundAgain := findProperty_eq_some.mpr ⟨list, again beside, search⟩
    rw [number, propertyValue_of_found foundAgain (same.size ▸ inside) (by omega)]
    unfold withValue
    by_cases single : property.size = 1
    · simp only [single, if_true]
      rw [Image.byteAt_setByte (by omega), toUInt16_low]
    · simp only [single, if_false]
      rw [Image.wordAt_setWord (by omega)]
  · exact propertyData_of_same listed (again beside) member same different

/-- The table of defaults has a word for the number of a property, inside the file. -/
def HasDefault (table : ObjectTable) (memory : Memory) (number : Nat) : Prop :=
  1 ≤ number ∧ number ≤ (if table.version ≤ 3 then 31 else 63) ∧
    table.address + (number - 1) * 2 + 2 ≤ memory.bytes.size

/-- The value of a property that an object lacks: the word in the table of defaults, or none. -/
structure Defaults (table : ObjectTable) (memory : Memory) (number : Nat)
    (result : Except Fault UInt16) : Prop where
  word : table.HasDefault memory number →
    result = .ok (memory.bytes.wordAt (table.address + (number - 1) * 2))
  nothing : ¬table.HasDefault memory number → ∃ fault, result = .error fault

theorem defaults_propertyDefault (table : ObjectTable) (memory : Memory) (number : Nat) :
    table.Defaults memory number (table.propertyDefault memory number) := by
  have count : table.defaultCount = if table.version ≤ 3 then 31 else 63 := by
    simp [defaultCount, isSmall]
  unfold propertyDefault Memory.fetchWord
  constructor
  · rintro ⟨positive, few, inside⟩
    rw [if_neg (by omega), if_neg (by omega)]
  · intro untold
    rw [HasDefault, ← count] at untold
    split
    · exact ⟨_, rfl⟩
    · rw [if_pos (by omega)]
      exact ⟨_, rfl⟩

theorem defaults_propertyValue (listed : table.properties memory object = .ok list)
    (missing : ∀ property ∈ list, property.number ≠ number) :
    table.Defaults memory number (table.propertyValue memory object number) := by
  have absent : table.propertyValue memory object number = table.propertyDefault memory number := by
    simp only [propertyValue, findProperty_of_missing listed missing, bind, Except.bind]
  rw [absent]
  exact table.defaults_propertyDefault memory number

/-- A value can be stored exactly in a property of one or two bytes that the object has, in dynamic
memory; otherwise nothing changes. Storing it changes the data of the property only, and reading
gives it back, as far as it fits, while the list and the data of the other properties stay. A
property that the object lacks has a default value or none. -/
theorem setProperty_lawful (table : ObjectTable) (memory : Memory) (object number : Nat)
    (value : UInt16) :
    ((∃ after, table.setProperty object number value memory = .ok () after) ↔
      ∃ list property, table.properties memory object = .ok list ∧
        list.find? (·.number = number) = some property ∧
        (property.size = 1 ∨ property.size = 2) ∧
        property.next ≤ memory.header.staticBase) ∧
    (∀ fault after, table.setProperty object number value memory = .error fault after →
      after = memory) ∧
    (∀ after, table.setProperty object number value memory = .ok () after →
      ∃ property, table.findProperty memory object number = .ok (some property) ∧
        table.Stored object property value memory after) ∧
    ∀ list, table.properties memory object = .ok list →
      (∀ property ∈ list, property.number ≠ number) →
      table.Defaults memory number (table.propertyValue memory object number) := by
  refine ⟨⟨?_, ?_⟩, fun fault after => setProperty_of_error, fun after => stored_of_setProperty,
    fun list => defaults_propertyValue⟩
  · rintro ⟨after, success⟩
    rcases setProperty_eq_ok.mp success with ⟨property, found, stored⟩
    rcases findProperty_eq_some.mp found with ⟨list, listed, search⟩
    rcases storeProperty_eq_ok.mp stored with ⟨narrow, dynamic, _⟩
    exact ⟨list, property, listed, search, narrow, dynamic⟩
  · rintro ⟨list, property, listed, search, narrow, dynamic⟩
    have found := findProperty_eq_some.mpr ⟨list, listed, search⟩
    exact ⟨_, setProperty_eq_ok.mpr ⟨property, found,
      storeProperty_eq_ok.mpr ⟨narrow, dynamic, rfl⟩⟩⟩

theorem properties_twoProperties :
    (ofMemory twoProperties).properties twoProperties 1 = .ok [⟨40, 2, 207⟩, ⟨3, 1, 210⟩] :=
  properties_eq_ok.mpr ⟨205, 211, listStart_twoProperties, blocks_twoProperties,
    eq_ok_of_toOption (by decide +kernel)⟩

/-- The pointer of the object, at 202, lies before its properties. -/
theorem apart_pointer_twoProperties :
    Apart (⟨40, 2, 207⟩ : Property).data ((ofMemory twoProperties).pointerRegion 1) := by
  have entry : ((ofMemory twoProperties).entryAddress 1).toOption = some 190 := by decide +kernel
  have layout : (ofMemory twoProperties).isSmall = false := by decide +kernel
  rintro place ⟨behind, _⟩ ⟨address, located, _, before⟩
  rw [eq_ok_of_toOption entry, Except.ok.injEq] at located
  have under : place < 204 := by simpa [layout, ← located] using before
  simp only at behind
  omega

/-- In the world of two properties, the first one takes a word and the second one, a byte, stays.
The object lacks property 5, and its default is 0. -/
theorem setProperty_lawful_two :
    let table := ofMemory twoProperties
    ∃ after, table.setProperty 1 40 0x1234 twoProperties = .ok () after ∧
      table.properties after 1 = .ok [⟨40, 2, 207⟩, ⟨3, 1, 210⟩] ∧
      table.propertyValue after 1 40 = .ok 0x1234 ∧
      table.propertyData after 1 3 = table.propertyData twoProperties 1 3 ∧
      table.propertyValue twoProperties 1 5 = .ok 0 := by
  intro table
  have listed : table.properties twoProperties 1 = .ok [⟨40, 2, 207⟩, ⟨3, 1, 210⟩] :=
    properties_twoProperties
  have dynamic : (⟨40, 2, 207⟩ : Property).next ≤ twoProperties.header.staticBase := by
    decide +kernel
  rcases setProperty_lawful table twoProperties 1 40 0x1234 with ⟨accepted, _, stores, _⟩
  rcases accepted.mpr ⟨_, ⟨40, 2, 207⟩, listed, by decide, Or.inr rfl, dynamic⟩ with
    ⟨after, success⟩
  rcases stores after success with ⟨property, found, stored⟩
  rw [findProperty_eq listed] at found
  cases found
  have beside := apart_pointer_twoProperties
  have lacks := (setProperty_lawful table twoProperties 1 5 0).2.2.2 _ listed (by simp)
  refine ⟨after, success, ?_, stored.value beside, stored.others beside 3 (by decide), ?_⟩
  · rw [stored.listed beside, listed]
  · rw [lacks.word ⟨by decide, by decide +kernel, by decide +kernel⟩]
    exact congrArg Except.ok (by decide +kernel)

end ObjectTable

end ZMachine
