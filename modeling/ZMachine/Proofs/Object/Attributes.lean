import Mathlib.Data.Nat.Bitwise
import ZMachine.Object.Attribute
import ZMachine.Proofs.Object.Refusal
import ZMachine.Proofs.Object.Tree
import ZMachine.Proofs.Object.Values

/-!
# Attributes as bits

Each attribute of each object is one bit of memory. Different attributes are different bits, because
the entries of objects do not overlap and the attributes fill whole bytes of an entry, and none of
these bits belongs to a link or to the pointer to the properties. So giving an object an attribute,
or taking it away, is noticed only where this attribute is asked for.
-/

namespace ZMachine

/-- A bit of an image; bit 7 is the most significant one of its byte. -/
def Image.bitAt (image : Image) (address bit : Nat) : Bool :=
  (image.byteAt address).toNat.testBit bit

namespace ObjectTable

open Memory (SameIn)

variable {table : ObjectTable} {memory after first second : Memory}
  {object other index place entry : Nat} {value : Bool} {link : Link} {fault : Fault}
  {region : Set Nat}

theorem toNat_attributeMask (index : Nat) : (attributeMask index).toNat = 2 ^ (7 - index % 8) := by
  have masks : ∀ rest < 8, ((0x80 : UInt8) >>> UInt8.ofNat rest).toNat = 2 ^ (7 - rest) := by
    decide
  exact masks (index % 8) (Nat.mod_lt index (by decide))

theorem testBit_withAttribute (byte : UInt8) (index bit : Nat) (value : Bool) :
    (withAttribute byte index value).toNat.testBit bit =
      if bit = 7 - index % 8 then value else byte.toNat.testBit bit := by
  have mask : (attributeMask index).toNat.testBit bit = decide (7 - index % 8 = bit) := by
    rw [toNat_attributeMask, Nat.testBit_two_pow]
  unfold withAttribute
  cases value with
  | true =>
      simp only [if_true, UInt8.toNat_or, Nat.testBit_or, mask]
      by_cases same : bit = 7 - index % 8
      · simp [same]
      · simp [same, Ne.symm same]
  | false =>
      have others : (~~~attributeMask index).toNat.testBit bit =
          (decide (bit < 8) && !decide (7 - index % 8 = bit)) := by
        have complement : (~~~attributeMask index).toNat =
            2 ^ 8 - ((attributeMask index).toNat + 1) := by
          rw [UInt8.toNat_not, UInt8.size, Nat.sub_sub, Nat.add_comm]
          rfl
        rw [← mask, complement]
        exact Nat.testBit_two_pow_sub_succ (attributeMask index).toNat_lt bit
      have short : ¬bit < 8 → byte.toNat.testBit bit = false := by
        intro wide
        have bound : 2 ^ 8 ≤ 2 ^ bit := Nat.pow_le_pow_right (by decide) (by omega)
        exact Nat.testBit_lt_two_pow (lt_of_lt_of_le byte.toNat_lt bound)
      simp only [Bool.false_eq_true, if_false, UInt8.toNat_and, Nat.testBit_and, others]
      by_cases same : bit = 7 - index % 8
      · simp [same]
      · by_cases inside : bit < 8
        · simp [same, Ne.symm same, inside]
        · simp [same, short inside]

theorem attributeMask_and (byte : UInt8) (index : Nat) :
    (byte &&& attributeMask index != 0) = byte.toNat.testBit (7 - index % 8) := by
  have zero : byte &&& attributeMask index = 0 ↔ byte.toNat.testBit (7 - index % 8) = false := by
    rw [← UInt8.toNat_inj, UInt8.toNat_and, toNat_attributeMask, Nat.and_two_pow]
    simp
  cases set : byte.toNat.testBit (7 - index % 8) with
  | true => simpa [set] using zero
  | false => simpa [set] using zero

/-- An object and one of its attributes that exist, and where the entry of the object is. -/
def HasPlace (table : ObjectTable) (object index entry : Nat) : Prop :=
  index < table.maxAttributes ∧ table.entryAddress object = .ok entry

theorem entryAddress_eq_ok : table.entryAddress object = .ok entry ↔
    Numbered table.maxObject object ∧
      table.address + table.defaultCount * 2 + (object - 1) * table.entrySize = entry := by
  unfold entryAddress Numbered
  split
  · simp only [reduceCtorEq, false_iff]
    omega
  · rw [Except.ok.injEq]
    omega

theorem attributeEntry_eq_ok :
    table.attributeEntry object index = .ok entry ↔ table.HasPlace object index entry := by
  unfold attributeEntry HasPlace
  split
  · simp only [reduceCtorEq, false_iff]
    omega
  · rename_i few
    exact ⟨fun located => ⟨by omega, located⟩, fun placed => placed.2⟩

theorem HasPlace.byte_lt (placed : table.HasPlace object index entry) :
    index / 8 < table.attributeBytes := by
  have few := placed.1
  unfold maxAttributes at few
  omega

/-- The attributes of an object, its links and the pointer to its properties make up its entry. -/
theorem entrySize_eq (table : ObjectTable) :
    table.entrySize = table.attributeBytes + 3 * table.linkBytes + 2 := by
  unfold attributeBytes linkBytes entrySize
  split
  · rfl
  · rfl

/-- The entries of different objects do not overlap. -/
theorem entries_apart {otherEntry : Nat} (located : table.entryAddress object = .ok entry)
    (otherLocated : table.entryAddress other = .ok otherEntry) (different : other ≠ object) :
    entry + table.entrySize ≤ otherEntry ∨ otherEntry + table.entrySize ≤ entry := by
  rcases entryAddress_eq_ok.mp located with ⟨⟨positive, _⟩, rfl⟩
  rcases entryAddress_eq_ok.mp otherLocated with ⟨⟨otherPositive, _⟩, rfl⟩
  unfold entrySize
  split
  · omega
  · omega

/-- Different attributes are different bits. -/
theorem HasPlace.unique {otherEntry : Nat} (placed : table.HasPlace object index entry)
    (otherPlaced : table.HasPlace other place otherEntry)
    (byte : otherEntry + place / 8 = entry + index / 8) (bit : 7 - place % 8 = 7 - index % 8) :
    other = object ∧ place = index := by
  have size := table.entrySize_eq
  have inside := placed.byte_lt
  have otherInside := otherPlaced.byte_lt
  by_cases same : other = object
  · subst same
    have entries : otherEntry = entry := by
      have located := placed.2
      rw [otherPlaced.2, Except.ok.injEq] at located
      exact located
    exact ⟨rfl, by omega⟩
  · have apart := entries_apart placed.2 otherPlaced.2 same
    omega

/-- What stands behind the attributes in an entry belongs to no attribute. -/
theorem HasPlace.ne_of_behind {otherEntry : Nat} (placed : table.HasPlace object index entry)
    (located : table.entryAddress other = .ok otherEntry)
    (behind : otherEntry + table.attributeBytes ≤ place)
    (before : place < otherEntry + table.entrySize) : entry + index / 8 ≠ place := by
  have size := table.entrySize_eq
  have inside := placed.byte_lt
  by_cases same : other = object
  · subst same
    have entries := placed.2
    rw [located, Except.ok.injEq] at entries
    omega
  · have apart := entries_apart placed.2 located same
    omega

theorem HasPlace.notMem_linkRegion (placed : table.HasPlace object index entry) (other : Nat)
    (link : Link) : entry + index / 8 ∉ table.linkRegion other link := by
  rintro ⟨address, linked, first, last⟩
  rcases query_bind_eq_ok.mp linked with ⟨otherEntry, located, same⟩
  cases same
  have size := table.entrySize_eq
  have third : link.place * table.linkBytes + table.linkBytes ≤ 3 * table.linkBytes := by
    cases link <;> simp only [Link.place] <;> omega
  exact placed.ne_of_behind located (by omega) (by omega) rfl

theorem HasPlace.notMem_pointerRegion (placed : table.HasPlace object index entry) (other : Nat) :
    entry + index / 8 ∉ table.pointerRegion other := by
  rintro ⟨otherEntry, located, first, last⟩
  have layout : (if table.isSmall then 7 else 12) = table.attributeBytes + 3 * table.linkBytes := by
    unfold attributeBytes linkBytes
    cases table.isSmall <;> rfl
  have size := table.entrySize_eq
  rw [layout] at first last
  exact placed.ne_of_behind located (by omega) (by omega) rfl

theorem hasAttribute_eq (placed : table.HasPlace object index entry) :
    table.hasAttribute memory object index =
      if memory.bytes.size < entry + table.attributeBytes then .error (.outsideStory entry)
      else .ok (memory.bytes.bitAt (entry + index / 8) (7 - index % 8)) := by
  unfold hasAttribute Memory.fetchBytes
  rw [attributeEntry_eq_ok.mpr placed]
  simp only [bind, Except.bind, pure, Except.pure]
  by_cases outside : memory.bytes.size < entry + table.attributeBytes
  · rw [if_pos outside, if_pos outside]
  · have inside := placed.byte_lt
    have byte : (memory.bytes.extract entry
        (entry + table.attributeBytes)).toList[index / 8]?.getD 0 =
          memory.bytes.byteAt (entry + index / 8) := by
      rw [Array.getElem?_toList, Array.getElem?_extract, if_pos (by omega), Image.byteAt]
    rw [if_neg outside, if_neg outside]
    simp only [byte, attributeMask_and, Image.bitAt]

theorem hasAttribute_of_bit (size : second.bytes.size = first.bytes.size)
    (bit : ∀ entry, table.HasPlace object index entry →
      second.bytes.bitAt (entry + index / 8) (7 - index % 8) =
        first.bytes.bitAt (entry + index / 8) (7 - index % 8)) :
    table.hasAttribute second object index = table.hasAttribute first object index := by
  cases located : table.attributeEntry object index with
  | error fault => simp only [hasAttribute, located, bind, Except.bind]
  | ok entry =>
      have placed := attributeEntry_eq_ok.mp located
      rw [hasAttribute_eq placed, hasAttribute_eq placed, size, bit entry placed]

theorem follow_of_same (same : SameIn region first second)
    (inside : table.linkRegion object link ⊆ region) :
    table.follow second object link = table.follow first object link := by
  unfold follow
  cases located : table.linkAddress object link with
  | error fault => rfl
  | ok address =>
      have byte : ∀ offset < table.linkBytes, address + offset ∈ region := fun offset short =>
        inside ⟨address, located, Nat.le_add_right _ _, by omega⟩
      unfold linkBytes at byte
      cases layout : table.isSmall with
      | true =>
          simp only [layout, if_true] at byte
          have read : second.fetchByte address = first.fetchByte address :=
            same.fetchByte (byte 0 (by decide))
          simp only [bind, Except.bind, if_true, read]
      | false =>
          simp only [layout, Bool.false_eq_true, if_false] at byte
          have read : second.fetchWord address = first.fetchWord address :=
            same.fetchWord (byte 0 (by decide)) (byte 1 (by decide))
          simp only [bind, Except.bind, Bool.false_eq_true, if_false, read]

theorem writeAttribute_eq_ok : table.writeAttribute object index value memory = .ok () after ↔
    ∃ entry, table.HasPlace object index entry ∧
      entry + table.attributeBytes ≤ memory.header.staticBase ∧
      after = { memory with
        bytes := memory.bytes.setByte (entry + index / 8)
          (withAttribute (memory.bytes.byteAt (entry + index / 8)) index value) } := by
  constructor
  · intro success
    rcases bind_eq_ok.mp success with ⟨entry, _, placing, checking⟩
    rcases Memory.inspect_eq_ok.mp placing with ⟨located, rfl⟩
    rcases bind_eq_ok.mp checking with ⟨_, _, check, reading⟩
    rcases Memory.inspect_eq_ok.mp check with ⟨checked, rfl⟩
    rcases bind_eq_ok.mp reading with ⟨_, _, read, storing⟩
    rcases Memory.inspect_eq_ok.mp read with ⟨found, rfl⟩
    cases found
    refine ⟨entry, attributeEntry_eq_ok.mp located, ?_, (Memory.writeByte_eq_ok.mp storing).2⟩
    unfold Memory.checkDynamic at checked
    split at checked
    · cases checked
    · omega
  · rintro ⟨entry, placed, dynamic, rfl⟩
    have inside := placed.byte_lt
    refine bind_eq_ok.mpr ⟨entry, memory,
      Memory.inspect_eq_ok.mpr ⟨attributeEntry_eq_ok.mpr placed, rfl⟩, ?_⟩
    refine bind_eq_ok.mpr ⟨(), memory, Memory.inspect_eq_ok.mpr ⟨if_neg (by omega), rfl⟩, ?_⟩
    refine bind_eq_ok.mpr ⟨_, memory, Memory.inspect_eq_ok.mpr ⟨rfl, rfl⟩, ?_⟩
    exact Memory.writeByte_eq_ok.mpr ⟨by omega, rfl⟩

theorem writeAttribute_of_error
    (refused : table.writeAttribute object index value memory = .error fault after) :
    after = memory := by
  rcases bind_eq_error refused with unplaced | ⟨entry, _, placing, unchecked⟩
  · exact (Memory.inspect_eq_error.mp unplaced).2
  rcases Memory.inspect_eq_ok.mp placing with ⟨_, rfl⟩
  rcases bind_eq_error unchecked with static | ⟨_, _, checking, unread⟩
  · exact (Memory.inspect_eq_error.mp static).2
  rcases Memory.inspect_eq_ok.mp checking with ⟨_, rfl⟩
  rcases bind_eq_error unread with impossible | ⟨byte, _, reading, unwritten⟩
  · exact (Memory.inspect_eq_error.mp impossible).2
  rcases Memory.inspect_eq_ok.mp reading with ⟨_, rfl⟩
  exact Memory.eq_of_writeByte_error unwritten

/-- What becomes of a memory when an object is given an attribute or loses it. -/
structure Assigned (table : ObjectTable) (object index : Nat) (value : Bool)
    (before after : Memory) : Prop where
  rest : after = { before with bytes := after.bytes }
  size : after.bytes.size = before.bytes.size
  here : table.hasAttribute after object index = .ok value
  elsewhere : ∀ other place, ¬(other = object ∧ place = index) →
    table.hasAttribute after other place = table.hasAttribute before other place
  bits : ∀ entry, table.entryAddress object = .ok entry →
    ∀ address bit, ¬(address = entry + index / 8 ∧ bit = 7 - index % 8) →
      after.bytes.bitAt address bit = before.bytes.bitAt address bit
  links : ∀ other link, table.follow after other link = table.follow before other link
  pointers : ∀ other, table.propertyTable after other = table.propertyTable before other

theorem assigned_of_writeAttribute (static : memory.header.staticBase ≤ memory.bytes.size)
    (success : table.writeAttribute object index value memory = .ok () after) :
    table.Assigned object index value memory after := by
  rcases writeAttribute_eq_ok.mp success with ⟨entry, placed, dynamic, rfl⟩
  have inside := placed.byte_lt
  have bits : ∀ address bit, (memory.bytes.setByte (entry + index / 8) (withAttribute
        (memory.bytes.byteAt (entry + index / 8)) index value)).bitAt address bit =
      if entry + index / 8 = address ∧ bit = 7 - index % 8 then value
      else memory.bytes.bitAt address bit := by
    intro address bit
    rw [Image.bitAt, Image.byteAt_setByte_eq (by omega), Image.bitAt]
    by_cases reached : entry + index / 8 = address
    · simp [reached, testBit_withAttribute]
    · simp [reached]
  have same : SameIn {entry + index / 8}ᶜ memory { memory with
      bytes := memory.bytes.setByte (entry + index / 8)
        (withAttribute (memory.bytes.byteAt (entry + index / 8)) index value) } :=
    ⟨rfl, by simp, fun address outside => Image.byteAt_setByte_of_ne (Ne.symm outside) _ _⟩
  constructor
  case rest => rfl
  case size => simp
  case here =>
    rw [hasAttribute_eq placed, if_neg, bits, if_pos ⟨rfl, rfl⟩]
    rw [same.size]
    omega
  case elsewhere =>
    intro other place different
    refine hasAttribute_of_bit same.size fun otherEntry otherPlaced => ?_
    rw [bits, if_neg]
    rintro ⟨byte, bit⟩
    exact different (placed.unique otherPlaced byte.symm bit)
  case bits =>
    intro known located address bit different
    rw [placed.2, Except.ok.injEq] at located
    rw [bits, if_neg]
    rintro ⟨byte, bit⟩
    exact different ⟨by omega, bit⟩
  case links =>
    intro other link
    apply follow_of_same same
    exact Set.subset_compl_singleton_iff.mpr (placed.notMem_linkRegion other link)
  case pointers =>
    intro other
    apply propertyTable_of_same same
    exact Set.subset_compl_singleton_iff.mpr (placed.notMem_pointerRegion other)

/-- Attributes are independent. One that exists is given or taken away exactly if all attributes of
the object lie in dynamic memory, and otherwise nothing changes. It is then there or not, as told,
while every other attribute of every object, every link and every other bit of memory stays. -/
theorem attributes_independent (static : memory.header.staticBase ≤ memory.bytes.size)
    (table : ObjectTable) (object index : Nat) (value : Bool) :
    ((∃ after, table.writeAttribute object index value memory = .ok () after) ↔
      index < (if table.version ≤ 3 then 32 else 48) ∧
        ∃ entry, table.entryAddress object = .ok entry ∧
          entry + table.attributeBytes ≤ memory.header.staticBase) ∧
    table.entryAddress 0 = .error (.invalidObject 0) ∧
    (∀ fault after, table.writeAttribute object index value memory = .error fault after →
      after = memory) ∧
    ∀ after, table.writeAttribute object index value memory = .ok () after →
      table.Assigned object index value memory after := by
  have count : table.maxAttributes = if table.version ≤ 3 then 32 else 48 := by
    unfold maxAttributes attributeBytes isSmall
    by_cases early : table.version ≤ 3
    · simp [early]
    · simp [early]
  refine ⟨⟨?_, ?_⟩, rfl, fun fault after => writeAttribute_of_error,
    fun after => assigned_of_writeAttribute static⟩
  · rintro ⟨after, success⟩
    rcases writeAttribute_eq_ok.mp success with ⟨entry, ⟨few, located⟩, dynamic, _⟩
    exact ⟨count ▸ few, entry, located, dynamic⟩
  · rintro ⟨few, entry, located, dynamic⟩
    exact ⟨_, writeAttribute_eq_ok.mpr ⟨entry, ⟨count ▸ few, located⟩, dynamic, rfl⟩⟩

/-- In the small world object 2 gets its attribute 9. It has no attribute 10 then, object 3 has no
attribute 9, and object 2 is still in object 1. Nobody can get an attribute 32. -/
theorem attributes_independent_small :
    let table := ofMemory smallWorld
    ∃ after, table.writeAttribute 2 9 true smallWorld = .ok () after ∧
      table.hasAttribute after 2 9 = .ok true ∧ table.hasAttribute after 2 10 = .ok false ∧
      table.hasAttribute after 3 9 = .ok false ∧ table.follow after 2 .parent = .ok 1 ∧
      ¬∃ after, table.writeAttribute 2 32 true smallWorld = .ok () after := by
  intro table
  have static : smallWorld.header.staticBase ≤ smallWorld.bytes.size := by decide +kernel
  have early : (ofMemory smallWorld).version = 3 := by decide +kernel
  have entry : (table.entryAddress 2).toOption = some 135 := by decide +kernel
  have inside : 135 + table.attributeBytes ≤ smallWorld.header.staticBase := by decide +kernel
  rcases attributes_independent static table 2 9 true with ⟨accepted, _, _, given⟩
  have few : 9 < if table.version ≤ 3 then 32 else 48 := by
    rw [early]
    decide
  rcases accepted.mpr ⟨few, 135, eq_ok_of_toOption entry, inside⟩ with ⟨after, success⟩
  have assigned := given after success
  refine ⟨after, success, assigned.here, ?_, ?_, ?_, ?_⟩
  · rw [assigned.elsewhere 2 10 (by decide)]
    exact eq_ok_of_toOption (by decide +kernel)
  · rw [assigned.elsewhere 3 9 (by decide)]
    exact eq_ok_of_toOption (by decide +kernel)
  · rw [assigned.links]
    exact eq_ok_of_toOption (by decide +kernel)
  · intro taken
    have few := ((attributes_independent static table 2 32 true).1.mp taken).1
    rw [early] at few
    exact absurd few (by decide)

end ObjectTable

end ZMachine
