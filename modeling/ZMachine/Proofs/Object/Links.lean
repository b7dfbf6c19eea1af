import ZMachine.Object.Tree
import ZMachine.Proofs.Action
import ZMachine.Proofs.Image
import ZMachine.Proofs.Instruction.Decoding

/-!
# Links in memory

The links of the objects from 1 to some number, taken as one function, and the memories that store
them. Following a link reads the function, and setting a link changes the function at one place: the
entries of objects do not overlap, and neither do the links in an entry. So what becomes of the tree
of objects can be worked out on functions, with either layout of the entries.
-/

namespace ZMachine

/-- One of the objects from 1 to `count`. -/
def Numbered (count object : Nat) : Prop :=
  1 ≤ object ∧ object ≤ count

/-- Where each link of each object leads. -/
abbrev Links := Nat → Link → Nat

namespace Links

/-- The links with one of them changed. -/
def set (links : Links) (object : Nat) (link : Link) (value : Nat) : Links := fun other place =>
  if other = object ∧ place = link then value else links other place

variable (links : Links) (object : Nat) (link : Link) (value : Nat)

@[simp]
theorem set_same : links.set object link value object link = value := by
  simp [set]

@[simp]
theorem set_of_ne {other : Nat} (different : other ≠ object) (place : Link) :
    links.set object link value other place = links other place := by
  simp [set, different]

@[simp]
theorem set_of_link_ne (other : Nat) {place : Link} (different : place ≠ link) :
    links.set object link value other place = links other place := by
  simp [set, different]

theorem set_le {bound : Nat} (small : value ≤ bound) {other : Nat} {place : Link}
    (bounded : links other place ≤ bound) : links.set object link value other place ≤ bound := by
  unfold set
  split
  · exact small
  · exact bounded

end Links

namespace ObjectTable

variable (table : ObjectTable)

/-- The place of a link of an object that exists. -/
def linkPlace (object : Nat) (link : Link) : Nat :=
  table.address + table.defaultCount * 2 + (object - 1) * table.entrySize + table.attributeBytes +
    link.place * table.linkBytes

/-- The object that a link at an address of an image leads to. -/
def linkAt (image : Image) (address : Nat) : Nat :=
  if table.isSmall then (image.byteAt address).toNat else (image.wordAt address).toNat

/-- The image in which a link at an address leads to an object. -/
def withLink (image : Image) (address value : Nat) : Image :=
  if table.isSmall then image.setByte address (UInt8.ofNat value)
  else image.setWord address (UInt16.ofNat value)

/-- Links do not overlap. -/
theorem linkPlace_apart {object other : Nat} {link place : Link} (positive : 1 ≤ object)
    (otherPositive : 1 ≤ other) (different : ¬ (other = object ∧ place = link)) :
    table.linkPlace object link + table.linkBytes ≤ table.linkPlace other place ∨
      table.linkPlace other place + table.linkBytes ≤ table.linkPlace object link := by
  unfold linkPlace entrySize attributeBytes linkBytes
  rcases Nat.lt_trichotomy object other with before | rfl | after
  · cases table.isSmall <;> cases link <;> cases place <;> simp [Link.place] <;> omega
  · cases table.isSmall <;> cases link <;> cases place <;> simp_all [Link.place]
  · cases table.isSmall <;> cases link <;> cases place <;> simp [Link.place] <;> omega

variable {table} {count object : Nat} {memory : Memory}

theorem linkAddress_eq (few : count ≤ table.maxObject) (numbered : Numbered count object)
    (link : Link) : table.linkAddress object link = .ok (table.linkPlace object link) := by
  have legal : ¬ (object = 0 ∨ table.maxObject < object) := by
    unfold Numbered at numbered
    omega
  simp only [linkAddress, entryAddress, if_neg legal, linkPlace]
  rfl

theorem follow_eq_ok (few : count ≤ table.maxObject) (numbered : Numbered count object)
    {link : Link} {value : Nat} :
    table.follow memory object link = .ok value ↔
      table.linkPlace object link + table.linkBytes ≤ memory.bytes.size ∧
        table.linkAt memory.bytes (table.linkPlace object link) = value := by
  unfold follow linkAt linkBytes
  rw [linkAddress_eq few numbered]
  cases small : table.isSmall with
  | true =>
      simp only [bind, Except.bind, if_true]
      cases fetched : memory.fetchByte (table.linkPlace object link) with
      | ok byte =>
          rcases Memory.fetchByte_eq_ok.mp fetched with ⟨inside, rfl⟩
          simp [pure, Except.pure]
          omega
      | error fault =>
          simp only [reduceCtorEq, false_iff, not_and]
          intro inside
          rw [Memory.fetchByte_eq_ok.mpr ⟨by omega, rfl⟩] at fetched
          cases fetched
  | false =>
      simp only [bind, Except.bind, Bool.false_eq_true, if_false]
      cases fetched : memory.fetchWord (table.linkPlace object link) with
      | ok word =>
          rcases Memory.fetchWord_eq_ok.mp fetched with ⟨inside, rfl⟩
          simp [pure, Except.pure]
          omega
      | error fault =>
          simp only [reduceCtorEq, false_iff, not_and]
          intro inside
          rw [Memory.fetchWord_eq_ok.mpr ⟨inside, rfl⟩] at fetched
          cases fetched

section WithLink

variable {image : Image} {address value : Nat}

theorem size_withLink : (table.withLink image address value).size = image.size := by
  unfold withLink
  split <;> simp

theorem linkAt_withLink (inside : address + table.linkBytes ≤ image.size)
    (small : value ≤ table.maxObject) :
    table.linkAt (table.withLink image address value) address = value := by
  unfold linkBytes at inside
  unfold maxObject at small
  unfold linkAt withLink
  cases layout : table.isSmall with
  | true =>
      simp only [layout, if_true] at inside small ⊢
      rw [Image.byteAt_setByte (by omega), UInt8.toNat_ofNat']
      omega
  | false =>
      simp only [layout, Bool.false_eq_true, if_false] at inside small ⊢
      rw [Image.wordAt_setWord (by omega), UInt16.toNat_ofNat']
      omega

theorem linkAt_withLink_of_apart {other : Nat}
    (apart : address + table.linkBytes ≤ other ∨ other + table.linkBytes ≤ address) :
    table.linkAt (table.withLink image address value) other = table.linkAt image other := by
  unfold linkBytes at apart
  unfold linkAt withLink
  cases layout : table.isSmall with
  | true =>
      simp only [layout, if_true] at apart ⊢
      rw [Image.byteAt_setByte_of_ne (by omega)]
  | false =>
      simp only [layout, Bool.false_eq_true, if_false, Image.wordAt] at apart ⊢
      rw [Image.byteAt_setWord_of_ne (by omega) (by omega),
        Image.byteAt_setWord_of_ne (by omega) (by omega)]

end WithLink

theorem storeLink_eq {address value : Nat}
    (dynamic : address + table.linkBytes ≤ memory.header.staticBase)
    (small : value ≤ table.maxObject) :
    table.storeLink address value memory =
      .ok () { memory with bytes := table.withLink memory.bytes address value } := by
  unfold linkBytes at dynamic
  unfold maxObject at small
  unfold storeLink withLink
  cases layout : table.isSmall with
  | true =>
      simp only [layout, if_true] at dynamic small ⊢
      rw [if_neg (by omega), Memory.writeByte, if_neg (by omega)]
  | false =>
      simp only [layout, Bool.false_eq_true, if_false] at dynamic small ⊢
      rw [Memory.writeWord, if_neg (by omega)]

/-- A memory stores the links of the objects from 1 to `count`, each of them in dynamic memory. -/
structure Linked (table : ObjectTable) (count : Nat) (links : Links) (memory : Memory) : Prop where
  few : count ≤ table.maxObject
  dynamic : ∀ object link, Numbered count object →
    table.linkPlace object link + table.linkBytes ≤ memory.header.staticBase
  stored : ∀ object link, Numbered count object →
    table.follow memory object link = .ok (links object link)

namespace Linked

variable {links : Links} (linked : table.Linked count links memory)

include linked

theorem inspect_follow (numbered : Numbered count object) (link : Link) :
    Memory.inspect (table.follow · object link) memory = .ok (links object link) memory := by
  rw [Memory.inspect, linked.stored object link numbered]

/-- Setting a link changes the function of links at one place. -/
theorem setLink (numbered : Numbered count object) (link : Link) {value : Nat}
    (small : value ≤ count) :
    ∃ after, table.setLink object link value memory = .ok () after ∧
      table.Linked count (links.set object link value) after := by
  have dynamic := linked.dynamic object link numbered
  have address : Memory.inspect (fun _ => table.linkAddress object link) memory =
      .ok (table.linkPlace object link) memory := by
    rw [Memory.inspect, linkAddress_eq linked.few numbered]
  refine ⟨{ memory with
    bytes := table.withLink memory.bytes (table.linkPlace object link) value }, ?_, linked.few,
    linked.dynamic, ?_⟩
  · unfold ObjectTable.setLink
    rw [bind_of_ok address]
    exact storeLink_eq dynamic (Nat.le_trans small linked.few)
  · intro other place otherNumbered
    rcases (follow_eq_ok linked.few otherNumbered).mp (linked.stored other place otherNumbered)
      with ⟨inside, holds⟩
    refine (follow_eq_ok linked.few otherNumbered).mpr ⟨by rwa [size_withLink], ?_⟩
    by_cases same : other = object ∧ place = link
    · rcases same with ⟨rfl, rfl⟩
      rw [linkAt_withLink inside (Nat.le_trans small linked.few), Links.set_same]
    · rw [linkAt_withLink_of_apart (table.linkPlace_apart numbered.1 otherNumbered.1 same), holds,
        Links.set, if_neg same]

end Linked

end ObjectTable

end ZMachine
