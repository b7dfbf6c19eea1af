import ZMachine.Object.Property
import ZMachine.Proofs.Action
import ZMachine.Proofs.Instruction.Decoding

/-!
# The list of properties of an object

The properties of an object are blocks that stand one behind the other, and only a zero byte in
place of a header ends them. Nothing keeps the list within bounds, so reading it either finds that
byte or runs out of the file.

`Block` says how the format writes one block and `Blocks` how blocks follow each other. Once the
list is known to be `Blocks`, every way of asking about a property is a question about the list. The
size of a property is also read backwards from its data; `Block.propertyLength` compares the two
readings.
-/

namespace ZMachine

namespace ObjectTable

variable {table : ObjectTable} {memory : Memory} {object number start stop : Nat}
  {property : Property} {list before after blocks : List Property}

/-- The second byte of a header of two bytes has its upper bit set, as the format prescribes. -/
def Marked (memory : Memory) (start : Nat) (property : Property) : Prop :=
  property.dataAddress = start + 2 → 128 ≤ (memory.bytes.byteAt (start + 1)).toNat

theorem one_le_wideSize (byte : UInt8) : 1 ≤ wideSize byte := by
  unfold wideSize
  split
  · omega
  · omega

/-- A block as the format writes it: the header that begins at an address, and the property that it
announces. -/
inductive Block (table : ObjectTable) (memory : Memory) (start : Nat) : Property → Prop where
  /-- In the smaller layout, the lower five bits are the number and the others the size. -/
  | small {header : UInt8} (layout : table.isSmall = true)
      (read : memory.fetchByte start = .ok header) (nonzero : header ≠ 0) :
      Block table memory start ⟨header.toNat % 32, header.toNat / 32 + 1, start + 1⟩
  /-- A header of one byte has the number in its lower six bits and room for two sizes. -/
  | short {header : UInt8} (layout : table.isSmall = false)
      (read : memory.fetchByte start = .ok header) (nonzero : header ≠ 0)
      (clear : header.toNat < 128) :
      Block table memory start
        ⟨header.toNat % 64, if 64 ≤ header.toNat then 2 else 1, start + 1⟩
  /-- A header of two bytes has the size in the lower six bits of the second. -/
  | long {header second : UInt8} (layout : table.isSmall = false)
      (read : memory.fetchByte start = .ok header) (marked : 128 ≤ header.toNat)
      (readSecond : memory.fetchByte (start + 1) = .ok second) :
      Block table memory start ⟨header.toNat % 64, wideSize second, start + 2⟩

theorem propertyAt_eq_some :
    table.propertyAt memory start = .ok (some property) ↔ table.Block memory start property := by
  constructor
  · intro found
    unfold propertyAt at found
    rcases query_bind_eq_ok.mp found with ⟨header, read, found⟩
    split at found
    · cases found
    · rename_i nonzero
      split at found
      · rename_i layout
        cases found
        exact .small layout read nonzero
      · rename_i layout
        have layout := Bool.eq_false_iff.mpr layout
        split at found
        · rename_i marked
          rcases query_bind_eq_ok.mp found with ⟨second, readSecond, found⟩
          cases found
          exact .long layout read marked readSecond
        · rename_i clear
          cases found
          exact .short layout read nonzero (Nat.lt_of_not_le clear)
  · intro block
    unfold propertyAt
    cases block with
    | small layout read nonzero =>
        rw [query_bind_eq_ok]
        exact ⟨_, read, by rw [if_neg nonzero, if_pos layout]; rfl⟩
    | short layout read nonzero clear =>
        rw [query_bind_eq_ok]
        refine ⟨_, read, ?_⟩
        rw [if_neg nonzero, if_neg (by simp [layout]), if_neg (Nat.not_le_of_lt clear)]
        rfl
    | @long header second layout read marked readSecond =>
        have nonzero : header ≠ 0 := by
          rintro rfl
          contradiction
        rw [query_bind_eq_ok]
        refine ⟨_, read, ?_⟩
        rw [if_neg nonzero, if_neg (by simp [layout]), if_pos marked, query_bind_eq_ok]
        exact ⟨_, readSecond, rfl⟩

theorem propertyAt_eq_none :
    table.propertyAt memory start = .ok none ↔ memory.fetchByte start = .ok 0 := by
  constructor
  · intro found
    unfold propertyAt at found
    rcases query_bind_eq_ok.mp found with ⟨header, read, found⟩
    split at found
    · rename_i zero
      rwa [zero] at read
    · split at found
      · cases found
      · split at found
        · rcases query_bind_eq_ok.mp found with ⟨_, _, found⟩
          cases found
        · cases found
  · intro read
    unfold propertyAt
    rw [query_bind_eq_ok]
    exact ⟨0, read, rfl⟩

namespace Block

variable (block : table.Block memory start property)

include block

theorem start_lt : start < memory.bytes.size := by
  cases block with
  | small _ read _ => exact (Memory.fetchByte_eq_ok.mp read).1
  | short _ read _ _ => exact (Memory.fetchByte_eq_ok.mp read).1
  | long _ read _ _ => exact (Memory.fetchByte_eq_ok.mp read).1

theorem start_lt_dataAddress : start < property.dataAddress := by
  cases block with
  | small _ _ _ => exact Nat.lt_add_of_pos_right (by decide)
  | short _ _ _ _ => exact Nat.lt_add_of_pos_right (by decide)
  | long _ _ _ _ => exact Nat.lt_add_of_pos_right (by decide)

theorem one_le_size : 1 ≤ property.size := by
  cases block with
  | small _ _ _ => exact Nat.le_add_left 1 _
  | short _ _ _ _ =>
      dsimp only
      split
      · omega
      · omega
  | long _ _ _ _ => exact one_le_wideSize _

theorem dataAddress_lt_next : property.dataAddress < property.next :=
  Nat.lt_add_of_pos_right block.one_le_size

/-- The byte before the data tells the same size as the header, as long as a header of two bytes
cannot be taken for one of one byte. -/
theorem propertyLength (marked : Marked memory start property) :
    table.propertyLength memory property.dataAddress = .ok property.size := by
  unfold ObjectTable.propertyLength
  cases block with
  | small layout read _ =>
      rw [if_neg (Nat.succ_ne_zero start), Nat.add_sub_cancel, query_bind_eq_ok]
      exact ⟨_, read, by rw [if_pos layout]; rfl⟩
  | short layout read _ clear =>
      rw [if_neg (Nat.succ_ne_zero start), Nat.add_sub_cancel, query_bind_eq_ok]
      refine ⟨_, read, ?_⟩
      rw [if_neg (by simp [layout]), if_neg (Nat.not_le_of_lt clear)]
      rfl
  | @long _ second layout _ _ readSecond =>
      have upper : 128 ≤ second.toNat := by
        rw [← (Memory.fetchByte_eq_ok.mp readSecond).2]
        exact marked rfl
      rw [if_neg (Nat.succ_ne_zero (start + 1)), Nat.add_sub_cancel (start + 1) 1, query_bind_eq_ok]
      refine ⟨_, readSecond, ?_⟩
      rw [if_neg (by simp [layout]), if_pos upper]
      rfl

end Block

/-- Blocks that stand one behind the other, from an address to the one behind the last. -/
inductive Blocks (table : ObjectTable) (memory : Memory) : Nat → List Property → Nat → Prop where
  | none (start : Nat) : Blocks table memory start [] start
  | next {start stop : Nat} {property : Property} {rest : List Property}
      (first : table.Block memory start property)
      (others : Blocks table memory property.next rest stop) :
      Blocks table memory start (property :: rest) stop

namespace Blocks

theorem split (blocks : table.Blocks memory start (before ++ after) stop) :
    ∃ middle, table.Blocks memory start before middle ∧ table.Blocks memory middle after stop := by
  induction before generalizing start with
  | nil => exact ⟨start, .none start, blocks⟩
  | cons property before ih =>
      cases blocks with
      | next first others =>
          rcases ih others with ⟨middle, left, right⟩
          exact ⟨middle, .next first left, right⟩

theorem unique {other : Nat} (blocks : table.Blocks memory start list stop)
    (again : table.Blocks memory start list other) : stop = other := by
  induction blocks with
  | none start =>
      cases again
      rfl
  | next _ _ ih =>
      cases again with
      | next _ others => exact ih others

theorem start_le_stop (blocks : table.Blocks memory start list stop) : start ≤ stop := by
  induction blocks with
  | none start => exact Nat.le_refl start
  | next first _ ih =>
      have header := first.start_lt_dataAddress
      have data := first.dataAddress_lt_next
      omega

/-- Each block begins inside the file and takes up room, so there are not many. -/
theorem length_le (blocks : table.Blocks memory start list stop) :
    list.length ≤ memory.bytes.size - start := by
  induction blocks with
  | none start => exact Nat.zero_le _
  | next first _ ih =>
      have inside := first.start_lt
      have header := first.start_lt_dataAddress
      have data := first.dataAddress_lt_next
      rw [List.length_cons]
      omega

theorem within (blocks : table.Blocks memory start list stop) :
    ∀ property ∈ list, start < property.dataAddress ∧ property.next ≤ stop := by
  induction blocks with
  | none start => simp
  | @next start stop property rest first others ih =>
      have header := first.start_lt_dataAddress
      have data := first.dataAddress_lt_next
      have ends := others.start_le_stop
      intro other member
      rcases List.mem_cons.mp member with rfl | later
      · exact ⟨header, ends⟩
      · have bounds := ih other later
        omega

theorem increasing (blocks : table.Blocks memory start list stop) :
    list.Pairwise fun earlier later => earlier.dataAddress < later.dataAddress := by
  induction blocks with
  | none start => exact .nil
  | @next start stop property rest first others ih =>
      refine .cons ?_ ih
      intro later member
      have data := first.dataAddress_lt_next
      have behind := (others.within later member).1
      omega

theorem one_le_size (blocks : table.Blocks memory start list stop) :
    ∀ property ∈ list, 1 ≤ property.size := by
  induction blocks with
  | none start => simp
  | next first _ ih =>
      intro property member
      rcases List.mem_cons.mp member with rfl | later
      · exact first.one_le_size
      · exact ih property later

/-- A block can be read backwards from its data where it stands. -/
theorem propertyLength {header : Nat}
    (blocks : table.Blocks memory start (before ++ property :: after) stop)
    (reached : table.Blocks memory start before header) (marked : Marked memory header property) :
    table.propertyLength memory property.dataAddress = .ok property.size := by
  rcases blocks.split with ⟨middle, left, right⟩
  rcases left.unique reached with rfl
  cases right with
  | next first _ => exact first.propertyLength marked

end Blocks

/-- The address of the first header of an object, behind its short name. -/
def listStart (table : ObjectTable) (memory : Memory) (object : Nat) : Except Fault Nat := do
  let address ← table.propertyTable memory object
  let words ← memory.fetchByte address
  return address + 1 + words.toNat * 2

/-- How reading a list ends after some blocks: at the zero byte behind them, with these blocks, or
at a header that cannot be read, with its fault. -/
def Ends (table : ObjectTable) (memory : Memory) (blocks : List Property) (stop : Nat)
    (result : Except Fault (List Property)) : Prop :=
  (memory.fetchByte stop = .ok 0 ∧ result = .ok blocks) ∨
    ∃ fault, table.propertyAt memory stop = .error fault ∧ result = .error fault

/-- Reading from an address on passes finitely many blocks and ends. -/
theorem propertiesFrom_ends (start : Nat) (collected : Array Property) :
    ∃ blocks stop, table.Blocks memory start blocks stop ∧
      table.Ends memory (collected.toList ++ blocks) stop
        (table.propertiesFrom memory start collected) := by
  fun_induction propertiesFrom table memory start collected with
  | case1 start collected fault failed =>
      exact ⟨[], start, .none start, .inr ⟨fault, failed, rfl⟩⟩
  | case2 start collected finished =>
      refine ⟨[], start, .none start, .inl ⟨propertyAt_eq_none.mp finished, ?_⟩⟩
      rw [List.append_nil]
  | case3 start collected property found ih =>
      rcases ih with ⟨blocks, stop, others, ends⟩
      refine ⟨property :: blocks, stop, .next (propertyAt_eq_some.mp found) others, ?_⟩
      rwa [Array.toList_push, List.append_assoc, List.singleton_append] at ends

theorem propertiesFrom_of_block (block : table.Block memory start property)
    (collected : Array Property) : table.propertiesFrom memory start collected =
      table.propertiesFrom memory property.next (collected.push property) := by
  have found := propertyAt_eq_some.mpr block
  rw [propertiesFrom]
  split
  · rename_i failed
    rw [found] at failed
    cases failed
  · rename_i finished
    rw [found] at finished
    cases finished
  · rename_i other
    rw [found] at other
    cases other
    rfl

theorem propertiesFrom_of_zero (zero : memory.fetchByte start = .ok 0)
    (collected : Array Property) :
    table.propertiesFrom memory start collected = .ok collected.toList := by
  have finished : table.propertyAt memory start = .ok none := propertyAt_eq_none.mpr zero
  rw [propertiesFrom]
  split
  · rename_i failed
    rw [finished] at failed
    cases failed
  · rfl
  · rename_i other
    rw [finished] at other
    cases other

theorem propertiesFrom_of_blocks (blocks : table.Blocks memory start list stop)
    (zero : memory.fetchByte stop = .ok 0) (collected : Array Property) :
    table.propertiesFrom memory start collected = .ok (collected.toList ++ list) := by
  induction blocks generalizing collected with
  | none start => rw [propertiesFrom_of_zero zero, List.append_nil]
  | next first _ ih =>
      rw [propertiesFrom_of_block first, ih zero, Array.toList_push, List.append_assoc,
        List.singleton_append]

theorem properties_eq_listStart : table.properties memory object =
    table.listStart memory object >>= (table.propertiesFrom memory · #[]) := by
  unfold properties listStart
  cases table.propertyTable memory object with
  | error fault => rfl
  | ok address =>
      cases read : memory.fetchByte address with
      | error fault => simp only [bind, Except.bind, read]
      | ok words => simp only [bind, Except.bind, read, pure, Except.pure]

theorem properties_ends (located : table.listStart memory object = .ok start) :
    ∃ blocks stop, table.Blocks memory start blocks stop ∧
      table.Ends memory blocks stop (table.properties memory object) := by
  rw [properties_eq_listStart, located]
  exact propertiesFrom_ends start #[]

/-- The list of properties is what stands in memory up to a zero byte. -/
theorem properties_eq_ok : table.properties memory object = .ok list ↔
    ∃ start stop, table.listStart memory object = .ok start ∧
      table.Blocks memory start list stop ∧ memory.fetchByte stop = .ok 0 := by
  constructor
  · intro listed
    have found := listed
    rw [properties_eq_listStart, query_bind_eq_ok] at found
    rcases found with ⟨start, located, _⟩
    rcases properties_ends located with ⟨blocks, stop, passed, ends⟩
    rw [listed] at ends
    rcases ends with ⟨zero, same⟩ | ⟨fault, _, impossible⟩
    · cases same
      exact ⟨start, stop, located, passed, zero⟩
    · cases impossible
  · rintro ⟨start, stop, located, blocks, zero⟩
    rw [properties_eq_listStart, query_bind_eq_ok]
    exact ⟨start, located, propertiesFrom_of_blocks blocks zero #[]⟩

section Asking

variable (listed : table.properties memory object = .ok list)

include listed

theorem findProperty_eq :
    table.findProperty memory object number = .ok (list.find? (·.number = number)) := by
  rw [findProperty, query_bind_eq_ok]
  exact ⟨list, listed, rfl⟩

/-- The first block with a number is the one that is found. -/
theorem findProperty_of_first (shape : list = before ++ property :: after)
    (first : ∀ other ∈ before, other.number ≠ property.number) :
    table.findProperty memory object property.number = .ok (some property) := by
  rw [findProperty_eq listed, shape, List.find?_append, List.find?_eq_none.mpr ?_]
  · simp
  · simpa using first

theorem findProperty_of_mem (member : property ∈ list) :
    ∃ found ∈ list, table.findProperty memory object property.number = .ok (some found) := by
  have answer : table.findProperty memory object property.number =
      .ok (list.find? (·.number = property.number)) := findProperty_eq listed
  cases search : list.find? (·.number = property.number) with
  | none =>
      have absent := List.find?_eq_none.mp search property member
      simp at absent
  | some found =>
      rw [search] at answer
      exact ⟨found, List.mem_of_find?_eq_some search, answer⟩

theorem findProperty_of_missing (missing : ∀ property ∈ list, property.number ≠ number) :
    table.findProperty memory object number = .ok none := by
  rw [findProperty_eq listed, List.find?_eq_none.mpr]
  simpa using missing

omit listed in
theorem propertyAddress_of_found
    (found : table.findProperty memory object number = .ok (some property)) :
    table.propertyAddress memory object number = .ok property.dataAddress := by
  rw [propertyAddress, query_bind_eq_ok]
  exact ⟨some property, found, rfl⟩

omit listed in
theorem propertyAddress_of_missing (found : table.findProperty memory object number = .ok none) :
    table.propertyAddress memory object number = .ok 0 := by
  rw [propertyAddress, query_bind_eq_ok]
  exact ⟨none, found, rfl⟩

end Asking

section Data

variable (found : table.findProperty memory object number = .ok (some property))
  (inside : property.next ≤ memory.bytes.size)

include found inside

/-- The data of a block that lies in the file can be read as a whole. -/
theorem propertyData_of_found : ∃ data,
    memory.fetchBytes property.dataAddress property.size = .ok data ∧
      table.propertyData memory object number = .ok (some data) := by
  have fetched : memory.fetchBytes property.dataAddress property.size =
      .ok (memory.bytes.extract property.dataAddress
        (property.dataAddress + property.size)).toList :=
    if_neg (Nat.not_lt_of_le inside)
  refine ⟨_, fetched, ?_⟩
  rw [propertyData, query_bind_eq_ok]
  refine ⟨some property, found, ?_⟩
  rw [query_bind_eq_ok]
  exact ⟨_, fetched, rfl⟩

theorem propertyValue_of_found (positive : 1 ≤ property.size) :
    table.propertyValue memory object number =
      .ok (if property.size = 1 then (memory.bytes.byteAt property.dataAddress).toUInt16
        else memory.bytes.wordAt property.dataAddress) := by
  unfold Property.next at inside
  rw [propertyValue, query_bind_eq_ok]
  refine ⟨some property, found, ?_⟩
  by_cases single : property.size = 1
  · have read : memory.fetchByte property.dataAddress =
        .ok (memory.bytes.byteAt property.dataAddress) :=
      Memory.fetchByte_eq_ok.mpr ⟨by omega, rfl⟩
    simp only [if_pos single]
    rw [query_bind_eq_ok]
    exact ⟨_, read, rfl⟩
  · have read : memory.fetchWord property.dataAddress =
        .ok (memory.bytes.wordAt property.dataAddress) :=
      Memory.fetchWord_eq_ok.mpr ⟨by omega, rfl⟩
    simp only [if_neg single]
    exact read

end Data

section Successors

variable (listed : table.properties memory object = .ok list)

include listed

theorem nextProperty_zero :
    table.nextProperty memory object 0 = .ok ((list.head?.map (·.number)).getD 0) := by
  rw [nextProperty, query_bind_eq_ok]
  exact ⟨list, listed, rfl⟩

/-- The first block with a number is the one whose successor is told. -/
theorem nextProperty_of_first (shape : list = before ++ property :: after)
    (first : ∀ other ∈ before, other.number ≠ property.number) (nonzero : property.number ≠ 0) :
    table.nextProperty memory object property.number =
      .ok ((after.head?.map (·.number)).getD 0) := by
  have place : list.findIdx? (·.number = property.number) = some before.length := by
    rw [shape, List.findIdx?_append, List.findIdx?_eq_none_iff.mpr (by simpa using first),
      List.findIdx?_cons, if_pos (decide_eq_true rfl)]
    simp
  have behind : list[before.length + 1]? = after.head? := by
    rw [shape, List.getElem?_append_right (Nat.le_add_right _ _), Nat.add_sub_cancel_left,
      List.getElem?_cons_succ, List.head?_eq_getElem?]
  rw [nextProperty, query_bind_eq_ok]
  refine ⟨list, listed, ?_⟩
  rw [if_neg nonzero, place]
  simp only [behind]
  rfl

theorem nextProperty_of_missing (nonzero : number ≠ 0)
    (missing : number ∉ list.map (·.number)) :
    table.nextProperty memory object number =
      .error (.propertyViolation object number .noSuccessor) := by
  have place : list.findIdx? (·.number = number) = none := by
    rw [List.findIdx?_eq_none_iff]
    simpa using missing
  simp only [nextProperty, listed, bind, Except.bind, if_neg nonzero, place]
  rfl

end Successors

/-- Asking for the next number again and again, from one number on, gives the numbers in a list and
0 behind them. -/
inductive Visits (table : ObjectTable) (memory : Memory) (object : Nat) :
    Nat → List Nat → Prop where
  | ends {number : Nat} (last : table.nextProperty memory object number = .ok 0) :
      Visits table memory object number []
  | next {number following : Nat} {rest : List Nat} (nonzero : following ≠ 0)
      (leads : table.nextProperty memory object number = .ok following)
      (others : Visits table memory object following rest) :
      Visits table memory object number (following :: rest)

section Visiting

variable (listed : table.properties memory object = .ok list)
  (distinct : (list.map (·.number)).Nodup) (nonzero : 0 ∉ list.map (·.number))

include listed distinct nonzero

theorem nextProperty_of_shape (shape : list = before ++ property :: after) :
    table.nextProperty memory object property.number =
      .ok ((after.head?.map (·.number)).getD 0) := by
  rw [shape, List.map_append, List.map_cons] at distinct nonzero
  apply nextProperty_of_first listed shape
  · intro other member same
    have early : property.number ∈ before.map (·.number) := same ▸ List.mem_map_of_mem member
    exact (List.nodup_append.mp distinct).2.2 _ early _ List.mem_cons_self rfl
  · intro zero
    exact nonzero (zero ▸ List.mem_append_right _ List.mem_cons_self)

/-- From the number of a block on, the numbers of the blocks behind it are visited. The induction is
on these blocks. -/
theorem visits_of_shape (shape : list = before ++ property :: after) :
    table.Visits memory object property.number (after.map (·.number)) := by
  have leads := nextProperty_of_shape listed distinct nonzero shape
  induction after generalizing before property with
  | nil => exact .ends leads
  | cons following after ih =>
      have later : list = (before ++ [property]) ++ following :: after := by
        rw [shape, List.append_assoc, List.singleton_append]
      have followingNonzero : following.number ≠ 0 := by
        intro zero
        apply nonzero
        rw [← zero, later, List.map_append, List.map_cons]
        exact List.mem_append_right _ List.mem_cons_self
      exact .next followingNonzero leads
        (ih later (nextProperty_of_shape listed distinct nonzero later))

/-- From 0 on, the numbers of all blocks are visited. -/
theorem visits_of_properties : table.Visits memory object 0 (list.map (·.number)) := by
  have leads := nextProperty_zero listed
  cases list with
  | nil => exact .ends leads
  | cons first rest =>
      have firstNonzero : first.number ≠ 0 := by
        intro zero
        exact nonzero (zero ▸ List.mem_cons_self)
      have shape : first :: rest = [] ++ first :: rest := rfl
      exact .next firstNonzero leads (visits_of_shape listed distinct nonzero shape)

end Visiting

/-- What holds of a list of properties whose first header stands at `start`, and of all ways of
asking for one of them. -/
structure Views (table : ObjectTable) (memory : Memory) (object start : Nat)
    (list : List Property) : Prop where
  contiguous : ∃ stop, table.Blocks memory start list stop ∧ memory.fetchByte stop = .ok 0
  increasing : list.Pairwise fun earlier later => earlier.dataAddress < later.dataAddress
  inside : ∀ property ∈ list, 1 ≤ property.size ∧ property.next ≤ memory.bytes.size
  readable : ∀ property ∈ list, ∃ data value,
    table.propertyData memory object property.number = .ok (some data) ∧
      table.propertyValue memory object property.number = .ok value
  first : ∀ before property after, list = before ++ property :: after →
    (∀ other ∈ before, other.number ≠ property.number) →
    table.findProperty memory object property.number = .ok (some property) ∧
      table.propertyAddress memory object property.number = .ok property.dataAddress
  missing : ∀ number, (∀ property ∈ list, property.number ≠ number) →
    table.findProperty memory object number = .ok none ∧
      table.propertyAddress memory object number = .ok 0
  visited : (list.map (·.number)).Nodup → 0 ∉ list.map (·.number) →
    table.Visits memory object 0 (list.map (·.number))
  unlisted : ∀ number, number ≠ 0 → number ∉ list.map (·.number) →
    table.nextProperty memory object number =
      .error (.propertyViolation object number .noSuccessor)
  length : ∀ before property after header, list = before ++ property :: after →
    table.Blocks memory start before header → Marked memory header property →
    table.propertyLength memory property.dataAddress = .ok property.size

theorem views_of_properties (listed : table.properties memory object = .ok list) :
    ∃ start, table.listStart memory object = .ok start ∧ table.Views memory object start list := by
  rcases properties_eq_ok.mp listed with ⟨start, stop, located, blocks, zero⟩
  have stopInside : stop < memory.bytes.size := (Memory.fetchByte_eq_ok.mp zero).1
  have inside : ∀ property ∈ list, property.next ≤ memory.bytes.size := fun property member =>
    Nat.le_trans (blocks.within property member).2 (Nat.le_of_lt stopInside)
  refine ⟨start, located, ?_⟩
  constructor
  case contiguous => exact ⟨stop, blocks, zero⟩
  case increasing => exact blocks.increasing
  case inside => exact fun property member =>
    ⟨blocks.one_le_size property member, inside property member⟩
  case readable =>
    intro property member
    rcases findProperty_of_mem listed member with ⟨found, foundMember, answer⟩
    rcases propertyData_of_found answer (inside found foundMember) with ⟨data, _, dataRead⟩
    exact ⟨data, _, dataRead, propertyValue_of_found answer (inside found foundMember)
      (blocks.one_le_size found foundMember)⟩
  case first =>
    intro before property after shape first
    have found := findProperty_of_first listed shape first
    exact ⟨found, propertyAddress_of_found found⟩
  case missing =>
    intro number missing
    have found := findProperty_of_missing listed missing
    exact ⟨found, propertyAddress_of_missing found⟩
  case visited => exact visits_of_properties listed
  case unlisted => exact fun _ => nextProperty_of_missing listed
  case length =>
    intro before property after header shape reached marked
    exact (shape ▸ blocks).propertyLength reached marked

/-- Reading the properties of an object always ends, after as many blocks as stand in memory up to a
zero byte or an unreadable header. If it returns a list, everything that is told about a property of
the object is told by that list. -/
theorem properties_agree (table : ObjectTable) (memory : Memory) (object : Nat) :
    (∀ fault, table.listStart memory object = .error fault →
      table.properties memory object = .error fault) ∧
    (∀ start, table.listStart memory object = .ok start →
      ∃ blocks stop, table.Blocks memory start blocks stop ∧ blocks.length ≤ memory.bytes.size ∧
        table.Ends memory blocks stop (table.properties memory object)) ∧
    ∀ list, table.properties memory object = .ok list →
      ∃ start, table.listStart memory object = .ok start ∧
        table.Views memory object start list := by
  refine ⟨?_, ?_, fun list listed => views_of_properties listed⟩
  · intro fault failed
    rw [properties_eq_listStart, failed]
    rfl
  · intro start located
    rcases properties_ends located with ⟨blocks, stop, passed, ends⟩
    exact ⟨blocks, stop, passed, Nat.le_trans passed.length_le (Nat.sub_le _ _), ends⟩

/-- A world of one object with two properties: the first has a header of two bytes, and the second
one of one byte. -/
def twoProperties : Memory :=
  let bytes : List UInt8 :=
    [5, 0, 0, 0, 0, 212, 0, 0, 0, 0, 0, 64, 0, 0, 0, 212] ++ List.replicate 186 0 ++
      [0, 204, 0, 168, 130, 1, 2, 3, 7, 0]
  let image : Image := bytes.toArray
  { bytes := image, pristine := image, header := Header.read image, pc := 0 }

theorem listStart_twoProperties :
    (ofMemory twoProperties).listStart twoProperties 1 = .ok 205 :=
  eq_ok_of_toOption (by decide +kernel)

theorem blocks_twoProperties :
    (ofMemory twoProperties).Blocks twoProperties 205 [⟨40, 2, 207⟩, ⟨3, 1, 210⟩] 211 :=
  .next (propertyAt_eq_some.mp (eq_ok_of_toOption (by decide +kernel)))
    (.next (propertyAt_eq_some.mp (eq_ok_of_toOption (by decide +kernel))) (.none 211))

/-- In that world the list is told, and each way of asking gives what the list says. There is no
object 0 and no list of its properties. -/
theorem properties_agree_two :
    let table := ofMemory twoProperties
    table.properties twoProperties 0 = .error (.invalidObject 0) ∧
      (∃ blocks stop, table.Blocks twoProperties 205 blocks stop ∧
        table.Ends twoProperties blocks stop (table.properties twoProperties 1)) ∧
      table.properties twoProperties 1 = .ok [⟨40, 2, 207⟩, ⟨3, 1, 210⟩] ∧
      table.propertyAddress twoProperties 1 3 = .ok 210 ∧
      table.propertyAddress twoProperties 1 5 = .ok 0 ∧
      table.Visits twoProperties 1 0 [40, 3] ∧
      table.nextProperty twoProperties 1 5 = .error (.propertyViolation 1 5 .noSuccessor) ∧
      table.propertyLength twoProperties 207 = .ok 2 := by
  have zero : twoProperties.fetchByte 211 = .ok 0 := eq_ok_of_toOption (by decide +kernel)
  have listed : (ofMemory twoProperties).properties twoProperties 1 =
      .ok [⟨40, 2, 207⟩, ⟨3, 1, 210⟩] :=
    properties_eq_ok.mpr ⟨205, 211, listStart_twoProperties, blocks_twoProperties, zero⟩
  have absent : (ofMemory twoProperties).listStart twoProperties 0 = .error (.invalidObject 0) :=
    rfl
  have refused := (properties_agree (ofMemory twoProperties) twoProperties 0).1 _ absent
  rcases properties_agree (ofMemory twoProperties) twoProperties 1 with ⟨_, ending, agreeing⟩
  rcases ending 205 listStart_twoProperties with ⟨blocks, stop, passed, _, ends⟩
  rcases agreeing _ listed with ⟨start, located, views⟩
  rw [listStart_twoProperties, Except.ok.injEq] at located
  subst located
  have marked : Marked twoProperties 205 ⟨40, 2, 207⟩ := by
    intro _
    decide +kernel
  refine ⟨refused, ⟨blocks, stop, passed, ends⟩, listed, ?_, ?_, views.visited (by decide) (by decide),
    views.unlisted 5 (by decide) (by decide), ?_⟩
  · exact (views.first [⟨40, 2, 207⟩] ⟨3, 1, 210⟩ [] rfl (by decide)).2
  · exact (views.missing 5 (by decide)).2
  · exact views.length [] ⟨40, 2, 207⟩ [⟨3, 1, 210⟩] 205 rfl (.none 205) marked

end ObjectTable

end ZMachine
