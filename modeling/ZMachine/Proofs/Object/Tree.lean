import ZMachine.Proofs.Object.Forest

/-!
# Moving objects in the tree

A story may move its objects as long as their links make a forest. Taking an object out of its
parent and making it the first child of another then always succeed, keep the forest, and change two
lists of children at most. The object takes its own children along.

`ObjectTable.Consistent` says in terms of memory what `Links.Forest` says of links as a function.
-/

namespace ZMachine.ObjectTable

variable {table : ObjectTable} {count : Nat} {links : Links} {memory : Memory}
  {children : Nat → List Nat} {object : Nat}

section Operations

variable (linked : table.Linked count links memory)

include linked

theorem elder_eq_some {elder first steps : Nat} {elders younger : List Nat}
    (passes : links.Passes first (elders ++ elder :: object :: younger) 0)
    (distinct : (elders ++ elder :: object :: younger).Nodup)
    (numbered : ∀ other ∈ elders ++ elder :: object :: younger, Numbered count other)
    (enough : elders.length < steps) :
    table.elder memory object steps first = .ok (some elder) := by
  induction elders generalizing first steps with
  | nil =>
      rcases steps with _ | steps
      · simp at enough
      · have elderNumbered := numbered elder (by simp)
        have nonzero : elder ≠ 0 := Nat.one_le_iff_ne_zero.mp elderNumbered.1
        rcases passes.head with rfl
        simp [ObjectTable.elder, nonzero, sibling, linked.stored first .sibling elderNumbered,
          passes.tail.head]
  | cons eldest elders ih =>
      rcases steps with _ | steps
      · simp at enough
      · have eldestNumbered := numbered eldest (by simp)
        have nonzero : eldest ≠ 0 := Nat.one_le_iff_ne_zero.mp eldestNumbered.1
        rcases passes.head with rfl
        have later : links first .sibling ≠ object := by
          intro same
          have before := passes.tail.first_mem
          rw [same] at before
          rw [List.append_cons] at distinct
          have absent := (List.nodup_cons.mp (List.nodup_middle.mp distinct)).1
          simp_all
        have rest : table.elder memory object steps (links first .sibling) = .ok (some elder) := by
          apply ih passes.tail (List.nodup_cons.mp distinct).2
          · intro other member
            exact numbered other (List.mem_cons_of_mem _ member)
          · simpa using enough
        simp [ObjectTable.elder, nonzero, sibling, linked.stored first .sibling eldestNumbered, later,
          rest]

variable (numbered : Numbered count object)

include numbered

theorem remove_of_free (free : links object .parent = 0) :
    table.remove object memory = .ok () memory := by
  have parentRead := linked.inspect_follow numbered .parent
  simp only [remove, parent, sibling]
  rw [bind_of_ok parentRead, if_pos free]
  rfl

variable (forest : links.Forest count children)

include forest

theorem closeGap_eq_ok (held : links object .parent ≠ 0) :
    ∃ holder link after,
      Links.LeadsTo (children (links object .parent)) (links object .parent) object holder link ∧
      table.closeGap object (links object .parent) (links object .sibling) memory = .ok () after ∧
      table.Linked count (links.set holder link (links object .sibling)) after := by
  have parentNumbered := forest.numbered_parent numbered held
  have chain := forest.chain _ parentNumbered
  have member := (forest.parents _ object parentNumbered numbered).mpr rfl
  have first := linked.inspect_follow parentNumbered .child
  have small := forest.bounded object .sibling numbered
  rcases Links.leadsTo_of_mem (links object .parent) member with ⟨holder, link, leads⟩
  rcases linked.setLink (forest.numbered_holder numbered held leads) link small
    with ⟨after, success, linkedAfter⟩
  refine ⟨holder, link, after, leads, ?_, linkedAfter⟩
  simp only [closeGap, child]
  rw [bind_of_ok first]
  cases leads with
  | asFirst shape =>
      rw [shape] at chain
      rw [if_pos chain.head]
      exact success
  | @asNext elders younger _ shape =>
      have distinct := forest.distinct _ parentNumbered
      have few := forest.length_le parentNumbered
      have legal := linked.few
      have behind : links (links object .parent) .child ≠ object := by
        intro same
        rw [shape] at chain distinct
        have before := chain.first_mem
        rw [same] at before
        rw [List.append_cons] at distinct
        have absent := (List.nodup_cons.mp (List.nodup_middle.mp distinct)).1
        simp_all
      have found : Memory.inspect (table.elder · object (table.maxObject + 1)
          (links (links object .parent) .child)) memory = .ok (some holder) memory := by
        rw [Memory.inspect, elder_eq_some linked (shape ▸ chain) (shape ▸ distinct) ?_ ?_]
        · intro other inside
          exact forest.numbered_of_mem parentNumbered (shape ▸ inside)
        · rw [shape, List.length_append] at few
          omega
      rw [if_neg behind, bind_of_ok found]
      exact success

theorem remove_of_held (held : links object .parent ≠ 0) :
    ∃ holder link after,
      Links.LeadsTo (children (links object .parent)) (links object .parent) object holder link ∧
      table.remove object memory = .ok () after ∧
      table.Linked count (links.detached object holder link) after := by
  have parentRead := linked.inspect_follow numbered .parent
  have nextRead := linked.inspect_follow numbered .sibling
  rcases closeGap_eq_ok linked numbered forest held with
    ⟨holder, link, closed, leads, closing, linkedClosed⟩
  rcases linkedClosed.setLink numbered .parent (Nat.zero_le count) with
    ⟨orphaned, orphaning, linkedOrphaned⟩
  rcases linkedOrphaned.setLink numbered .sibling (Nat.zero_le count) with
    ⟨after, separating, linkedAfter⟩
  refine ⟨holder, link, after, leads, ?_, linkedAfter⟩
  simp only [remove, parent, sibling]
  rw [bind_of_ok parentRead, if_neg held, bind_of_ok nextRead, bind_of_ok closing,
    bind_of_ok orphaning]
  exact separating

/-- An object that is taken out has no parent, and is missing in the chains. -/
theorem remove_eq_ok :
    ∃ after linksAfter, table.remove object memory = .ok () after ∧
      table.Linked count linksAfter after ∧
      linksAfter.Forest count (fun other => (children other).erase object) ∧
      linksAfter object .parent = 0 ∧
      (links object .parent = 0 → after = memory) ∧
      (links object .parent ≠ 0 → linksAfter object .sibling = 0) := by
  by_cases free : links object .parent = 0
  · refine ⟨memory, links, remove_of_free linked numbered free, linked, ?_, free,
      fun _ => rfl, fun held => absurd free held⟩
    apply forest.congr
    intro other otherNumbered
    exact List.erase_of_not_mem (forest.not_mem_of_free free otherNumbered)
  · rcases remove_of_held linked numbered forest free with
      ⟨holder, link, after, leads, success, linkedAfter⟩
    refine ⟨after, links.detached object holder link, success, linkedAfter,
      forest.detached numbered free leads, ?_, fun isFree => absurd isFree free, fun _ => ?_⟩
    · simp [Links.detached]
    · simp [Links.detached]

theorem insert_eq_ok {destination : Nat} (destinationNumbered : Numbered count destination) :
    ∃ after linksAfter, table.insert object destination memory = .ok () after ∧
      table.Linked count linksAfter after ∧
      linksAfter.Forest count (Function.update (fun other => (children other).erase object)
        destination (object :: (children destination).erase object)) ∧
      linksAfter object .parent = destination := by
  have nonzero : destination ≠ 0 := Nat.one_le_iff_ne_zero.mp destinationNumbered.1
  rcases remove_eq_ok linked numbered forest with
    ⟨removed, linksRemoved, removing, linkedRemoved, forestRemoved, free, _⟩
  have firstRead := linkedRemoved.inspect_follow destinationNumbered .child
  rcases linkedRemoved.setLink numbered .sibling
    (forestRemoved.bounded destination .child destinationNumbered) with ⟨joined, joining, linkedJoined⟩
  rcases linkedJoined.setLink destinationNumbered .child numbered.2 with
    ⟨headed, heading, linkedHeaded⟩
  rcases linkedHeaded.setLink numbered .parent destinationNumbered.2 with
    ⟨after, adopting, linkedAfter⟩
  refine ⟨after, linksRemoved.attached object destination, ?_, linkedAfter,
    forestRemoved.attached numbered destinationNumbered free, ?_⟩
  · simp only [insert, child]
    rw [if_neg nonzero, bind_of_ok removing, bind_of_ok firstRead, bind_of_ok joining,
      bind_of_ok heading]
    exact adopting
  · simp [Links.attached]

end Operations

/-- The objects from one on along the sibling links, up to one without a next sibling. -/
inductive Siblings (table : ObjectTable) (memory : Memory) : Nat → List Nat → Prop where
  | ends : Siblings table memory 0 []
  | next {object following : Nat} {rest : List Nat} (nonzero : object ≠ 0)
      (leads : table.sibling memory object = .ok following)
      (others : Siblings table memory following rest) :
      Siblings table memory object (object :: rest)

/-- The children of an object, in the order of the sibling links. -/
def Children (table : ObjectTable) (memory : Memory) (object : Nat) (list : List Nat) : Prop :=
  ∃ first, table.child memory object = .ok first ∧ table.Siblings memory first list

/-- The tree of the objects from 1 to `count` is consistent: their links lie in dynamic memory and
lead to one of these objects or to none, and the children of each object are a list without
repetition of exactly those objects whose parent it is. -/
structure Consistent (table : ObjectTable) (count : Nat) (memory : Memory) : Prop where
  few : count ≤ table.maxObject
  dynamic : ∀ object link, Numbered count object →
    ∃ address, table.linkAddress object link = .ok address ∧
      address + table.linkBytes ≤ memory.header.staticBase
  bounded : ∀ object link, Numbered count object →
    ∃ value ≤ count, table.follow memory object link = .ok value
  chains : ∀ object, Numbered count object →
    ∃ list, table.Children memory object list ∧ list.Nodup ∧
      (∀ child ∈ list, table.parent memory child = .ok object) ∧
      ∀ child, Numbered count child → table.parent memory child = .ok object → child ∈ list

section Views

variable (linked : table.Linked count links memory)
  (bounded : ∀ object link, Numbered count object → links object link ≤ count)

include linked bounded

theorem siblings_iff {first : Nat} (small : first ≤ count) {list : List Nat} :
    table.Siblings memory first list ↔ links.Passes first list 0 := by
  constructor
  · intro siblings
    induction siblings with
    | ends => exact .stays 0
    | @next object following rest nonzero leads _ ih =>
        have numbered : Numbered count object := ⟨Nat.one_le_iff_ne_zero.mpr nonzero, small⟩
        have stored := linked.stored object .sibling numbered
        simp only [sibling, stored, Except.ok.injEq] at leads
        subst leads
        exact .next nonzero (ih (bounded object .sibling numbered))
  · intro passes
    induction list generalizing first with
    | nil =>
        cases passes
        exact .ends
    | cons object rest ih =>
        cases passes with
        | next nonzero others =>
            have numbered : Numbered count object := ⟨Nat.one_le_iff_ne_zero.mpr nonzero, small⟩
            exact .next nonzero (linked.stored object .sibling numbered)
              (ih (bounded object .sibling numbered) others)

theorem children_iff (numbered : Numbered count object) {list : List Nat} :
    table.Children memory object list ↔ links.Passes (links object .child) list 0 := by
  have small := bounded object .child numbered
  simp only [Children, child, linked.stored object .child numbered, Except.ok.injEq,
    exists_eq_left']
  exact siblings_iff linked bounded small

end Views

theorem consistent_of_forest (linked : table.Linked count links memory)
    (forest : links.Forest count children) : table.Consistent count memory where
  few := linked.few
  dynamic := by
    intro object link numbered
    exact ⟨_, linkAddress_eq linked.few numbered link, linked.dynamic object link numbered⟩
  bounded := by
    intro object link numbered
    exact ⟨_, forest.bounded object link numbered, linked.stored object link numbered⟩
  chains := by
    intro object numbered
    refine ⟨children object, (children_iff linked forest.bounded numbered).mpr
      (forest.chain object numbered), forest.distinct object numbered, ?_, ?_⟩
    · intro child member
      rw [parent, linked.stored child .parent (forest.numbered_of_mem numbered member),
        forest.parent_of_mem numbered member]
    · intro child childNumbered held
      rw [parent, linked.stored child .parent childNumbered, Except.ok.injEq] at held
      exact (forest.parents object child numbered childNumbered).mpr held

theorem Consistent.forest (consistent : table.Consistent count memory) :
    ∃ links children, table.Linked count links memory ∧ links.Forest count children := by
  choose! links bounded stored using consistent.bounded
  have linked : table.Linked count links memory := by
    refine ⟨consistent.few, ?_, stored⟩
    intro object link numbered
    rcases consistent.dynamic object link numbered with ⟨address, found, dynamic⟩
    rw [linkAddress_eq consistent.few numbered, Except.ok.injEq] at found
    rwa [found]
  choose! children listed distinct parents complete using consistent.chains
  refine ⟨links, children, linked, bounded, ?_, distinct, ?_⟩
  · intro object numbered
    exact (children_iff linked bounded numbered).mp (listed object numbered)
  · intro object child numbered childNumbered
    have held := linked.stored child .parent childNumbered
    constructor
    · intro member
      have leads := parents object numbered child member
      rw [parent, held, Except.ok.injEq] at leads
      exact leads
    · intro leads
      apply complete object numbered child childNumbered
      rw [parent, held, leads]

/-- The children of an object in a forest are those that the forest lists. -/
theorem children_eq (linked : table.Linked count links memory)
    (forest : links.Forest count children) (numbered : Numbered count object) {list : List Nat} :
    table.Children memory object list ↔ list = children object := by
  rw [children_iff linked forest.bounded numbered]
  constructor
  · intro passes
    exact passes.unique (forest.chain object numbered)
  · rintro rfl
    exact forest.chain object numbered

/-- What taking an object out of its parent does: an object without a parent stays as it is, and
otherwise the list of children that it stood in loses it. -/
structure Releases (table : ObjectTable) (count object : Nat) (before after : Memory) : Prop where
  unchanged : table.parent before object = .ok 0 → after = before
  alone : ∀ holder, table.parent before object = .ok holder → holder ≠ 0 →
    table.parent after object = .ok 0 ∧ table.sibling after object = .ok 0
  losing : ∀ holder list, table.parent before object = .ok holder → holder ≠ 0 →
    table.Children before holder list → table.Children after holder (list.erase object)
  others : ∀ other list, Numbered count other → table.parent before object ≠ .ok other →
    table.Children before other list → table.Children after other list

/-- What putting an object into another one does: the list of children there gains it in front, and
the list that it stood in before loses it. -/
structure Adopts (table : ObjectTable) (count object destination : Nat) (before after : Memory) :
    Prop where
  parent : table.parent after object = .ok destination
  gaining : ∀ list, table.Children before destination list →
    table.Children after destination (object :: list.erase object)
  losing : ∀ holder list, table.parent before object = .ok holder → holder ≠ 0 →
    holder ≠ destination → table.Children before holder list →
    table.Children after holder (list.erase object)
  others : ∀ other list, Numbered count other → other ≠ destination →
    table.parent before object ≠ .ok other →
    table.Children before other list → table.Children after other list

section Moves

variable (consistent : table.Consistent count memory) (numbered : Numbered count object)

include consistent numbered

theorem remove_of_consistent :
    ∃ after, table.remove object memory = .ok () after ∧ table.Consistent count after ∧
      table.Releases count object memory after := by
  rcases consistent.forest with ⟨links, children, linked, forest⟩
  rcases remove_eq_ok linked numbered forest with
    ⟨after, linksAfter, success, linkedAfter, forestAfter, free, unchanged, alone⟩
  have parentRead : table.parent memory object = .ok (links object .parent) :=
    linked.stored object .parent numbered
  refine ⟨after, success, consistent_of_forest linkedAfter forestAfter, ?_, ?_, ?_, ?_⟩
  · intro isFree
    rw [parentRead, Except.ok.injEq] at isFree
    exact unchanged isFree
  · intro holder isHolder held
    rw [parentRead, Except.ok.injEq] at isHolder
    subst isHolder
    constructor
    · rw [parent, linkedAfter.stored object .parent numbered, free]
    · rw [sibling, linkedAfter.stored object .sibling numbered, alone held]
  · intro holder list isHolder held listed
    rw [parentRead, Except.ok.injEq] at isHolder
    subst isHolder
    have holderNumbered := forest.numbered_parent numbered held
    rw [children_eq linked forest holderNumbered] at listed
    rw [children_eq linkedAfter forestAfter holderNumbered, listed]
  · intro other list otherNumbered notHolder listed
    rw [children_eq linked forest otherNumbered] at listed
    rw [children_eq linkedAfter forestAfter otherNumbered, listed, forest.erase_of_ne otherNumbered]
    rintro rfl
    exact notHolder parentRead

theorem insert_of_consistent {destination : Nat} (destinationNumbered : Numbered count destination) :
    ∃ after, table.insert object destination memory = .ok () after ∧
      table.Consistent count after ∧ table.Adopts count object destination memory after := by
  rcases consistent.forest with ⟨links, children, linked, forest⟩
  rcases insert_eq_ok linked numbered forest destinationNumbered with
    ⟨after, linksAfter, success, linkedAfter, forestAfter, adopted⟩
  have parentRead : table.parent memory object = .ok (links object .parent) :=
    linked.stored object .parent numbered
  refine ⟨after, success, consistent_of_forest linkedAfter forestAfter, ?_, ?_, ?_, ?_⟩
  · rw [parent, linkedAfter.stored object .parent numbered, adopted]
  · intro list listed
    rw [children_eq linked forest destinationNumbered] at listed
    rw [children_eq linkedAfter forestAfter destinationNumbered, listed, Function.update_self]
  · intro holder list isHolder held different listed
    rw [parentRead, Except.ok.injEq] at isHolder
    subst isHolder
    have holderNumbered := forest.numbered_parent numbered held
    rw [children_eq linked forest holderNumbered] at listed
    rw [children_eq linkedAfter forestAfter holderNumbered, listed, Function.update_of_ne different]
  · intro other list otherNumbered notDestination notHolder listed
    rw [children_eq linked forest otherNumbered] at listed
    rw [children_eq linkedAfter forestAfter otherNumbered, listed,
      Function.update_of_ne notDestination, forest.erase_of_ne otherNumbered]
    rintro rfl
    exact notHolder parentRead

end Moves

/-- In a consistent tree every object can be taken out of its parent and be put into any object, and
the tree stays consistent. Only the lists of children that lose or gain the object change. -/
theorem tree_stays_consistent (table : ObjectTable) (count : Nat) (memory : Memory)
    (consistent : table.Consistent count memory) (object destination : Nat)
    (numbered : Numbered count object) (destinationNumbered : Numbered count destination) :
    (∃ after, table.remove object memory = .ok () after ∧ table.Consistent count after ∧
      table.Releases count object memory after) ∧
    ∃ after, table.insert object destination memory = .ok () after ∧
      table.Consistent count after ∧ table.Adopts count object destination memory after :=
  ⟨remove_of_consistent consistent numbered,
    insert_of_consistent consistent numbered destinationNumbered⟩

/-- A world of three objects, the first of which holds the other two. -/
def smallWorld : Memory :=
  let bytes : List UInt8 :=
    [3, 0, 0, 0, 0, 160, 0, 0, 0, 0, 0, 64, 0, 0, 0, 160] ++ List.replicate 110 0 ++
      [0, 0, 0, 0, 0, 0, 2, 0, 0, 0, 0, 0, 0, 1, 3, 0, 0, 0, 0, 0, 0, 0, 1, 0, 0, 0, 0] ++
      List.replicate 7 0
  let image : Image := bytes.toArray
  { bytes := image, pristine := image, header := Header.read image, pc := 0 }

/-- The links of the small world. -/
def smallLinks : Links
  | 1, .child => 2
  | 2, .parent => 1
  | 2, .sibling => 3
  | 3, .parent => 1
  | _, _ => 0

theorem numbered_three {object : Nat} (numbered : Numbered 3 object) :
    object = 1 ∨ object = 2 ∨ object = 3 := by
  simp only [Numbered] at numbered
  omega

theorem linked_smallWorld : (ofMemory smallWorld).Linked 3 smallLinks smallWorld where
  few := by decide +kernel
  dynamic := by
    intro object link numbered
    rcases numbered_three numbered with rfl | rfl | rfl <;> cases link <;> decide +kernel
  stored := by
    intro object link numbered
    rcases numbered_three numbered with rfl | rfl | rfl <;> cases link <;> decide +kernel

theorem forest_smallLinks :
    smallLinks.Forest 3 fun object => if object = 1 then [2, 3] else [] where
  bounded := by
    intro object link numbered
    rcases numbered_three numbered with rfl | rfl | rfl <;> cases link <;> decide
  chain := by
    intro object numbered
    rcases numbered_three numbered with rfl | rfl | rfl
    · exact .next (by decide) (.next (by decide) (.stays 0))
    · exact .stays 0
    · exact .stays 0
  distinct := by
    intro object numbered
    rcases numbered_three numbered with rfl | rfl | rfl <;> decide
  parents := by
    intro object child numbered childNumbered
    rcases numbered_three numbered with rfl | rfl | rfl <;>
      rcases numbered_three childNumbered with rfl | rfl | rfl <;> decide

/-- The second child of the first object is put into the first child. -/
theorem tree_stays_consistent_small :
    let table := ofMemory smallWorld
    table.Consistent 3 smallWorld ∧
      ∃ after, table.insert 3 2 smallWorld = .ok () after ∧ table.Consistent 3 after ∧
        table.Children after 2 [3] ∧ table.Children after 1 [2] := by
  have consistent := consistent_of_forest linked_smallWorld forest_smallLinks
  refine ⟨consistent, ?_⟩
  have numbered : ∀ {object}, object = 1 ∨ object = 2 ∨ object = 3 → Numbered 3 object := by
    simp only [Numbered]
    omega
  have listed : ∀ {object list}, Numbered 3 object →
      (list = if object = 1 then [2, 3] else []) →
      (ofMemory smallWorld).Children smallWorld object list := by
    intro object list isObject same
    exact (children_eq linked_smallWorld forest_smallLinks isObject).mpr same
  rcases (tree_stays_consistent _ 3 smallWorld consistent 3 2 (numbered (by simp))
    (numbered (by simp))).2 with ⟨after, success, consistentAfter, adopts⟩
  refine ⟨after, success, consistentAfter, ?_, ?_⟩
  · exact adopts.gaining [] (listed (numbered (by simp)) rfl)
  · exact adopts.losing 1 [2, 3] (by decide +kernel) (by decide) (by decide)
      (listed (numbered (by simp)) rfl)

end ZMachine.ObjectTable
