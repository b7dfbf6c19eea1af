import Mathlib.Data.List.Nodup
import Mathlib.Data.List.Perm.Subperm
import ZMachine.Proofs.Object.Links

/-!
# Forests of objects

The children of an object form a chain: the child link leads to the first of them, and each sibling
link to the next. `Links.Passes` follows such a chain. The links of a story's objects make a forest
if every chain ends, has no object twice, and has exactly the objects whose parent link leads back.

An object is taken out of its chain by leading the link to it past it, and put into another one by
leading the links of its new parent through it. Both keep a forest, and both change the chains as
one expects. An object may even be put into itself: nothing here asks that parents come to an end.
-/

namespace ZMachine

namespace Links

/-- Following siblings from `first` passes the objects of a list and comes to `last`. -/
inductive Passes (links : Links) : Nat → List Nat → Nat → Prop where
  | stays (object : Nat) : Passes links object [] object
  | next {object last : Nat} {rest : List Nat} (nonzero : object ≠ 0)
      (others : Passes links (links object .sibling) rest last) :
      Passes links object (object :: rest) last

namespace Passes

variable {links : Links} {first last : Nat} {list : List Nat}

theorem head {object : Nat} {rest : List Nat} (passes : links.Passes first (object :: rest) last) :
    first = object := by
  cases passes with
  | next => rfl

theorem tail {object : Nat} {rest : List Nat} (passes : links.Passes first (object :: rest) last) :
    links.Passes (links object .sibling) rest last := by
  cases passes with
  | next _ others => exact others

/-- The first object is not behind one that is passed. -/
theorem first_mem {object : Nat} {front back : List Nat}
    (passes : links.Passes first (front ++ object :: back) last) : first ∈ front ++ [object] := by
  cases front with
  | nil => simpa using passes.head
  | cons _ rest => simp [passes.head]

theorem append {middle : Nat} {others : List Nat} (front : links.Passes first list middle)
    (back : links.Passes middle others last) : links.Passes first (list ++ others) last := by
  induction front with
  | stays => exact back
  | next nonzero _ ih => exact .next nonzero (ih back)

theorem split {others : List Nat} (passes : links.Passes first (list ++ others) last) :
    ∃ middle, links.Passes first list middle ∧ links.Passes middle others last := by
  induction list generalizing first with
  | nil => exact ⟨first, .stays first, passes⟩
  | cons object rest ih =>
      cases passes with
      | next nonzero tail =>
          rcases ih tail with ⟨middle, front, back⟩
          exact ⟨middle, .next nonzero front, back⟩

/-- Only the siblings of the objects that are passed matter. -/
theorem congr {other : Links} (passes : links.Passes first list last)
    (same : ∀ object ∈ list, other object .sibling = links object .sibling) :
    other.Passes first list last := by
  induction passes with
  | stays object => exact .stays object
  | @next object last rest nonzero others ih =>
      refine .next nonzero ?_
      rw [same object List.mem_cons_self]
      exact ih fun younger member => same younger (List.mem_cons_of_mem _ member)

/-- A chain that ends is determined by its beginning. -/
theorem unique {others : List Nat} (passes : links.Passes first list 0)
    (again : links.Passes first others 0) : list = others := by
  induction list generalizing first others with
  | nil =>
      cases passes
      cases again with
      | stays => rfl
      | next nonzero => exact absurd rfl nonzero
  | cons object rest ih =>
      cases passes with
      | next nonzero tail =>
          cases again with
          | stays => exact absurd rfl nonzero
          | next _ otherTail => rw [ih tail otherTail]

theorem numbered {count : Nat} (bounded : ∀ object link, Numbered count object →
      links object link ≤ count) (small : first ≤ count) (passes : links.Passes first list last) :
    ∀ object ∈ list, Numbered count object := by
  induction passes with
  | stays => simp
  | @next object last rest nonzero others ih =>
      have numbered : Numbered count object := ⟨by omega, small⟩
      intro member inside
      rcases List.mem_cons.mp inside with rfl | younger
      · exact numbered
      · exact ih (bounded object .sibling numbered) member younger

end Passes

/-- The chains of children of the objects from 1 to `count` are consistent; `children` lists them. -/
structure Forest (count : Nat) (links : Links) (children : Nat → List Nat) : Prop where
  bounded : ∀ object link, Numbered count object → links object link ≤ count
  chain : ∀ object, Numbered count object →
    links.Passes (links object .child) (children object) 0
  distinct : ∀ object, Numbered count object → (children object).Nodup
  parents : ∀ object child, Numbered count object → Numbered count child →
    (child ∈ children object ↔ links child .parent = object)

/-- The link that leads to a child of `parent`: that of the parent to its first child, or that of an
elder sibling. -/
inductive LeadsTo (children : List Nat) (parent object : Nat) : Nat → Link → Prop where
  | asFirst {younger : List Nat} (shape : children = object :: younger) :
      LeadsTo children parent object parent .child
  | asNext {elders younger : List Nat} {elder : Nat}
      (shape : children = elders ++ elder :: object :: younger) :
      LeadsTo children parent object elder .sibling

theorem leadsTo_of_mem {children : List Nat} {object : Nat} (parent : Nat)
    (member : object ∈ children) : ∃ holder link, LeadsTo children parent object holder link := by
  rcases List.append_of_mem member with ⟨elders, younger, shape⟩
  rcases List.eq_nil_or_concat elders with rfl | ⟨others, elder, rfl⟩
  · exact ⟨parent, .child, .asFirst shape⟩
  · exact ⟨elder, .sibling, .asNext (by simpa using shape)⟩

/-- The links after an object is taken out: the link that led to it is led past it. -/
def detached (links : Links) (object holder : Nat) (link : Link) : Links :=
  ((links.set holder link (links object .sibling)).set object .parent 0).set object .sibling 0

/-- The links after an object without a parent is put in front of the children of another. -/
def attached (links : Links) (object parent : Nat) : Links :=
  ((links.set object .sibling (links parent .child)).set parent .child object).set object .parent
    parent

namespace Forest

variable {count : Nat} {links : Links} {children : Nat → List Nat}
  (forest : Forest count links children)

include forest

theorem congr {others : Nat → List Nat}
    (same : ∀ object, Numbered count object → others object = children object) :
    Forest count links others where
  bounded := forest.bounded
  chain := by
    intro object numbered
    rw [same object numbered]
    exact forest.chain object numbered
  distinct := by
    intro object numbered
    rw [same object numbered]
    exact forest.distinct object numbered
  parents := by
    intro object child numbered childNumbered
    rw [same object numbered]
    exact forest.parents object child numbered childNumbered

theorem numbered_of_mem {object child : Nat} (numbered : Numbered count object)
    (member : child ∈ children object) : Numbered count child :=
  (forest.chain object numbered).numbered forest.bounded (forest.bounded object .child numbered)
    child member

theorem parent_of_mem {object child : Nat} (numbered : Numbered count object)
    (member : child ∈ children object) : links child .parent = object :=
  (forest.parents object child numbered (forest.numbered_of_mem numbered member)).mp member

theorem erase_of_ne {object other : Nat} (otherNumbered : Numbered count other)
    (different : other ≠ links object .parent) : (children other).erase object = children other := by
  apply List.erase_of_not_mem
  intro member
  exact different (forest.parent_of_mem otherNumbered member).symm

theorem numbered_parent {object : Nat} (numbered : Numbered count object)
    (held : links object .parent ≠ 0) : Numbered count (links object .parent) :=
  ⟨Nat.one_le_iff_ne_zero.mpr held, forest.bounded object .parent numbered⟩

/-- Chains are no longer than there are objects. -/
theorem length_le {object : Nat} (numbered : Numbered count object) :
    (children object).length ≤ count := by
  have inside : children object ⊆ List.range' 1 count := by
    intro child member
    have := forest.numbered_of_mem numbered member
    simp only [Numbered] at this
    simp only [List.mem_range'_1]
    omega
  simpa using ((forest.distinct object numbered).subperm inside).length_le

section Detached

variable {object holder : Nat} {link : Link} (numbered : Numbered count object)
  (held : links object .parent ≠ 0)
  (leads : LeadsTo (children (links object .parent)) (links object .parent) object holder link)

include numbered held leads

theorem numbered_holder : Numbered count holder := by
  have parentNumbered := forest.numbered_parent numbered held
  cases leads with
  | asFirst => exact parentNumbered
  | asNext shape =>
      apply forest.numbered_of_mem parentNumbered
      simp [shape]

/-- The chain that the object stood in closes behind it. -/
theorem passes_detached_parent :
    (links.detached object holder link).Passes
      (links.detached object holder link (links object .parent) .child)
      ((children (links object .parent)).erase object) 0 := by
  have parentNumbered := forest.numbered_parent numbered held
  have chain := forest.chain _ parentNumbered
  have distinct := forest.distinct _ parentNumbered
  cases leads with
  | asFirst shape =>
      rw [shape] at chain distinct ⊢
      have absent := (List.nodup_cons.mp distinct).1
      have first : links.detached object (links object .parent) .child (links object .parent) .child =
          links object .sibling := by
        simp [detached]
      rw [List.erase_cons_head, first]
      apply chain.tail.congr
      intro younger member
      have different : younger ≠ object := fun same => absent (same ▸ member)
      simp [detached, different]
  | @asNext elders younger elder shape =>
      rw [shape] at chain distinct ⊢
      rcases chain.split with ⟨middle, front, back⟩
      rcases back.head with rfl
      have middle_ne : ∀ other ∈ elders ++ younger, other ≠ middle := by
        rintro other member rfl
        have absent := (List.nodup_cons.mp (List.nodup_middle.mp distinct)).1
        simp_all
      have object_ne : ∀ other ∈ elders ++ middle :: younger, other ≠ object := by
        rintro other member rfl
        rw [List.append_cons] at distinct
        have absent := (List.nodup_cons.mp (List.nodup_middle.mp distinct)).1
        simp_all
      have erased : (elders ++ middle :: object :: younger).erase object =
          elders ++ middle :: younger := by
        rw [List.erase_append_right, List.erase_cons_tail, List.erase_cons_head]
        · simpa using object_ne middle (by simp)
        · intro member
          exact object_ne object (by simp [member]) rfl
      have first : links.detached object middle .sibling (links object .parent) .child =
          links (links object .parent) .child := by
        simp [detached]
      have past : links.detached object middle .sibling middle .sibling = links object .sibling := by
        simp [detached, object_ne middle (by simp)]
      rw [erased, first]
      refine (front.congr ?_).append ?_
      · intro other member
        simp [detached, object_ne other (by simp [member]), middle_ne other (by simp [member])]
      · cases back with
        | next nonzero others =>
            refine .next nonzero ?_
            rw [past]
            apply others.tail.congr
            intro other member
            simp [detached, object_ne other (by simp [member]), middle_ne other (by simp [member])]

/-- Chains of other objects do not notice. -/
theorem passes_detached_of_ne {other : Nat} (otherNumbered : Numbered count other)
    (different : other ≠ links object .parent) :
    (links.detached object holder link).Passes
      (links.detached object holder link other .child) (children other) 0 := by
  have parentNumbered := forest.numbered_parent numbered held
  have notObject : ∀ child ∈ children other, child ≠ object := by
    rintro child member rfl
    exact different (forest.parent_of_mem otherNumbered member).symm
  cases leads with
  | asFirst shape =>
      have first : links.detached object (links object .parent) .child other .child =
          links other .child := by
        simp [detached, different]
      rw [first]
      apply (forest.chain other otherNumbered).congr
      intro child member
      simp [detached, notObject child member]
  | asNext shape =>
      have first : links.detached object holder .sibling other .child = links other .child := by
        simp [detached]
      have notHolder : ∀ child ∈ children other, child ≠ holder := by
        rintro child member rfl
        have inside : child ∈ children (links object .parent) := by simp [shape]
        have holderParent := forest.parent_of_mem parentNumbered inside
        exact different ((forest.parent_of_mem otherNumbered member).symm.trans holderParent)
      rw [first]
      apply (forest.chain other otherNumbered).congr
      intro child member
      simp [detached, notObject child member, notHolder child member]

theorem detached : Forest count (links.detached object holder link)
    fun other => (children other).erase object where
  bounded := by
    intro other place otherNumbered
    apply Links.set_le _ _ _ _ (Nat.zero_le count)
    apply Links.set_le _ _ _ _ (Nat.zero_le count)
    apply Links.set_le _ _ _ _ (forest.bounded object .sibling numbered)
    exact forest.bounded other place otherNumbered
  chain := by
    intro other otherNumbered
    by_cases same : other = links object .parent
    · subst same
      exact forest.passes_detached_parent numbered held leads
    · rw [forest.erase_of_ne otherNumbered same]
      exact forest.passes_detached_of_ne numbered held leads otherNumbered same
  distinct := by
    intro other otherNumbered
    exact (forest.distinct other otherNumbered).erase object
  parents := by
    intro other child otherNumbered childNumbered
    rw [(forest.distinct other otherNumbered).mem_erase_iff]
    by_cases same : child = object
    · subst same
      have parentless : links.detached child holder link child .parent = 0 := by
        simp [Links.detached]
      have positive := otherNumbered.1
      simp only [ne_eq, not_true_eq_false, false_and, parentless, false_iff]
      omega
    · have kept : links.detached object holder link child .parent = links child .parent := by
        cases leads <;> simp [Links.detached, same]
      rw [kept]
      simp only [ne_eq, same, not_false_eq_true, true_and]
      exact forest.parents other child otherNumbered childNumbered

end Detached

section Attached

variable {object parent : Nat} (numbered : Numbered count object)
  (parentNumbered : Numbered count parent) (free : links object .parent = 0)

include free

/-- An object without a parent is in no chain. -/
theorem not_mem_of_free {other : Nat} (otherNumbered : Numbered count other) :
    object ∉ children other := by
  intro member
  have := forest.parent_of_mem otherNumbered member
  have := otherNumbered.1
  omega

theorem passes_attached (parent : Nat) {other : Nat} (otherNumbered : Numbered count other) :
    (links.attached object parent).Passes (links other .child) (children other) 0 := by
  apply (forest.chain other otherNumbered).congr
  intro child member
  have different : child ≠ object := by
    rintro rfl
    exact forest.not_mem_of_free free otherNumbered member
  simp [Links.attached, different]

include numbered parentNumbered

theorem attached : Forest count (links.attached object parent)
    (Function.update children parent (object :: children parent)) where
  bounded := by
    intro other place otherNumbered
    apply Links.set_le _ _ _ _ parentNumbered.2
    apply Links.set_le _ _ _ _ numbered.2
    apply Links.set_le _ _ _ _ (forest.bounded parent .child parentNumbered)
    exact forest.bounded other place otherNumbered
  chain := by
    intro other otherNumbered
    have rest := forest.passes_attached free parent otherNumbered
    by_cases same : other = parent
    · subst same
      have first : links.attached object other other .child = object := by
        simp [Links.attached]
      have next : links.attached object other object .sibling = links other .child := by
        simp [Links.attached]
      rw [Function.update_self, first]
      refine .next (by have := numbered.1; omega) ?_
      rw [next]
      exact rest
    · have first : links.attached object parent other .child = links other .child := by
        simp [Links.attached, same]
      rw [Function.update_of_ne same, first]
      exact rest
  distinct := by
    intro other otherNumbered
    by_cases same : other = parent
    · subst same
      rw [Function.update_self, List.nodup_cons]
      exact ⟨forest.not_mem_of_free free otherNumbered,
        forest.distinct other otherNumbered⟩
    · rw [Function.update_of_ne same]
      exact forest.distinct other otherNumbered
  parents := by
    intro other child otherNumbered childNumbered
    by_cases isObject : child = object
    · subst isObject
      have absent := forest.not_mem_of_free free otherNumbered
      have held : links.attached child parent child .parent = parent := by
        simp [Links.attached]
      rw [held]
      by_cases same : other = parent
      · subst same
        simp
      · rw [Function.update_of_ne same]
        simp only [absent, false_iff]
        exact fun equal => same equal.symm
    · have kept : links.attached object parent child .parent = links child .parent := by
        simp [Links.attached, isObject]
      rw [kept, ← forest.parents other child otherNumbered childNumbered]
      by_cases same : other = parent
      · subst same
        simp [isObject]
      · rw [Function.update_of_ne same]

end Attached

end Forest

end Links

end ZMachine
