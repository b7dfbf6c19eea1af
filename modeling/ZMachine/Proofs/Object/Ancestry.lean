import Mathlib.Logic.Relation
import Mathlib.Data.Fintype.EquivFin
import ZMachine.Proofs.Object.Tree

/-!
# Objects inside objects

Consistent links need not make a tree: an object may stand in itself by way of others. Parent links
are free of cycles when following them from any object ends at none.

Taking an object out keeps them so. Putting it into another one closes a cycle exactly when the
destination is the object or stands in it. Otherwise everything in the object comes along: only the
parent link of the object itself changes, so a path of parent links is affected only where it passes
the object.
-/

namespace ZMachine

theorem Numbered.ne_zero {count object : Nat} (numbered : Numbered count object) : object ≠ 0 :=
  Nat.one_le_iff_ne_zero.mp numbered.1

namespace ObjectTable

variable {table : ObjectTable} {count : Nat} {memory before after : Memory}
  {object other holder destination above : Nat}

/-- The parent link of an object leads to `above`, which is another object or 0. -/
def Rises (table : ObjectTable) (count : Nat) (memory : Memory) (object above : Nat) : Prop :=
  Numbered count object ∧ table.parent memory object = .ok above

/-- Following parent links from an object leads to `above` in any number of steps. -/
def Reaches (table : ObjectTable) (count : Nat) (memory : Memory) : Nat → Nat → Prop :=
  Relation.ReflTransGen (table.Rises count memory)

/-- Following parent links from any object ends at none. -/
def Acyclic (table : ObjectTable) (count : Nat) (memory : Memory) : Prop :=
  ∀ object, Numbered count object → table.Reaches count memory object 0

/-- An object stands in another one, directly or by way of others: that one is an ancestor of it. -/
def Within (table : ObjectTable) (count : Nat) (memory : Memory) (object holder : Nat) : Prop :=
  Numbered count holder ∧ Relation.TransGen (table.Rises count memory) object holder

theorem Rises.unique (left : table.Rises count memory object above)
    (right : table.Rises count memory object other) : above = other := by
  have same := left.2.symm.trans right.2
  injection same

theorem not_rises_zero : ¬ table.Rises count memory 0 above :=
  fun rises => rises.1.ne_zero rfl

/-- A path that comes back never ends: where it passes, it passes again. -/
theorem not_returns_of_reaches (rooted : table.Reaches count memory object 0) :
    ¬ Relation.TransGen (table.Rises count memory) object object := by
  induction rooted using Relation.ReflTransGen.head_induction_on with
  | refl =>
      intro returns
      rcases Relation.TransGen.head'_iff.mp returns with ⟨_, first, _⟩
      exact not_rises_zero first
  | @head object above rises _ ih =>
      intro returns
      rcases Relation.TransGen.head'_iff.mp returns with ⟨other, first, rest⟩
      rcases rises.unique first with rfl
      exact ih (Relation.TransGen.tail' rest rises)

theorem Acyclic.not_within_self (acyclic : table.Acyclic count memory) :
    ¬ table.Within count memory object object :=
  fun ⟨numbered, returns⟩ => not_returns_of_reaches (acyclic object numbered) returns

/-- Without cycles, to stand in an object is to reach it from elsewhere. -/
theorem Acyclic.within_iff (acyclic : table.Acyclic count memory)
    (numbered : Numbered count holder) :
    table.Within count memory object holder ↔
      object ≠ holder ∧ table.Reaches count memory object holder := by
  constructor
  · intro within
    refine ⟨?_, within.2.to_reflTransGen⟩
    rintro rfl
    exact acyclic.not_within_self within
  · rintro ⟨different, reaches⟩
    rcases Relation.reflTransGen_iff_eq_or_transGen.mp reaches with same | path
    · exact absurd same.symm different
    · exact ⟨numbered, path⟩

/-- To stand in an object depends only on the paths that reach it. -/
theorem Acyclic.within_congr (acyclic : table.Acyclic count before)
    (acyclicAfter : table.Acyclic count after)
    (agree : table.Reaches count after object holder ↔ table.Reaches count before object holder) :
    table.Within count after object holder ↔ table.Within count before object holder := by
  by_cases numbered : Numbered count holder
  · rw [acyclicAfter.within_iff numbered, acyclic.within_iff numbered, agree]
  · exact iff_of_false (fun within => numbered within.1) (fun within => numbered within.1)

/-- What an object stands in is its parent and what that stands in. -/
theorem Rises.within_iff (rises : table.Rises count memory object above)
    (numbered : Numbered count above) : table.Within count memory object holder ↔
      holder = above ∨ table.Within count memory above holder := by
  constructor
  · rintro ⟨holderNumbered, path⟩
    rcases Relation.TransGen.head'_iff.mp path with ⟨other, first, rest⟩
    rcases rises.unique first with rfl
    rcases Relation.reflTransGen_iff_eq_or_transGen.mp rest with same | path
    · exact .inl same
    · exact .inr ⟨holderNumbered, path⟩
  · rintro (rfl | ⟨holderNumbered, path⟩)
    · exact ⟨numbered, .single rises⟩
    · exact ⟨holderNumbered, .head rises path⟩

theorem Within.numbered (within : table.Within count memory object holder) :
    Numbered count object := by
  rcases Relation.TransGen.head'_iff.mp within.2 with ⟨_, first, _⟩
  exact first.1

/-- Among finitely many objects, the parent links are free of cycles when no object stands in itself:
the ancestors of an object are then fewer than those of what stands in it. -/
theorem Consistent.acyclic_iff (consistent : table.Consistent count memory) :
    table.Acyclic count memory ↔ ∀ object, ¬ table.Within count memory object object := by
  constructor
  · intro acyclic object
    exact acyclic.not_within_self
  · intro noCycle
    let Higher : Fin (count + 1) → Fin (count + 1) → Prop := fun above object =>
      Relation.TransGen (table.Rises count memory) object above
    have transitive : IsTrans _ Higher := ⟨fun _ _ _ first second => second.trans first⟩
    have irreflexive : Std.Irrefl Higher := by
      constructor
      intro object returns
      rcases Relation.TransGen.head'_iff.mp returns with ⟨_, first, _⟩
      exact noCycle object ⟨first.1, returns⟩
    have wellFounded : WellFounded Higher := Finite.wellFounded_of_trans_of_irrefl Higher
    have rooted : ∀ object : Fin (count + 1), table.Reaches count memory object 0 := by
      intro object
      induction object using wellFounded.induction with
      | _ object ih =>
          by_cases top : object.val = 0
          · rw [top]
            exact .refl
          · have numbered : Numbered count object :=
              ⟨Nat.one_le_iff_ne_zero.mpr top, Nat.le_of_lt_succ object.isLt⟩
            rcases consistent.bounded object .parent numbered with ⟨above, small, leads⟩
            have rises : table.Rises count memory object above := ⟨numbered, leads⟩
            have higher := ih ⟨above, Nat.lt_succ_of_le small⟩ (.single rises)
            exact Relation.ReflTransGen.head rises higher
    intro object numbered
    exact rooted ⟨object, Nat.lt_succ_of_le numbered.2⟩

/-- Two memories have the same parent links but for that of one object. -/
def SameParents (table : ObjectTable) (count object : Nat) (before after : Memory) : Prop :=
  ∀ other, Numbered count other → other ≠ object →
    table.parent after other = table.parent before other

section SameParents

variable (same : table.SameParents count object before after)

include same

theorem SameParents.symm : table.SameParents count object after before :=
  fun other numbered different => (same other numbered different).symm

theorem SameParents.rises (different : other ≠ object)
    (rises : table.Rises count before other above) : table.Rises count after other above :=
  ⟨rises.1, (same other rises.1 different).trans rises.2⟩

/-- A path to the object does not leave it. -/
theorem SameParents.reaches (reaches : table.Reaches count before other object) :
    table.Reaches count after other object := by
  induction reaches using Relation.ReflTransGen.head_induction_on with
  | refl => exact .refl
  | @head other above rises _ ih =>
      by_cases here : other = object
      · rw [here]
        exact .refl
      · exact Relation.ReflTransGen.head (same.rises here rises) ih

/-- A path from where the object is not reached does not pass it. -/
theorem SameParents.reaches_of_apart (apart : ¬ table.Reaches count before other object)
    (reaches : table.Reaches count before other above) : table.Reaches count after other above := by
  induction reaches with
  | refl => exact .refl
  | @tail middle above path rises ih =>
      have different : middle ≠ object := by
        rintro rfl
        exact apart path
      exact ih.tail (same.rises different rises)

/-- When the changed object still ends at none, every object does: a path either passes the changed
object or is as before. -/
theorem SameParents.acyclic (acyclic : table.Acyclic count before)
    (rooted : table.Reaches count after object 0) : table.Acyclic count after := by
  intro other numbered
  by_cases passes : table.Reaches count before other object
  · exact Relation.ReflTransGen.trans (same.reaches passes) rooted
  · exact same.reaches_of_apart passes (acyclic other numbered)

/-- What is reached from where the object is not reached is the same in both memories. -/
theorem SameParents.reaches_iff_of_apart (apart : ¬ table.Reaches count before other object) :
    table.Reaches count after other above ↔ table.Reaches count before other above := by
  have apartAfter : ¬ table.Reaches count after other object := fun reaches =>
    apart (same.symm.reaches reaches)
  exact ⟨same.symm.reaches_of_apart apartAfter, same.reaches_of_apart apart⟩

end SameParents

/-- The children of an object are those whose parent it is. -/
theorem Consistent.mem_children (consistent : table.Consistent count memory)
    (numbered : Numbered count holder) (otherNumbered : Numbered count other) {list : List Nat}
    (listed : table.Children memory holder list) :
    other ∈ list ↔ table.parent memory other = .ok holder := by
  rcases consistent.forest with ⟨links, children, linked, forest⟩
  rw [children_eq linked forest numbered] at listed
  rw [listed, parent, linked.stored other .parent otherNumbered, Except.ok.injEq]
  exact forest.parents holder other numbered otherNumbered

theorem Consistent.children_unique (consistent : table.Consistent count memory)
    (numbered : Numbered count holder) {left right : List Nat}
    (first : table.Children memory holder left) (second : table.Children memory holder right) :
    left = right := by
  rcases consistent.forest with ⟨links, children, linked, forest⟩
  rw [children_eq linked forest numbered] at first second
  rw [first, second]

/-- An object that keeps its place among the children of all objects keeps its parent. -/
theorem parent_eq_of_children (consistent : table.Consistent count before)
    (consistentAfter : table.Consistent count after) (numbered : Numbered count other)
    (kept : ∀ holder list, Numbered count holder → table.Children before holder list →
      ∃ listAfter, table.Children after holder listAfter ∧ (other ∈ listAfter ↔ other ∈ list)) :
    table.parent after other = table.parent before other := by
  rcases consistent.bounded other .parent numbered with ⟨old, oldSmall, oldRead⟩
  rcases consistentAfter.bounded other .parent numbered with ⟨new, newSmall, newRead⟩
  have agree : ∀ holder, Numbered count holder → (new = holder ↔ old = holder) := by
    intro holder holderNumbered
    rcases consistent.chains holder holderNumbered with ⟨list, listed, _⟩
    rcases kept holder list holderNumbered listed with ⟨listAfter, listedAfter, sameMembers⟩
    rw [consistent.mem_children holderNumbered numbered listed,
      consistentAfter.mem_children holderNumbered numbered listedAfter, parent, parent, oldRead,
      newRead, Except.ok.injEq, Except.ok.injEq] at sameMembers
    exact sameMembers
  have equal : new = old := by
    by_cases held : old = 0
    · by_cases heldAfter : new = 0
      · rw [held, heldAfter]
      · exact ((agree new ⟨Nat.one_le_iff_ne_zero.mpr heldAfter, newSmall⟩).mp rfl).symm
    · exact (agree old ⟨Nat.one_le_iff_ne_zero.mpr held, oldSmall⟩).mpr rfl
  rw [parent, parent, oldRead, newRead, equal]

theorem Releases.sameParents (releases : table.Releases count object before after)
    (consistent : table.Consistent count before) (consistentAfter : table.Consistent count after) :
    table.SameParents count object before after := by
  intro other numbered different
  apply parent_eq_of_children consistent consistentAfter numbered
  intro holder list holderNumbered listed
  by_cases held : table.parent before object = .ok holder
  · exact ⟨_, releases.losing holder list held holderNumbered.ne_zero listed,
      List.mem_erase_of_ne different⟩
  · exact ⟨list, releases.others holder list holderNumbered held listed, Iff.rfl⟩

theorem Adopts.sameParents (adopts : table.Adopts count object destination before after)
    (consistent : table.Consistent count before) (consistentAfter : table.Consistent count after) :
    table.SameParents count object before after := by
  intro other numbered different
  apply parent_eq_of_children consistent consistentAfter numbered
  intro holder list holderNumbered listed
  by_cases here : holder = destination
  · subst here
    refine ⟨_, adopts.gaining list listed, ?_⟩
    rw [List.mem_cons, List.mem_erase_of_ne different, or_iff_right different]
  · by_cases held : table.parent before object = .ok holder
    · exact ⟨_, adopts.losing holder list held holderNumbered.ne_zero here listed,
        List.mem_erase_of_ne different⟩
    · exact ⟨list, adopts.others holder list holderNumbered here held listed, Iff.rfl⟩

/-- An object that is taken out has no parent. -/
theorem Releases.rises (releases : table.Releases count object before after)
    (consistent : table.Consistent count before) (numbered : Numbered count object) :
    table.Rises count after object 0 := by
  refine ⟨numbered, ?_⟩
  rcases consistent.bounded object .parent numbered with ⟨holder, _, leads⟩
  by_cases free : holder = 0
  · subst free
    rw [releases.unchanged leads]
    exact leads
  · exact (releases.alone holder leads free).1

/-- What carrying an object into another one does to the tree: the same objects stand in it, with
the same children each; it stands in the destination and in what that stood in; and whatever is
neither the object nor in it stands where it stood. -/
structure Carries (table : ObjectTable) (count object destination : Nat) (before after : Memory) :
    Prop where
  below : ∀ other, table.Within count after other object ↔ table.Within count before other object
  above : ∀ holder, table.Within count after object holder ↔
    holder = destination ∨ table.Within count before destination holder
  inside : ∀ other list, other = object ∨ table.Within count before other object →
    (table.Children after other list ↔ table.Children before other list)
  elsewhere : ∀ other holder, other ≠ object → ¬ table.Within count before other object →
    (table.Within count after other holder ↔ table.Within count before other holder)

section Carrying

variable (consistent : table.Consistent count before) (acyclic : table.Acyclic count before)
  (numbered : Numbered count object) (destinationNumbered : Numbered count destination)
  (consistentAfter : table.Consistent count after)
  (adopts : table.Adopts count object destination before after)

include consistent acyclic numbered destinationNumbered consistentAfter adopts

/-- Putting an object into another one closes a cycle exactly when that one is the object or stands
in it. -/
theorem acyclic_iff_of_adopts : table.Acyclic count after ↔
    destination ≠ object ∧ ¬ table.Within count before destination object := by
  have same := adopts.sameParents consistent consistentAfter
  have rises : table.Rises count after object destination := ⟨numbered, adopts.parent⟩
  constructor
  · intro acyclicAfter
    have apart : ¬ table.Reaches count before destination object := by
      intro reaches
      have returns := Relation.TransGen.head' rises (same.reaches reaches)
      exact acyclicAfter.not_within_self ⟨numbered, returns⟩
    constructor
    · rintro rfl
      exact apart .refl
    · intro within
      exact apart within.2.to_reflTransGen
  · rintro ⟨different, outside⟩
    have apart : ¬ table.Reaches count before destination object := fun reaches =>
      outside ((acyclic.within_iff numbered).mpr ⟨different, reaches⟩)
    have destinationRooted := same.reaches_of_apart apart (acyclic destination destinationNumbered)
    exact same.acyclic acyclic (Relation.ReflTransGen.head rises destinationRooted)

/-- An object that is put into another one without closing a cycle takes along everything in it. -/
theorem carries_of_adopts (acyclicAfter : table.Acyclic count after) :
    table.Carries count object destination before after := by
  have same := adopts.sameParents consistent consistentAfter
  have ⟨different, outside⟩ := (acyclic_iff_of_adopts consistent acyclic numbered
    destinationNumbered consistentAfter adopts).mp acyclicAfter
  have elsewhere : ∀ other holder, other ≠ object → ¬ table.Within count before other object →
      (table.Within count after other holder ↔ table.Within count before other holder) := by
    intro other holder otherDifferent otherOutside
    apply acyclic.within_congr acyclicAfter
    apply same.reaches_iff_of_apart
    intro reaches
    exact otherOutside ((acyclic.within_iff numbered).mpr ⟨otherDifferent, reaches⟩)
  refine ⟨?_, ?_, ?_, elsewhere⟩
  · intro other
    exact acyclic.within_congr acyclicAfter ⟨same.symm.reaches, same.reaches⟩
  · intro holder
    have rises : table.Rises count after object destination := ⟨numbered, adopts.parent⟩
    rw [rises.within_iff destinationNumbered, elsewhere destination holder different outside]
  · intro other list inside
    have otherNumbered : Numbered count other := by
      rcases inside with rfl | within
      · exact numbered
      · exact within.numbered
    have notDestination : other ≠ destination := by
      rintro rfl
      exact inside.elim different outside
    have notHolder : table.parent before object ≠ .ok other := by
      intro leads
      have path : Relation.TransGen (table.Rises count before) object other :=
        .single ⟨numbered, leads⟩
      rcases inside with rfl | within
      · exact acyclic.not_within_self ⟨numbered, path⟩
      · exact acyclic.not_within_self ⟨numbered, path.trans within.2⟩
    have kept := fun list => adopts.others other list otherNumbered notDestination notHolder
    constructor
    · intro listed
      rcases consistent.chains other otherNumbered with ⟨old, oldListed, _⟩
      rwa [consistentAfter.children_unique otherNumbered listed (kept old oldListed)]
    · exact kept list

end Carrying

/-- While the tree is consistent and free of cycles, taking an object out keeps it free of cycles.
Putting an object into another one does so exactly when the destination is neither the object nor in
it, and then everything in the object is carried along. -/
theorem tree_stays_acyclic (table : ObjectTable) (count : Nat) (memory : Memory)
    (consistent : table.Consistent count memory) (acyclic : table.Acyclic count memory)
    (object destination : Nat) (numbered : Numbered count object)
    (destinationNumbered : Numbered count destination) :
    (∃ after, table.remove object memory = .ok () after ∧ table.Acyclic count after) ∧
    ∃ after, table.insert object destination memory = .ok () after ∧
      (table.Acyclic count after ↔
        destination ≠ object ∧ ¬ table.Within count memory destination object) ∧
      (table.Acyclic count after → table.Carries count object destination memory after) := by
  constructor
  · rcases remove_of_consistent consistent numbered with
      ⟨after, success, consistentAfter, releases⟩
    have free := releases.rises consistent numbered
    have same := releases.sameParents consistent consistentAfter
    exact ⟨after, success, same.acyclic acyclic (Relation.ReflTransGen.single free)⟩
  · rcases insert_of_consistent consistent numbered destinationNumbered with
      ⟨after, success, consistentAfter, adopts⟩
    exact ⟨after, success,
      acyclic_iff_of_adopts consistent acyclic numbered destinationNumbered consistentAfter adopts,
      carries_of_adopts consistent acyclic numbered destinationNumbered consistentAfter adopts⟩

theorem rises_smallWorld (numbered : Numbered 3 object) :
    (ofMemory smallWorld).Rises 3 smallWorld object (smallLinks object .parent) :=
  ⟨numbered, linked_smallWorld.stored object .parent numbered⟩

theorem acyclic_smallWorld : (ofMemory smallWorld).Acyclic 3 smallWorld := by
  have root : (ofMemory smallWorld).Reaches 3 smallWorld 1 0 :=
    .single (rises_smallWorld ⟨by decide, by decide⟩)
  intro object numbered
  rcases numbered_three numbered with rfl | rfl | rfl
  · exact root
  · exact Relation.ReflTransGen.head (rises_smallWorld numbered) root
  · exact Relation.ReflTransGen.head (rises_smallWorld numbered) root

/-- In the small world the third object can be put into the second one, and stands in the first one
by way of it. Putting the first object into the third one, which stands in it, closes a cycle. -/
theorem tree_stays_acyclic_small :
    let table := ofMemory smallWorld
    table.Consistent 3 smallWorld ∧ table.Acyclic 3 smallWorld ∧
      (∃ after, table.insert 3 2 smallWorld = .ok () after ∧ table.Acyclic 3 after ∧
        table.Within 3 after 3 1) ∧
      ∃ after, table.insert 1 3 smallWorld = .ok () after ∧ ¬ table.Acyclic 3 after := by
  have consistent := consistent_of_forest linked_smallWorld forest_smallLinks
  have acyclic := acyclic_smallWorld
  have first : Numbered 3 1 := ⟨by decide, by decide⟩
  have second : Numbered 3 2 := ⟨by decide, by decide⟩
  have third : Numbered 3 3 := ⟨by decide, by decide⟩
  have secondInFirst : (ofMemory smallWorld).Within 3 smallWorld 2 1 :=
    ⟨first, .single (rises_smallWorld second)⟩
  have thirdInFirst : (ofMemory smallWorld).Within 3 smallWorld 3 1 :=
    ⟨first, .single (rises_smallWorld third)⟩
  refine ⟨consistent, acyclic, ?_, ?_⟩
  · have outside : ¬ (ofMemory smallWorld).Within 3 smallWorld 2 3 := by
      rw [(rises_smallWorld second).within_iff first]
      rintro (same | firstInThird)
      · contradiction
      · exact acyclic.not_within_self ⟨first, firstInThird.2.trans thirdInFirst.2⟩
    rcases (tree_stays_acyclic _ 3 smallWorld consistent acyclic 3 2 third second).2 with
      ⟨after, success, free, carries⟩
    have acyclicAfter := free.mpr ⟨by decide, outside⟩
    exact ⟨after, success, acyclicAfter, ((carries acyclicAfter).above 1).mpr (.inr secondInFirst)⟩
  · rcases (tree_stays_acyclic _ 3 smallWorld consistent acyclic 1 3 first third).2 with
      ⟨after, success, free, _⟩
    exact ⟨after, success, fun acyclicAfter => (free.mp acyclicAfter).2 thirdInFirst⟩

end ObjectTable

end ZMachine
