import ZMachine.Proofs.Memory.Protection
import ZMachine.Proofs.Memory.Region
import ZMachine.Proofs.Object.Tree

/-!
# Moves that are refused

Putting an object into another one takes it out of its parent first and attaches it afterwards. There
is no way back: a move that fails keeps the stores that it has made. All that is read before the
first store can fail without a trace, and so can the first store. A later store is refused only if
its link lies outside dynamic memory. `ObjectTable.SparesTree` collects what is therefore left of the
tree when a move fails.
-/

namespace ZMachine.ObjectTable

open Memory (Confined)

variable {table : ObjectTable} {memory after : Memory} {object destination : Nat} {link : Link}
  {value : Nat} {fault : Fault}

/-- The object exists and its link lies in dynamic memory. -/
def Alterable (table : ObjectTable) (memory : Memory) (object : Nat) (link : Link) : Prop :=
  ∃ address, table.linkAddress object link = .ok address ∧
    address + table.linkBytes ≤ memory.header.staticBase

/-- The bytes of a link. -/
def linkRegion (table : ObjectTable) (object : Nat) (link : Link) : Set Nat :=
  { place | ∃ address, table.linkAddress object link = .ok address ∧
    place ∈ Set.Ico address (address + table.linkBytes) }

/-- The gap that an object leaves among the children of `holder` can be found and closed. -/
def Releasable (table : ObjectTable) (memory : Memory) (object holder : Nat) : Prop :=
  ∃ next closed, table.sibling memory object = .ok next ∧
    table.closeGap object holder next memory = .ok () closed

/-- The links that putting an object into another one can change: those of the object to its parent
and its sibling, the one of the destination to its first child, and those that lead to the object
among the children of its parent. -/
def movedLinks (table : ObjectTable) (memory : Memory) (object destination : Nat) : Set Nat :=
  { place | ∃ other link, place ∈ table.linkRegion other link ∧
    (other = object ∧ link ≠ .child ∨ other = destination ∧ link = .child ∨
      table.follow memory other link = .ok object ∧
        (link = .sibling ∨ link = .child ∧ table.parent memory object = .ok other)) }

theorem linkAddress_eq_ok {address : Nat} :
    table.linkAddress object link = .ok address ↔
      Numbered table.maxObject object ∧ table.linkPlace object link = address := by
  constructor
  · intro found
    by_cases legal : Numbered table.maxObject object
    · rw [linkAddress_eq le_rfl legal, Except.ok.injEq] at found
      exact ⟨legal, found⟩
    · have illegal : object = 0 ∨ table.maxObject < object := by
        simp only [Numbered] at legal
        omega
      rw [linkAddress, entryAddress, if_pos illegal] at found
      cases found
  · rintro ⟨legal, rfl⟩
    exact linkAddress_eq le_rfl legal link

theorem legal_of_follow (led : table.follow memory object link = .ok value) :
    Numbered table.maxObject object := by
  rcases query_bind_eq_ok.mp led with ⟨address, found, _⟩
  exact (linkAddress_eq_ok.mp found).1

/-- A link has no room for a number that no object has. -/
theorem le_of_follow (led : table.follow memory object link = .ok value) :
    value ≤ table.maxObject := by
  rw [follow_eq_ok le_rfl (legal_of_follow led)] at led
  rcases led with ⟨_, rfl⟩
  unfold linkAt maxObject
  split
  · have := (memory.bytes.byteAt (table.linkPlace object link)).toNat_lt
    omega
  · have := (memory.bytes.wordAt (table.linkPlace object link)).toNat_lt
    omega

theorem Alterable.follow (alterable : table.Alterable memory object link)
    (mapped : memory.Mapped) : ∃ value, table.follow memory object link = .ok value := by
  rcases alterable with ⟨address, found, dynamic⟩
  rcases linkAddress_eq_ok.mp found with ⟨legal, rfl⟩
  exact ⟨_, (follow_eq_ok le_rfl legal).mpr ⟨dynamic.trans mapped.static, rfl⟩⟩

/-- The link to the parent stands before the link to the sibling. -/
theorem Alterable.parent (alterable : table.Alterable memory object .sibling) :
    table.Alterable memory object .parent := by
  rcases alterable with ⟨address, found, dynamic⟩
  rcases linkAddress_eq_ok.mp found with ⟨legal, rfl⟩
  refine ⟨_, linkAddress_eq_ok.mpr ⟨legal, rfl⟩, ?_⟩
  simp only [linkPlace, Link.place] at dynamic ⊢
  omega

theorem alterable_iff {before : Memory} (writes : before.Writes after) :
    table.Alterable after object link ↔ table.Alterable before object link := by
  rw [Alterable, Alterable, writes.header]

theorem alterable_of_setLink (success : table.setLink object link value memory = .ok () after) :
    table.Alterable memory object link := by
  rcases bind_eq_ok.mp success with ⟨address, _, placed, stored⟩
  rcases Memory.inspect_eq_ok.mp placed with ⟨found, rfl⟩
  refine ⟨address, found, ?_⟩
  unfold storeLink at stored
  unfold linkBytes
  split at stored
  · rename_i small
    split at stored
    · cases stored
    · have dynamic := (Memory.writeByte_eq_ok.mp stored).1
      simp only [small, if_true]
      omega
  · rename_i large
    have dynamic := (Memory.writeWord_eq_ok.mp stored).1
    simp only [large]
    exact dynamic

theorem storeLink_of_error {address : Nat}
    (refused : table.storeLink address value memory = .error fault after) : after = memory := by
  unfold storeLink at refused
  split at refused
  · split at refused
    · cases refused
      rfl
    · exact Memory.eq_of_writeByte_error refused
  · exact Memory.eq_of_writeWord_error refused

/-- A link that cannot be changed is left alone, and it can be changed if it lies in dynamic memory.
-/
theorem setLink_of_error (refused : table.setLink object link value memory = .error fault after) :
    after = memory ∧ (value ≤ table.maxObject → ¬ table.Alterable memory object link) := by
  constructor
  · rcases bind_eq_error refused with unplaced | ⟨address, middle, placed, unstored⟩
    · exact (Memory.inspect_eq_error.mp unplaced).2
    · exact (storeLink_of_error unstored).trans (Memory.inspect_eq_ok.mp placed).2
  · rintro small ⟨address, found, dynamic⟩
    rw [setLink, bind_of_ok (Memory.inspect_eq_ok.mpr ⟨found, rfl⟩), storeLink_eq dynamic small]
      at refused
    cases refused

theorem confined_setLink {region : Set Nat} (inside : table.linkRegion object link ⊆ region)
    (value : Nat) : Keeps (Confined region) (table.setLink object link value) := by
  intro memory
  cases found : table.linkAddress object link with
  | error fault =>
      rw [stateAfter, setLink, bind_of_error (Memory.inspect_eq_error.mpr ⟨found, rfl⟩)]
      exact Confined.refl region memory
  | ok address =>
      have member : ∀ offset, offset < table.linkBytes → address + offset ∈ region :=
        fun offset short => inside ⟨address, found, by simp only [Set.mem_Ico]; omega⟩
      have stores : Keeps (Confined region) (table.storeLink address value) := by
        unfold linkBytes at member
        unfold storeLink
        split
        · rename_i small
          simp only [small, if_true] at member
          exact Keeps.ite (Keeps.throw _) (Memory.confined_writeByte (member 0 (by omega)) _)
        · rename_i large
          simp only [large] at member
          exact Memory.confined_writeWord (member 0 (by decide)) (member 1 (by decide)) _
      rw [stateAfter, setLink, bind_of_ok (Memory.inspect_eq_ok.mpr ⟨found, rfl⟩)]
      exact stores memory

/-- The sibling that is found before an object leads to it. -/
theorem sibling_of_elder {steps current elder : Nat}
    (found : table.elder memory object steps current = .ok (some elder)) :
    table.sibling memory elder = .ok object := by
  induction steps generalizing current with
  | zero => cases found
  | succ steps ih =>
      rw [ObjectTable.elder] at found
      split at found
      · cases found
      · cases led : table.sibling memory current with
        | error fault =>
            rw [led] at found
            cases found
        | ok following =>
            simp only [led] at found
            split at found
            · rename_i same
              cases found
              rw [led, same]
            · exact ih found

/-- How the gap is closed: one link that leads to the object among the children of its parent is
changed, if there is one. -/
theorem closeGap_cases (table : ObjectTable) (memory : Memory) (object holder next : Nat) :
    (∃ fault, table.closeGap object holder next memory = .error fault memory) ∨
    table.closeGap object holder next memory = .ok () memory ∨
    ∃ other link, (link = .sibling ∨ link = .child ∧ other = holder) ∧
      table.follow memory other link = .ok object ∧
      table.closeGap object holder next memory = table.setLink other link next memory := by
  unfold closeGap
  cases begins : table.child memory holder with
  | error fault =>
      exact Or.inl ⟨fault, bind_of_error (Memory.inspect_eq_error.mpr ⟨begins, rfl⟩)⟩
  | ok first =>
      rw [bind_of_ok (Memory.inspect_eq_ok.mpr ⟨begins, rfl⟩)]
      split
      · rename_i same
        exact Or.inr (Or.inr ⟨holder, .child, Or.inr ⟨rfl, rfl⟩, same ▸ begins, rfl⟩)
      · cases walk : table.elder memory object (table.maxObject + 1) first with
        | error fault =>
            exact Or.inl ⟨fault, bind_of_error (Memory.inspect_eq_error.mpr ⟨walk, rfl⟩)⟩
        | ok found =>
            rw [bind_of_ok (Memory.inspect_eq_ok.mpr ⟨walk, rfl⟩)]
            cases found with
            | none => exact Or.inr (Or.inl rfl)
            | some elder =>
                exact Or.inr (Or.inr ⟨elder, .sibling, Or.inl rfl, sibling_of_elder walk, rfl⟩)

theorem closeGap_of_error {holder next : Nat}
    (refused : table.closeGap object holder next memory = .error fault after) : after = memory := by
  rcases table.closeGap_cases memory object holder next with
    ⟨reason, failed⟩ | closed | ⟨other, link, _, _, stores⟩
  · rw [failed] at refused
    cases refused
    rfl
  · rw [closed] at refused
    cases refused
  · exact (setLink_of_error (stores ▸ refused)).1

/-- Where taking an object out fails after a store, the gap is closed but the links of the object
cannot be cleared: in dynamic memory neither of the last two stores is refused. -/
theorem remove_of_error (refused : table.remove object memory = .error fault after) :
    after = memory ∨ ∃ holder, table.parent memory object = .ok holder ∧ holder ≠ 0 ∧
      table.Releasable memory object holder ∧ ¬ table.Alterable memory object .sibling := by
  unfold remove at refused
  rcases bind_eq_error refused with unread | ⟨holder, _, read, releasing⟩
  · exact Or.inl (Memory.inspect_eq_error.mp unread).2
  rcases Memory.inspect_eq_ok.mp read with ⟨held, rfl⟩
  split at releasing
  · cases releasing
  rename_i nonzero
  rcases bind_eq_error releasing with unread | ⟨next, _, nextRead, unlinking⟩
  · exact Or.inl (Memory.inspect_eq_error.mp unread).2
  rcases Memory.inspect_eq_ok.mp nextRead with ⟨led, rfl⟩
  rcases bind_eq_error unlinking with unclosed | ⟨_, closed, closing, clearing⟩
  · exact Or.inl (closeGap_of_error unclosed)
  refine Or.inr ⟨holder, held, nonzero, ⟨next, closed, led, closing⟩, fun alterable => ?_⟩
  have closes := (table.writes_closeGap object holder next).of_ok closing
  rcases bind_eq_error clearing with unset | ⟨_, orphaned, orphaning, unset⟩
  · exact (setLink_of_error unset).2 (Nat.zero_le _) ((alterable_iff closes).mpr alterable.parent)
  · have clears := closes.trans ((table.writes_setLink object .parent 0).of_ok orphaning)
    exact (setLink_of_error unset).2 (Nat.zero_le _) ((alterable_iff clears).mpr alterable)

theorem releasable_of_remove (success : table.remove object memory = .ok () after) :
    ∃ holder, table.parent memory object = .ok holder ∧ (holder = 0 → after = memory) ∧
      (holder ≠ 0 → table.Releasable memory object holder) := by
  unfold remove at success
  rcases bind_eq_ok.mp success with ⟨holder, _, read, releasing⟩
  rcases Memory.inspect_eq_ok.mp read with ⟨held, rfl⟩
  refine ⟨holder, held, ?_, ?_⟩
  · rintro rfl
    cases releasing
    rfl
  · intro nonzero
    rw [if_neg nonzero] at releasing
    rcases bind_eq_ok.mp releasing with ⟨next, _, nextRead, unlinking⟩
    rcases Memory.inspect_eq_ok.mp nextRead with ⟨led, rfl⟩
    rcases bind_eq_ok.mp unlinking with ⟨_, closed, closing, _⟩
    exact ⟨next, closed, led, closing⟩

/-- Makes an object without a parent the first child of another. -/
def attach (table : ObjectTable) (object destination : Nat) : MemoryM Unit := do
  let first ← Memory.inspect (table.child · destination)
  table.setLink object .sibling first
  table.setLink destination .child object
  table.setLink object .parent destination

theorem insert_eq (somewhere : destination ≠ 0) :
    table.insert object destination =
      table.remove object >>= fun _ => table.attach object destination := by
  rw [insert, if_neg somewhere]
  rfl

/-- Once an object is taken out, attaching it fails only at a link outside dynamic memory, and
before any store if the first child of the destination or the sibling of the object is out of reach.
-/
theorem attach_of_error {removed : Memory} (mapped : removed.Mapped)
    (legal : object ≤ table.maxObject)
    (failed : table.attach object destination removed = .error fault after) :
    ¬ (table.Alterable removed object .sibling ∧ table.Alterable removed destination .child) ∧
    (after = removed ∨ table.Alterable removed object .sibling ∧
      ∃ first, table.child removed destination = .ok first) := by
  rcases bind_eq_error failed with unread | ⟨first, _, read, joining⟩
  · rcases Memory.inspect_eq_error.mp unread with ⟨unreadable, rfl⟩
    refine ⟨?_, Or.inl rfl⟩
    rintro ⟨_, alterable⟩
    rcases alterable.follow mapped with ⟨value, led⟩
    simp only [child, led] at unreadable
    cases unreadable
  rcases Memory.inspect_eq_ok.mp read with ⟨begins, rfl⟩
  rcases bind_eq_error joining with unjoined | ⟨_, joined, join, heading⟩
  · rcases setLink_of_error unjoined with ⟨same, fixed⟩
    exact ⟨fun both => fixed (le_of_follow begins) both.1, Or.inl same⟩
  have alterable := alterable_of_setLink join
  refine ⟨?_, Or.inr ⟨alterable, first, begins⟩⟩
  rintro ⟨_, headed⟩
  have joins := (table.writes_setLink object .sibling first).of_ok join
  rcases bind_eq_error heading with unheaded | ⟨_, heading, head, unadopted⟩
  · exact (setLink_of_error unheaded).2 legal ((alterable_iff joins).mpr headed)
  · have heads := joins.trans ((table.writes_setLink destination .child object).of_ok head)
    exact (setLink_of_error unadopted).2 (legal_of_follow begins).2
      ((alterable_iff heads).mpr alterable.parent)

/-- Where putting an object into another one fails after a store, a link that is still to be changed
lies outside dynamic memory. -/
theorem insert_of_error (mapped : memory.Mapped)
    (failed : table.insert object destination memory = .error fault after) :
    after = memory ∨ destination ≠ 0 ∧ ∃ holder, table.parent memory object = .ok holder ∧
      (holder ≠ 0 → table.Releasable memory object holder) ∧
      (holder = 0 → table.Alterable memory object .sibling ∧
        ∃ first, table.child memory destination = .ok first) ∧
      ¬ (table.Alterable memory object .sibling ∧ table.Alterable memory destination .child) := by
  by_cases somewhere : destination = 0
  · rw [insert, if_pos somewhere] at failed
    cases failed
    exact Or.inl rfl
  rw [insert_eq somewhere] at failed
  rcases bind_eq_error failed with unremoved | ⟨_, removed, removing, attaching⟩
  · rcases remove_of_error unremoved with same | ⟨holder, held, nonzero, released, fixed⟩
    · exact Or.inl same
    · exact Or.inr ⟨somewhere, holder, held, fun _ => released,
        fun free => absurd free nonzero, fun both => fixed both.1⟩
  rcases releasable_of_remove removing with ⟨holder, held, free, released⟩
  have removes := (table.writes_remove object).of_ok removing
  rcases attach_of_error ((Memory.Protects.of_touches removes.touches).mapped mapped)
    (legal_of_follow held).2 attaching with ⟨fixed, reached⟩
  rw [alterable_iff removes, alterable_iff removes] at fixed
  by_cases isFree : holder = 0
  · rw [free isFree] at reached
    rcases reached with same | joined
    · exact Or.inl same
    · exact Or.inr ⟨somewhere, holder, held, released, fun _ => joined, fixed⟩
  · exact Or.inr ⟨somewhere, holder, held, released, fun zero => absurd zero isFree, fixed⟩

section Confinement

variable (table memory object destination)

theorem linkRegion_subset_movedLinks {other : Nat} {link : Link}
    (moved : other = object ∧ link ≠ .child ∨ other = destination ∧ link = .child ∨
      table.follow memory other link = .ok object ∧
        (link = .sibling ∨ link = .child ∧ table.parent memory object = .ok other)) :
    table.linkRegion other link ⊆ table.movedLinks memory object destination :=
  fun _ inside => ⟨other, link, inside, moved⟩

theorem confined_clearing (value : Nat) {link : Link} (own : link ≠ .child) :
    Keeps (Confined (table.movedLinks memory object destination))
      (table.setLink object link value) :=
  confined_setLink (linkRegion_subset_movedLinks table memory object destination
    (Or.inl ⟨rfl, own⟩)) value

theorem confined_remove :
    Confined (table.movedLinks memory object destination) memory
      (stateAfter (table.remove object) memory) := by
  unfold remove
  refine Memory.confined_query fun holder held => ?_
  split
  · exact Confined.refl _ memory
  refine Memory.confined_query fun next _ => ?_
  refine Memory.confined_bind ?_ fun _ => ?_
  · rcases table.closeGap_cases memory object holder next with
      ⟨reason, failed⟩ | closed | ⟨other, link, among, led, stores⟩
    · rw [stateAfter_of_error failed]
      exact Confined.refl _ memory
    · rw [stateAfter_of_ok closed]
      exact Confined.refl _ memory
    · have moved : link = .sibling ∨ link = .child ∧ table.parent memory object = .ok other := by
        rcases among with isSibling | ⟨isChild, rfl⟩
        · exact Or.inl isSibling
        · exact Or.inr ⟨isChild, held⟩
      rw [stateAfter, stores]
      exact confined_setLink (linkRegion_subset_movedLinks table memory object destination
        (Or.inr (Or.inr ⟨led, moved⟩))) next memory
  · refine (table.confined_clearing memory object destination 0 (by decide)).bind fun _ => ?_
    exact table.confined_clearing memory object destination 0 (by decide)

theorem confined_attach :
    Keeps (Confined (table.movedLinks memory object destination))
      (table.attach object destination) := by
  refine (Memory.confined_inspect _).bind fun first => ?_
  refine (table.confined_clearing memory object destination first (by decide)).bind fun _ => ?_
  refine (confined_setLink (linkRegion_subset_movedLinks table memory object destination
    (Or.inr (Or.inl ⟨rfl, rfl⟩))) object).bind fun _ => ?_
  exact table.confined_clearing memory object destination destination (by decide)

theorem confined_insert :
    Confined (table.movedLinks memory object destination) memory
      (stateAfter (table.insert object destination) memory) := by
  by_cases somewhere : destination = 0
  · rw [insert, if_pos somewhere]
    exact Confined.refl _ memory
  rw [insert_eq somewhere]
  exact Memory.confined_bind (table.confined_remove memory object destination)
    fun _ => table.confined_attach memory object destination

end Confinement

/-- What a move that fails leaves of the tree: of the memory at most bytes differ, and of these at
most links that the move is about. Nothing differs in the cases listed. -/
structure SparesTree (table : ObjectTable) (object destination : Nat) (before after : Memory) :
    Prop where
  rest : after = { before with bytes := after.bytes }
  links : Confined (table.movedLinks before object destination) before after
  /-- The links that attach the object lie in dynamic memory. -/
  alterable : table.Alterable before object .sibling → table.Alterable before destination .child →
    after = before
  nowhere : destination = 0 → after = before
  unread : (∀ holder, table.parent before object ≠ .ok holder) → after = before
  /-- The object cannot be taken out of its parent. -/
  held : ∀ holder, table.parent before object = .ok holder → holder ≠ 0 →
    ¬ table.Releasable before object holder → after = before
  /-- The object has no parent and cannot be joined to the children of the destination. -/
  free : table.parent before object = .ok 0 →
    (∀ first, table.child before destination ≠ .ok first) ∨
      ¬ table.Alterable before object .sibling → after = before

/-- An object that cannot be put into another one leaves a trace only where a link that is still to
be changed lies outside dynamic memory, and only in the links that the move is about. -/
theorem failed_insert_spares_tree {table : ObjectTable} {memory after : Memory}
    {object destination : Nat} {fault : Fault} (mapped : memory.Mapped)
    (failed : table.insert object destination memory = .error fault after) :
    table.SparesTree object destination memory after where
  rest := ((table.writes_insert object destination).of_error failed).same
  links := by
    rw [← stateAfter_of_error failed]
    exact table.confined_insert memory object destination
  alterable := by
    intro sibling child
    rcases insert_of_error mapped failed with same | ⟨_, _, _, _, _, fixed⟩
    · exact same
    · exact absurd ⟨sibling, child⟩ fixed
  nowhere := by
    rintro rfl
    rcases insert_of_error mapped failed with same | ⟨somewhere, _⟩
    · exact same
    · exact absurd rfl somewhere
  unread := by
    intro unreadable
    rcases insert_of_error mapped failed with same | ⟨_, holder, held, _⟩
    · exact same
    · exact absurd held (unreadable holder)
  held := by
    intro holder held nonzero stuck
    rcases insert_of_error mapped failed with same | ⟨_, known, found, released, _⟩
    · exact same
    · rw [held, Except.ok.injEq] at found
      subst found
      exact absurd (released nonzero) stuck
  free := by
    intro free stuck
    rcases insert_of_error mapped failed with same | ⟨_, known, found, _, joined, _⟩
    · exact same
    · rw [free, Except.ok.injEq] at found
      rcases joined found.symm with ⟨sibling, first, begins⟩
      rcases stuck with unreadable | fixed
      · exact absurd begins (unreadable first)
      · exact absurd sibling fixed

/-- The small world with a fault in it: the parent of the second object lies behind the end of the
story. -/
def strayWorld : Memory :=
  { smallWorld with bytes := smallWorld.bytes.setByte 139 200 }

/-- The second object cannot be taken out of a parent that is not there, and the world stays as it
is. -/
theorem failed_insert_spares_tree_stray :
    let table := ofMemory strayWorld
    strayWorld.Mapped ∧ table.Alterable strayWorld 2 .sibling ∧
      table.Alterable strayWorld 1 .child ∧
      ∃ fault, table.insert 2 1 strayWorld = .error fault strayWorld := by
  intro table
  have mapped : strayWorld.Mapped := ⟨by decide +kernel, by decide +kernel, by decide +kernel⟩
  have sibling : table.Alterable strayWorld 2 .sibling :=
    ⟨140, by decide +kernel, by decide +kernel⟩
  have child : table.Alterable strayWorld 1 .child := ⟨132, by decide +kernel, by decide +kernel⟩
  have fails : valueOf (table.insert 2 1) strayWorld = none := by decide +kernel
  cases run : table.insert 2 1 strayWorld with
  | ok value after =>
      rw [valueOf_of_ok run] at fails
      cases fails
  | error fault after =>
      refine ⟨mapped, sibling, child, fault, ?_⟩
      rw [(failed_insert_spares_tree mapped run).alterable sibling child]

/-- A story with the small world in which the third object can be read, but its link to a child lies
in static memory. -/
def splitStory : Image :=
  smallWorld.bytes.setWord 0x0E 150

/-- A move that fails with the given fault, although it has taken the object out of its parent and
changed the bytes of the story. -/
def Orphans (table : ObjectTable) (memory : Memory) (object destination : Nat) (fault : Fault) :
    Prop :=
  ∃ after, table.insert object destination memory = .error fault after ∧
    table.parent after object = .ok 0 ∧ after.bytes ≠ memory.bytes

instance (table : ObjectTable) (memory : Memory) (object destination : Nat) (fault : Fault) :
    Decidable (table.Orphans memory object destination fault) :=
  match run : table.insert object destination memory with
  | .ok _ _ => isFalse fun ⟨_, failed, _⟩ => by
      rw [run] at failed
      cases failed
  | .error found after =>
      decidable_of_iff (found = fault ∧ (table.parent after object).toOption = some 0 ∧
          after.bytes ≠ memory.bytes)
        ⟨fun ⟨same, orphaned, differs⟩ =>
            ⟨after, by rw [run, same], eq_ok_of_toOption orphaned, differs⟩,
          fun ⟨later, failed, orphaned, differs⟩ => by
            rw [run, EStateM.Result.error.injEq] at failed
            rcases failed with ⟨rfl, rfl⟩
            exact ⟨rfl, by rw [orphaned, Except.toOption], differs⟩⟩

/-- A move that fails half way is not undone, whatever stops it. The second object, which the first
one held, is held by none after it could not be put into the third one, whose link cannot be written,
into object 255, whose entry lies behind the end of the story, or into object 300, which no table of
this version has. -/
theorem failed_insert_leaves_trace :
    ∃ memory, Memory.load {} splitStory = .ok memory ∧
      let table := ofMemory memory
      table.parent memory 2 = .ok 1 ∧
        table.Orphans memory 2 3 (.accessViolation 150 true) ∧
        table.Orphans memory 2 255 (.outsideStory 2418) ∧
        table.Orphans memory 2 300 (.invalidObject 300) := by
  have ran : (Memory.load {} splitStory).toOption.any (fun memory =>
      let table := ofMemory memory
      (table.parent memory 2).toOption = some 1 ∧
        table.Orphans memory 2 3 (.accessViolation 150 true) ∧
        table.Orphans memory 2 255 (.outsideStory 2418) ∧
        table.Orphans memory 2 300 (.invalidObject 300)) = true := by
    decide +kernel
  rcases (Option.any_eq_true _ _).mp ran with ⟨memory, loaded, found⟩
  rcases of_decide_eq_true found with ⟨held, orphaned⟩
  exact ⟨memory, eq_ok_of_toOption loaded, eq_ok_of_toOption held, orphaned⟩

end ZMachine.ObjectTable
