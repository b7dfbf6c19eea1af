import ZMachine.Proofs.Object.Refusal

/-!
# The walk along siblings

To close the gap that an object leaves, its elder sibling is looked for among the children of the
parent, from the first on. Nothing bounds this walk but the links in memory, and a story can link
its objects in a circle. There are only as many objects as links have room for, though, so a walk
that does not meet the object in as many rounds has come back to where it was before, and goes
around forever.

`ObjectTable.elder` counts rounds, and reports an endless walk when they are used up.
-/

namespace ZMachine.ObjectTable

variable {table : ObjectTable} {memory after : Memory} {object current first last : Nat}
  {link : Link} {value rounds : Nat} {list : List Nat} {fault : Fault}

/-- The walk from `first` on ends in one of the first rounds: it comes to an end of the chain, to
the object, or to a link that cannot be followed. -/
def StopsWithin (table : ObjectTable) (memory : Memory) (object first rounds : Nat) : Prop :=
  table.elder memory object rounds first ≠ .error (.endlessSiblings object)

/-- No round of the walk from `first` on ends it: each finds a next sibling, which is not the
object. -/
def WalksForever (table : ObjectTable) (memory : Memory) (object first : Nat) : Prop :=
  ∃ walk : Nat → Nat, walk 0 = first ∧ ∀ round, walk round ≠ 0 ∧
    table.sibling memory (walk round) = .ok (walk (round + 1)) ∧ walk (round + 1) ≠ object

/-- Following siblings from `first` on passes the objects of a list, whose links can be read, and
comes to `last`. -/
inductive Trail (table : ObjectTable) (memory : Memory) : Nat → List Nat → Nat → Prop where
  | stays (object : Nat) : Trail table memory object [] object
  | next {object following last : Nat} {rest : List Nat}
      (leads : table.sibling memory object = .ok following)
      (others : Trail table memory following rest last) :
      Trail table memory object (object :: rest) last

/-- The chain of siblings from `first` on enters a circle, and does not meet the object there nor
before. -/
def EntersCircle (table : ObjectTable) (memory : Memory) (object first : Nat) : Prop :=
  ∃ stem entry circle, table.Trail memory first stem entry ∧
    table.Trail memory entry (entry :: circle) entry ∧ object ∉ stem ++ entry :: circle

namespace Trail

theorem head_mem {front : List Nat} {middle : Nat} {back : List Nat}
    (trail : table.Trail memory first front middle) : first ∈ front ++ middle :: back := by
  cases trail with
  | stays => simp
  | next => simp

theorem split {front back : List Nat} (trail : table.Trail memory first (front ++ back) last) :
    ∃ middle, table.Trail memory first front middle ∧ table.Trail memory middle back last := by
  induction front generalizing first with
  | nil => exact ⟨first, .stays first, trail⟩
  | cons object front ih =>
      cases trail with
      | next leads others =>
          rcases ih others with ⟨middle, before, behind⟩
          exact ⟨middle, .next leads before, behind⟩

theorem head {rest : List Nat} (trail : table.Trail memory first (object :: rest) last) :
    first = object := by
  cases trail with
  | next => rfl

theorem numbered (trail : table.Trail memory first list last) :
    ∀ object ∈ list, Numbered table.maxObject object := by
  induction trail with
  | stays => simp
  | next leads others ih =>
      intro member inside
      rcases List.mem_cons.mp inside with rfl | behind
      · exact legal_of_follow leads
      · exact ih member behind

/-- Each object of a trail leads to one that is on it too, or to its end. -/
theorem leads_on (trail : table.Trail memory first list last) (inside : object ∈ list) :
    ∃ following ∈ list ++ [last], table.sibling memory object = .ok following := by
  induction trail with
  | stays => simp at inside
  | @next start following last rest leads others ih =>
      rcases List.mem_cons.mp inside with rfl | behind
      · exact ⟨following, List.mem_cons_of_mem _ others.head_mem, leads⟩
      · rcases ih behind with ⟨next, among, further⟩
        exact ⟨next, List.mem_cons_of_mem _ among, further⟩

/-- A trail that comes to an object twice has a circle. -/
theorem entersCircle (trail : table.Trail memory first list last) (repeats : ¬ list.Nodup)
    (absent : object ∉ list) : table.EntersCircle memory object first := by
  induction trail with
  | stays => simp at repeats
  | @next start following last rest leads others ih =>
      by_cases again : start ∈ rest
      · rcases List.append_of_mem again with ⟨circle, behind, rfl⟩
        rcases others.split with ⟨entry, around, back⟩
        rcases back.head with rfl
        refine ⟨[], entry, circle, .stays entry, .next leads around, ?_⟩
        simp_all
      · have later : ¬ rest.Nodup := fun distinct =>
          repeats (List.nodup_cons.mpr ⟨again, distinct⟩)
        rcases ih later (List.not_mem_of_not_mem_cons absent) with
          ⟨stem, entry, circle, before, around, missing⟩
        refine ⟨start :: stem, entry, circle, .next leads before, around, ?_⟩
        simp_all

/-- There are not enough objects for a longer trail without repetition. -/
theorem length_lt (trail : table.Trail memory first list last) (distinct : list.Nodup)
    (legal : Numbered table.maxObject object) (absent : object ∉ list) :
    list.length < table.maxObject := by
  have bounded : object :: list ⊆ List.range' 1 table.maxObject := by
    intro member inside
    have numbered : Numbered table.maxObject member := by
      rcases List.mem_cons.mp inside with rfl | behind
      · exact legal
      · exact trail.numbered member behind
    simp only [Numbered] at numbered
    exact List.mem_range'_1.mpr (by omega)
  have few := (List.nodup_cons.mpr ⟨absent, distinct⟩).length_le_of_subset bounded
  rw [List.length_range', List.length_cons] at few
  exact few

end Trail

/-- Either there is no such object, or its link lies outside the story. -/
theorem fault_of_follow (failed : table.follow memory current link = .error fault) :
    fault = .invalidObject current ∨ fault = .outsideStory (table.linkPlace current link) := by
  by_cases legal : Numbered table.maxObject current
  · rw [follow, linkAddress_eq le_rfl legal] at failed
    simp only [bind, Except.bind, pure, Except.pure, Memory.fetchByte, Memory.fetchWord] at failed
    grind
  · have illegal : current = 0 ∨ table.maxObject < current := by
      simp only [Numbered] at legal
      omega
    rw [follow, linkAddress, entryAddress, if_pos illegal] at failed
    cases failed
    exact Or.inl rfl

/-- Either there is no such object, or the link has no room for the value, or it may not be stored.
-/
theorem fault_of_setLink (failed : table.setLink current link value memory = .error fault after) :
    (∃ illegal, fault = .invalidObject illegal) ∨
      ∃ address, fault = .accessViolation address true := by
  rcases bind_eq_error failed with unplaced | ⟨address, middle, _, unstored⟩
  · have missing := (Memory.inspect_eq_error.mp unplaced).1
    rw [linkAddress, entryAddress] at missing
    split at missing
    · cases missing
      exact Or.inl ⟨current, rfl⟩
    · cases missing
  · unfold storeLink at unstored
    split at unstored
    · split at unstored
      · cases unstored
        exact Or.inl ⟨value, rfl⟩
      · unfold Memory.writeByte at unstored
        split at unstored
        · cases unstored
          exact Or.inr ⟨address, rfl⟩
        · cases unstored
    · unfold Memory.writeWord at unstored
      split at unstored
      · cases unstored
        exact Or.inr ⟨address, rfl⟩
      · cases unstored

theorem not_stopsWithin_succ :
    ¬ table.StopsWithin memory object current (rounds + 1) ↔
      ∃ following, table.sibling memory current = .ok following ∧ following ≠ object ∧
        ¬ table.StopsWithin memory object following rounds := by
  simp only [StopsWithin, not_not, elder]
  split
  · rename_i zero
    simp only [reduceCtorEq, false_iff]
    rintro ⟨following, leads, _⟩
    exact absurd zero (Nat.one_le_iff_ne_zero.mp (legal_of_follow leads).1)
  · cases leads : table.sibling memory current with
    | error fault =>
        simp only [reduceCtorEq, false_and, exists_false, iff_false, Except.error.injEq]
        rintro rfl
        rcases fault_of_follow leads with impossible | impossible <;> cases impossible
    | ok following =>
        by_cases found : following = object
        · simp [found]
        · simp [found]

/-- A walk that goes on for some rounds has passed as many objects. -/
theorem trail_of_not_stopsWithin (behind : first ≠ object)
    (onward : ¬ table.StopsWithin memory object first rounds) :
    ∃ list last, table.Trail memory first list last ∧ list.length = rounds ∧ object ∉ list := by
  induction rounds generalizing first with
  | zero => exact ⟨[], first, .stays first, rfl, List.not_mem_nil⟩
  | succ rounds ih =>
      rcases not_stopsWithin_succ.mp onward with ⟨following, leads, missed, rest⟩
      rcases ih missed rest with ⟨list, last, trail, length, absent⟩
      refine ⟨first :: list, last, .next leads trail, by rw [List.length_cons, length], ?_⟩
      exact List.not_mem_cons_of_ne_of_not_mem behind.symm absent

theorem entersCircle_of_not_stopsWithin (legal : Numbered table.maxObject object)
    (behind : first ≠ object) (enough : table.maxObject ≤ rounds)
    (onward : ¬ table.StopsWithin memory object first rounds) :
    table.EntersCircle memory object first := by
  rcases trail_of_not_stopsWithin behind onward with ⟨list, last, trail, length, absent⟩
  refine trail.entersCircle (fun distinct => ?_) absent
  have short := trail.length_lt distinct legal absent
  omega

/-- No link leads out of the objects on the way and in the circle. -/
theorem EntersCircle.walksForever (enters : table.EntersCircle memory object first) :
    table.WalksForever memory object first := by
  rcases enters with ⟨stem, entry, circle, before, around, absent⟩
  have closed : ∀ current ∈ stem ++ entry :: circle, ∃ following ∈ stem ++ entry :: circle,
      table.sibling memory current = .ok following := by
    intro current inside
    rcases List.mem_append.mp inside with early | late
    · rcases before.leads_on early with ⟨following, among, leads⟩
      refine ⟨following, ?_, leads⟩
      simp only [List.mem_append, List.mem_cons] at among ⊢
      tauto
    · rcases around.leads_on late with ⟨following, among, leads⟩
      refine ⟨following, ?_, leads⟩
      simp only [List.mem_append, List.mem_cons] at among ⊢
      tauto
  choose! next inside leads using closed
  have stays : ∀ round, next^[round] first ∈ stem ++ entry :: circle := by
    intro round
    induction round with
    | zero => exact before.head_mem
    | succ round ih =>
        rw [Function.iterate_succ_apply']
        exact inside _ ih
  refine ⟨fun round => next^[round] first, rfl, fun round => ⟨?_, ?_, ?_⟩⟩
  · exact Nat.one_le_iff_ne_zero.mp (legal_of_follow (leads _ (stays round))).1
  · simp only [Function.iterate_succ_apply']
    exact leads _ (stays round)
  · intro same
    exact absent (same ▸ stays (round + 1))

theorem WalksForever.not_stopsWithin (forever : table.WalksForever memory object first)
    (rounds : Nat) : ¬ table.StopsWithin memory object first rounds := by
  rcases forever with ⟨walk, rfl, goes⟩
  have onward : ∀ round, ¬ table.StopsWithin memory object (walk round) rounds := by
    induction rounds with
    | zero => exact fun round stops => stops rfl
    | succ rounds ih =>
        intro round
        exact not_stopsWithin_succ.mpr ⟨_, (goes round).2.1, (goes round).2.2, ih (round + 1)⟩
  exact onward 0

/-- A chain that ends is no way to walk forever. -/
theorem Siblings.not_walksForever (siblings : table.Siblings memory first list) :
    ¬ table.WalksForever memory object first := by
  induction siblings with
  | ends =>
      rintro ⟨walk, begins, goes⟩
      exact (goes 0).1 begins
  | next nonzero leads others ih =>
      rintro ⟨walk, rfl, goes⟩
      refine ih ⟨fun round => walk (round + 1), ?_, fun round => goes (round + 1)⟩
      have found := (goes 0).2.1
      rw [leads, Except.ok.injEq] at found
      exact found.symm

section Removing

variable {holder next : Nat} (held : table.parent memory object = .ok holder)
  (somewhere : holder ≠ 0) (led : table.sibling memory object = .ok next)
  (begins : table.child memory holder = .ok first) (behind : first ≠ object)

include held somewhere led begins behind

theorem remove_of_elder_error
    (walk : table.elder memory object (table.maxObject + 1) first = .error fault) :
    table.remove object memory = .error fault memory := by
  rw [remove, bind_of_ok (Memory.inspect_eq_ok.mpr ⟨held, rfl⟩), if_neg somewhere,
    bind_of_ok (Memory.inspect_eq_ok.mpr ⟨led, rfl⟩)]
  apply bind_of_error
  rw [closeGap, bind_of_ok (Memory.inspect_eq_ok.mpr ⟨begins, rfl⟩), if_neg behind]
  exact bind_of_error (Memory.inspect_eq_error.mpr ⟨walk, rfl⟩)

/-- Behind the walk, only the changes of links can fail. -/
theorem fault_of_remove {found : Option Nat}
    (walk : table.elder memory object (table.maxObject + 1) first = .ok found)
    (failed : table.remove object memory = .error fault after) :
    (∃ illegal, fault = .invalidObject illegal) ∨
      ∃ address, fault = .accessViolation address true := by
  rw [remove, bind_of_ok (Memory.inspect_eq_ok.mpr ⟨held, rfl⟩), if_neg somewhere,
    bind_of_ok (Memory.inspect_eq_ok.mpr ⟨led, rfl⟩)] at failed
  rcases bind_eq_error failed with unclosed | ⟨_, _, _, clearing⟩
  · rw [closeGap, bind_of_ok (Memory.inspect_eq_ok.mpr ⟨begins, rfl⟩), if_neg behind,
      bind_of_ok (Memory.inspect_eq_ok.mpr ⟨walk, rfl⟩)] at unclosed
    cases found with
    | none => cases unclosed
    | some elder => exact fault_of_setLink unclosed
  · rcases bind_eq_error clearing with unset | ⟨_, _, _, unset⟩
    · exact fault_of_setLink unset
    · exact fault_of_setLink unset

theorem remove_endless_iff :
    table.remove object memory = .error (.endlessSiblings object) memory ↔
      ¬ table.StopsWithin memory object first (table.maxObject + 1) := by
  cases walk : table.elder memory object (table.maxObject + 1) first with
  | error fault =>
      rw [remove_of_elder_error held somewhere led begins behind walk, StopsWithin, walk]
      simp
  | ok found =>
      simp only [StopsWithin, walk, reduceCtorEq, ne_eq, not_false_eq_true, not_true_eq_false,
        iff_false]
      intro endless
      rcases fault_of_remove held somewhere led begins behind walk endless with
        ⟨_, impossible⟩ | ⟨_, impossible⟩
      · cases impossible
      · cases impossible

end Removing

/-- The walk along the siblings of an object, when it is taken out of a parent that has another
first child, stops within 255 or 65535 rounds or goes on forever. It goes on forever exactly if the
chain of siblings enters a circle before it meets the object, an end, or a link that cannot be read,
and exactly then the machine reports it. In a consistent tree it stops. -/
theorem sibling_walk_stops_or_circles (table : ObjectTable) (memory : Memory)
    (object holder next first : Nat) (held : table.parent memory object = .ok holder)
    (somewhere : holder ≠ 0) (led : table.sibling memory object = .ok next)
    (begins : table.child memory holder = .ok first) (behind : first ≠ object) :
    let bound := if table.version ≤ 3 then 255 else 65535
    (table.StopsWithin memory object first bound ↔ ¬ table.WalksForever memory object first) ∧
    (table.WalksForever memory object first ↔ table.EntersCircle memory object first) ∧
    (table.remove object memory = .error (.endlessSiblings object) memory ↔
      table.WalksForever memory object first) ∧
    ∀ count, table.Consistent count memory → Numbered count holder →
      table.StopsWithin memory object first bound := by
  intro bound
  have limit : table.maxObject = bound := by simp [maxObject, isSmall, bound]
  have circles : ∀ rounds, bound ≤ rounds → ¬ table.StopsWithin memory object first rounds →
      table.EntersCircle memory object first := fun rounds enough onward =>
    entersCircle_of_not_stopsWithin (legal_of_follow held) behind (limit ▸ enough) onward
  have stops : table.StopsWithin memory object first bound ↔
      ¬ table.WalksForever memory object first := by
    refine ⟨fun stops forever => forever.not_stopsWithin bound stops, fun ends => ?_⟩
    by_contra onward
    exact ends (circles bound le_rfl onward).walksForever
  refine ⟨stops, ⟨fun forever => ?_, EntersCircle.walksForever⟩, ?_, ?_⟩
  · exact circles bound le_rfl (forever.not_stopsWithin bound)
  · rw [remove_endless_iff held somewhere led begins behind, limit]
    constructor
    · intro onward
      exact (circles (bound + 1) (Nat.le_succ bound) onward).walksForever
    · exact fun forever => forever.not_stopsWithin (bound + 1)
  · intro count consistent numbered
    rcases consistent.chains holder numbered with ⟨list, ⟨start, starts, siblings⟩, _⟩
    rw [begins, Except.ok.injEq] at starts
    subst starts
    exact stops.mpr siblings.not_walksForever

/-- The small world with a fault in it: the second object is its own sibling. -/
def circlingWorld : Memory :=
  { smallWorld with bytes := smallWorld.bytes.setByte 140 2 }

/-- The third object is found behind the second one, but not if the second one leads to itself. -/
theorem sibling_walk_stops_or_circles_small :
    (ofMemory smallWorld).StopsWithin smallWorld 3 2 255 ∧
      (ofMemory circlingWorld).remove 3 circlingWorld =
        .error (.endlessSiblings 3) circlingWorld := by
  constructor
  · have stops := (sibling_walk_stops_or_circles (ofMemory smallWorld) smallWorld 3 1 0 2
      (by decide +kernel) (by decide) (by decide +kernel) (by decide +kernel) (by decide)).2.2.2
      3 (consistent_of_forest linked_smallWorld forest_smallLinks) ⟨le_rfl, by decide⟩
    have version : (ofMemory smallWorld).version ≤ 3 := by decide +kernel
    rwa [if_pos version] at stops
  · have laws := sibling_walk_stops_or_circles (ofMemory circlingWorld) circlingWorld 3 1 0 2
      (by decide +kernel) (by decide) (by decide +kernel) (by decide +kernel) (by decide)
    have leads : (ofMemory circlingWorld).sibling circlingWorld 2 = .ok 2 := by decide +kernel
    have circles : (ofMemory circlingWorld).EntersCircle circlingWorld 3 2 :=
      ⟨[], 2, [], .stays 2, .next leads (.stays 2), by decide⟩
    exact laws.2.2.1.mpr (laws.2.1.mpr circles)

end ZMachine.ObjectTable
