import ZMachine.Machine.Step
import ZMachine.Proofs.Action
import ZMachine.Proofs.Image

/-!
# Addresses have 32 bits

Addresses are computed without a check that they fit into 32 bits. Each access says in its fault
which address it could not reach, so that all addresses fit if those in faults do: an access that
succeeds stays inside the file, which is much smaller.

`Answers` is a law for queries and `Ensures` one for actions. Both speak about the value in case of
success and about the address in case of failure, and both carry over to sequences.
-/

namespace ZMachine

/-- What is near the beginning of the range of addresses is inside it. -/
theorem lt_addressCount {address : Nat} (small : address < 16777216) : address < addressCount := by
  unfold addressCount
  omega

/-- If the fault names an address, it has 32 bits. Loads and stores of a story also look at the
address after it. -/
def Fault.Addressable : Fault → Prop
  | accessViolation address _ => address + 1 < addressCount
  | outsideStory address => address < addressCount
  | _ => True

/-- The query is answered as the law says, or else its fault is addressable. -/
def Answers {α : Type} (law : α → Prop) (query : Except Fault α) : Prop :=
  match query with
  | .ok value => law value
  | .error fault => fault.Addressable

/-- Where the invariant holds, the action keeps it and has a value as the law says, or else its fault
is addressable. -/
def Ensures {σ α : Type} (invariant : σ → Prop) (law : α → Prop) (action : EStateM Fault σ α) :
    Prop :=
  ∀ state, invariant state →
    match action state with
    | .ok value after => law value ∧ invariant after
    | .error fault _ => fault.Addressable

namespace Answers

variable {α β : Type} {law : α → Prop} {goal : β → Prop}

theorem cases {query : Except Fault α} (answers : Answers law query) :
    (∃ value, query = .ok value ∧ law value) ∨ ∃ fault, query = .error fault ∧ fault.Addressable := by
  cases query with
  | ok value => exact Or.inl ⟨value, rfl, answers⟩
  | error fault => exact Or.inr ⟨fault, rfl, answers⟩

theorem bind {query : Except Fault α} {next : α → Except Fault β} (first : Answers law query)
    (rest : ∀ value, law value → Answers goal (next value)) : Answers goal (query >>= next) := by
  cases query with
  | ok value => exact rest value first
  | error fault => exact first

theorem map {query : Except Fault α} {change : α → β} (first : Answers law query)
    (rest : ∀ value, law value → goal (change value)) : Answers goal (query.map change) := by
  cases query with
  | ok value => exact rest value first
  | error fault => exact first

theorem mono {weaker : α → Prop} {query : Except Fault α} (first : Answers law query)
    (rest : ∀ value, law value → weaker value) : Answers weaker query := by
  cases query with
  | ok value => exact rest value first
  | error fault => exact first

theorem ite {condition : Prop} [Decidable condition] {first second : Except Fault α}
    (holds : condition → Answers law first) (fails : ¬ condition → Answers law second) :
    Answers law (if condition then first else second) := by
  split
  · exact holds ‹_›
  · exact fails ‹_›

end Answers

namespace Ensures

variable {σ α β : Type} {invariant : σ → Prop} {law : α → Prop} {goal : β → Prop}

theorem pure {value : α} (lawful : law value) :
    Ensures invariant law (Pure.pure value : EStateM Fault σ α) :=
  fun _ holds => ⟨lawful, holds⟩

theorem throw {fault : Fault} (addressable : fault.Addressable) :
    Ensures invariant law (MonadExcept.throw fault : EStateM Fault σ α) :=
  fun _ _ => addressable

theorem cases {action : EStateM Fault σ α} (ensures : Ensures invariant law action) (state : σ)
    (holds : invariant state) :
    (∃ value after, action state = .ok value after ∧ law value ∧ invariant after) ∨
      ∃ fault after, action state = .error fault after ∧ fault.Addressable := by
  have ended := ensures state holds
  cases run : action state with
  | ok value after =>
      rw [run] at ended
      exact Or.inl ⟨value, after, rfl, ended⟩
  | error fault after =>
      rw [run] at ended
      exact Or.inr ⟨fault, after, rfl, ended⟩

theorem bind {action : EStateM Fault σ α} {next : α → EStateM Fault σ β}
    (first : Ensures invariant law action)
    (rest : ∀ value, law value → Ensures invariant goal (next value)) :
    Ensures invariant goal (action >>= next) := by
  intro state holds
  rcases first.cases state holds with ⟨value, middle, run, lawful, kept⟩ | ⟨fault, middle, run, fits⟩
  · rw [bind_of_ok run]
    exact rest value lawful middle kept
  · rw [bind_of_error run]
    exact fits

theorem mono {weaker : α → Prop} {action : EStateM Fault σ α} (first : Ensures invariant law action)
    (rest : ∀ value, law value → weaker value) : Ensures invariant weaker action := by
  intro state holds
  rcases first.cases state holds with ⟨value, after, run, lawful, kept⟩ | ⟨fault, after, run, fits⟩
  · rw [run]
    exact ⟨rest value lawful, kept⟩
  · rw [run]
    exact fits

theorem ite {condition : Prop} [Decidable condition] {first second : EStateM Fault σ α}
    (holds : condition → Ensures invariant law first)
    (fails : ¬ condition → Ensures invariant law second) :
    Ensures invariant law (if condition then first else second) := by
  split
  · exact holds ‹_›
  · exact fails ‹_›

theorem fault {action : EStateM Fault σ α} (ensures : Ensures invariant law action) {state after : σ}
    {fault : Fault} (holds : invariant state) (failed : action state = .error fault after) :
    fault.Addressable := by
  have ended := ensures state holds
  rw [failed] at ended
  exact ended

end Ensures

namespace Memory

/-- The file is no larger than a story can be, and the addresses in its header are words. -/
structure Bounded (memory : Memory) : Prop where
  size : memory.bytes.size ≤ 512 * 1024
  high : memory.header.highBase < 65536
  static : memory.header.staticBase < 65536
  globals : memory.header.globals < 65536
  routines : memory.header.routinesOffset < 65536
  strings : memory.header.stringsOffset < 65536
  dictionary : memory.header.dictionary < 65536

section Queries

variable {memory : Memory} {address : Nat}

theorem answers_readByte (fits : address + 1 < addressCount) :
    Answers (fun _ => address < memory.header.highBase ∧ address < memory.bytes.size)
      (memory.readByte address) := by
  apply Answers.ite
  · intro _
    exact fits
  · intro inside
    exact ⟨by omega, by omega⟩

theorem answers_readWord (fits : address + 1 < addressCount) :
    Answers (fun _ => True) (memory.readWord address) := by
  apply Answers.ite
  · intro _
    exact fits
  · intro _
    trivial

theorem answers_fetchByte (fits : address < addressCount) :
    Answers (fun _ => address < memory.bytes.size) (memory.fetchByte address) := by
  apply Answers.ite
  · intro _
    exact fits
  · intro inside
    exact Nat.lt_of_not_le inside

theorem answers_fetchWord (fits : address < addressCount) :
    Answers (fun _ => address + 2 ≤ memory.bytes.size) (memory.fetchWord address) := by
  apply Answers.ite
  · intro _
    exact fits
  · intro inside
    exact Nat.le_of_not_lt inside

theorem answers_fetchBytes (count : Nat) (fits : address < addressCount) :
    Answers (fun _ => address + count ≤ memory.bytes.size) (memory.fetchBytes address count) := by
  apply Answers.ite
  · intro _
    exact fits
  · intro inside
    exact Nat.le_of_not_lt inside

theorem answers_checkDynamic (count : Nat) (fits : address + 1 < addressCount) :
    Answers (fun _ => address + count ≤ memory.header.staticBase)
      (memory.checkDynamic address count) := by
  apply Answers.ite
  · intro _
    exact fits
  · intro inside
    exact Nat.le_of_not_lt inside

/-- The words of a text that have been read lie inside the file, and so does the address after them. -/
theorem answers_textLength (bounded : memory.Bounded) (limit : Option Nat) {consumed : Nat}
    (fits : address + consumed < addressCount) :
    Answers (address + · < addressCount) (memory.textLength address limit consumed) := by
  have size := bounded.size
  fun_induction Memory.textLength memory address limit consumed with
  | case1 => exact fits
  | case2 => exact fits
  | case3 consumed _ inside _ => exact lt_addressCount (by omega)
  | case4 consumed _ inside _ ih => exact ih (lt_addressCount (by omega))

/-- Every code of a packed text has five bits. -/
theorem lt_of_mem_codesIn {length code : Nat} (member : code ∈ memory.codesIn address length) :
    code < 32 := by
  simp only [codesIn, List.mem_flatMap, Word.codes, List.mem_cons, List.not_mem_nil, or_false]
    at member
  rcases member with ⟨index, _, rfl | rfl | rfl⟩
  · omega
  · omega
  · omega

theorem lt_of_readCodes {limit : Option Nat} {found : Nat × List Nat} {code : Nat}
    (read : memory.readCodes address limit = .ok found) (member : code ∈ found.2) : code < 32 := by
  unfold readCodes at read
  cases measured : memory.textLength address limit 0 with
  | error fault => simp [measured, bind, Except.bind] at read
  | ok length =>
      simp only [measured, bind, Except.bind, pure, Except.pure, Except.ok.injEq] at read
      subst read
      exact lt_of_mem_codesIn member

theorem answers_readCodes (bounded : memory.Bounded) (limit : Option Nat)
    (fits : address < addressCount) :
    Answers (fun found => address + found.1 < addressCount) (memory.readCodes address limit) := by
  have measured : Answers (address + · < addressCount) (memory.textLength address limit 0) :=
    answers_textLength bounded limit fits
  apply measured.bind
  intro length ends
  exact ends

theorem answers_readBytes (bounded : memory.Bounded) (count : Nat) (before : Array UInt8)
    (fits : address + 1 < addressCount) :
    Answers (fun _ => True) (memory.readBytes count address before) := by
  induction count generalizing address before with
  | zero => trivial
  | succ count ih =>
      have answered : Answers _ (memory.readByte address) := answers_readByte fits
      rcases answered.cases with ⟨byte, read, inside⟩ | ⟨fault, read, addressable⟩
      · rw [readBytes, read]
        apply ih
        have size := bounded.size
        exact lt_addressCount (by omega)
      · rw [readBytes, read]
        exact addressable

theorem answers_readText (bounded : memory.Bounded) (codec : Codec) (count : Nat) (before : String)
    (fits : address + 1 < addressCount) :
    Answers (fun _ => 0 < count → address < memory.header.highBase)
      (memory.readText codec count address before) := by
  induction count generalizing address before with
  | zero =>
      intro positive
      omega
  | succ count ih =>
      have answered : Answers _ (memory.readByte address) := answers_readByte fits
      rcases answered.cases with ⟨byte, read, inside⟩ | ⟨fault, read, addressable⟩
      · rw [readText, read]
        refine (ih _ ?_).mono fun _ _ _ => inside.1
        have size := bounded.size
        exact lt_addressCount (by omega)
      · rw [readText, read]
        exact addressable

theorem answers_scanTable (value step : UInt16) (isWord : Bool) (count : Nat) (address : UInt16) :
    Answers (fun _ => True) (memory.scanTable value step isWord count address) := by
  induction count generalizing address with
  | zero => trivial
  | succ count ih =>
      have fits : address.toNat + 1 < addressCount := by
        have word := address.toNat_lt
        exact lt_addressCount (by omega)
      have answered : Answers (fun _ => True) (memory.readField isWord address) := by
        apply Answers.ite
        · intro _
          exact answers_readWord fits
        · intro _
          exact (answers_readByte fits).map fun _ _ => trivial
      rcases answered.cases with ⟨field, read, _⟩ | ⟨fault, read, addressable⟩
      · rw [scanTable, read]
        exact Answers.ite (fun _ => trivial) fun _ => ih _
      · rw [scanTable, read]
        exact addressable

end Queries

theorem addressable_global {memory : Memory} (bounded : memory.Bounded) (name : UInt8) :
    memory.globalAddress name + 1 < addressCount := by
  have byte := name.toNat_lt
  have globals := bounded.globals
  unfold globalAddress addressCount
  omega

theorem answers_readCell {memory : Memory} (bounded : memory.Bounded) (name : UInt8) :
    Answers (fun _ => True) (memory.readCell name) := by
  refine Answers.ite (fun _ => Answers.ite (fun _ => trivial) fun _ => trivial) fun _ => ?_
  exact answers_readWord (addressable_global bounded name)

theorem answers_peekVariable {memory : Memory} (bounded : memory.Bounded) (name : UInt8) :
    Answers (fun _ => True) (memory.peekVariable name) := by
  apply Answers.ite
  · intro _
    unfold peek
    cases memory.frame.stack with
    | nil => trivial
    | cons value stack => trivial
  · intro _
    exact answers_readCell bounded name

theorem ensures_inspect {α : Type} {law : α → Prop} {query : Memory → Except Fault α}
    (answers : ∀ memory : Memory, memory.Bounded → Answers law (query memory)) :
    Ensures Bounded law (inspect query) := by
  intro memory bounded
  rcases (answers memory bounded).cases with ⟨value, found, lawful⟩ | ⟨fault, found, fits⟩
  · rw [inspect, found]
    exact ⟨lawful, bounded⟩
  · rw [inspect, found]
    exact fits

/-- An action that leaves the header and the length of the file alone keeps the bounds. -/
theorem Bounded.of_same {before after : Memory} (bounded : before.Bounded)
    (header : after.header = before.header) (size : after.bytes.size = before.bytes.size) :
    after.Bounded := by
  rcases bounded with ⟨small, high, static, globals, routines, strings, dictionary⟩
  exact ⟨by omega, by rw [header]; exact high, by rw [header]; exact static,
    by rw [header]; exact globals, by rw [header]; exact routines, by rw [header]; exact strings,
    by rw [header]; exact dictionary⟩

theorem ensures_push (value : UInt16) : Ensures Bounded (fun _ => True) (push value) := by
  intro memory bounded
  by_cases full : stackLimit ≤ memory.frame.stack.length
  · rw [push, if_pos full]
    trivial
  · rw [push, if_neg full]
    exact ⟨trivial, bounded.of_same rfl rfl⟩

theorem ensures_pop : Ensures Bounded (fun _ => True) pop := by
  intro memory bounded
  unfold pop
  cases memory.frame.stack with
  | nil => trivial
  | cons value stack => exact ⟨trivial, bounded.of_same rfl rfl⟩

theorem ensures_poke (value : UInt16) : Ensures Bounded (fun _ => True) (poke value) := by
  intro memory bounded
  unfold poke
  cases memory.frame.stack with
  | nil => trivial
  | cons _ stack => exact ⟨trivial, bounded.of_same rfl rfl⟩

theorem ensures_writeByte {address : Nat} (value : UInt8) (fits : address + 1 < addressCount) :
    Ensures Bounded (fun _ => address < 65536) (writeByte address value) := by
  intro memory bounded
  by_cases static : memory.header.staticBase ≤ address
  · rw [writeByte, if_pos static]
    exact fits
  · rw [writeByte, if_neg static]
    refine ⟨?_, bounded.of_same rfl (Image.size_setByte _ _ _)⟩
    have words := bounded.static
    omega

theorem ensures_writeWord {address : Nat} (value : UInt16) (fits : address + 1 < addressCount) :
    Ensures Bounded (fun _ => address < 65536) (writeWord address value) := by
  intro memory bounded
  by_cases static : memory.header.staticBase ≤ address + 1
  · rw [writeWord, if_pos static]
    exact fits
  · rw [writeWord, if_neg static]
    refine ⟨?_, bounded.of_same rfl (Image.size_setWord _ _ _)⟩
    have words := bounded.static
    omega

theorem ensures_writeCell (name : UInt8) (value : UInt16) :
    Ensures Bounded (fun _ => True) (writeCell name value) := by
  intro memory bounded
  unfold writeCell
  by_cases isLocal : name < 16
  · rw [if_pos isLocal]
    by_cases missing : memory.frame.localCount < name.toNat
    · rw [if_pos missing]
      trivial
    · rw [if_neg missing]
      exact ⟨trivial, bounded.of_same rfl rfl⟩
  · rw [if_neg isLocal]
    have written := ensures_writeWord value (addressable_global bounded name)
    exact written.mono (fun _ _ => trivial) memory bounded

theorem ensures_readVariable (name : UInt8) :
    Ensures Bounded (fun _ => True) (readVariable name) := by
  refine Ensures.ite (fun _ => ensures_pop) fun _ => ?_
  exact ensures_inspect fun memory bounded => answers_readCell bounded name

theorem ensures_writeVariable (name : UInt8) (value : UInt16) :
    Ensures Bounded (fun _ => True) (writeVariable name value) :=
  Ensures.ite (fun _ => ensures_push value) fun _ => ensures_writeCell name value

theorem ensures_pokeVariable (name : UInt8) (value : UInt16) :
    Ensures Bounded (fun _ => True) (pokeVariable name value) :=
  Ensures.ite (fun _ => ensures_poke value) fun _ => ensures_writeCell name value

theorem ensures_writeBytes {address : Nat} (values : List UInt8) (fits : address + 1 < addressCount) :
    Ensures Bounded (fun _ => True) (writeBytes address values) := by
  induction values generalizing address with
  | nil => exact Ensures.pure trivial
  | cons value values ih =>
      apply (ensures_writeByte value fits).bind
      intro _ small
      apply ih
      exact lt_addressCount (by omega)

theorem ensures_clearBytes {address : Nat} (count : Nat) (fits : address + 1 < addressCount) :
    Ensures Bounded (fun _ => True) (clearBytes count address) := by
  induction count generalizing address with
  | zero => exact Ensures.pure trivial
  | succ count ih =>
      apply (ensures_writeByte 0 fits).bind
      intro _ small
      apply ih
      exact lt_addressCount (by omega)

theorem ensures_copyForward {source target : Nat} (count : Nat)
    (sourceFits : source + 1 < addressCount) (targetFits : target + 1 < addressCount) :
    Ensures Bounded (fun _ => True) (copyForward count source target) := by
  induction count generalizing source target with
  | zero => exact Ensures.pure trivial
  | succ count ih =>
      have loaded : Ensures Bounded (fun _ => source < 65536) (inspect (·.readByte source)) := by
        apply ensures_inspect
        intro memory bounded
        refine (answers_readByte sourceFits).mono fun _ inside => ?_
        exact Nat.lt_trans inside.1 bounded.high
      apply loaded.bind
      intro byte sourceSmall
      apply (ensures_writeByte byte targetFits).bind
      intro _ targetSmall
      apply ih
      · exact lt_addressCount (by omega)
      · exact lt_addressCount (by omega)

theorem ensures_copyTable {source target : Nat} (size : Int) (sourceFits : source + 1 < addressCount)
    (targetFits : target + 1 < addressCount) :
    Ensures Bounded (fun _ => True) (copyTable source target size) := by
  refine Ensures.ite (fun _ => ensures_clearBytes _ sourceFits) fun _ => ?_
  refine Ensures.ite (fun _ => ensures_copyForward _ sourceFits targetFits) fun _ => ?_
  have loaded : Ensures Bounded (fun _ => True) (inspect (·.readBytes size.natAbs source #[])) :=
    ensures_inspect fun memory bounded => answers_readBytes bounded _ _ sourceFits
  exact loaded.bind fun bytes _ => ensures_writeBytes bytes targetFits

end Memory

end ZMachine
