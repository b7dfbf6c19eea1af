import ZMachine.Proofs.Machine.Run
import ZMachine.Proofs.Memory.Balance

/-!
# Stack balance

Every operation keeps the books of the evaluation stack: it takes off the operands that come from
there, puts its result there if that is where it goes, and leaves everything else alone, unless its
business is the stack itself. The main statement says so of every instruction that can be decoded,
as long as the running routine is neither left nor replaced.

The operations are gone through family by family. What they do apart from using variables is calm,
and a calm action does not move the stack; what is left is how often a result is stored on the way
to the end of the instruction.
-/

namespace ZMachine

namespace Opcode

/-- Whether the operation has a result in any version. -/
def hasResult (opcode : Opcode) : Bool :=
  catalog.any fun row => row.opcode = opcode && row.stores

/-- How many values the operation takes off the evaluation stack, apart from its operands. -/
def pops : Opcode → Nat
  | .pop | .pull => 1
  | _ => 0

/-- How many values the operation puts on the evaluation stack, apart from its result. -/
def pushes : Opcode → Nat
  | .push => 1
  | _ => 0

/-- The operations that change the variable named by their first operand in place. -/
def changesVariable : Opcode → Bool
  | .inc | .dec | .incChk | .decChk | .store | .pull => true
  | _ => false

theorem takesVariable_of_changes {opcode : Opcode} (changes : opcode.changesVariable = true) :
    opcode.takesVariable = true := by
  unfold changesVariable at changes
  split at changes <;> first | rfl | cases changes

/-- Only three operations have to do with the stack itself. -/
theorem plain_or_stack (opcode : Opcode) :
    opcode.pops = 0 ∧ opcode.pushes = 0 ∨ opcode = .pop ∨ opcode = .pull ∨ opcode = .push := by
  unfold pops pushes
  split
  · exact Or.inr (Or.inl rfl)
  · exact Or.inr (Or.inr (Or.inl rfl))
  · split
    · exact Or.inr (Or.inr (Or.inr rfl))
    · exact Or.inl ⟨rfl, rfl⟩

/-- Saving and restoring have a result only from version 4 on. -/
theorem catalog_reports : ∀ row ∈ catalog, row.opcode = .save ∨ row.opcode = .restore →
    row.stores = true → 4 ≤ row.firstVersion := by
  decide +kernel

end Opcode

namespace Instruction

/-- How many operands are taken off the evaluation stack. An operand that names the variable to work
on is not. -/
def stackedOperands (instruction : Instruction) (opcode : Opcode) : Nat :=
  (instruction.operands.drop (if opcode.takesVariable then 1 else 0)).countP Operand.isStacked

/-- How many results are put on the evaluation stack. -/
def stackedResults (instruction : Instruction) : Nat :=
  if instruction.store = some 0 then 1 else 0

theorem stackedResults_of_none {instruction : Instruction} (silent : instruction.store = none) :
    instruction.stackedResults = 0 := by
  simp [stackedResults, silent]

end Instruction

/-- Whether the outcome leaves the running routine running. -/
def Outcome.staysInRoutine : Outcome → Bool
  | .advanced | .branched => true
  | _ => false

namespace Machine

variable {η : Type}

/-- The evaluation stack of the running routine. -/
def stack (machine : Machine η) : List UInt16 :=
  machine.memory.frame.stack

/-- How an action moves the evaluation stack whenever it succeeds. -/
def Moves {α : Type} (taken given : Nat) (replaceable : Prop) (action : MachineM η α) : Prop :=
  ∀ ⦃before value after⦄, action before = .ok value after →
    Balanced taken given replaceable before.stack after.stack

/-- How an operation moves the evaluation stack if it stays in the routine. -/
def Balances (taken given : Nat) (replaceable : Prop) (action : MachineM η Outcome) : Prop :=
  ∀ ⦃before outcome after⦄, action before = .ok outcome after → outcome.staysInRoutine = true →
    Balanced taken given replaceable before.stack after.stack

section Blocks

variable {α : Type} {taken given more : Nat} {replaceable : Prop} {action : MachineM η α}
  {next : α → MachineM η Outcome}

theorem stack_of_calm {before after : Machine η} (calm : before.Calm after) :
    after.stack = before.stack := by
  rw [stack, stack, calm.memory.frame]

theorem moves_onMemory {action : MemoryM α}
    (moves : ∀ ⦃memory value after⦄, action memory = .ok value after →
      Balanced taken given replaceable memory.frame.stack after.frame.stack) :
    Moves taken given replaceable (onMemory action : MachineM η α) := by
  intro before value after done
  rw [onMemory_apply] at done
  cases run : action before.memory with
  | error fault memory => simp [run] at done
  | ok value memory =>
      simp only [run] at done
      cases done
      exact moves run

theorem balances_after (first : Keeps Calm action)
    (rest : ∀ value, Balances taken given replaceable (next value)) :
    Balances taken given replaceable (action >>= next) := by
  intro before outcome after done stays
  rcases bind_eq_ok.mp done with ⟨value, middle, begun, ended⟩
  rw [← stack_of_calm (first.of_ok begun)]
  exact rest value ended stays

theorem balances_taking (first : Moves taken 0 False action)
    (rest : ∀ value, Balances more given replaceable (next value)) :
    Balances (taken + more) given replaceable (action >>= next) := by
  intro before outcome after done stays
  rcases bind_eq_ok.mp done with ⟨value, middle, begun, ended⟩
  exact (first begun).taking (rest value ended stays)

theorem balances_giving (first : Moves taken given replaceable action)
    (rest : ∀ value, Balances 0 more False (next value)) :
    Balances taken (given + more) replaceable (action >>= next) := by
  intro before outcome after done stays
  rcases bind_eq_ok.mp done with ⟨value, middle, begun, ended⟩
  exact (first begun).giving (rest value ended stays)

/-- The value of an operand is the one that has been fetched. -/
theorem balances_need {instruction : Instruction} {values : List UInt16} {index : Nat}
    {next : UInt16 → MachineM η Outcome}
    (rest : ∀ value, values[index]? = some value → Balances taken given replaceable (next value)) :
    Balances taken given replaceable (need instruction values index >>= next) := by
  intro before outcome after done stays
  rcases bind_eq_ok.mp done with ⟨value, middle, begun, ended⟩
  cases present : values[index]? with
  | none =>
      simp only [need, present] at begun
      cases begun
  | some found =>
      simp only [need, present] at begun
      cases begun
      exact rest _ present ended stays

theorem balances_inspect {query : Machine η → Except Fault α}
    (rest : ∀ value, Balances taken given replaceable (next value)) :
    Balances taken given replaceable (inspect query >>= next) :=
  balances_after (calm_inspect query) rest

theorem balances_ite_of {condition : Prop} [Decidable condition]
    {first second : MachineM η Outcome}
    (holds : condition → Balances taken given replaceable first)
    (fails : ¬condition → Balances taken given replaceable second) :
    Balances taken given replaceable (if condition then first else second) := by
  split
  case isTrue condition => exact holds condition
  case isFalse condition => exact fails condition

theorem balances_ite {condition : Prop} [Decidable condition] {first second : MachineM η Outcome}
    (holds : Balances taken given replaceable first)
    (fails : Balances taken given replaceable second) :
    Balances taken given replaceable (if condition then first else second) :=
  balances_ite_of (fun _ => holds) fun _ => fails

theorem balances_throw (fault : Fault) :
    Balances taken given replaceable (throw fault : MachineM η Outcome) := by
  intro before outcome after done
  cases done

theorem balances_advanced : Balances 0 0 replaceable (pure .advanced : MachineM η Outcome) := by
  intro before outcome after done _
  cases done
  exact Balanced.refl _ _

theorem balances_of_calm {action : MachineM η Unit} (calm : Keeps Calm action) :
    Balances 0 0 replaceable (advancing action) :=
  balances_after calm fun _ => balances_advanced

theorem Moves.mono {weaker : Prop} (moves : Moves taken given replaceable action)
    (weakens : replaceable → weaker) : Moves taken given weaker action :=
  fun _ _ _ done => (moves done).mono weakens

theorem Balances.mono {weaker : Prop} {action : MachineM η Outcome}
    (balances : Balances taken given replaceable action) (weakens : replaceable → weaker) :
    Balances taken given weaker action :=
  fun _ _ _ done stays => (balances done stays).mono weakens

theorem outcome_of_return {value : UInt16} {before after : Machine η} {outcome : Outcome}
    (done : returnValue value before = .ok outcome after) : outcome = .returned value := by
  rw [returnValue_apply] at done
  split at done
  · cases done
  · split at done
    · cases done
      rfl
    · cases done

theorem balances_return (value : UInt16) :
    Balances taken given replaceable (returnValue value : MachineM η Outcome) := by
  intro before outcome after done stays
  rw [outcome_of_return done] at stays
  cases stays

/-- Whatever comes before, a return does not stay in the routine. -/
theorem balances_before_return (action : MachineM η α) (value : α → UInt16) :
    Balances taken given replaceable (do
      let found ← action
      returnValue (value found)) := by
  intro before outcome after done stays
  rcases bind_eq_ok.mp done with ⟨found, middle, _, returned⟩
  rw [outcome_of_return returned] at stays
  cases stays

theorem balances_jumpTo (address : Nat) :
    Balances 0 0 replaceable (do
      jumpTo address
      return .branched : MachineM η Outcome) := by
  intro before outcome after done _
  cases done
  exact Balanced.refl _ _

theorem balances_branchIf (instruction : Instruction) (condition : Bool) :
    Balances 0 0 replaceable (branchIf instruction condition : MachineM η Outcome) := by
  unfold branchIf
  cases instruction.branch with
  | none => exact balances_advanced
  | some branch =>
      refine balances_ite balances_advanced ?_
      cases branch.target with
      | returnFalse => exact balances_return 0
      | returnTrue => exact balances_return 1
      | address address => exact balances_jumpTo address

theorem moves_storeResult (instruction : Instruction) (value : UInt16) :
    Moves 0 instruction.stackedResults replaceable
      (storeResult instruction value : MachineM η Unit) := by
  intro before _ after done
  unfold storeResult at done
  cases store : instruction.store with
  | none =>
      simp only [store] at done
      cases done
      simp only [Instruction.stackedResults, store]
      exact Balanced.refl _ _
  | some name =>
      simp only [store] at done
      have moved := moves_onMemory (fun _ _ _ => Memory.balanced_writeVariable) done
      simp only [Instruction.stackedResults, store, Option.some.injEq]
      exact moved.mono False.elim

theorem balances_conclude (instruction : Instruction) (value : UInt16) :
    Balances 0 instruction.stackedResults replaceable
      (conclude instruction value : MachineM η Outcome) :=
  balances_giving (moves_storeResult instruction value) fun _ => balances_advanced

theorem balances_store_branch (instruction : Instruction) (value : UInt16) (condition : Bool) :
    Balances 0 instruction.stackedResults replaceable (do
      storeResult instruction value
      branchIf instruction condition : MachineM η Outcome) :=
  balances_giving (moves_storeResult instruction value) fun _ => balances_branchIf _ _

/-- An operation without a result does not move the stack on that account. -/
theorem balances_silent {instruction : Instruction} {action : MachineM η Outcome}
    (silent : instruction.store = none) (balances : Balances 0 0 replaceable action) :
    Balances 0 instruction.stackedResults replaceable action := by
  rw [Instruction.stackedResults_of_none silent]
  exact balances

end Blocks

section Families

variable {instruction : Instruction} {opcode : Opcode} {values : List UInt16} {replaceable : Prop}

/-- The first operand names the evaluation stack. -/
def NamesStack (values : List UInt16) : Prop :=
  ∃ name, values[0]? = some name ∧ Word.low name = 0

theorem balances_combine (operation : UInt16 → UInt16 → UInt16) :
    Balances 0 instruction.stackedResults replaceable
      (combine instruction values operation : MachineM η Outcome) :=
  balances_need fun _ _ => balances_need fun _ _ => balances_conclude _ _

theorem balances_combineNonzero (operation : UInt16 → UInt16 → UInt16) :
    Balances 0 instruction.stackedResults replaceable
      (combineNonzero instruction values operation : MachineM η Outcome) :=
  balances_need fun _ _ => balances_need fun _ _ =>
    balances_ite (balances_throw _) (balances_conclude _ _)

theorem balances_compare (relation : UInt16 → UInt16 → Bool) :
    Balances 0 0 replaceable (compare instruction values relation : MachineM η Outcome) :=
  balances_need fun _ _ => balances_need fun _ _ => balances_branchIf _ _

theorem moves_pop : Moves 1 0 False (onMemory Memory.pop : MachineM η UInt16) :=
  moves_onMemory fun _ _ _ => Memory.balanced_pop

theorem moves_pokeVariable (name : UInt8) (value : UInt16) :
    Moves 0 0 (name = 0) (onMemory (Memory.pokeVariable name value) : MachineM η Unit) :=
  moves_onMemory fun _ _ _ => Memory.balanced_pokeVariable

theorem moves_updateVariable (name : UInt8) (change : UInt16 → UInt16) :
    Moves 0 0 (name = 0) (updateVariable name change : MachineM η UInt16) := by
  intro before value after done
  rcases bind_eq_ok.mp done with ⟨old, middle, looked, done⟩
  rcases bind_eq_ok.mp done with ⟨_, last, poked, same⟩
  cases same
  rw [← stack_of_calm ((calm_inspect _).of_ok looked)]
  exact moves_pokeVariable name (change old) poked

theorem moves_updateNamed {name : UInt16} (first : values[0]? = some name)
    (change : UInt16 → UInt16) :
    Moves 0 0 (NamesStack values)
      (updateVariable (Word.low name) change : MachineM η UInt16) :=
  (moves_updateVariable _ _).mono fun stack => ⟨name, first, stack⟩

theorem balances_count (change : UInt16 → UInt16) :
    Balances 0 0 (NamesStack values) (count instruction values change : MachineM η Outcome) := by
  refine balances_need fun name first => ?_
  exact balances_giving (moves_updateNamed first change) fun _ => balances_advanced

theorem balances_countAndCompare (change : UInt16 → UInt16) (relation : Int → Int → Bool) :
    Balances 0 0 (NamesStack values)
      (countAndCompare instruction values change relation : MachineM η Outcome) := by
  refine balances_need fun name first => balances_need fun _ _ => ?_
  exact balances_giving (moves_updateNamed first change) fun _ => balances_branchIf _ _

theorem balances_changeObjects {change : ObjectTable → MemoryM Unit}
    (writes : ∀ objects, Keeps Memory.Writes (change objects)) :
    Balances 0 0 replaceable (changeObjects change : MachineM η Outcome) :=
  balances_inspect fun objects => balances_of_calm (calm_onMemory (writes objects))

theorem balances_followLink (link : Link) :
    Balances 0 instruction.stackedResults replaceable
      (followLink instruction values link : MachineM η Outcome) :=
  balances_need fun _ _ => balances_after (calm_askObject _ _ _) fun _ =>
    balances_store_branch _ _ _

/-- What an operation may do to the value on top of those it does not take. -/
def MayReplace (opcode : Opcode) (values : List UInt16) : Prop :=
  opcode.changesVariable = true ∧ NamesStack values

variable (silent : opcode.hasResult = false → instruction.store = none)
include silent

theorem balances_arithmetic [Host η] :
    Balances 0 instruction.stackedResults (MayReplace opcode values)
      (arithmetic instruction opcode values : MachineM η Outcome) := by
  unfold arithmetic
  split
  · exact balances_silent (silent (by decide)) (balances_need fun _ _ => balances_need fun _ _ =>
      balances_branchIf _ _)
  · exact balances_silent (silent (by decide)) (balances_compare _)
  · exact balances_silent (silent (by decide)) (balances_compare _)
  · exact balances_silent (silent (by decide)) (balances_need fun _ _ => balances_branchIf _ _)
  · exact balances_silent (silent (by decide)) (balances_compare _)
  · exact balances_combine _
  · exact balances_combine _
  · exact balances_need fun _ _ => balances_conclude _ _
  · exact balances_combine _
  · exact balances_combine _
  · exact balances_combine _
  · exact balances_combine _
  · exact balances_combine _
  · exact balances_combineNonzero _
  · exact balances_combineNonzero _
  · exact balances_silent (silent (by decide)) ((balances_count _).mono fun named => ⟨rfl, named⟩)
  · exact balances_silent (silent (by decide)) ((balances_count _).mono fun named => ⟨rfl, named⟩)
  · exact balances_silent (silent (by decide))
      ((balances_countAndCompare _ _).mono fun named => ⟨rfl, named⟩)
  · exact balances_silent (silent (by decide))
      ((balances_countAndCompare _ _).mono fun named => ⟨rfl, named⟩)
  · exact balances_need fun _ _ => balances_after (calm_randomNumber _) fun _ =>
      balances_conclude _ _
  · exact balances_throw _

theorem balances_table :
    Balances 0 instruction.stackedResults (MayReplace opcode values)
      (table instruction opcode values : MachineM η Outcome) := by
  unfold table
  split
  · exact balances_need fun _ _ => balances_inspect fun _ => balances_conclude _ _
  · refine balances_silent (silent (by decide)) ?_
    refine balances_need fun name first => balances_need fun _ _ => ?_
    exact balances_giving ((moves_pokeVariable _ _).mono fun stack => ⟨rfl, name, first, stack⟩)
      fun _ => balances_advanced
  · refine balances_need fun _ _ => balances_need fun _ _ => ?_
    exact balances_inspect fun _ => balances_conclude _ _
  · refine balances_need fun _ _ => balances_need fun _ _ => ?_
    exact balances_inspect fun _ => balances_conclude _ _
  · refine balances_silent (silent (by decide)) ?_
    refine balances_need fun _ _ => balances_need fun _ _ => balances_need fun _ _ => ?_
    exact balances_of_calm (calm_onMemory (Memory.writes_writeWord _ _))
  · refine balances_silent (silent (by decide)) ?_
    refine balances_need fun _ _ => balances_need fun _ _ => balances_need fun _ _ => ?_
    exact balances_of_calm (calm_onMemory (Memory.writes_writeByte _ _))
  · refine balances_silent (silent (by decide)) ?_
    refine balances_need fun _ _ => balances_need fun _ _ => balances_need fun _ _ => ?_
    exact balances_of_calm (calm_onMemory (Memory.writes_copyTable _ _ _))
  · refine balances_need fun _ _ => balances_need fun _ _ => balances_need fun _ _ => ?_
    exact balances_inspect fun _ => balances_store_branch _ _ _
  · exact balances_throw _

theorem balances_world [Host η] :
    Balances 0 instruction.stackedResults replaceable
      (world instruction opcode values : MachineM η Outcome) := by
  unfold world
  split
  · exact balances_need fun _ _ => balances_after (calm_askObject _ _ _) fun _ =>
      balances_conclude _ _
  · exact balances_followLink _
  · exact balances_followLink _
  · refine balances_silent (silent (by decide)) ?_
    refine balances_need fun _ _ => balances_need fun _ _ => ?_
    exact balances_after (calm_askObject _ _ _) fun _ => balances_branchIf _ _
  · refine balances_silent (silent (by decide)) ?_
    refine balances_need fun _ _ => balances_need fun _ _ => ?_
    exact balances_after (calm_askObject _ _ _) fun _ => balances_branchIf _ _
  · refine balances_silent (silent (by decide)) ?_
    refine balances_need fun _ _ => balances_need fun _ _ => ?_
    exact balances_changeObjects fun objects => objects.writes_writeAttribute _ _ _
  · refine balances_silent (silent (by decide)) ?_
    refine balances_need fun _ _ => balances_need fun _ _ => ?_
    exact balances_changeObjects fun objects => objects.writes_writeAttribute _ _ _
  · refine balances_silent (silent (by decide)) ?_
    refine balances_need fun _ _ => balances_need fun _ _ => ?_
    exact balances_changeObjects fun objects => objects.writes_insert _ _
  · refine balances_silent (silent (by decide)) ?_
    refine balances_need fun _ _ => balances_ite balances_advanced ?_
    exact balances_changeObjects fun objects => objects.writes_remove _
  · refine balances_need fun _ _ => balances_after (calm_needProperty _ _) fun _ => ?_
    exact balances_inspect fun _ => balances_conclude _ _
  · refine balances_need fun _ _ => balances_after (calm_needProperty _ _) fun _ => ?_
    exact balances_after (calm_askObject _ _ _) fun _ => balances_conclude _ _
  · exact balances_need fun _ _ => balances_inspect fun _ => balances_conclude _ _
  · refine balances_need fun _ _ => balances_after (calm_needProperty _ _) fun _ => ?_
    exact balances_inspect fun _ => balances_conclude _ _
  · refine balances_silent (silent (by decide)) ?_
    refine balances_need fun _ _ => balances_after (calm_needProperty _ _) fun _ => ?_
    refine balances_need fun _ _ => ?_
    exact balances_changeObjects fun objects => objects.writes_setProperty _ _ _
  · refine balances_silent (silent (by decide)) ?_
    refine balances_need fun _ _ => balances_ite balances_advanced ?_
    exact balances_inspect fun _ => balances_of_calm (calm_outputText _)
  · exact balances_throw _

omit silent in
theorem screenModel_of_hasResult [Host η] (hasResult : opcode.hasResult = true) :
    (screenModel instruction opcode values : MachineM η Unit) = unsupported instruction := by
  unfold screenModel
  split
  all_goals first
    | rfl
    | exact absurd hasResult (by decide)

theorem balances_exchange [Host η] (ordinary : opcode.managesPlay = false) :
    Balances 0 instruction.stackedResults replaceable
      (exchange instruction opcode values : MachineM η Outcome) := by
  unfold exchange
  split
  · exact balances_silent (silent (by decide)) (balances_of_calm (calm_printing _ _ _))
  · exact balances_silent (silent (by decide)) (balances_of_calm (calm_printing _ _ _))
  · exact balances_silent (silent (by decide)) (balances_of_calm (calm_printing _ _ _))
  · exact balances_silent (silent (by decide)) (balances_of_calm (calm_printing _ _ _))
  · exact balances_silent (silent (by decide)) (balances_of_calm (calm_printing _ _ _))
  · exact balances_silent (silent (by decide)) (balances_of_calm (calm_printing _ _ _))
  · exact balances_silent (silent (by decide)) (balances_of_calm (calm_printing _ _ _))
  · exact balances_silent (silent (by decide)) (balances_of_calm (calm_printing _ _ _))
  · exact balances_silent (silent (by decide)) (balances_of_calm (calm_printing _ _ _))
  · exact balances_need fun _ _ => balances_conclude _ _
  · exact balances_need fun _ _ => balances_after (calm_readLine _ _) fun _ => balances_conclude _ _
  · exact balances_after calm_readKey fun _ => balances_conclude _ _
  · refine balances_silent (silent (by decide)) ?_
    refine balances_need fun _ _ => balances_need fun _ _ => ?_
    exact balances_of_calm (calm_tokenise _ _ _ _)
  · refine balances_silent (silent (by decide)) ?_
    refine balances_need fun _ _ => balances_need fun _ _ => ?_
    refine balances_need fun _ _ => balances_need fun _ _ => ?_
    exact balances_of_calm (calm_encodeText _ _ _ _)
  · refine balances_silent (silent (by decide)) ?_
    exact balances_need fun _ _ => balances_of_calm (calm_selectStream _ _)
  · exact balances_silent (silent (by decide)) (balances_need fun _ _ => balances_advanced)
  · simp [Opcode.managesPlay] at ordinary
  · simp [Opcode.managesPlay] at ordinary
  · simp [Opcode.managesPlay] at ordinary
  · simp [Opcode.managesPlay] at ordinary
  · simp [Opcode.managesPlay] at ordinary
  · intro before outcome after done stays
    cases done
    cases stays
  · exact balances_silent (silent (by decide)) (balances_inspect fun _ => balances_branchIf _ _)
  · exact balances_silent (silent (by decide)) (balances_branchIf _ _)
  · exact balances_silent (silent (by decide)) balances_advanced
  · exact balances_need fun _ _ => balances_conclude _ _
  · cases result : opcode.hasResult with
    | true =>
        rw [screenModel_of_hasResult result]
        intro before outcome after done
        cases done
    | false => exact balances_silent (silent result) (balances_of_calm (calm_screenModel _ _ _))

omit silent

section Stack

variable [Host η]

theorem balances_push (values : List UInt16) (silent : instruction.store = none) :
    Balances 0 (1 + instruction.stackedResults) replaceable
      (routine instruction .push values : MachineM η Outcome) := by
  rw [Instruction.stackedResults_of_none silent]
  refine balances_need fun value _ => ?_
  have moves : Moves 0 1 False (onMemory (Memory.push value) : MachineM η Unit) :=
    moves_onMemory fun _ _ _ => Memory.balanced_push
  exact balances_giving (moves.mono False.elim) fun _ => balances_advanced

theorem balances_pop (values : List UInt16) (silent : instruction.store = none) :
    Balances 1 (0 + instruction.stackedResults) replaceable
      (routine instruction .pop values : MachineM η Outcome) := by
  rw [Instruction.stackedResults_of_none silent]
  have taken : Balances (1 + 0) 0 replaceable
      (routine instruction .pop values : MachineM η Outcome) :=
    balances_taking moves_pop fun _ => balances_advanced
  exact taken

/-- What is pulled goes to a variable or becomes the result, but not both. -/
theorem balances_pull :
    Balances 1 (0 + instruction.stackedResults) (MayReplace .pull values)
      (routine instruction .pull values : MachineM η Outcome) := by
  rw [Nat.zero_add]
  refine balances_ite_of ?_ ?_
  · intro _
    refine balances_ite ?_ (balances_throw _)
    exact balances_taking moves_pop fun _ => balances_conclude _ _
  · intro unstored
    rw [Instruction.stackedResults_of_none (Option.not_isSome_iff_eq_none.mp unstored)]
    refine balances_need fun name first => (?_ : Balances (1 + 0) 0 (MayReplace .pull values) _)
    refine balances_taking moves_pop fun _ => ?_
    exact balances_giving ((moves_pokeVariable _ _).mono fun stack => ⟨rfl, name, first, stack⟩)
      fun _ => balances_advanced

end Stack

theorem balances_callRoutine (packed : UInt16) (arguments : List UInt16) :
    Balances 0 instruction.stackedResults replaceable
      (callRoutine packed arguments instruction.store : MachineM η Outcome) := by
  refine balances_ite ?_ ?_
  · have concluded : Balances 0 instruction.stackedResults replaceable
        (conclude instruction 0 : MachineM η Outcome) := balances_conclude instruction 0
    cases store : instruction.store with
    | none => exact balances_silent store balances_advanced
    | some name =>
        simp only [conclude, storeResult, store] at concluded
        exact concluded
  · intro before outcome after done stays
    rcases bind_eq_ok.mp done with ⟨address, _, _, done⟩
    rcases bind_eq_ok.mp done with ⟨_, _, _, called⟩
    cases called
    cases stays

/-- The calls, returns and jumps, which leave the stack alone. -/
theorem balances_routine [Host η] (silent : opcode.hasResult = false → instruction.store = none)
    (plain : opcode.pops = 0 ∧ opcode.pushes = 0) :
    Balances 0 instruction.stackedResults replaceable
      (routine instruction opcode values : MachineM η Outcome) := by
  unfold routine
  split
  · exact balances_need fun _ _ => balances_callRoutine _ _
  · exact balances_need fun _ _ => balances_callRoutine _ _
  · exact balances_need fun _ _ => balances_callRoutine _ _
  · exact balances_need fun _ _ => balances_callRoutine _ _
  · exact balances_need fun _ _ => balances_callRoutine _ _
  · exact balances_need fun _ _ => balances_callRoutine _ _
  · exact balances_need fun _ _ => balances_callRoutine _ _
  · exact balances_need fun _ _ => balances_callRoutine _ _
  · exact balances_need fun _ _ => balances_return _
  · exact balances_return 1
  · exact balances_return 0
  · exact balances_before_return _ id
  · have rest : Balances 0 instruction.stackedResults replaceable (do
        outputNewLine
        returnValue 1 : MachineM η Outcome) :=
      balances_after calm_outputNewLine fun _ => balances_return 1
    cases instruction.text with
    | none => exact rest
    | some text => exact balances_after (calm_outputText text) fun _ => rest
  · simp [Opcode.pushes] at plain
  · simp [Opcode.pops] at plain
  · simp [Opcode.pops] at plain
  · exact balances_inspect fun _ => balances_conclude _ _
  · exact balances_need fun value _ => balances_need fun _ _ =>
      balances_before_return _ fun _ => value
  · refine balances_silent (silent (by decide)) ?_
    exact balances_need fun _ _ => balances_inspect fun _ => balances_branchIf _ _
  · refine balances_silent (silent (by decide)) ?_
    exact balances_need fun _ _ => balances_inspect fun _ => balances_jumpTo _
  · exact balances_throw _

end Families

section Managing

variable {instruction : Instruction} {before after : Machine η} {outcome : Outcome}
  {replaceable : Prop}

theorem balanced_report {success : Bool}
    (done : report instruction success before = .ok outcome after)
    (early : before.version ≤ 3 → instruction.store = none)
    (stays : outcome.staysInRoutine = true) :
    Balanced 0 instruction.stackedResults replaceable before.stack after.stack := by
  unfold report at done
  split at done
  case isTrue first =>
      exact balances_silent (early first) (balances_branchIf instruction success) done stays
  case isFalse => exact balances_conclude instruction _ done stays

/-- An operation on the state of play as a whole reports to the story, unless it replaces that
state. -/
theorem balanced_manage [Host η] {opcode : Opcode} {values : List UInt16}
    (managing : opcode.managesPlay = true)
    (early : opcode = .save ∨ opcode = .restore → before.version ≤ 3 → instruction.store = none)
    (remains : ¬before.Replaces opcode)
    (done : perform instruction opcode values before = .ok outcome after)
    (stays : outcome.staysInRoutine = true) :
    Balanced 0 instruction.stackedResults replaceable before.stack after.stack := by
  unfold Opcode.managesPlay at managing
  split at managing
  · have saved : save instruction before = .ok outcome after := done
    rw [save_apply] at saved
    split at saved
    · cases saved
    · have moved : Balanced _ _ replaceable _ _ :=
        balanced_report saved (early (Or.inl rfl)) stays
      exact moved
  · have restored : restore instruction before = .ok outcome after := done
    rw [restore_apply] at restored
    split at restored
    case h_1 => cases restored
    case h_2 memory replaced => exact absurd ⟨memory, replaced⟩ remains
    case h_3 memory kept =>
        cases Archive.restore_eq_false kept
        exact balanced_report restored (early (Or.inr rfl)) stays
  · have noted : saveUndo instruction before = .ok outcome after := done
    rw [saveUndo_apply] at noted
    have moved : Balanced _ _ replaceable _ _ := balances_conclude instruction _ noted stays
    exact moved
  · have undone : restoreUndo instruction before = .ok outcome after := done
    rw [restoreUndo_apply] at undone
    rcases Archive.restoreUndo_cases before.archive before.memory with
      ⟨newest, memory, taken, went, same⟩ | same | ⟨fault, same⟩
    · exact absurd ⟨_, same⟩ remains
    · rw [same] at undone
      have moved : Balanced _ _ replaceable _ _ := balances_conclude instruction _ undone stays
      exact moved
    · rw [same] at undone
      cases undone
  · exact absurd trivial remains
  · cases managing

end Managing

/-- The stack law of an operation whose operands have been fetched. -/
theorem balanced_perform [Host η] {instruction : Instruction} {opcode : Opcode}
    {values : List UInt16} {before after : Machine η} {outcome : Outcome}
    (silent : opcode.hasResult = false → instruction.store = none)
    (early : opcode = .save ∨ opcode = .restore → before.version ≤ 3 → instruction.store = none)
    (remains : ¬before.Replaces opcode)
    (done : perform instruction opcode values before = .ok outcome after)
    (stays : outcome.staysInRoutine = true) :
    Balanced opcode.pops (opcode.pushes + instruction.stackedResults) (MayReplace opcode values)
      before.stack after.stack := by
  rcases opcode.plain_or_stack with ⟨pops, pushes⟩ | rfl | rfl | rfl
  · rw [pops, pushes, Nat.zero_add]
    cases managing : opcode.managesPlay with
    | true => exact balanced_manage managing early remains done stays
    | false =>
        have balances : Balances 0 instruction.stackedResults (MayReplace opcode values)
            (perform instruction opcode values : MachineM η Outcome) := by
          unfold perform
          split
          · exact balances_arithmetic silent
          · exact balances_table silent
          · exact balances_world silent
          · exact balances_routine silent ⟨pops, pushes⟩
          · exact balances_exchange silent managing
          · exact balances_throw _
        exact balances done stays
  · exact balances_pop values (silent (by decide)) done stays
  · exact balances_pull done stays
  · exact balances_push values (silent (by decide)) done stays

section Decoded

variable {decoder later : Decoder} {memory : Memory} {codec : Codec}
  {abbreviations : AbbreviationTable} {address : Nat} {instruction : Instruction} {opcode : Opcode}
  (decoded : decoder.decode memory codec abbreviations address = .ok (instruction, later))
  (named : instruction.opcode? = some opcode)
include decoded named

theorem silent_of_decode (without : opcode.hasResult = false) : instruction.store = none := by
  cases store : instruction.store with
  | none => rfl
  | some name =>
      rcases Decoder.stores_of_decode decoded store with ⟨entry, listed, stores⟩
      have row := (Decoder.row_of_decode decoded listed).1
      simp only [Instruction.opcode?, listed, Option.map_some, Option.some.injEq] at named
      have result : opcode.hasResult = true := by
        rw [Opcode.hasResult, List.any_eq_true]
        exact ⟨entry, row, by simp [named, stores]⟩
      rw [result] at without
      cases without

theorem early_of_decode (reports : opcode = .save ∨ opcode = .restore)
    (early : decoder.version ≤ 3) : instruction.store = none := by
  cases store : instruction.store with
  | none => rfl
  | some name =>
      rcases Decoder.stores_of_decode decoded store with ⟨entry, listed, stores⟩
      rcases Decoder.row_of_decode decoded listed with ⟨row, since, _⟩
      simp only [Instruction.opcode?, listed, Option.map_some, Option.some.injEq] at named
      subst named
      have late := Opcode.catalog_reports entry row reports stores
      omega

end Decoded

/-- Whether a state of play is replaced does not depend on the evaluation stack. -/
theorem Replaces.of_header {machine : Machine η} {memory : Memory} {opcode : Opcode}
    (same : memory.header = machine.memory.header)
    (replaces : { machine with memory }.Replaces opcode) : machine.Replaces opcode := by
  have fits : ∀ {snapshot : Snapshot} {later : Memory},
      Memory.restoreSnapshot snapshot memory = .ok () later →
      ∃ other, Memory.restoreSnapshot snapshot machine.memory = .ok () other := by
    intro snapshot later went
    unfold Memory.restoreSnapshot at went ⊢
    rw [same] at went
    split at went
    · cases went
    · rename_i size
      exact ⟨_, if_neg size⟩
  unfold Replaces at replaces ⊢
  split at replaces
  · trivial
  · rcases replaces with ⟨later, restored⟩
    rcases Archive.saved_of_restore restored with ⟨snapshot, saved, went⟩
    rcases fits went with ⟨other, fitted⟩
    exact ⟨other, Archive.restore_of_saved saved fitted⟩
  · rcases replaces with ⟨state, undone⟩
    rcases Archive.restoreUndo_cases machine.archive memory with
      ⟨newest, later, taken, went, _⟩ | same | ⟨misfit, same⟩
    · rcases fits went with ⟨other, fitted⟩
      exact ⟨_, Archive.restoreUndo_of_taken taken fitted⟩
    · rw [same] at undone
      cases undone
    · rw [same] at undone
      cases undone
  · exact replaces

theorem head_operandValues {operands : List Operand} {values : List UInt16} {memory after : Memory}
    (fetched : operandValues true operands memory = .ok values after) :
    values[0]? = operands.head?.map (·.value) := by
  cases operands with
  | nil =>
      cases fetched
      rfl
  | cons operand operands =>
      rcases bind_eq_ok.mp fetched with ⟨value, middle, first, rest⟩
      rcases bind_eq_ok.mp rest with ⟨others, last, _, same⟩
      rw [operandValue, if_neg (by simp)] at first
      cases first
      cases same
      rfl

/-- An instruction that stays in its routine takes its operands off the evaluation stack and puts
its result there, as far as they belong there. Apart from that, only popping, pulling and pushing
move the stack. The values below stay in place, except that the top one of them can be the variable
that an instruction changes. -/
theorem stack_balanced [Host η] {decoder later : Decoder} {memory : Memory} {codec : Codec}
    {abbreviations : AbbreviationTable} {address : Nat} {instruction : Instruction}
    {opcode : Opcode} {machine after : Machine η} {outcome : Outcome}
    (decoded : decoder.decode memory codec abbreviations address = .ok (instruction, later))
    (suited : decoder.version = machine.version) (named : instruction.opcode? = some opcode)
    (done : execute instruction machine = .ok outcome after)
    (stays : outcome = .advanced ∨ outcome = .branched) (remains : ¬machine.Replaces opcode) :
    (after.memory.stackDepth : Int) =
        machine.memory.stackDepth - instruction.stackedOperands opcode - opcode.pops +
          opcode.pushes + instruction.stackedResults ∧
      Balanced (instruction.stackedOperands opcode + opcode.pops)
        (opcode.pushes + instruction.stackedResults)
        (opcode.changesVariable = true ∧ ∃ operand, instruction.operands.head? = some operand ∧
          Word.low operand.value = 0)
        machine.memory.frame.stack after.memory.frame.stack := by
  rw [execute, named] at done
  rcases bind_eq_ok.mp done with ⟨values, ready, fetched, performed⟩
  rw [onMemory_apply] at fetched
  cases run : operandValues opcode.takesVariable instruction.operands machine.memory with
  | error fault memory =>
      rw [run] at fetched
      cases fetched
  | ok found memory =>
      rw [run] at fetched
      cases fetched
      have operands := balanced_operandValues (Decoder.named_of_decode decoded) run
      have header : memory.header = machine.memory.header :=
        ((touches_operandValues _ _).of_ok run).header
      have version : ({ machine with memory } : Machine η).version = decoder.version := by
        rw [suited, version, Memory.version, header]
        rfl
      have operation : Balanced opcode.pops (opcode.pushes + instruction.stackedResults)
          (MayReplace opcode values) memory.frame.stack after.stack := by
        apply balanced_perform (silent_of_decode decoded named) ?_ ?_ performed ?_
        · intro reports early
          exact early_of_decode decoded named reports (by omega)
        · intro replaces
          exact remains (replaces.of_header header)
        · rcases stays with rfl | rfl <;> rfl
      have whole := operands.taking operation
      refine ⟨?_, whole.mono ?_⟩
      · have length := whole.length
        simp only [Memory.stackDepth, Instruction.stackedOperands, stack] at length ⊢
        omega
      · rintro ⟨changes, name, first, stack⟩
        rw [Opcode.takesVariable_of_changes changes] at run
        rw [head_operandValues run] at first
        rcases Option.map_eq_some_iff.mp first with ⟨operand, head, rfl⟩
        exact ⟨changes, operand, head, stack⟩

/-- A value is pulled off the evaluation stack, and takes the place of the one below it. -/
theorem stack_balanced_pull :
    let empty := sample 5 [0xE9, 0x7F, 0] .absent
    let machine := { empty with memory := { empty.memory with frame := { stack := [3, 4, 5] } } }
    ∃ instruction after, machine.nextInstruction = .ok (instruction, machine.decoder) ∧
      execute instruction machine = .ok .advanced after ∧ after.memory.stackDepth = 2 ∧
      after.memory.frame.stack = [3, 5] := by
  intro empty machine
  let instruction : Instruction :=
    { address := 80
      form := .variadic
      opcodeClass := .var
      number := 9
      entry := Opcode.lookup 5 .var 9
      operands := [⟨.smallConstant, 0⟩]
      store := none
      branch := none
      text := none
      size := 3 }
  have decoded : machine.nextInstruction = .ok (instruction, machine.decoder) :=
    eq_ok_of_toOption (by decide +kernel)
  have done : valueOf (execute instruction) machine = some .advanced := by decide +kernel
  have named : instruction.opcode? = some .pull := rfl
  have depth := (stack_balanced decoded rfl named (eq_ok_of_valueOf done) (Or.inl rfl) id).1
  exact ⟨instruction, _, decoded, eq_ok_of_valueOf done, Int.ofNat_inj.mp depth, by decide +kernel⟩

end Machine

end ZMachine
