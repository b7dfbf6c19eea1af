import ZMachine.Host.Recorded
import ZMachine.Proofs.Machine.Play

/-!
# Steps and runs

A step decodes an instruction, moves past it, fetches its operands and performs its operation. It may
get stuck at any of these; `Machine.Steps` lists how far it gets and what has happened by then. A run
is any number of steps, whatever each of them reports.
-/

namespace ZMachine

/-- The memory with another program counter. -/
def Memory.withPc (memory : Memory) (pc : Nat) : Memory :=
  { memory with pc }

namespace Machine

variable {η : Type} [Host η]

/-- The machine after a step, whether it succeeds or fails. -/
def next (machine : Machine η) : Machine η :=
  stateAfter step machine

/-- The machine after any number of steps, each from a machine of which `allowed` holds. -/
inductive Run (allowed : Machine η → Prop) (first : Machine η) : Machine η → Prop where
  | refl : Run allowed first first
  | step {machine : Machine η} (earlier : Run allowed first machine) (holds : allowed machine) :
      Run allowed first machine.next

/-- What every step keeps, a run keeps. -/
theorem Run.keeps {allowed : Machine η → Prop} {first last : Machine η}
    (run : Run allowed first last) (invariant : Machine η → Prop) (holds : invariant first)
    (kept : ∀ machine, allowed machine → invariant machine → invariant machine.next) :
    invariant last := by
  induction run with
  | refl => exact holds
  | step earlier allows ih => exact kept _ allows ih

/-- The next step performs an operation: the instruction at the program counter names it, and its
operands can be fetched. `ready` is the machine once they are. -/
structure Performs (machine : Machine η) (instruction : Instruction) (opcode : Opcode)
    (values : List UInt16) (ready : Machine η) : Prop where
  named : instruction.opcode? = some opcode
  prepared : ∃ decoder memory,
    machine.nextInstruction = .ok (instruction, decoder) ∧
    operandValues opcode.takesVariable instruction.operands
      (machine.advance instruction decoder).memory = .ok values memory ∧
    ready = { machine.advance instruction decoder with memory }

/-- The instruction that the next step carries out, with its operation, its operands and the machine
that is ready for it. -/
def prepared? (machine : Machine η) : Option (Instruction × Opcode × List UInt16 × Machine η) := do
  let (instruction, decoder) ← machine.nextInstruction.toOption
  let opcode ← instruction.opcode?
  let advanced := machine.advance instruction decoder
  match operandValues opcode.takesVariable instruction.operands advanced.memory with
  | .ok values memory => some (instruction, opcode, values, { advanced with memory })
  | .error _ _ => none

omit [Host η] in
theorem performs_iff {machine ready : Machine η} {instruction : Instruction} {opcode : Opcode}
    {values : List UInt16} :
    machine.Performs instruction opcode values ready ↔
      machine.prepared? = some (instruction, opcode, values, ready) := by
  constructor
  · rintro ⟨named, decoder, memory, decoded, fetched, rfl⟩
    simp [prepared?, decoded, Except.toOption, named, fetched]
  · intro found
    cases decoded : machine.nextInstruction with
    | error fault => simp [prepared?, decoded, Except.toOption] at found
    | ok result =>
        rcases result with ⟨next, decoder⟩
        cases named : next.opcode? with
        | none => simp [prepared?, decoded, Except.toOption, named] at found
        | some operation =>
            cases fetched : operandValues operation.takesVariable next.operands
                (machine.advance next decoder).memory with
            | error fault memory =>
                simp [prepared?, decoded, Except.toOption, named, fetched] at found
            | ok operands memory =>
                simp only [prepared?, decoded, Except.toOption, named, fetched, bind,
                  Option.bind_some, Option.some.injEq, Prod.mk.injEq] at found
                rcases found with ⟨rfl, rfl, rfl, rfl⟩
                exact ⟨named, decoder, memory, decoded, fetched, rfl⟩

/-- The next step performs an operation. -/
def PerformsNext (machine : Machine η) (opcode : Opcode) : Prop :=
  ∃ instruction values ready, machine.Performs instruction opcode values ready

omit [Host η] in
theorem performsNext_iff {machine : Machine η} {opcode : Opcode} :
    machine.PerformsNext opcode ↔ machine.prepared?.map (·.2.1) = some opcode := by
  simp only [PerformsNext, performs_iff, Option.map_eq_some_iff]
  constructor
  · rintro ⟨instruction, values, ready, found⟩
    exact ⟨_, found, rfl⟩
  · rintro ⟨⟨instruction, _, values, ready⟩, found, rfl⟩
    exact ⟨instruction, values, ready, found⟩

instance (machine : Machine η) (opcode : Opcode) : Decidable (machine.PerformsNext opcode) :=
  decidable_of_iff _ performsNext_iff.symm

/-- How far a step gets. -/
inductive Steps (machine : Machine η) : Prop where
  /-- There is no instruction at the program counter. -/
  | undecoded (same : machine.next = machine) (failed : valueOf step machine = none)
  /-- The instruction has no operation, or its operands cannot be fetched. -/
  | unfetched {instruction : Instruction} {decoder : Decoder}
      (decoded : machine.nextInstruction = .ok (instruction, decoder))
      (quiet : (machine.advance instruction decoder).Quiet machine.next)
      (skipped : valueOf step machine = none ∨ valueOf step machine = some .advanced)
  | performed {instruction : Instruction} {opcode : Opcode} {values : List UInt16}
      {ready : Machine η} (performs : machine.Performs instruction opcode values ready)

section Tolerating

omit [Host η]

variable {action : MachineM η Outcome} {machine after : Machine η}

theorem tolerating_of_ok {outcome : Outcome} (success : action machine = .ok outcome after) :
    tolerating action machine = .ok outcome after := by
  rw [tolerating, success]

/-- A fault is reported or skipped. -/
theorem tolerating_of_error {fault : Fault} (failure : action machine = .error fault after) :
    tolerating action machine = .error fault after ∨
      tolerating action machine = .ok .advanced after := by
  rw [tolerating, failure]
  dsimp only
  split
  · exact Or.inr rfl
  · exact Or.inl rfl

theorem stateAfter_tolerating (action : MachineM η Outcome) (machine : Machine η) :
    stateAfter (tolerating action) machine = stateAfter action machine := by
  cases run : action machine with
  | ok outcome after => rw [stateAfter_of_ok run, stateAfter_of_ok (tolerating_of_ok run)]
  | error fault after =>
      rw [stateAfter_of_error run]
      rcases tolerating_of_error run with reported | skipped
      · exact stateAfter_of_error reported
      · exact stateAfter_of_ok skipped

/-- Skipping a fault never looks like anything but going on. -/
theorem of_tolerating {outcome : Outcome} (success : tolerating action machine = .ok outcome after) :
    action machine = .ok outcome after ∨ outcome = .advanced := by
  cases run : action machine with
  | ok found later =>
      rw [tolerating_of_ok run] at success
      exact Or.inl success
  | error fault later =>
      rcases tolerating_of_error run with reported | skipped
      · rw [reported] at success
        cases success
      · rw [skipped] at success
        cases success
        exact Or.inr rfl

end Tolerating

theorem step_of_decoded {machine : Machine η} {instruction : Instruction} {decoder : Decoder}
    (decoded : machine.nextInstruction = .ok (instruction, decoder)) :
    step machine = tolerating (execute instruction) (machine.advance instruction decoder) := by
  rw [step, decoded]

theorem next_of_decoded {machine : Machine η} {instruction : Instruction} {decoder : Decoder}
    (decoded : machine.nextInstruction = .ok (instruction, decoder)) :
    machine.next = stateAfter (execute instruction) (machine.advance instruction decoder) := by
  rw [next, stateAfter, step_of_decoded decoded]
  exact stateAfter_tolerating _ _

/-- Once its operands are fetched, an instruction performs its operation. -/
theorem execute_of_named {instruction : Instruction} {opcode : Opcode} {values : List UInt16}
    {machine : Machine η} {memory : Memory} (named : instruction.opcode? = some opcode)
    (fetched : operandValues opcode.takesVariable instruction.operands machine.memory =
      .ok values memory) :
    execute instruction machine = perform instruction opcode values { machine with memory } := by
  rw [execute, named]
  dsimp only
  rw [bind_of_ok (onMemory_of_ok fetched)]
  rfl

namespace Performs

variable {machine ready : Machine η} {instruction : Instruction} {opcode : Opcode}
  {values : List UInt16}

theorem step (performs : machine.Performs instruction opcode values ready) :
    Machine.step machine = tolerating (perform instruction opcode values) ready := by
  rcases performs with ⟨named, decoder, memory, decoded, fetched, rfl⟩
  rw [step_of_decoded decoded]
  unfold tolerating
  rw [execute_of_named named fetched]

theorem next (performs : machine.Performs instruction opcode values ready) :
    machine.next = stateAfter (perform instruction opcode values) ready := by
  rw [Machine.next, stateAfter, performs.step]
  exact stateAfter_tolerating _ _

omit [Host η] in
theorem fits (performs : machine.Performs instruction opcode values ready) : instruction.Fits := by
  rcases performs with ⟨_, decoder, memory, decoded, _, _⟩
  exact Decoder.fits_of_decode decoded

omit [Host η] in
/-- Fetching operands touches the memory that the instruction is past of. -/
theorem touches (performs : machine.Performs instruction opcode values ready) :
    (machine.memory.withPc (machine.memory.pc + instruction.size)).Touches ready.memory := by
  rcases performs with ⟨_, decoder, memory, _, fetched, rfl⟩
  exact (touches_operandValues opcode.takesVariable instruction.operands).of_ok fetched

/-- An operation that is performed manages the state of play as a whole, or it proceeds in it. -/
theorem leads (performs : machine.Performs instruction opcode values ready) :
    opcode.managesPlay = true ∧ Manages instruction opcode ready
        (valueOf (perform instruction opcode values) ready) machine.next ∨
      opcode.managesPlay = false ∧ Proceeds instruction values ready
        (valueOf (perform instruction opcode values) ready) machine.next := by
  rw [performs.next]
  cases managing : opcode.managesPlay with
  | true => exact Or.inl ⟨rfl, manages_perform performs.fits managing values ready⟩
  | false => exact Or.inr ⟨rfl, proceeds_perform performs.fits values managing ready⟩

end Performs

/-- How far a step gets is one of the three possibilities. -/
theorem steps (machine : Machine η) : machine.Steps := by
  cases decoded : machine.nextInstruction with
  | error fault =>
      have failed : step machine = .error fault machine := by rw [step, decoded]
      exact .undecoded (stateAfter_of_error failed) (valueOf_of_error failed)
  | ok result =>
      rcases result with ⟨instruction, decoder⟩
      have stuck : ∀ {fault : Fault} {after : Machine η},
          execute instruction (machine.advance instruction decoder) = .error fault after →
          (machine.advance instruction decoder).Quiet after → machine.Steps := by
        intro fault after failed quiet
        refine .unfetched decoded ?_ ?_
        · rw [next_of_decoded decoded, stateAfter_of_error failed]
          exact quiet
        · rw [valueOf, step_of_decoded decoded]
          rcases tolerating_of_error failed with reported | skipped
          · rw [reported]
            exact Or.inl rfl
          · rw [skipped]
            exact Or.inr rfl
      cases named : instruction.opcode? with
      | none =>
          have failed : execute instruction (machine.advance instruction decoder) =
              .error (.invalidOpcode instruction.encoding instruction.address)
                (machine.advance instruction decoder) := by
            rw [execute, named]
            rfl
          exact stuck failed (.refl _)
      | some opcode =>
          cases fetched : operandValues opcode.takesVariable instruction.operands
              (machine.advance instruction decoder).memory with
          | ok values memory => exact .performed ⟨named, decoder, memory, decoded, fetched, rfl⟩
          | error fault memory =>
              have touched :=
                (touches_operandValues opcode.takesVariable instruction.operands).of_error fetched
              have failed : execute instruction (machine.advance instruction decoder) =
                  .error fault { machine.advance instruction decoder with memory } := by
                rw [execute, named]
                exact bind_of_error (onMemory_of_error fetched)
              exact stuck failed (.of_memory touched)

end Machine

/-- A story without tables, to run small pieces of code. Its 80 bytes of dynamic memory end with
eight global variables, and the code follows. -/
def Image.sample (version : UInt8) (code : List UInt8) : Image :=
  #[version, 0, 0, 0, 0, 80, 0, 80, 0, 0, 0, 0, 0, 64, 0, 80] ++ Array.replicate 64 0 ++
    code.toArray

/-- A player who says nothing. -/
def Recorded.silent : Recorded :=
  { script := ⟨[]⟩, chance := .dice [] }

/-- A small story, loaded for a silent player. -/
def Machine.sample (version : UInt8) (code : List UInt8) (archive : Archive) : Machine Recorded :=
  let image := Header.normalize {} (.sample version code)
  let memory : Memory :=
    { bytes := image, pristine := image, header := Header.read image, pc := 80 }
  { memory
    decoder := { version := memory.version }
    codec := .standard memory.version
    abbreviations := .ofMemory memory
    objects := .ofMemory memory
    dictionary := none
    host := .silent
    archive
    settings := {} }

end ZMachine
