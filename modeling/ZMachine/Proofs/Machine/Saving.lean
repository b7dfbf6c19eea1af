import ZMachine.Proofs.Memory.Protection

/-!
# What saving leaves in memory

A saved game keeps dynamic memory, the program counter and the frames. Since nothing else of a memory
can change, going back to it gives the very memory that was saved. The rest is how the saving
instruction is found again. Up to version 3 it is decoded anew, from bytes that are the same as when
it was first decoded. Later its last byte names the variable that takes the result, and the saved
program counter stands just after it.
-/

namespace ZMachine

namespace Memory

/-- The memory after a number of values are taken off the evaluation stack. -/
def popped (memory : Memory) (count : Nat) : Memory :=
  { memory with frame := { memory.frame with stack := memory.frame.stack.drop count } }

theorem popped_popped (memory : Memory) (first second : Nat) :
    (memory.popped first).popped second = memory.popped (first + second) := by
  simp only [popped, List.drop_drop]

/-- Fetching an operand takes at most one value off the stack, and changes nothing else. -/
theorem popped_operandValue (named : Bool) (operand : Operand) (memory : Memory) :
    ∃ count ≤ 1, stateAfter (Machine.operandValue named operand) memory = memory.popped count := by
  unfold Machine.operandValue
  split
  · unfold readVariable
    split
    · unfold stateAfter pop
      cases shape : memory.frame.stack with
      | nil => exact ⟨0, by omega, rfl⟩
      | cons value stack =>
          refine ⟨1, by omega, ?_⟩
          simp only [popped, shape, List.drop_succ_cons, List.drop_zero]
    · exact ⟨0, by omega, stateAfter_inspect _ memory⟩
  · exact ⟨0, by omega, rfl⟩

theorem popped_operandValues (named : Bool) (operands : List Operand) (memory : Memory) :
    ∃ count ≤ operands.length,
      stateAfter (Machine.operandValues named operands) memory = memory.popped count := by
  induction operands generalizing named memory with
  | nil => exact ⟨0, by omega, rfl⟩
  | cons operand operands ih =>
      rcases popped_operandValue named operand memory with ⟨first, one, begun⟩
      unfold Machine.operandValues
      cases run : Machine.operandValue named operand memory with
      | error fault later =>
          rw [stateAfter_of_error run] at begun
          refine ⟨first, by simp only [List.length_cons]; omega, ?_⟩
          rw [stateAfter, bind_of_error run, begun]
      | ok value later =>
          rw [stateAfter_of_ok run] at begun
          rcases ih false later with ⟨rest, few, ended⟩
          refine ⟨first + rest, by simp only [List.length_cons]; omega, ?_⟩
          rw [stateAfter, bind_of_ok run, ← popped_popped, ← begun, ← ended]
          exact stateAfter_bind_pure _ _ _

theorem restoreSnapshot_of_size {snapshot : Snapshot} {memory : Memory}
    (fits : snapshot.dynamic.size = memory.header.staticBase) :
    restoreSnapshot snapshot memory = .ok ()
      { memory with
        bytes := memory.bytes.withStart snapshot.dynamic
        pc := snapshot.pc
        frame := snapshot.frame
        frames := snapshot.frames } := by
  rw [restoreSnapshot, if_neg (by simpa using fits)]

theorem size_snapshot {memory : Memory} (mapped : memory.Mapped) :
    memory.snapshot.dynamic.size = memory.header.staticBase := by
  have static := mapped.static
  simp only [snapshot, Array.size_extract]
  omega

/-- Whatever has happened to dynamic memory, putting it back as it was gives the bytes from then. -/
theorem withStart_of_protects {memory later : Memory} (mapped : memory.Mapped)
    (protects : memory.Protects later) :
    later.bytes.withStart (memory.bytes.extract 0 memory.header.staticBase) = memory.bytes := by
  have size : (memory.bytes.extract 0 memory.header.staticBase).size = memory.header.staticBase :=
    size_snapshot mapped
  have inside : (memory.bytes.extract 0 memory.header.staticBase).size ≤ later.bytes.size := by
    rw [size, protects.size]
    exact mapped.static
  apply Image.eq_of_byteAt
  · rw [Image.size_withStart inside, protects.size]
  · intro address
    by_cases dynamic : address < memory.header.staticBase
    · rw [Image.byteAt_withStart_of_lt (by omega), Image.byteAt_extract_of_lt dynamic]
    · rw [Image.byteAt_withStart_of_le inside (by omega), protects.fixed address (by omega)]

/-- Going back to a state of play gives the memory that it was taken from, whatever has happened to
dynamic memory and to the frames. -/
theorem restoreSnapshot_snapshot {memory later : Memory} (mapped : memory.Mapped)
    (protects : memory.Protects later) :
    restoreSnapshot memory.snapshot later = .ok () memory := by
  have fits : memory.snapshot.dynamic.size = later.header.staticBase := by
    rw [protects.header]
    exact size_snapshot mapped
  rw [restoreSnapshot_of_size fits]
  simp only [snapshot, withStart_of_protects mapped protects, protects.header, protects.pristine]

end Memory

namespace Machine

variable {η : Type}

/-- The decoder of a machine is made for its story, whose memory map makes sense. -/
structure Consistent (machine : Machine η) : Prop where
  mapped : machine.memory.Mapped
  version : machine.decoder.version = machine.version

namespace Performs

variable {machine ready : Machine η} {instruction : Instruction} {opcode : Opcode}
  {values : List UInt16}

theorem archive (performs : machine.Performs instruction opcode values ready) :
    ready.archive = machine.archive := by
  rcases performs with ⟨_, decoder, memory, _, _, rfl⟩
  rfl

theorem decoder (performs : machine.Performs instruction opcode values ready) :
    ready.decoder.version = machine.decoder.version := by
  rcases performs with ⟨_, decoder, memory, decoded, _, rfl⟩
  exact Decoder.version_of_decode decoded

/-- Apart from values that are taken off the evaluation stack, the machine is just past the
instruction. -/
theorem memory (performs : machine.Performs instruction opcode values ready) :
    ∃ count ≤ instruction.operands.length,
      ready.memory = (machine.memory.withPc (machine.memory.pc + instruction.size)).popped count := by
  rcases performs with ⟨_, decoder, memory, _, fetched, rfl⟩
  rcases Memory.popped_operandValues opcode.takesVariable instruction.operands
    (machine.advance instruction decoder).memory with ⟨count, few, popped⟩
  rw [stateAfter_of_ok fetched] at popped
  exact ⟨count, few, popped⟩

end Performs

section Steps

variable [Host η] {machine : Machine η}

omit [Host η] in
theorem archiveAfter_of_ordinary {opcode : Opcode} (ordinary : opcode.managesPlay = false)
    (machine : Machine η) (instruction : Instruction) :
    machine.archiveAfter instruction opcode = machine.archive := by
  unfold archiveAfter
  split
  · simp [Opcode.managesPlay] at ordinary
  · simp [Opcode.managesPlay] at ordinary
  · simp [Opcode.managesPlay] at ordinary
  · rfl

/-- What a step does to the archive and to the decoder. -/
theorem Performs.views {ready : Machine η} {instruction : Instruction} {opcode : Opcode}
    {values : List UInt16} (performs : machine.Performs instruction opcode values ready) :
    machine.next.archive = ready.archiveAfter instruction opcode ∧
      machine.next.decoder.version = machine.decoder.version := by
  rw [← performs.decoder]
  rcases performs.leads with ⟨_, managed⟩ | ⟨ordinary, proceeds⟩
  · generalize machine.next = after at managed ⊢
    cases managed with
    | continues continues =>
        exact ⟨continues.alike.archive, congrArg Decoder.version continues.alike.decoder⟩
    | resumes _ _ _ sameVersion _ continues _ =>
        refine ⟨continues.alike.archive, ?_⟩
        rw [continues.alike.decoder]
        exact sameVersion
    | restarts restarting _ _ =>
        subst restarting
        exact ⟨rfl, rfl⟩
  · rw [archiveAfter_of_ordinary ordinary]
    exact ⟨proceeds.alike.archive, congrArg Decoder.version proceeds.alike.decoder⟩

theorem views_next (machine : Machine η) :
    machine.next.decoder.version = machine.decoder.version ∧
      (machine.next.archive = machine.archive ∨
        ∃ instruction opcode values ready, machine.Performs instruction opcode values ready ∧
          machine.next.archive = ready.archiveAfter instruction opcode) := by
  cases machine.steps with
  | undecoded same _ =>
      rw [same]
      exact ⟨rfl, Or.inl rfl⟩
  | unfetched decoded quiet _ =>
      refine ⟨?_, Or.inl quiet.alike.archive⟩
      rw [quiet.alike.decoder]
      exact Decoder.version_of_decode decoded
  | @performed instruction opcode values ready performs =>
      exact ⟨performs.views.2, Or.inr ⟨instruction, opcode, values, ready, performs,
        performs.views.1⟩⟩

theorem consistent_next (consistent : machine.Consistent) : machine.next.Consistent := by
  have protects := protects_next consistent.mapped
  refine ⟨protects.mapped consistent.mapped, ?_⟩
  rw [(views_next machine).1, consistent.version]
  exact congrArg Header.version protects.header.symm

omit [Host η] in
theorem consistent_of_start {settings : Settings} {image : Image} {host : η} {archive : Archive}
    (started : start settings image host archive = .ok machine) : machine.Consistent := by
  have starts := starts_of_start started
  exact ⟨Memory.mapped_of_load starts.memory, congrArg Decoder.version starts.decoder⟩

/-- Over any run, the story and the version stay what they are. -/
theorem kept_of_run {allowed : Machine η → Prop} {last : Machine η}
    (mapped : machine.memory.Mapped) (run : Run allowed machine last) :
    machine.memory.Protects last.memory ∧ last.decoder.version = machine.decoder.version := by
  refine run.keeps (fun middle => machine.memory.Protects middle.memory ∧
    middle.decoder.version = machine.decoder.version) ⟨.refl _, rfl⟩ ?_
  rintro middle _ ⟨protects, version⟩
  refine ⟨protects.trans (protects_next (protects.mapped mapped)), ?_⟩
  rw [(views_next middle).1, version]

end Steps

theorem memory_returnValue {first second : Machine η} (same : first.memory = second.memory)
    (value : UInt16) :
    (stateAfter (returnValue value) first).memory = (stateAfter (returnValue value) second).memory
    := by
  unfold stateAfter
  rw [returnValue_apply, returnValue_apply, same]
  cases second.memory.frames with
  | nil => exact same
  | cons caller frames =>
      dsimp only
      cases Memory.storeIn second.memory.frame.returnStore value
          (second.memory.backIn caller frames) with
      | ok _ memory => rfl
      | error fault memory => rfl

theorem memory_branchIf {first second : Machine η} (same : first.memory = second.memory)
    (instruction : Instruction) (condition : Bool) :
    (stateAfter (branchIf instruction condition) first).memory =
      (stateAfter (branchIf instruction condition) second).memory := by
  unfold branchIf
  cases instruction.branch with
  | none => exact same
  | some branch =>
      dsimp only
      split
      · exact same
      · cases branch.target with
        | returnFalse => exact memory_returnValue same 0
        | returnTrue => exact memory_returnValue same 1
        | address address => exact congrArg (fun memory : Memory => memory.withPc address) same

theorem memory_conclude (instruction : Instruction) (value : UInt16) (machine : Machine η) :
    (stateAfter (conclude instruction value) machine).memory =
      stateAfter (Memory.storeIn instruction.store value) machine.memory := by
  unfold conclude storeResult
  rw [stateAfter_bind_pure]
  cases instruction.store with
  | none => rfl
  | some name => rw [stateAfter_onMemory]; rfl

/-- Where the byte before the program counter names a variable, that variable takes the result. -/
theorem memory_storeRestored {machine : Machine η} {name : UInt8}
    (named : machine.memory.fetchByte (machine.memory.pc - 1) = .ok name) :
    (stateAfter storeRestored machine).memory =
      stateAfter (Memory.writeVariable name restoredResult) machine.memory := by
  have fetched : inspect (fun other : Machine η => other.memory.fetchByte (machine.memory.pc - 1))
      machine = .ok name machine := inspect_of_ok named
  unfold stateAfter storeRestored
  rw [bind_view, bind_of_ok fetched]
  exact congrArg Machine.memory (stateAfter_onMemory _ machine)

theorem report_early {machine : Machine η} (early : machine.version ≤ 3) (instruction : Instruction)
    (success : Bool) :
    stateAfter (report instruction success) machine =
      stateAfter (branchIf instruction success) machine := by
  unfold stateAfter report
  rw [if_pos early]

theorem report_late {machine : Machine η} (late : 4 ≤ machine.version) (instruction : Instruction)
    (success : Bool) :
    stateAfter (report instruction success) machine =
      stateAfter (conclude instruction (successWord success)) machine := by
  unfold stateAfter report
  rw [if_neg (by omega)]

theorem memory_report {first second : Machine η} (same : first.memory = second.memory)
    (instruction : Instruction) (success : Bool) :
    (stateAfter (report instruction success) first).memory =
      (stateAfter (report instruction success) second).memory := by
  have version : first.version = second.version := congrArg Memory.version same
  by_cases early : first.version ≤ 3
  · rw [report_early early, report_early (by omega)]
    exact memory_branchIf same instruction success
  · rw [report_late (by omega), report_late (by omega), memory_conclude, memory_conclude, same]

/-- Resuming early takes the branch of the saving instruction, from just after it. -/
theorem memory_resume_early {machine other : Machine η} {saving : Instruction} {decoder : Decoder}
    (early : machine.version ≤ 3) (decoded : machine.nextInstruction = .ok (saving, decoder))
    (past : other.memory = machine.memory.withPc (machine.memory.pc + saving.size)) :
    (stateAfter resume machine).memory = (stateAfter (branchIf saving true) other).memory := by
  have resumed : stateAfter resume machine = stateAfter (do
      branchRestored
      return .branched : MachineM η Outcome) machine := by
    unfold stateAfter resume
    rw [if_pos early]
  rw [resumed, stateAfter_bind_pure, stateAfter, branchRestored_apply, decoded]
  dsimp only
  rw [← stateAfter, stateAfter_bind_pure]
  exact memory_branchIf past.symm saving true

theorem memory_resume_late {machine : Machine η} {name : UInt8} (late : 4 ≤ machine.version)
    (named : machine.memory.fetchByte (machine.memory.pc - 1) = .ok name) :
    (stateAfter resume machine).memory =
      stateAfter (Memory.writeVariable name restoredResult) machine.memory := by
  have resumed : stateAfter resume machine = stateAfter (do
      storeRestored
      return .branched : MachineM η Outcome) machine := by
    unfold stateAfter resume
    rw [if_neg (by omega)]
  rw [resumed, stateAfter_bind_pure, memory_storeRestored named]

section Saving

variable {machine seen : Machine η} {saving : Instruction} {opcode : Opcode} {values : List UInt16}

/-- From version 4 on, the variable for the result of a saving instruction is found just before the
program counter once the operands are fetched. -/
theorem store_of_saving (consistent : machine.Consistent)
    (performs : machine.Performs saving opcode values seen) (saves : opcode.savesPlay = true)
    (late : 4 ≤ machine.version) :
    ∃ name, saving.store = some name ∧
      seen.memory.fetchByte (seen.memory.pc - 1) = .ok name := by
  rcases performs.memory with ⟨count, _, memory⟩
  rcases performs.prepared with ⟨decoder, _, decoded, _⟩
  rcases Decoder.entry_of_opcode performs.named with ⟨entry, listed, rfl⟩
  rcases Decoder.row_of_decode decoded listed with ⟨row, _, legal⟩
  rcases Decoder.bounds_of_decode decoded with ⟨_, positive, inside⟩
  rcases Opcode.catalog_savesPlay entry row saves with ⟨textless, early | ⟨_, stores, branchless⟩⟩
  · rw [consistent.version] at legal
    omega
  · refine ⟨_, Decoder.store_of_decode decoded listed stores branchless textless, ?_⟩
    rw [memory]
    apply Memory.fetchByte_eq_ok.mpr
    simp only [Memory.popped, Memory.withPc]
    exact ⟨by omega, trivial⟩

theorem late_of_undo (consistent : machine.Consistent)
    (performs : machine.Performs saving opcode values seen)
    (undo : opcode = .saveUndo ∨ opcode = .restoreUndo) : 4 ≤ machine.version := by
  rcases performs.prepared with ⟨decoder, _, decoded, _⟩
  rcases Decoder.entry_of_opcode performs.named with ⟨entry, listed, rfl⟩
  rcases Decoder.row_of_decode decoded listed with ⟨row, legal, _⟩
  have first := Opcode.catalog_undo entry row undo
  rw [consistent.version] at legal
  omega

/-- A saving instruction is decoded anew wherever the bytes and the version are the same. -/
theorem nextInstruction_of_saving {later : Machine η}
    (performs : machine.Performs saving opcode values seen) (saves : opcode.savesPlay = true)
    (bytes : later.memory.bytes = machine.memory.bytes)
    (pc : later.memory.pc = machine.memory.pc)
    (version : later.decoder.version = machine.decoder.version) :
    later.nextInstruction = .ok (saving, later.decoder) := by
  rcases performs.prepared with ⟨decoder, _, decoded, _⟩
  rcases Decoder.entry_of_opcode performs.named with ⟨entry, listed, rfl⟩
  rcases Decoder.row_of_decode decoded listed with ⟨row, _, _⟩
  rcases Opcode.catalog_savesPlay entry row saves with ⟨textless, _⟩
  rw [nextInstruction, pc]
  exact Decoder.decode_of_sameBytes decoded listed textless bytes version

/-- The game goes on in the memory that the saving instruction saw, just after that instruction, whose
result is 2 instead of 1. -/
def GoesOnAfter [Host η] (machine last seen : Machine η) (saving : Instruction) : Prop :=
  ∃ name, saving.store = some name ∧
    seen.memory.pc = machine.memory.pc + saving.size ∧
    machine.next.memory = stateAfter (Memory.writeVariable name 1) seen.memory ∧
    last.next.memory = stateAfter (Memory.writeVariable name 2) seen.memory

/-- What is saved belongs to the same story as the memory that the instruction found. -/
theorem protects_stateToSave (performs : machine.Performs saving opcode values seen) :
    (seen.stateToSave saving).Protects machine.memory ∧
      seen.memory.Protects machine.memory ∧
      (seen.stateToSave saving).bytes = machine.memory.bytes := by
  rcases performs.memory with ⟨count, _, memory⟩
  have seenProtects : seen.memory.Protects machine.memory := by
    rw [memory]
    exact ⟨rfl, rfl, rfl, fun _ _ => rfl⟩
  unfold stateToSave
  split
  · rw [memory]
    exact ⟨⟨rfl, rfl, rfl, fun _ _ => rfl⟩, ⟨rfl, rfl, rfl, fun _ _ => rfl⟩, rfl⟩
  · exact ⟨seenProtects, seenProtects, by rw [memory]; rfl⟩

/-- An archive that works takes the state of play. -/
theorem save_of_kept {saved : Option Snapshot} {history : List Snapshot} {depth : Nat}
    (performs : machine.Performs saving opcode values seen)
    (kept : machine.archive = .snapshots saved history depth) :
    seen.archive.save (seen.stateToSave saving) =
      .ok (true, .snapshots (some (seen.stateToSave saving).snapshot) history depth) := by
  rw [performs.archive, kept]
  rfl

end Saving

end Machine

end ZMachine
