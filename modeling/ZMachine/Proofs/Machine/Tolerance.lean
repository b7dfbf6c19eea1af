import ZMachine.Proofs.Machine.Run
import ZMachine.Proofs.Memory.Protection
import ZMachine.Proofs.Memory.Region

/-!
# Tolerated faults

A machine can be told to go on after an access violation. The fault then ends the instruction where
it occurred, and what the instruction had still to do is left undone. So a load from a place that may
not be read stores no result: it does not count as having read a zero, unless the variable for the
result holds a zero already.
-/

namespace ZMachine

/-- Loads store a result, and nothing follows it. -/
theorem Opcode.catalog_loads : ∀ row ∈ catalog, row.opcode = .loadw ∨ row.opcode = .loadb →
    row.stores = true ∧ row.branches = false ∧ row.carriesText = false := by
  decide +kernel

theorem Frame.setLocal_eq_self {frame : Frame} {number : Nat} {value : UInt16}
    (positive : 0 < number) (few : number ≤ 15) :
    frame.setLocal number value = frame ↔ frame.getLocal number = value := by
  have inside : number - 1 < 15 := by omega
  constructor
  · intro same
    rw [← same]
    simp [getLocal, setLocal, inside]
  · rintro rfl
    have kept : frame.locals.setIfInBounds (number - 1) (frame.getLocal number) =
        frame.locals := by
      apply Vector.ext
      intro index _
      simp only [getLocal, Vector.getElem_setIfInBounds]
      split
      · rename_i here
        simp [← here, inside]
      · rfl
    rw [setLocal, kept]

namespace Memory

variable {memory after : Memory} {name : UInt8} {value : UInt16}

theorem push_ne (pushed : push value memory = .ok () after) : after ≠ memory := by
  rintro rfl
  unfold push at pushed
  split at pushed
  · cases pushed
  · simp only [EStateM.Result.ok.injEq, true_and] at pushed
    have longer := congrArg (·.frame.stack.length) pushed
    simp at longer

/-- Writing a variable makes no difference only if it is not the stack and has the value already. -/
theorem writeVariable_eq_self (mapped : memory.Mapped)
    (high : memory.header.staticBase ≤ memory.header.highBase)
    (written : writeVariable name value memory = .ok () after) :
    after = memory ↔ name ≠ 0 ∧ memory.readCell name = .ok value := by
  unfold writeVariable at written
  split at written
  · rename_i isStack
    exact iff_of_false (push_ne written) fun both => both.1 isStack
  rename_i isCell
  have positive : 0 < name.toNat := Nat.pos_of_ne_zero fun zero => isCell (UInt8.toNat_inj.mp zero)
  simp only [ne_eq, isCell, not_false_eq_true, true_and]
  unfold writeCell at written
  unfold readCell
  split at written
  · rename_i isLocal
    have few : name.toNat < 16 := isLocal
    split at written
    · cases written
    · rename_i present
      cases written
      rw [if_pos isLocal, if_neg present, Except.ok.injEq,
        ← Frame.setLocal_eq_self positive (by omega)]
      constructor
      · intro same
        exact congrArg Memory.frame same
      · intro same
        rw [same]
  · rename_i isGlobal
    rcases writeWord_eq_ok.mp written with ⟨dynamic, rfl⟩
    have inside := mapped.static
    rw [if_neg isGlobal, readWord_eq_ok]
    constructor
    · intro same
      refine ⟨by omega, by omega, ?_⟩
      rw [← congrArg Memory.bytes same, Image.wordAt_setWord (by omega)]
    · rintro ⟨_, _, holds⟩
      rw [Image.setWord_of_same holds]

end Memory

namespace Machine

variable {η : Type}

/-- What a load reads: a word or a byte, at an address that is computed modulo 65536. -/
def loaded (memory : Memory) (opcode : Opcode) (start index : UInt16) : Except Fault UInt16 :=
  if opcode = .loadw then memory.readWord (start + index * 2).toNat
  else (memory.readByte (start + index).toNat).map UInt8.toUInt16

variable {machine ready : Machine η} {instruction : Instruction} {opcode : Opcode}
  {start index : UInt16} {rest : List UInt16} {fault : Fault}

theorem isRecoverable_of_loaded {memory : Memory}
    (refused : loaded memory opcode start index = .error fault) : fault.isRecoverable = true := by
  unfold loaded at refused
  split at refused
  · unfold Memory.readWord at refused
    split at refused
    · cases refused
      rfl
    · cases refused
  · unfold Memory.readByte at refused
    split at refused
    · cases refused
      rfl
    · cases refused

theorem perform_loadw [Host η] :
    perform instruction .loadw (start :: index :: rest) ready =
      (inspect (·.memory.readWord (start + index * 2).toNat) >>= conclude instruction) ready :=
  rfl

theorem perform_loadb [Host η] :
    perform instruction .loadb (start :: index :: rest) ready =
      (inspect (·.memory.readByte (start + index).toNat) >>=
        fun byte => conclude instruction byte.toUInt16) ready :=
  rfl

/-- A load does nothing before it reads. -/
theorem perform_of_refused [Host η] (loads : opcode = .loadw ∨ opcode = .loadb)
    (refused : loaded ready.memory opcode start index = .error fault) :
    perform instruction opcode (start :: index :: rest) ready = .error fault ready := by
  rcases loads with rfl | rfl
  · rw [perform_loadw]
    exact bind_of_error (inspect_of_error refused)
  · rw [loaded, if_neg (by decide)] at refused
    rw [perform_loadb]
    cases read : ready.memory.readByte (start + index).toNat with
    | ok byte =>
        rw [read] at refused
        cases refused
    | error reason =>
        rw [read] at refused
        cases refused
        exact bind_of_error (inspect_of_error read)

theorem step_of_refused [Host η]
    (tolerant : machine.settings.tolerateAccessViolations = true)
    (performs : machine.Performs instruction opcode (start :: index :: rest) ready)
    (loads : opcode = .loadw ∨ opcode = .loadb)
    (refused : loaded ready.memory opcode start index = .error fault) :
    step machine = .ok .advanced ready := by
  have settings : ready.settings = machine.settings := by
    rcases performs.prepared with ⟨_, _, _, _, rfl⟩
    rfl
  rw [performs.step, tolerating, perform_of_refused loads refused]
  simp only [isRecoverable_of_loaded refused, settings, tolerant, Bool.and_self, if_true]

/-- A decoded load names a variable for its result. -/
theorem store_of_loads (performs : machine.Performs instruction opcode (start :: index :: rest) ready)
    (loads : opcode = .loadw ∨ opcode = .loadb) : ∃ name, instruction.store = some name := by
  rcases performs with ⟨named, decoder, _, decoded, _, _⟩
  rcases Decoder.entry_of_opcode named with ⟨entry, listed, rfl⟩
  rcases Opcode.catalog_loads entry (Decoder.row_of_decode decoded listed).1 loads with
    ⟨stores, branchless, textless⟩
  exact ⟨_, Decoder.store_of_decode decoded listed stores branchless textless⟩

/-- A tolerated load from a place that may not be read leaves everything as it was when its operands
were fetched. Storing a zero as the result would have come to the same only if the variable for the
result is not the stack and holds a zero. -/
theorem refused_load_stores_nothing [Host η] (mapped : machine.memory.Mapped)
    (high : machine.memory.header.staticBase ≤ machine.memory.header.highBase)
    (tolerant : machine.settings.tolerateAccessViolations = true)
    (performs : machine.Performs instruction opcode (start :: index :: rest) ready)
    (loads : opcode = .loadw ∨ opcode = .loadb)
    (refused : loaded ready.memory opcode start index = .error fault) :
    step machine = .ok .advanced ready ∧
    ∃ name, instruction.store = some name ∧
      ∀ promised, conclude instruction 0 ready = .ok .advanced promised →
        (step machine = .ok .advanced promised ↔
          name ≠ 0 ∧ ready.memory.readCell name = .ok 0) := by
  have stepped := step_of_refused tolerant performs loads refused
  rcases store_of_loads performs loads with ⟨name, named⟩
  refine ⟨stepped, name, named, fun promised concluded => ?_⟩
  have protects : machine.memory.Protects ready.memory := by
    rcases performs.prepared with ⟨decoder, memory, _, fetched, rfl⟩
    have advanced : machine.memory.Protects (machine.advance instruction decoder).memory :=
      ⟨rfl, rfl, rfl, fun _ _ => rfl⟩
    exact advanced.trans (.of_touches ((touches_operandValues _ _).of_ok fetched))
  have high : ready.memory.header.staticBase ≤ ready.memory.header.highBase := by
    rwa [protects.header]
  rcases conclude_eq_ok.mp concluded with ⟨_, memory, written, rfl⟩
  rw [named] at written
  rw [← Memory.writeVariable_eq_self (protects.mapped mapped) high written, stepped]
  constructor
  · intro same
    simp only [EStateM.Result.ok.injEq, true_and] at same
    exact congrArg Machine.memory same.symm
  · intro same
    rw [same]

/-- A small story that goes on after access violations, with a 7 in the second of its global
variables. -/
def tolerantSample (code : List UInt8) : Machine Recorded :=
  let machine := sample 3 code .absent
  { machine with
    memory := { machine.memory with bytes := machine.memory.bytes.setWord 66 7 }
    settings := { tolerateAccessViolations := true } }

theorem performs_loadb (machine : Machine η) (start index : UInt16) (name : UInt8)
    (found : machine.prepared?.map (fun found =>
      (found.2.1, found.2.2.1, found.1.store, found.2.2.2.memory)) =
        some (.loadb, [start, index], some name, machine.memory.withPc 87)) :
    ∃ instruction ready, machine.Performs instruction .loadb [start, index] ready ∧
      instruction.store = some name ∧ ready.memory = machine.memory.withPc 87 := by
  rcases Option.map_eq_some_iff.mp found with ⟨⟨instruction, opcode, values, ready⟩, prepared, same⟩
  simp only [Prod.mk.injEq] at same
  rcases same with ⟨rfl, rfl, named, memory⟩
  exact ⟨instruction, ready, performs_iff.mpr prepared, named, memory⟩

/-- A byte of high memory is to be loaded into the second global variable, which keeps its value. -/
theorem refused_load_stores_nothing_kept :
    let machine := tolerantSample [0xD0, 0x0F, 0, 255, 0, 0, 17]
    ∃ instruction ready, machine.Performs instruction .loadb [255, 0] ready ∧
      instruction.store = some 17 ∧
      loaded ready.memory .loadb 255 0 = .error (.accessViolation 255 false) ∧
      step machine = .ok .advanced ready ∧ ready.memory.readCell 17 = .ok 7 ∧
      ∃ promised, conclude instruction 0 ready = .ok .advanced promised ∧
        step machine ≠ .ok .advanced promised := by
  intro machine
  have mapped : machine.memory.Mapped := ⟨by decide +kernel, by decide +kernel, by decide +kernel⟩
  rcases performs_loadb machine 255 0 17 (by decide +kernel) with
    ⟨instruction, ready, performs, named, same⟩
  have refused : loaded ready.memory .loadb 255 0 = .error (.accessViolation 255 false) := by
    rw [same]
    rfl
  have holds : ready.memory.readCell 17 = .ok 7 := by
    rw [same]
    exact eq_ok_of_toOption (by decide +kernel)
  have written : valueOf (Memory.storeIn instruction.store 0) ready.memory = some () := by
    rw [named, same]
    decide +kernel
  have concluded := conclude_eq_ok.mpr ⟨rfl, _, eq_ok_of_valueOf written, rfl⟩
  rcases refused_load_stores_nothing mapped (by decide +kernel) rfl performs (Or.inr rfl) refused
    with ⟨stepped, name, stores, exactly⟩
  rw [named, Option.some.injEq] at stores
  subst stores
  refine ⟨instruction, ready, performs, named, refused, stepped, holds, _, concluded, ?_⟩
  rw [Ne, exactly _ concluded, holds]
  decide

/-- A load into the stack is to push a result, but where the byte may not be read, the stack stays
one value short. -/
theorem refused_load_pushes_nothing :
    let machine := tolerantSample [0xD0, 0x0F, 0, 255, 0, 0, 0]
    ∃ instruction ready, machine.Performs instruction .loadb [255, 0] ready ∧
      instruction.store = some 0 ∧
      loaded ready.memory .loadb 255 0 = .error (.accessViolation 255 false) ∧
      (∃ promised, conclude instruction 0 ready = .ok .advanced promised ∧
        promised.memory.frame.stack = [0]) ∧
      step machine = .ok .advanced ready ∧ ready.memory.frame.stack = [] := by
  intro machine
  rcases performs_loadb machine 255 0 0 (by decide +kernel) with
    ⟨instruction, ready, performs, named, same⟩
  have refused : loaded ready.memory .loadb 255 0 = .error (.accessViolation 255 false) := by
    rw [same]
    rfl
  have empty : ready.memory.frame.stack = [] := by rw [same]; rfl
  have pushed : Memory.storeIn instruction.store 0 ready.memory =
      .ok () { ready.memory with frame := { ready.memory.frame with stack := [0] } } := by
    rw [named, Memory.storeIn, Memory.writeVariable, if_pos rfl, Memory.push, empty,
      if_neg (by decide)]
  refine ⟨instruction, ready, performs, named, refused, ?_, ?_, empty⟩
  · exact ⟨_, conclude_eq_ok.mpr ⟨rfl, _, pushed, rfl⟩, rfl⟩
  · exact step_of_refused rfl performs (Or.inr rfl) refused

end Machine

end ZMachine
