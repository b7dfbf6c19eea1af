import ZMachine.Proofs.Archive
import ZMachine.Proofs.Machine.Course

/-!
# Managing the state of play

Saving, restoring, undoing and restarting, each as one equation. `Machine.Manages` says what they
have in common: the archive gains at most the state of play, and the instruction then continues as
any other does, unless the state of play is replaced by one from the archive or by the loaded story.
-/

namespace ZMachine

namespace Machine

variable {η : Type}

/-- The memory that saving puts aside. Up to version 3 its program counter is that of the saving
instruction. -/
def stateToSave (machine : Machine η) (instruction : Instruction) : Memory :=
  if machine.version ≤ 3 then { machine.memory with pc := instruction.address } else machine.memory

/-- Reports a success to the story. -/
def report (instruction : Instruction) (success : Bool) : MachineM η Outcome := fun machine =>
  if machine.version ≤ 3 then branchIf instruction success machine
  else conclude instruction (successWord success) machine

/-- Goes on in a restored game. -/
def resume : MachineM η Outcome := fun machine =>
  if machine.version ≤ 3 then
    (do
      branchRestored
      return .branched : MachineM η Outcome) machine
  else
    (do
      storeRestored
      return .branched : MachineM η Outcome) machine

theorem save_apply (instruction : Instruction) (machine : Machine η) :
    save instruction machine =
      match machine.archive.save (machine.stateToSave instruction) with
      | .error fault => .error fault machine
      | .ok (success, archive) => report instruction success { machine with archive } := by
  unfold save
  rw [bind_get]
  cases saved : machine.archive.save (machine.stateToSave instruction) with
  | error fault => exact bind_of_error (inspect_of_error saved)
  | ok result =>
      rw [bind_of_ok (inspect_of_ok saved)]
      rcases result with ⟨success, archive⟩
      dsimp only
      rw [bind_set]
      by_cases early : machine.version ≤ 3
      · rw [if_pos early]
        exact (if_pos early).symm
      · rw [if_neg early]
        exact (if_neg early).symm

theorem saveUndo_apply (instruction : Instruction) (machine : Machine η) :
    saveUndo instruction machine =
      conclude instruction (successWord (machine.archive.saveUndo machine.memory).1)
        { machine with archive := (machine.archive.saveUndo machine.memory).2 } :=
  rfl

theorem restore_apply (instruction : Instruction) (machine : Machine η) :
    restore instruction machine =
      match machine.archive.restore machine.memory with
      | .error fault memory => .error fault { machine with memory }
      | .ok true memory => resume { machine with memory }
      | .ok false memory => report instruction false { machine with memory } := by
  unfold restore
  rw [bind_view]
  cases restored : machine.archive.restore machine.memory with
  | error fault memory => exact bind_of_error (onMemory_of_error restored)
  | ok success memory =>
      rw [bind_of_ok (onMemory_of_ok restored), bind_view]
      cases success with
      | true =>
          simp only [resume, if_true]
          split
          · rfl
          · rfl
      | false =>
          simp only [report, Bool.false_eq_true, if_false]
          split
          · rfl
          · rfl

theorem restoreUndo_apply (instruction : Instruction) (machine : Machine η) :
    restoreUndo instruction machine =
      match Archive.restoreUndo (machine.archive, machine.memory) with
      | .error fault (archive, memory) => .error fault { machine with archive, memory }
      | .ok true (archive, memory) =>
        (do
          storeRestored
          return .branched : MachineM η Outcome) { machine with archive, memory }
      | .ok false (archive, memory) => conclude instruction 0 { machine with archive, memory } := by
  unfold restoreUndo onArchive
  cases undone : Archive.restoreUndo (machine.archive, machine.memory) with
  | error fault state => simp only [bind, EStateM.bind, undone]
  | ok success state =>
      cases success with
      | true => simp only [bind, EStateM.bind, undone, if_true]
      | false => simp only [bind, EStateM.bind, undone, Bool.false_eq_true, if_false]

/-- The operation replaces the state of play if it is carried out now. -/
def Replaces (machine : Machine η) : Opcode → Prop
  | .restart => True
  | .restore => ∃ memory, machine.archive.restore machine.memory = .ok true memory
  | .restoreUndo => ∃ state, Archive.restoreUndo (machine.archive, machine.memory) = .ok true state
  | _ => False

/-- The archive after an operation. -/
def archiveAfter (machine : Machine η) (instruction : Instruction) : Opcode → Archive
  | .save =>
    match machine.archive.save (machine.stateToSave instruction) with
    | .error _ => machine.archive
    | .ok (_, archive) => archive
  | .saveUndo => (machine.archive.saveUndo machine.memory).2
  | .restoreUndo => machine.archive.takeUndo.2
  | _ => machine.archive

/-- What the operations on the state of play do. -/
inductive Manages (instruction : Instruction) (opcode : Opcode) (before : Machine η) :
    Option Outcome → Machine η → Prop where
  /-- The instruction goes on in the present state of play. -/
  | continues {result : Option Outcome} {after : Machine η}
      (continues : { before with archive := before.archiveAfter instruction opcode }.Continues result
        after) :
      Manages instruction opcode before result after
  /-- A state of play from the archive replaces the present one, and the instruction that saved it
  goes on. -/
  | resumes {snapshot : Snapshot} {memory : Memory} {decoder : Decoder} {pc : Nat}
      {result reported : Option Outcome} {after : Machine η}
      (replaces : before.Replaces opcode)
      (held : before.archive.Holds snapshot)
      (restored : Memory.restoreSnapshot snapshot before.memory = .ok () memory)
      (sameVersion : decoder.version = before.decoder.version)
      (near : pc = memory.pc ∨ pc ≤ memory.bytes.size)
      (continues :
        { before with
          memory := { memory with pc }
          decoder
          archive := before.archiveAfter instruction opcode }.Continues result after)
      (reports : reported = none ∨ reported = some .branched) :
      Manages instruction opcode before reported after
  /-- The loaded story replaces the state of play. The dictionary is read anew if it can be. -/
  | restarts {dictionary : Option Dictionary} {result : Option Outcome}
      (restarting : opcode = .restart)
      (fresh : dictionary = before.dictionary ∨
        Dictionary.ofMemory? before.memory.restart = .ok dictionary)
      (reports : result = none ∨ result = some .restarted) :
      Manages instruction opcode before result
        { before with
          memory := before.memory.restart
          decoder := before.decoder.reset
          dictionary
          streams := { before.streams with tables := [] } }

/-- The archive gains at most the state of play. -/
theorem holds_archiveAfter {machine : Machine η} {instruction : Instruction} {opcode : Opcode}
    {snapshot : Snapshot} (held : (machine.archiveAfter instruction opcode).Holds snapshot) :
    machine.archive.Holds snapshot ∨ snapshot = machine.memory.snapshot ∨
      machine.version ≤ 3 ∧ snapshot = (machine.stateToSave instruction).snapshot := by
  unfold archiveAfter at held
  split at held
  · split at held
    · exact Or.inl held
    · rename_i saved
      rcases Archive.holds_save saved held with older | newest
      · exact Or.inl older
      · by_cases early : machine.version ≤ 3
        · exact Or.inr (Or.inr ⟨early, newest⟩)
        · rw [stateToSave, if_neg early] at newest
          exact Or.inr (Or.inl newest)
  · rcases Archive.holds_saveUndo held with older | newest
    · exact Or.inl older
    · exact Or.inr (Or.inl newest)
  · exact Or.inl (Archive.holds_takeUndo held)
  · exact Or.inl held

theorem continues_report {instruction : Instruction} (fits : instruction.Fits) (success : Bool) :
    Leads Continues (report instruction success : MachineM η Outcome) := by
  intro machine
  unfold valueOf stateAfter report
  by_cases early : machine.version ≤ 3
  · rw [if_pos early]
    exact continues_branchIf fits success machine
  · rw [if_neg early]
    exact continues_conclude instruction _ machine

theorem restart_apply (machine : Machine η) :
    restart machine =
      let restarted :=
        { machine with
          memory := machine.memory.restart
          decoder := machine.decoder.reset
          streams := { machine.streams with tables := [] } }
      match Dictionary.ofMemory? machine.memory.restart with
      | .error fault => .error fault restarted
      | .ok dictionary => .ok .restarted { restarted with dictionary } := by
  unfold restart
  rw [bind_modify]
  cases read : Dictionary.ofMemory? machine.memory.restart with
  | error fault => exact bind_of_error (inspect_of_error read)
  | ok dictionary => exact bind_of_ok (inspect_of_ok read)

theorem quiet_storeRestored : Keeps Quiet (storeRestored : MachineM η Unit) := by
  refine (calm_inspect _).quiet.bind fun pc => (calm_inspect _).quiet.bind fun name => ?_
  exact quiet_onMemory (Memory.touches_writeVariable _ _)

theorem branchRestored_apply (machine : Machine η) :
    branchRestored machine =
      match machine.nextInstruction with
      | .error fault => .error fault machine
      | .ok (saving, decoder) =>
        (do
          let _ ← branchIf saving true
          return () : MachineM η Unit)
          { machine with
            decoder
            memory := { machine.memory with pc := machine.memory.pc + saving.size } } := by
  unfold branchRestored
  rw [bind_get]
  cases decoded : machine.nextInstruction with
  | error fault => exact bind_of_error (inspect_of_error decoded)
  | ok result => exact bind_of_ok (inspect_of_ok decoded)

section Resuming

variable {instruction : Instruction} {opcode : Opcode} {before : Machine η} {snapshot : Snapshot}
  {memory : Memory} (replaces : before.Replaces opcode) (held : before.archive.Holds snapshot)
  (restored : Memory.restoreSnapshot snapshot before.memory = .ok () memory)

include replaces held restored

/-- Storing the result of the saving instruction is a quiet action in the restored game. -/
theorem manages_storeRestored {result : Option Outcome}
    (reports : result = none ∨ result = some .branched) :
    Manages instruction opcode before result
      (stateAfter (do
        storeRestored
        return .branched : MachineM η Outcome)
        { before with memory, archive := before.archiveAfter instruction opcode }) := by
  rw [stateAfter_bind_pure]
  have quiet := quiet_storeRestored
    { before with memory, archive := before.archiveAfter instruction opcode }
  exact .resumes replaces held restored rfl (Or.inl rfl) ⟨.fails quiet.memory, quiet.alike⟩ reports

theorem manages_branchRestored {result : Option Outcome}
    (reports : result = none ∨ result = some .branched) :
    Manages instruction opcode before result
      (stateAfter (do
        branchRestored
        return .branched : MachineM η Outcome)
        { before with memory, archive := before.archiveAfter instruction opcode }) := by
  rw [stateAfter_bind_pure, stateAfter, branchRestored_apply]
  cases decoded : ({ before with memory, archive := before.archiveAfter instruction opcode } :
      Machine η).nextInstruction with
  | error fault =>
      exact .resumes replaces held restored rfl (Or.inl rfl) ⟨.fails (.refl memory), .refl _⟩ reports
  | ok saving =>
      rcases saving with ⟨saving, decoder⟩
      have bounds := Decoder.bounds_of_decode decoded
      have branched := continues_branchIf (Decoder.fits_of_decode decoded) true
        { before with
          memory := { memory with pc := memory.pc + saving.size }
          decoder
          archive := before.archiveAfter instruction opcode }
      rw [← stateAfter_bind_pure _ fun _ => ()] at branched
      exact .resumes replaces held restored (Decoder.version_of_decode decoded)
        (Or.inr bounds.2.2) branched reports

theorem manages_resume :
    Manages instruction opcode before
      (valueOf resume { before with memory, archive := before.archiveAfter instruction opcode })
      (stateAfter resume { before with memory, archive := before.archiveAfter instruction opcode })
    := by
  unfold valueOf stateAfter resume
  by_cases early : ({ before with memory, archive := before.archiveAfter instruction opcode } :
      Machine η).version ≤ 3
  · rw [if_pos early]
    exact manages_branchRestored replaces held restored (valueOf_bind_pure _ _ _)
  · rw [if_neg early]
    exact manages_storeRestored replaces held restored (valueOf_bind_pure _ _ _)

end Resuming

section Operations

variable {instruction : Instruction} (fits : instruction.Fits)

theorem manages_saveUndo :
    Leads (Manages instruction .saveUndo) (saveUndo instruction : MachineM η Outcome) := by
  intro machine
  unfold valueOf stateAfter
  rw [saveUndo_apply]
  exact .continues (continues_conclude instruction _
    { machine with archive := machine.archiveAfter instruction .saveUndo })

theorem manages_restart :
    Leads (Manages instruction .restart) (restart : MachineM η Outcome) := by
  intro machine
  unfold valueOf stateAfter
  rw [restart_apply]
  cases read : Dictionary.ofMemory? machine.memory.restart with
  | error fault => exact .restarts rfl (Or.inl rfl) (Or.inl rfl)
  | ok dictionary => exact .restarts rfl (Or.inr read) (Or.inr rfl)

theorem manages_restoreUndo :
    Leads (Manages instruction .restoreUndo) (restoreUndo instruction : MachineM η Outcome) := by
  intro machine
  unfold valueOf stateAfter
  rw [restoreUndo_apply]
  rcases Archive.restoreUndo_cases machine.archive machine.memory with
    ⟨newest, memory, taken, went, undone⟩ | undone | ⟨fault, undone⟩
  · have replaces : machine.Replaces .restoreUndo := ⟨_, undone⟩
    rw [undone]
    exact manages_storeRestored replaces (Archive.holds_of_takeUndo taken) went
      (valueOf_bind_pure _ _ _)
  · rw [undone]
    exact .continues (continues_conclude instruction 0
      { machine with archive := machine.archiveAfter instruction .restoreUndo })
  · rw [undone]
    exact .continues ⟨.fails (.refl machine.memory), .refl _⟩

include fits

theorem manages_save : Leads (Manages instruction .save) (save instruction : MachineM η Outcome) := by
  intro machine
  unfold valueOf stateAfter
  rw [save_apply]
  cases saved : machine.archive.save (machine.stateToSave instruction) with
  | error fault =>
      have same : machine.archiveAfter instruction .save = machine.archive := by
        simp only [archiveAfter, saved]
      refine .continues ?_
      rw [same]
      exact ⟨.fails (.refl machine.memory), .refl machine⟩
  | ok result =>
      rcases result with ⟨success, archive⟩
      have gained : machine.archiveAfter instruction .save = archive := by
        simp only [archiveAfter, saved]
      refine .continues ?_
      rw [gained]
      exact continues_report fits success { machine with archive }

theorem manages_restore :
    Leads (Manages instruction .restore) (restore instruction : MachineM η Outcome) := by
  intro machine
  unfold valueOf stateAfter
  rw [restore_apply]
  cases restored : machine.archive.restore machine.memory with
  | error fault memory =>
      rcases Archive.restore_eq_error restored with ⟨rfl, _⟩
      exact .continues ⟨.fails (.refl machine.memory), .refl machine⟩
  | ok success memory =>
      cases success with
      | true =>
          rcases Archive.restore_eq_true restored with ⟨snapshot, held, went⟩
          have replaces : machine.Replaces .restore := ⟨memory, restored⟩
          exact manages_resume replaces held went
      | false =>
          have same := Archive.restore_eq_false restored
          subst same
          exact .continues (continues_report fits false machine)

theorem manages_perform [Host η] {opcode : Opcode} (managing : opcode.managesPlay = true)
    (values : List UInt16) :
    Leads (Manages instruction opcode) (perform instruction opcode values : MachineM η Outcome) := by
  unfold Opcode.managesPlay at managing
  split at managing
  · exact manages_save fits
  · exact manages_restore fits
  · exact manages_saveUndo
  · exact manages_restoreUndo
  · exact manages_restart
  · cases managing

end Operations

end Machine

end ZMachine
