import ZMachine.Proofs.Machine.Saving

/-!
# Restored games go on where they were saved

After a game is saved, the story may do anything but save again, and restoring gives back what was
saved. Noting a state for undoing is the same with a stack in the place of the one saved game: a
state is taken by the matching request to undo, after every newer state has been used up. It is lost
only if more states than the archive keeps were noted at a time.
-/

namespace ZMachine.Machine

variable {η : Type} [Host η]

/-- From one instruction to the operands of a later one, the story and the version stay what they
are. -/
theorem kept_until {allowed : Machine η → Prop} {machine last ready : Machine η}
    {instruction : Instruction} {opcode : Opcode} {values : List UInt16}
    (mapped : machine.memory.Mapped) (run : Run allowed machine.next last)
    (performs : last.Performs instruction opcode values ready) :
    machine.memory.Protects ready.memory ∧
      ready.decoder.version = machine.decoder.version := by
  have stepped := protects_next mapped
  have ran := kept_of_run (stepped.mapped mapped) run
  have moved : last.memory.Protects (last.memory.withPc (last.memory.pc + instruction.size)) :=
    ⟨rfl, rfl, rfl, fun _ _ => rfl⟩
  have fetched := moved.trans (.of_touches performs.touches)
  refine ⟨(stepped.trans ran.1).trans fetched, ?_⟩
  rw [performs.decoder, ran.2, (views_next machine).1]

omit [Host η] in
theorem saved_archiveAfter {opcode : Opcode} (other : opcode ≠ .save) (machine : Machine η)
    (instruction : Instruction) :
    (machine.archiveAfter instruction opcode).saved? = machine.archive.saved? := by
  unfold archiveAfter
  split
  · exact absurd rfl other
  · exact Archive.saved_saveUndo _ _
  · exact Archive.saved_takeUndo _
  · rfl

/-- A saved game stays until another one is saved. -/
theorem saved_of_run {first last : Machine η}
    (run : Run (fun running => ¬ running.PerformsNext .save) first last) :
    last.archive.saved? = first.archive.saved? := by
  refine run.keeps (fun running => running.archive.saved? = first.archive.saved?) rfl ?_
  intro running otherwise kept
  rw [← kept]
  rcases (views_next running).2 with same | ⟨instruction, opcode, values, ready, performs, archive⟩
  · rw [same]
  · have other : opcode ≠ .save := by
      rintro rfl
      exact otherwise ⟨instruction, values, ready, performs⟩
    rw [archive, saved_archiveAfter other, performs.archive]

/-- A game is saved, and after any steps that save no other game it is restored. -/
structure Restores (machine last seen : Machine η) (saving : Instruction) : Prop where
  archive : ∃ saved history depth, machine.archive = .snapshots saved history depth
  saves : ∃ values, machine.Performs saving .save values seen
  run : Run (fun running => ¬ running.PerformsNext .save) machine.next last
  restores : last.PerformsNext .restore

/-- Saving changes memory only by reporting to the story how it went. -/
theorem memory_of_save {machine seen : Machine η} {saving : Instruction} {values : List UInt16}
    {success : Bool} {archive : Archive} (performs : machine.Performs saving .save values seen)
    (hooked : seen.archive.save (seen.stateToSave saving) = .ok (success, archive)) :
    machine.next.memory = (stateAfter (report saving success) seen).memory := by
  have performed : perform saving .save values seen = save saving seen := rfl
  have same : ({ seen with archive } : Machine η).memory = seen.memory := rfl
  rw [performs.next, stateAfter, performed, save_apply, hooked]
  exact memory_report same saving success

theorem next_of_restore {last ready : Machine η} {restoring : Instruction} {values : List UInt16}
    {snapshot : Snapshot} {memory : Memory}
    (performs : last.Performs restoring .restore values ready)
    (saved : last.archive.saved? = some snapshot)
    (went : Memory.restoreSnapshot snapshot ready.memory = .ok () memory) :
    last.next = stateAfter resume { ready with memory } := by
  rw [← performs.archive] at saved
  have performed : perform restoring .restore values ready = restore restoring ready := rfl
  rw [performs.next, stateAfter, performed, restore_apply, Archive.restore_of_saved saved went]
  rfl

namespace Restores

variable {machine last seen : Machine η} {saving : Instruction} (consistent : machine.Consistent)

include consistent

/-- The restored memory is the one that was saved. -/
theorem next (restores : Restores machine last seen saving) :
    ∃ ready : Machine η, ready.decoder.version = machine.decoder.version ∧
      last.next = stateAfter resume { ready with memory := seen.stateToSave saving } := by
  rcases restores.archive with ⟨saved, history, depth, kept⟩
  rcases restores.saves with ⟨values, performs⟩
  rcases restores.restores with ⟨restoring, operands, ready, restored⟩
  rcases kept_until consistent.mapped restores.run restored with ⟨found, version⟩
  have state := protects_stateToSave performs
  have savedNow : last.archive.saved? = some (seen.stateToSave saving).snapshot := by
    rw [saved_of_run restores.run, performs.views.1, archiveAfter, save_of_kept performs kept]
    rfl
  have mapped := state.1.symm.mapped consistent.mapped
  have went := Memory.restoreSnapshot_snapshot mapped (state.1.trans found)
  exact ⟨ready, version, next_of_restore restored savedNow went⟩

/-- Up to version 3, restoring gives the memory that saving left. -/
theorem early (restores : Restores machine last seen saving) (early : machine.version ≤ 3) :
    last.next.memory = machine.next.memory := by
  rcases restores.archive with ⟨saved, history, depth, kept⟩
  rcases restores.saves with ⟨values, performs⟩
  rcases restores.next consistent with ⟨ready, version, next⟩
  have state := protects_stateToSave performs
  rcases performs.prepared with ⟨decoder, _, decoded, _⟩
  have address := (Decoder.bounds_of_decode decoded).1
  have seenEarly : seen.version ≤ 3 := by
    have same : seen.version = machine.version := congrArg Header.version state.2.1.header.symm
    omega
  have stateSaved : seen.stateToSave saving = seen.memory.withPc machine.memory.pc := by
    rw [stateToSave, if_pos seenEarly, address]
    rfl
  have again : ({ ready with memory := seen.stateToSave saving } : Machine η).nextInstruction =
      .ok (saving, ready.decoder) := by
    refine nextInstruction_of_saving performs rfl state.2.2 ?_ version
    rw [stateSaved]
    rfl
  have past : seen.memory = (seen.stateToSave saving).withPc
      ((seen.stateToSave saving).pc + saving.size) := by
    have pc : seen.memory.pc = machine.memory.pc + saving.size := performs.touches.pc
    rw [stateSaved]
    simp only [Memory.withPc, ← pc]
  rw [next, memory_of_save performs (save_of_kept performs kept), report_early seenEarly]
  refine memory_resume_early ?_ again past
  have same : (seen.stateToSave saving).version = machine.version :=
    congrArg Header.version state.1.header.symm
  exact Nat.le_trans (Nat.le_of_eq same) early

/-- From version 4 on, restoring gives the memory that the saving instruction saw, with another
result. -/
theorem late (restores : Restores machine last seen saving) (late : 4 ≤ machine.version) :
    GoesOnAfter machine last seen saving := by
  rcases restores.archive with ⟨saved, history, depth, kept⟩
  rcases restores.saves with ⟨values, performs⟩
  rcases restores.next consistent with ⟨ready, version, next⟩
  have state := protects_stateToSave performs
  have seenLate : 4 ≤ seen.version := by
    have same : seen.version = machine.version := congrArg Header.version state.2.1.header.symm
    omega
  rcases store_of_saving consistent performs rfl late with ⟨name, store, named⟩
  refine ⟨name, store, performs.touches.pc, ?_, ?_⟩
  · rw [memory_of_save performs (save_of_kept performs kept), report_late seenLate,
      memory_conclude, store]
    rfl
  · have same : seen.stateToSave saving = seen.memory := by
      rw [stateToSave, if_neg (by omega)]
    rw [next, same]
    exact memory_resume_late seenLate named

end Restores

/-- The next step notes the state of play for undoing. -/
def NotesNext (machine : Machine η) : Prop :=
  ∃ instruction values ready, machine.Performs instruction .saveUndo values ready ∧
    (ready.archive.saveUndo ready.memory).1 = true

/-- The next step goes back to a state that was noted for undoing. -/
def UndoesNext (machine : Machine η) : Prop :=
  ∃ instruction values ready, machine.Performs instruction .restoreUndo values ready ∧
    ready.Replaces .restoreUndo

/-- Any number of steps in which every state that is taken for undoing has been noted on the way, with
`pending` states that are not taken yet and at most `peak` of them at a time. -/
inductive Nested (first : Machine η) : Nat → Nat → Machine η → Prop where
  | refl : Nested first 0 0 first
  | other {pending peak : Nat} {machine : Machine η} (earlier : Nested first pending peak machine)
      (notNoting : ¬ machine.NotesNext) (notUndoing : ¬ machine.UndoesNext) :
      Nested first pending peak machine.next
  | notes {pending peak : Nat} {machine : Machine η} (earlier : Nested first pending peak machine)
      (noting : machine.NotesNext) : Nested first (pending + 1) (max peak (pending + 1)) machine.next
  | undoes {pending peak : Nat} {machine : Machine η}
      (earlier : Nested first (pending + 1) peak machine) (undoing : machine.UndoesNext) :
      Nested first pending peak machine.next

section Layers

variable {machine : Machine η} {ours : Snapshot} {depth pending peak : Nat}
  (layered : machine.archive.Layered ours depth pending peak)

include layered

theorem layered_of_other (size : ours.dynamic.size = machine.memory.header.staticBase)
    (notNoting : ¬ machine.NotesNext) (notUndoing : ¬ machine.UndoesNext) :
    machine.next.archive.Layered ours depth pending peak := by
  rcases (views_next machine).2 with same | ⟨instruction, opcode, values, ready, performs, archive⟩
  · rw [same]
    exact layered
  · rw [← performs.archive] at layered
    rw [archive]
    unfold archiveAfter
    split
    · split
      · exact layered
      · rename_i kept
        exact layered.save kept
    · have refused : (ready.archive.saveUndo ready.memory).1 = false := by
        apply Bool.eq_false_iff.mpr
        intro noted
        exact notNoting ⟨instruction, values, ready, performs, noted⟩
      rw [Archive.saveUndo_of_refused refused]
      exact layered
    · apply layered.takeUndo_of_misfit
      intro newest taken fits
      have base : newest.dynamic.size = ready.memory.header.staticBase := by
        rw [fits, size, performs.touches.header]
        rfl
      have went := Memory.restoreSnapshot_of_size base
      exact notUndoing ⟨instruction, values, ready, performs, _,
        Archive.restoreUndo_of_taken taken went⟩
    · exact layered

theorem layered_of_notes (mapped : machine.memory.Mapped)
    (size : ours.dynamic.size = machine.memory.header.staticBase) (noting : machine.NotesNext) :
    machine.next.archive.Layered ours depth (pending + 1) (max peak (pending + 1)) := by
  rcases noting with ⟨instruction, values, ready, performs, noted⟩
  rw [← performs.archive] at layered
  rw [performs.views.1]
  refine layered.saveUndo ?_ noted
  have protects := (protects_stateToSave performs).2.1
  rw [Memory.size_snapshot (protects.symm.mapped mapped), size, protects.header]

theorem layered_of_undoes (undoing : machine.UndoesNext) {newer : Nat} (more : pending = newer + 1) :
    machine.next.archive.Layered ours depth newer peak := by
  rcases undoing with ⟨instruction, values, ready, performs, _⟩
  rw [← performs.archive, more] at layered
  rw [performs.views.1]
  exact layered.takeUndo

end Layers

theorem Nested.run {first last : Machine η} {pending peak : Nat}
    (nested : Nested first pending peak last) : Run (fun _ => True) first last := by
  induction nested with
  | refl => exact .refl
  | other _ _ _ ih => exact .step ih trivial
  | notes _ _ ih => exact .step ih trivial
  | undoes _ _ ih => exact .step ih trivial

/-- A state stays in its place while newer ones are noted and taken again. -/
theorem Nested.layered {first last : Machine η} {ours : Snapshot} {depth pending peak : Nat}
    (mapped : first.memory.Mapped) (size : ours.dynamic.size = first.memory.header.staticBase)
    (newest : first.archive.Layered ours depth 0 0) (nested : Nested first pending peak last) :
    last.archive.Layered ours depth pending peak := by
  have story : ∀ {pending peak : Nat} {machine : Machine η}, Nested first pending peak machine →
      machine.memory.Mapped ∧ ours.dynamic.size = machine.memory.header.staticBase := by
    intro pending peak machine earlier
    have protects := (kept_of_run mapped earlier.run).1
    exact ⟨protects.mapped mapped, by rw [protects.header, size]⟩
  induction nested with
  | refl => exact newest
  | other earlier notNoting notUndoing ih =>
      exact layered_of_other ih (story earlier).2 notNoting notUndoing
  | notes earlier noting ih =>
      exact layered_of_notes ih (story earlier).1 (story earlier).2 noting
  | undoes _ undoing ih => exact layered_of_undoes ih undoing rfl

/-- A state is noted for undoing, and after any steps that take only newer states the story asks to
undo. -/
structure Undoes (machine last seen : Machine η) (noting : Instruction) (peak : Nat) : Prop where
  notes : ∃ values, machine.Performs noting .saveUndo values seen
  noted : (seen.archive.saveUndo seen.memory).1 = true
  run : Nested machine.next 0 peak last
  undoes : last.PerformsNext .restoreUndo

theorem memory_of_saveUndo {machine seen : Machine η} {noting : Instruction} {values : List UInt16}
    (performs : machine.Performs noting .saveUndo values seen) :
    machine.next.memory = stateAfter (Memory.storeIn noting.store
      (successWord (seen.archive.saveUndo seen.memory).1)) seen.memory := by
  have performed : perform noting .saveUndo values seen = saveUndo noting seen := rfl
  rw [performs.next, stateAfter, performed, saveUndo_apply]
  exact memory_conclude _ _ _

theorem memory_of_restoreUndo {last ready : Machine η} {undoing : Instruction}
    {values : List UInt16} {newest : Snapshot} {memory : Memory} {name : UInt8}
    (performs : last.Performs undoing .restoreUndo values ready)
    (taken : ready.archive.takeUndo.1 = some newest)
    (went : Memory.restoreSnapshot newest ready.memory = .ok () memory)
    (named : memory.fetchByte (memory.pc - 1) = .ok name) :
    last.next.memory = stateAfter (Memory.writeVariable name restoredResult) memory := by
  have performed : perform undoing .restoreUndo values ready = restoreUndo undoing ready := rfl
  rw [performs.next, stateAfter, performed, restoreUndo_apply,
    Archive.restoreUndo_of_taken taken went]
  dsimp only
  rw [← stateAfter, stateAfter_bind_pure]
  exact memory_storeRestored named

namespace Undoes

variable {machine last seen : Machine η} {noting : Instruction} {peak : Nat}
  (consistent : machine.Consistent) (undoes : Undoes machine last seen noting peak)

include consistent undoes

theorem layered :
    ∃ saved history depth, machine.archive = .snapshots saved history depth ∧
      last.archive.Layered seen.memory.snapshot depth 0 peak := by
  rcases undoes.notes with ⟨values, performs⟩
  rcases Archive.layered_of_noted undoes.noted with ⟨saved, history, depth, kept, newest⟩
  have stepped := protects_next consistent.mapped
  have state := (protects_stateToSave performs).2.1
  refine ⟨saved, history, depth, by rw [← performs.archive, kept], ?_⟩
  apply undoes.run.layered (stepped.mapped consistent.mapped)
  · rw [Memory.size_snapshot (state.symm.mapped consistent.mapped), stepped.header, state.header]
  · rw [performs.views.1]
    exact newest

/-- The state that was noted still fits. -/
theorem went {undoing : Instruction} {values : List UInt16} {ready : Machine η}
    (performs : last.Performs undoing .restoreUndo values ready) :
    Memory.restoreSnapshot seen.memory.snapshot ready.memory = .ok () seen.memory := by
  rcases undoes.notes with ⟨_, noted⟩
  have state := (protects_stateToSave noted).2.1
  have found := (kept_until consistent.mapped undoes.run.run performs).1
  exact Memory.restoreSnapshot_snapshot (state.symm.mapped consistent.mapped) (state.trans found)

/-- Where undoing works, it takes the state that was noted. -/
theorem goesOn (works : last.UndoesNext) : GoesOnAfter machine last seen noting := by
  rcases undoes.notes with ⟨values, performs⟩
  rcases undoes.layered consistent with ⟨saved, history, depth, _, layered⟩
  rcases works with ⟨undoing, operands, ready, undone, state, replaced⟩
  have taken : ready.archive.takeUndo.1 = some seen.memory.snapshot := by
    rcases layered.newest with newest | ⟨_, none⟩
    · rw [undone.archive, newest]
    · rw [← undone.archive] at none
      rcases Archive.restoreUndo_cases ready.archive ready.memory with
        ⟨newest, later, taken, _, _⟩ | refused | ⟨fault, failed⟩
      · rw [none] at taken
        cases taken
      · rw [refused] at replaced
        cases replaced
      · rw [failed] at replaced
        cases replaced
  have late := late_of_undo consistent performs (Or.inl rfl)
  rcases store_of_saving consistent performs rfl late with ⟨name, store, named⟩
  refine ⟨name, store, performs.touches.pc, ?_, ?_⟩
  · rw [memory_of_saveUndo performs, undoes.noted, store]
    rfl
  · exact memory_of_restoreUndo undone taken (undoes.went consistent undone) named

/-- Undoing works as long as the archive keeps as many states as were pending at a time. -/
theorem works {saved : Option Snapshot} {history : List Snapshot} {depth : Nat}
    (kept : machine.archive = .snapshots saved history depth) (room : peak < depth) :
    last.UndoesNext := by
  rcases undoes.undoes with ⟨undoing, operands, ready, undone⟩
  rcases undoes.layered consistent with ⟨_, _, found, same, layered⟩
  rw [kept] at same
  cases same
  rcases layered.newest with newest | ⟨full, _⟩
  · rw [← undone.archive] at newest
    exact ⟨undoing, operands, ready, undone, _,
      Archive.restoreUndo_of_taken newest (undoes.went consistent undone)⟩
  · omega

end Undoes

/-- A request changes memory only by moving past the instruction, by taking its operands off the
stack and by reporting a failure. -/
structure Refuses (machine seen : Machine η) (saving : Instruction) : Prop where
  fetched : ∃ count ≤ saving.operands.length,
    seen.memory = (machine.memory.withPc (machine.memory.pc + saving.size)).popped count
  reported : machine.next.memory = (stateAfter (report saving false) seen).memory

theorem refuses_save {machine seen : Machine η} {saving : Instruction} {values : List UInt16}
    {archive : Archive} (performs : machine.Performs saving .save values seen)
    (refused : seen.archive.save (seen.stateToSave saving) = .ok (false, archive)) :
    Refuses machine seen saving :=
  ⟨performs.memory, memory_of_save performs refused⟩

theorem refuses_saveUndo {machine seen : Machine η} {noting : Instruction} {values : List UInt16}
    (consistent : machine.Consistent) (performs : machine.Performs noting .saveUndo values seen)
    (refused : (seen.archive.saveUndo seen.memory).1 = false) : Refuses machine seen noting := by
  have late := late_of_undo consistent performs (Or.inl rfl)
  have same : seen.version = machine.version :=
    congrArg Header.version (protects_stateToSave performs).2.1.header.symm
  refine ⟨performs.memory, ?_⟩
  rw [memory_of_saveUndo performs, refused, report_late (by omega), memory_conclude]

/-- A fault of the archive ends the step before anything is reported. -/
theorem memory_of_failedSave {machine seen : Machine η} {saving : Instruction}
    {values : List UInt16} {fault : Fault} (performs : machine.Performs saving .save values seen)
    (failed : seen.archive.save (seen.stateToSave saving) = .error fault) :
    machine.next.memory = seen.memory := by
  have performed : perform saving .save values seen = save saving seen := rfl
  rw [performs.next, stateAfter, performed, save_apply, failed]

theorem consistent_of_run {settings : Settings} {image : Image} {host : η} {archive : Archive}
    {first machine : Machine η} (started : start settings image host archive = .ok first)
    (run : Run (fun _ => True) first machine) : machine.Consistent := by
  apply run.keeps Consistent (consistent_of_start started)
  intro middle _ consistent
  exact consistent_next consistent

/-- In every state that a story gets into:

Restoring a game that is saved in it, after any steps that save no other game, gives up to version 3
the memory that saving left, and from version 4 on the memory that saving saw, with 2 instead of 1 as
the result. The same holds for undoing, as long as the state that is noted is not lost.

Saving that is refused or fails leaves nothing but its result. -/
theorem restore_resumes {settings : Settings} {image : Image} {host : η} {archive : Archive}
    {first machine : Machine η} (started : start settings image host archive = .ok first)
    (run : Run (fun _ => True) first machine) :
    (∀ last seen saving, Restores machine last seen saving →
      (machine.version ≤ 3 → last.next.memory = machine.next.memory) ∧
      (4 ≤ machine.version → GoesOnAfter machine last seen saving)) ∧
    (∀ last seen noting peak, Undoes machine last seen noting peak →
      (last.UndoesNext → GoesOnAfter machine last seen noting) ∧
      ∀ saved history depth, machine.archive = .snapshots saved history depth → peak < depth →
        last.UndoesNext) ∧
    (∀ saving values seen, machine.Performs saving .save values seen →
      (∀ later, seen.archive.save (seen.stateToSave saving) = .ok (false, later) →
        Refuses machine seen saving) ∧
      ∀ fault, seen.archive.save (seen.stateToSave saving) = .error fault →
        machine.next.memory = seen.memory ∧ ∃ count ≤ saving.operands.length,
          seen.memory = (machine.memory.withPc (machine.memory.pc + saving.size)).popped count) ∧
    ∀ noting values seen, machine.Performs noting .saveUndo values seen →
      (seen.archive.saveUndo seen.memory).1 = false → Refuses machine seen noting := by
  have consistent := consistent_of_run started run
  refine ⟨?_, ?_, ?_, ?_⟩
  · intro last seen saving restores
    exact ⟨restores.early consistent, restores.late consistent⟩
  · intro last seen noting peak undoes
    exact ⟨undoes.goesOn consistent, fun _ _ _ => undoes.works consistent⟩
  · intro saving values seen performs
    exact ⟨fun _ => refuses_save performs,
      fun _ failed => ⟨memory_of_failedSave performs failed, performs.memory⟩⟩
  · intro noting values seen performs
    exact refuses_saveUndo consistent performs

/-- A story of version 3 saves, stores 7 and restores; one of version 5 notes, stores 7 and undoes. -/
theorem restore_resumes_sample :
    let early := sample 3 [0xB5, 0xC2, 0xE2, 0x57, 79, 0, 7, 0xB6, 0xC2] (.empty 8)
    let late := sample 5 [0xBE, 9, 0xFF, 16, 0xE2, 0x57, 79, 0, 7, 0xBE, 10, 0xFF, 17] (.empty 8)
    (early.PerformsNext .save ∧ early.next.next.PerformsNext .restore ∧
      early.next.next.memory.bytes.byteAt 79 = 7 ∧
      early.next.next.next.memory = early.next.memory) ∧
      late.PerformsNext .saveUndo ∧ late.next.next.PerformsNext .restoreUndo ∧
      late.next.next.memory.bytes.byteAt 79 = 7 ∧
      ∃ seen noting, GoesOnAfter late late.next.next seen noting := by
  intro early late
  have startedEarly : start {} (.sample 3 [0xB5, 0xC2, 0xE2, 0x57, 79, 0, 7, 0xB6, 0xC2]) .silent
      (.empty 8) = .ok early := rfl
  have startedLate : start {} (.sample 5 [0xBE, 9, 0xFF, 16, 0xE2, 0x57, 79, 0, 7, 0xBE, 10, 0xFF,
      17]) .silent (.empty 8) = .ok late := rfl
  have saves : early.PerformsNext .save := by decide +kernel
  have notSaving : ¬ early.next.PerformsNext .save := by decide +kernel
  have restores : early.next.next.PerformsNext .restore := by decide +kernel
  have notes : late.PerformsNext .saveUndo := by decide +kernel
  have notNoting : ¬ late.next.PerformsNext .saveUndo := by decide +kernel
  have notUndoing : ¬ late.next.PerformsNext .restoreUndo := by decide +kernel
  have undoes : late.next.next.PerformsNext .restoreUndo := by decide +kernel
  have storedEarly : early.next.next.memory.bytes.byteAt 79 = 7 := by decide +kernel
  have storedLate : late.next.next.memory.bytes.byteAt 79 = 7 := by decide +kernel
  have versionEarly : early.version ≤ 3 := by decide +kernel
  have archiveEarly : early.archive = .snapshots none [] 8 := rfl
  have archiveLate : late.archive = .snapshots none [] 8 := rfl
  clear_value early late
  refine ⟨⟨saves, restores, storedEarly, ?_⟩, notes, undoes, storedLate, ?_⟩
  · rcases saves with ⟨saving, values, seen, performs⟩
    have restored : Restores early early.next.next seen saving :=
      ⟨⟨none, [], 8, archiveEarly⟩, ⟨values, performs⟩, .step .refl notSaving, restores⟩
    exact ((restore_resumes startedEarly .refl).1 _ seen saving restored).1 versionEarly
  · rcases notes with ⟨noting, values, seen, performs⟩
    have noted : (seen.archive.saveUndo seen.memory).1 = true := by
      rw [performs.archive, archiveLate]
      rfl
    have nested : Nested late.next 0 0 late.next.next := by
      refine .other .refl ?_ ?_
      · rintro ⟨instruction, operands, ready, other, _⟩
        exact notNoting ⟨instruction, operands, ready, other⟩
      · rintro ⟨instruction, operands, ready, other, _⟩
        exact notUndoing ⟨instruction, operands, ready, other⟩
    have undone := (restore_resumes startedLate .refl).2.1 _ seen noting 0
      ⟨⟨values, performs⟩, noted, nested, undoes⟩
    exact ⟨seen, noting, undone.1 (undone.2 none [] 8 archiveLate (by decide))⟩

end ZMachine.Machine
