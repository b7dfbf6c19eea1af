import ZMachine.Archive
import ZMachine.Proofs.Action

/-!
# What an archive holds

An archive holds only states of play that were put into it. The saved game stays until the next one
is saved. The states for undoing form a stack, of which the oldest may get lost: `Archive.Layered`
follows one of them while newer ones are noted and used up again.
-/

namespace ZMachine

/-- A state of play that does not fit leaves memory alone. -/
theorem Memory.restoreSnapshot_eq_error {snapshot : Snapshot} {memory later : Memory} {fault : Fault}
    (failed : restoreSnapshot snapshot memory = .error fault later) :
    later = memory ∧
      fault = .invalidText (.snapshotSize snapshot.dynamic.size memory.header.staticBase) := by
  unfold restoreSnapshot at failed
  split at failed
  · cases failed
    exact ⟨rfl, rfl⟩
  · cases failed

/-- The archive holds a state of play. -/
def Archive.Holds (archive : Archive) (snapshot : Snapshot) : Prop :=
  match archive with
  | snapshots saved history _ => saved = some snapshot ∨ snapshot ∈ history
  | _ => False

namespace Archive

/-- The archive holds nothing after saving that was not there before or is being saved. -/
theorem holds_save {archive later : Archive} {memory : Memory} {success : Bool}
    (saved : archive.save memory = .ok (success, later)) {snapshot : Snapshot}
    (held : later.Holds snapshot) : archive.Holds snapshot ∨ snapshot = memory.snapshot := by
  cases archive with
  | absent =>
      cases saved
      exact Or.inl held
  | broken => cases saved
  | snapshots earlier history depth =>
      cases saved
      rcases held with newest | older
      · cases newest
        exact Or.inr rfl
      · exact Or.inl (Or.inr older)

theorem holds_saveUndo {archive : Archive} {memory : Memory} {snapshot : Snapshot}
    (held : (archive.saveUndo memory).2.Holds snapshot) :
    archive.Holds snapshot ∨ snapshot = memory.snapshot := by
  cases archive with
  | absent => exact Or.inl held
  | broken => exact Or.inl held
  | snapshots saved history depth =>
      unfold saveUndo at held
      dsimp only at held
      split at held
      · exact Or.inl held
      · rcases held with same | among
        · exact Or.inl (Or.inl same)
        · rcases List.mem_cons.mp among with newest | older
          · exact Or.inr newest
          · exact Or.inl (Or.inr (List.mem_of_mem_take older))

/-- Going back to a saved game succeeds with the saved game only. -/
theorem restore_eq_true {archive : Archive} {memory later : Memory}
    (restored : archive.restore memory = .ok true later) :
    ∃ snapshot, archive.Holds snapshot ∧ Memory.restoreSnapshot snapshot memory = .ok () later := by
  cases archive with
  | absent => cases restored
  | broken => cases restored
  | snapshots saved history depth =>
      cases saved with
      | none => cases restored
      | some snapshot =>
          rcases bind_eq_ok.mp restored with ⟨_, middle, went, same⟩
          cases same
          exact ⟨snapshot, Or.inl rfl, went⟩

/-- A saved game that is missing leaves memory alone. -/
theorem restore_eq_false {archive : Archive} {memory later : Memory}
    (missing : archive.restore memory = .ok false later) : later = memory := by
  cases archive with
  | absent =>
      cases missing
      rfl
  | broken => cases missing
  | snapshots saved history depth =>
      cases saved with
      | none =>
          cases missing
          rfl
      | some snapshot =>
          rcases bind_eq_ok.mp missing with ⟨_, _, _, impossible⟩
          cases impossible

/-- So does one that does not fit, and a device that is broken. -/
theorem restore_eq_error {archive : Archive} {memory later : Memory} {fault : Fault}
    (failed : archive.restore memory = .error fault later) :
    later = memory ∧ (fault = .input "restore refused" ∨ ∃ misfit : Snapshot,
      fault = .invalidText (.snapshotSize misfit.dynamic.size memory.header.staticBase)) := by
  cases archive with
  | absent => cases failed
  | broken =>
      cases failed
      exact ⟨rfl, Or.inl rfl⟩
  | snapshots saved history depth =>
      cases saved with
      | none => cases failed
      | some snapshot =>
          rcases bind_eq_error failed with refused | ⟨_, _, _, impossible⟩
          · rcases Memory.restoreSnapshot_eq_error refused with ⟨same, reason⟩
            exact ⟨same, Or.inr ⟨snapshot, reason⟩⟩
          · cases impossible

theorem holds_of_takeUndo {archive : Archive} {newest : Snapshot}
    (taken : archive.takeUndo.1 = some newest) : archive.Holds newest := by
  cases archive with
  | absent => cases taken
  | broken => cases taken
  | snapshots saved history depth =>
      cases history with
      | nil => cases taken
      | cons first history =>
          cases taken
          exact Or.inr (List.mem_cons_self ..)

theorem holds_takeUndo {archive : Archive} {snapshot : Snapshot}
    (held : archive.takeUndo.2.Holds snapshot) : archive.Holds snapshot := by
  cases archive with
  | absent => exact held
  | broken => exact held
  | snapshots saved history depth =>
      cases history with
      | nil => exact held
      | cons newest history =>
          rcases held with same | older
          · exact Or.inl same
          · exact Or.inr (List.mem_cons_of_mem _ older)

/-- Undoing uses up the newest state, whether that state fits or not. -/
theorem restoreUndo_cases (archive : Archive) (memory : Memory) :
    (∃ newest later, archive.takeUndo.1 = some newest ∧
      Memory.restoreSnapshot newest memory = .ok () later ∧
      restoreUndo (archive, memory) = .ok true (archive.takeUndo.2, later)) ∨
    restoreUndo (archive, memory) = .ok false (archive.takeUndo.2, memory) ∨
    ∃ misfit : Snapshot, restoreUndo (archive, memory) =
      .error (.invalidText (.snapshotSize misfit.dynamic.size memory.header.staticBase))
        (archive.takeUndo.2, memory) := by
  simp only [restoreUndo]
  rcases archive.takeUndo with ⟨newest, rest⟩
  cases newest with
  | none => exact Or.inr (Or.inl rfl)
  | some newest =>
      simp only
      cases went : Memory.restoreSnapshot newest memory with
      | ok _ later => exact Or.inl ⟨newest, later, rfl, went, rfl⟩
      | error fault later =>
          rcases Memory.restoreSnapshot_eq_error went with ⟨rfl, rfl⟩
          exact Or.inr (Or.inr ⟨newest, rfl⟩)

/-- Undoing succeeds where the newest state fits. -/
theorem restoreUndo_of_taken {archive : Archive} {newest : Snapshot} {memory later : Memory}
    (taken : archive.takeUndo.1 = some newest)
    (went : Memory.restoreSnapshot newest memory = .ok () later) :
    restoreUndo (archive, memory) = .ok true (archive.takeUndo.2, later) := by
  have shape : archive.takeUndo = (some newest, archive.takeUndo.2) := by rw [← taken]
  rw [restoreUndo, shape]
  dsimp only
  rw [went]

/-- A state that is refused leaves the archive alone. -/
theorem saveUndo_of_refused {archive : Archive} {memory : Memory}
    (refused : (archive.saveUndo memory).1 = false) : (archive.saveUndo memory).2 = archive := by
  cases archive with
  | absent => rfl
  | broken => rfl
  | snapshots saved history depth =>
      unfold saveUndo at refused ⊢
      dsimp only at refused ⊢
      split
      · rfl
      · rename_i some
        rw [if_neg some] at refused
        cases refused

/-- The saved game. -/
def saved? : Archive → Option Snapshot
  | snapshots saved _ _ => saved
  | _ => none

theorem saved_saveUndo (archive : Archive) (memory : Memory) :
    (archive.saveUndo memory).2.saved? = archive.saved? := by
  cases archive with
  | absent => rfl
  | broken => rfl
  | snapshots saved history depth =>
      unfold saveUndo
      dsimp only
      split
      · rfl
      · rfl

theorem saved_takeUndo (archive : Archive) : archive.takeUndo.2.saved? = archive.saved? := by
  cases archive with
  | absent => rfl
  | broken => rfl
  | snapshots saved history depth =>
      cases history with
      | nil => rfl
      | cons newest history => rfl

theorem restore_of_saved {archive : Archive} {snapshot : Snapshot} {memory later : Memory}
    (saved : archive.saved? = some snapshot)
    (went : Memory.restoreSnapshot snapshot memory = .ok () later) :
    archive.restore memory = .ok true later := by
  cases archive with
  | absent => cases saved
  | broken => cases saved
  | snapshots found history depth =>
      cases saved
      exact bind_of_ok went

theorem saved_of_restore {archive : Archive} {memory later : Memory}
    (restored : archive.restore memory = .ok true later) :
    ∃ snapshot, archive.saved? = some snapshot ∧
      Memory.restoreSnapshot snapshot memory = .ok () later := by
  cases archive with
  | absent => cases restored
  | broken => cases restored
  | snapshots saved history depth =>
      cases saved with
      | none => cases restored
      | some snapshot =>
          rcases bind_eq_ok.mp restored with ⟨_, middle, went, same⟩
          cases same
          exact ⟨snapshot, rfl, went⟩

/-- A state is kept for undoing below `pending` newer ones of the same size, unless so many states
have been kept at a time that it has been lost; then the states that are left are no more than those
newer ones. -/
def Layered (archive : Archive) (ours : Snapshot) (depth pending peak : Nat) : Prop :=
  ∃ saved history, archive = .snapshots saved history depth ∧
    ((∃ nested older, history = nested ++ ours :: older ∧ nested.length = pending ∧
        ∀ snapshot ∈ nested, snapshot.dynamic.size = ours.dynamic.size) ∨
      depth ≤ peak ∧ history.length ≤ pending)

/-- A state that has just been noted is the newest one. -/
theorem layered_of_noted {archive : Archive} {memory : Memory}
    (noted : (archive.saveUndo memory).1 = true) :
    ∃ saved history depth, archive = .snapshots saved history depth ∧
      (archive.saveUndo memory).2.Layered memory.snapshot depth 0 0 := by
  cases archive with
  | absent => cases noted
  | broken => cases noted
  | snapshots saved history depth =>
      have some : depth ≠ 0 := by
        rintro rfl
        cases noted
      refine ⟨saved, history, depth, rfl, saved, memory.snapshot :: history.take (depth - 1), ?_, ?_⟩
      · simp only [saveUndo, some, if_false]
      · exact Or.inl ⟨[], history.take (depth - 1), rfl, rfl, by simp⟩

section Layers

variable {archive : Archive} {ours : Snapshot} {depth pending peak : Nat}

/-- One more state is noted. A full history loses its oldest state, which may be ours. -/
theorem Layered.saveUndo {memory : Memory} (layered : archive.Layered ours depth pending peak)
    (size : memory.snapshot.dynamic.size = ours.dynamic.size)
    (noted : (archive.saveUndo memory).1 = true) :
    (archive.saveUndo memory).2.Layered ours depth (pending + 1) (max peak (pending + 1)) := by
  rcases layered with ⟨saved, history, rfl, layers⟩
  have some : depth ≠ 0 := by
    rintro rfl
    cases noted
  refine ⟨saved, memory.snapshot :: history.take (depth - 1), ?_, ?_⟩
  · simp only [Archive.saveUndo, some, if_false]
  · rcases layers with ⟨nested, older, rfl, count, sizes⟩ | ⟨full, few⟩
    · by_cases room : pending + 1 < depth
      · refine Or.inl ⟨memory.snapshot :: nested, older.take (depth - 1 - pending - 1), ?_, ?_, ?_⟩
        · have taken : (nested ++ ours :: older).take (depth - 1) =
              nested ++ ours :: older.take (depth - 1 - pending - 1) := by
            rw [List.take_append, List.take_of_length_le (by omega), count,
              List.take_cons (by omega)]
          rw [taken, List.cons_append]
        · rw [List.length_cons, count]
        · intro snapshot member
          rcases List.mem_cons.mp member with rfl | older
          · exact size
          · exact sizes snapshot older
      · refine Or.inr ⟨by omega, ?_⟩
        rw [List.length_cons, List.length_take]
        omega
    · refine Or.inr ⟨by omega, ?_⟩
      rw [List.length_cons, List.length_take]
      omega

/-- The newest state is used up. -/
theorem Layered.takeUndo (layered : archive.Layered ours depth (pending + 1) peak) :
    archive.takeUndo.2.Layered ours depth pending peak := by
  rcases layered with ⟨saved, history, rfl, layers⟩
  rcases layers with ⟨nested, older, rfl, count, sizes⟩ | ⟨full, few⟩
  · cases nested with
    | nil => simp at count
    | cons newest nested =>
        refine ⟨saved, nested ++ ours :: older, rfl, Or.inl ⟨nested, older, rfl, ?_, ?_⟩⟩
        · simpa using count
        · intro snapshot member
          exact sizes snapshot (List.mem_cons_of_mem _ member)
  · cases history with
    | nil => exact ⟨saved, [], rfl, Or.inr ⟨full, by simp⟩⟩
    | cons newest history =>
        refine ⟨saved, history, rfl, Or.inr ⟨full, ?_⟩⟩
        rw [List.length_cons] at few
        omega

/-- With no newer state pending, the newest state is ours or there is none. -/
theorem Layered.newest (layered : archive.Layered ours depth 0 peak) :
    archive.takeUndo.1 = some ours ∨ depth ≤ peak ∧ archive.takeUndo.1 = none := by
  rcases layered with ⟨saved, history, rfl, layers⟩
  rcases layers with ⟨nested, older, rfl, count, _⟩ | ⟨full, few⟩
  · have none : nested = [] := List.eq_nil_of_length_eq_zero count
    subst none
    exact Or.inl rfl
  · have none : history = [] := List.eq_nil_of_length_eq_zero (by omega)
    subst none
    exact Or.inr ⟨full, rfl⟩

/-- Whatever state is the newest, it has the size of ours, or using it up loses nothing of ours. -/
theorem Layered.takeUndo_of_misfit (layered : archive.Layered ours depth pending peak)
    (misfit : ∀ newest, archive.takeUndo.1 = some newest →
      newest.dynamic.size ≠ ours.dynamic.size) :
    archive.takeUndo.2.Layered ours depth pending peak := by
  rcases layered with ⟨saved, history, rfl, layers⟩
  rcases layers with ⟨nested, older, rfl, count, sizes⟩ | ⟨full, few⟩
  · cases nested with
    | nil => exact absurd rfl (misfit ours rfl)
    | cons newest nested =>
        exact absurd (sizes newest (List.mem_cons_self ..)) (misfit newest rfl)
  · cases history with
    | nil => exact ⟨saved, [], rfl, Or.inr ⟨full, few⟩⟩
    | cons newest history =>
        refine ⟨saved, history, rfl, Or.inr ⟨full, ?_⟩⟩
        rw [List.length_cons] at few
        omega

/-- Saving a game leaves the states for undoing alone. -/
theorem Layered.save {memory : Memory} {success : Bool} {later : Archive}
    (layered : archive.Layered ours depth pending peak)
    (kept : archive.save memory = .ok (success, later)) :
    later.Layered ours depth pending peak := by
  rcases layered with ⟨saved, history, rfl, layers⟩
  cases kept
  exact ⟨some memory.snapshot, history, rfl, layers⟩

end Layers

end Archive

end ZMachine
