import ZMachine.Proofs.Machine.Saving

/-!
# The history for undoing

An archive keeps snapshots, and only so many of them for undoing. `Archive.Ledger` is what it stands
for: the memory that was saved last, and every memory that was noted for undoing and has not been
undone yet. A session is any sequence of requests to one archive while one story is being played.
Throughout a session the history consists of the pending memories that have been among the newest
ones ever since they were noted. One that has dropped out of the history does not come back when
newer ones are undone.
-/

namespace ZMachine

namespace Archive

/-- A memory that was noted for undoing and has not been undone. -/
structure Noted where
  state : Memory
  /-- The largest number of newer ones that have been pending at a time. -/
  peak : Nat := 0

/-- What an archive has been asked to keep. -/
structure Ledger where
  /-- The memory that was saved last. -/
  saved : Option Memory := none
  /-- What was noted for undoing and has not been undone, the newest first. -/
  pending : List Noted := []

/-- The pending ones under a number of newer ones: the first has that many above it, the next one
more. -/
def covered (pending : List Noted) (newer : Nat) : List Noted :=
  pending.mapIdx fun place noted => { noted with peak := max noted.peak (place + newer) }

/-- The pending memories that have been among the newest `depth` ones ever since they were noted. -/
def kept (pending : List Noted) (depth : Nat) : List Memory :=
  (pending.filter (·.peak < depth)).map (·.state)

namespace Ledger

/-- Notes a memory for undoing. -/
def note (ledger : Ledger) (memory : Memory) : Ledger :=
  { ledger with pending := { state := memory } :: covered ledger.pending 1 }

/-- Undoes the newest one. -/
def undo (ledger : Ledger) : Ledger :=
  { ledger with pending := ledger.pending.tail }

/-- The archive that keeps what it has been asked to keep, as far as there is room. -/
def archive (ledger : Ledger) (depth : Nat) : Archive :=
  .snapshots (ledger.saved.map (·.snapshot)) ((kept ledger.pending depth).map (·.snapshot)) depth

end Ledger

/-- Any sequence of requests to an archive with room for `depth` states, while one story is played in
any way. -/
inductive Session (depth : Nat) (story : Memory) : Archive → Memory → Ledger → Prop where
  | start : Session depth story (.empty depth) story {}
  | play {archive : Archive} {memory later : Memory} {ledger : Ledger}
      (earlier : Session depth story archive memory ledger) (played : memory.Protects later) :
      Session depth story archive later ledger
  | save {archive after : Archive} {memory : Memory} {ledger : Ledger} {success : Bool}
      (earlier : Session depth story archive memory ledger)
      (saved : archive.save memory = .ok (success, after)) :
      Session depth story after memory { ledger with saved := some memory }
  | restore {archive : Archive} {memory later : Memory} {ledger : Ledger} {success : Bool}
      (earlier : Session depth story archive memory ledger)
      (restored : archive.restore memory = .ok success later) :
      Session depth story archive later ledger
  | saveUndo {archive : Archive} {memory : Memory} {ledger : Ledger}
      (earlier : Session depth story archive memory ledger) :
      Session depth story (archive.saveUndo memory).2 memory (ledger.note memory)
  | restoreUndo {archive after : Archive} {memory later : Memory} {ledger : Ledger} {success : Bool}
      (earlier : Session depth story archive memory ledger)
      (undone : Archive.restoreUndo (archive, memory) = .ok success (after, later)) :
      Session depth story after later (if success then ledger.undo else ledger)

section Pending

variable {pending : List Noted}

/-- Of two pending ones, the older has always had more newer ones. -/
def Stacked (pending : List Noted) : Prop :=
  pending.Pairwise fun newer older => newer.peak < older.peak

theorem covered_cons (noted : Noted) (pending : List Noted) (newer : Nat) :
    covered (noted :: pending) newer =
      { noted with peak := max noted.peak newer } :: covered pending (newer + 1) := by
  simp [covered, Nat.add_comm, Nat.add_left_comm]

theorem peak_covered {noted : Noted} {newer : Nat} (listed : noted ∈ covered pending newer) :
    newer ≤ noted.peak ∧ ∃ before ∈ pending, before.peak ≤ noted.peak := by
  simp only [covered, List.mem_mapIdx] at listed
  rcases listed with ⟨place, inside, rfl⟩
  refine ⟨by simp only; omega, pending[place], List.getElem_mem inside, by simp only; omega⟩

theorem Stacked.covered (stacked : Stacked pending) (newer : Nat) :
    Stacked (covered pending newer) := by
  induction pending generalizing newer with
  | nil => exact List.Pairwise.nil
  | cons noted pending ih =>
      rcases List.pairwise_cons.mp stacked with ⟨first, rest⟩
      rw [covered_cons]
      refine List.pairwise_cons.mpr ⟨?_, ih rest (newer + 1)⟩
      intro later listed
      rcases peak_covered listed with ⟨more, before, among, less⟩
      have := first before among
      simp only
      omega

theorem kept_zero (pending : List Noted) : kept pending 0 = [] := by
  simp [kept]

theorem kept_cons_of_lt {noted : Noted} {depth : Nat} (shallow : noted.peak < depth)
    (pending : List Noted) :
    kept (noted :: pending) depth = noted.state :: kept pending depth := by
  simp [kept, shallow]

/-- What is under one that has been lost has been lost as well. -/
theorem kept_cons_of_le {noted : Noted} {depth : Nat} (stacked : Stacked (noted :: pending))
    (deep : depth ≤ noted.peak) : kept (noted :: pending) depth = [] := by
  have first := (List.pairwise_cons.mp stacked).1
  simp only [kept, List.map_eq_nil_iff, List.filter_eq_nil_iff, List.forall_mem_cons,
    decide_eq_true_eq]
  refine ⟨by omega, ?_⟩
  intro older listed
  have := first older listed
  omega

theorem length_kept_le {depth least : Nat} (stacked : Stacked pending)
    (bounded : ∀ noted ∈ pending, least ≤ noted.peak) :
    (kept pending depth).length ≤ depth - least := by
  induction pending generalizing least with
  | nil => simp [kept]
  | cons noted pending ih =>
      rcases List.pairwise_cons.mp stacked with ⟨first, rest⟩
      have low := bounded noted (List.mem_cons_self ..)
      by_cases shallow : noted.peak < depth
      · have fewer : (kept pending depth).length ≤ depth - (noted.peak + 1) := ih rest first
        rw [kept_cons_of_lt shallow, List.length_cons]
        omega
      · simp [kept_cons_of_le stacked (Nat.le_of_not_lt shallow)]

/-- Each newer one takes away room for one. -/
theorem kept_covered (stacked : Stacked pending) (depth newer : Nat) :
    kept (covered pending newer) depth = (kept pending depth).take (depth - newer) := by
  induction pending generalizing newer with
  | nil => simp [covered, kept]
  | cons noted pending ih =>
      have covering := stacked.covered newer
      rw [covered_cons] at covering ⊢
      by_cases room : max noted.peak newer < depth
      · have shallow : noted.peak < depth := by omega
        have more : depth - newer = depth - (newer + 1) + 1 := by omega
        rw [kept_cons_of_lt room, kept_cons_of_lt shallow, more, List.take_succ_cons,
          ih (List.pairwise_cons.mp stacked).2]
      · rw [kept_cons_of_le covering (Nat.le_of_not_lt room)]
        by_cases deep : depth ≤ noted.peak
        · simp [kept_cons_of_le stacked deep]
        · have full : depth - newer = 0 := by omega
          simp [full]

/-- The newest of the history is the newest pending one. -/
theorem pending_of_kept {depth : Nat} {newest : Memory} {older : List Memory}
    (stacked : Stacked pending) (left : kept pending depth = newest :: older) :
    ∃ noted rest, pending = noted :: rest ∧ noted.state = newest ∧ kept rest depth = older := by
  cases pending with
  | nil => simp [kept] at left
  | cons noted rest =>
      by_cases shallow : noted.peak < depth
      · rw [kept_cons_of_lt shallow] at left
        exact ⟨noted, rest, rfl, List.cons.inj left⟩
      · simp [kept_cons_of_le stacked (Nat.le_of_not_lt shallow)] at left

end Pending

/-- The archive keeps what its ledger says, all of it from one story. -/
structure Accounts (depth : Nat) (story : Memory) (archive : Archive) (memory : Memory)
    (ledger : Ledger) : Prop where
  memory : story.Protects memory
  saved : ∀ state, ledger.saved = some state → story.Protects state
  pending : ∀ noted ∈ ledger.pending, story.Protects noted.state
  stacked : Stacked ledger.pending
  archive : archive = ledger.archive depth

namespace Accounts

variable {depth : Nat} {story memory : Memory} {archive : Archive} {ledger : Ledger}
  (accounts : Accounts depth story archive memory ledger)

include accounts

theorem saveUndo_eq :
    archive.saveUndo memory = (decide (depth ≠ 0), (ledger.note memory).archive depth) := by
  rw [accounts.archive]
  cases depth with
  | zero => simp [Archive.saveUndo, Ledger.archive, Ledger.note, kept_zero]
  | succ depth =>
      have newest : kept ({ state := memory } :: covered ledger.pending 1) (depth + 1) =
          memory :: (kept ledger.pending (depth + 1)).take depth := by
        rw [kept_cons_of_lt (Nat.succ_pos depth), kept_covered accounts.stacked]
        rfl
      simp [Archive.saveUndo, Ledger.archive, Ledger.note, newest]

theorem note : Accounts depth story (archive.saveUndo memory).2 memory (ledger.note memory) where
  memory := accounts.memory
  saved := accounts.saved
  pending := by
    intro noted listed
    rcases List.mem_cons.mp listed with rfl | older
    · exact accounts.memory
    · simp only [covered, List.mem_mapIdx] at older
      rcases older with ⟨place, inside, rfl⟩
      exact accounts.pending ledger.pending[place] (List.getElem_mem inside)
  stacked := by
    refine List.pairwise_cons.mpr ⟨?_, accounts.stacked.covered 1⟩
    intro older listed
    exact (peak_covered listed).1
  archive := by rw [accounts.saveUndo_eq]

variable (mapped : story.Mapped)

include mapped

/-- A snapshot of a memory of the story gives that memory back. -/
theorem restoreSnapshot_eq {state : Memory} (same : story.Protects state) :
    Memory.restoreSnapshot state.snapshot memory = .ok () state :=
  Memory.restoreSnapshot_snapshot (same.mapped mapped) (same.symm.trans accounts.memory)

theorem restore_eq :
    archive.restore memory =
      match ledger.saved with
      | none => .ok false memory
      | some state => .ok true state := by
  cases saved : ledger.saved with
  | none =>
      rw [accounts.archive, Ledger.archive, saved]
      rfl
  | some state =>
      have went := accounts.restoreSnapshot_eq mapped (accounts.saved state saved)
      refine restore_of_saved ?_ went
      rw [accounts.archive, Ledger.archive, saved]
      rfl

theorem restoreUndo_of_kept {newest : Memory} {older : List Memory}
    (left : kept ledger.pending depth = newest :: older) :
    ledger.pending.head?.map (·.state) = some newest ∧
      ledger.undo.archive depth =
        .snapshots (ledger.saved.map (·.snapshot)) (older.map (·.snapshot)) depth ∧
      Archive.restoreUndo (archive, memory) = .ok true (ledger.undo.archive depth, newest) := by
  rcases pending_of_kept accounts.stacked left with ⟨noted, rest, listed, rfl, others⟩
  have went := accounts.restoreSnapshot_eq mapped
    (accounts.pending noted (listed ▸ List.mem_cons_self ..))
  have undone : ledger.undo.archive depth =
      .snapshots (ledger.saved.map (·.snapshot)) (older.map (·.snapshot)) depth := by
    rw [Ledger.archive, Ledger.undo, listed, List.tail_cons, others]
  refine ⟨by rw [listed]; rfl, undone, ?_⟩
  have shape : archive.takeUndo = (some noted.state.snapshot, ledger.undo.archive depth) := by
    rw [accounts.archive, Ledger.archive, left, undone]
    rfl
  have gone := restoreUndo_of_taken (congrArg Prod.fst shape) went
  rwa [shape] at gone

omit mapped in
theorem restoreUndo_of_none (left : kept ledger.pending depth = []) :
    Archive.restoreUndo (archive, memory) = .ok false (archive, memory) := by
  rw [accounts.archive, Ledger.archive, left]
  rfl

end Accounts

/-- Every request leaves the archive as its ledger says: memory may change, but never to one of another
story, so whatever is taken out of the archive fits. -/
theorem Session.accounts {depth : Nat} {story memory : Memory} {archive : Archive} {ledger : Ledger}
    (mapped : story.Mapped) (session : Session depth story archive memory ledger) :
    Accounts depth story archive memory ledger := by
  induction session with
  | start => exact ⟨.refl story, by simp, by simp, List.Pairwise.nil, rfl⟩
  | play _ played ih => exact { ih with memory := ih.memory.trans played }
  | @save archive after memory ledger success earlier saved ih =>
      refine ⟨ih.memory, ?_, ih.pending, ih.stacked, ?_⟩
      · rintro state ⟨⟩
        exact ih.memory
      · rw [ih.archive] at saved
        cases saved
        rfl
  | @restore archive memory later ledger success earlier restored ih =>
      refine { ih with memory := ?_ }
      rw [ih.restore_eq mapped] at restored
      cases saved : ledger.saved with
      | none =>
          rw [saved] at restored
          cases restored
          exact ih.memory
      | some state =>
          rw [saved] at restored
          cases restored
          exact ih.saved _ saved
  | saveUndo _ ih => exact ih.note
  | @restoreUndo archive after memory later ledger success earlier undone ih =>
      cases left : kept ledger.pending depth with
      | nil =>
          rw [ih.restoreUndo_of_none left] at undone
          cases undone
          exact ih
      | cons newest older =>
          rcases ih.restoreUndo_of_kept mapped left with ⟨first, _, went⟩
          rw [went] at undone
          cases undone
          rcases pending_of_kept ih.stacked left with ⟨noted, rest, listed, rfl, _⟩
          refine ⟨?_, ih.saved, ?_, ?_, rfl⟩
          · exact ih.pending noted (listed ▸ List.mem_cons_self ..)
          · intro other among
            exact ih.pending other (List.mem_of_mem_tail among)
          · exact ih.stacked.tail

/-- Playing reaches any memory of the story. -/
theorem Session.reach {depth : Nat} {story memory later : Memory} {archive : Archive}
    {ledger : Ledger} (mapped : story.Mapped)
    (session : Session depth story archive memory ledger) (same : story.Protects later) :
    Session depth story archive later ledger :=
  session.play ((session.accounts mapped).memory.symm.trans same)

/-- Undoing never fails in a session, so it is always one of its requests. -/
theorem Session.takeUndo {depth : Nat} {story memory : Memory} {archive : Archive} {ledger : Ledger}
    (mapped : story.Mapped) (session : Session depth story archive memory ledger) :
    ∃ later ledger, Session depth story archive.takeUndo.2 later ledger := by
  have accounts := session.accounts mapped
  rcases restoreUndo_cases archive memory with
    ⟨_, later, _, _, undone⟩ | undone | ⟨misfit, failed⟩
  · exact ⟨later, _, session.restoreUndo undone⟩
  · exact ⟨memory, _, session.restoreUndo undone⟩
  · cases left : kept ledger.pending depth with
    | nil =>
        rw [accounts.restoreUndo_of_none left] at failed
        cases failed
    | cons newest older =>
        rw [(accounts.restoreUndo_of_kept mapped left).2.2] at failed
        cases failed

end Archive

/-- Every run of a machine is a session of its archive. -/
theorem Machine.session_of_run {η : Type} [Host η] {settings : Settings} {image : Image} {host : η}
    {depth : Nat} {machine last : Machine η}
    (started : start settings image host (.empty depth) = .ok machine)
    (run : Run (fun _ => True) machine last) :
    ∃ ledger, Archive.Session depth machine.memory last.archive last.memory ledger := by
  have starts := starts_of_start started
  have mapped := Memory.mapped_of_load starts.memory
  refine run.keeps (fun middle => ∃ ledger,
    Archive.Session depth machine.memory middle.archive middle.memory ledger) ⟨{}, ?_⟩ ?_
  · rw [starts.archive]
    exact .start
  · rintro middle _ ⟨ledger, session⟩
    have protects := (session.accounts mapped).memory
    have reached := protects.trans (protects_next (protects.mapped mapped))
    rcases (views_next middle).2 with same | ⟨instruction, opcode, values, ready, performs, archive⟩
    · rw [same]
      exact ⟨ledger, session.reach mapped reached⟩
    · rcases protects_stateToSave performs with ⟨toSave, seen, _⟩
      rw [archive]
      unfold archiveAfter
      rw [performs.archive]
      split
      · split
        · exact ⟨ledger, session.reach mapped reached⟩
        · rename_i saved
          exact ⟨_, ((session.play toSave.symm).save saved).reach mapped reached⟩
      · exact ⟨_, (session.play seen.symm).saveUndo.reach mapped reached⟩
      · rcases session.takeUndo mapped with ⟨_, later, undone⟩
        exact ⟨later, undone.reach mapped reached⟩
      · exact ⟨ledger, session.reach mapped reached⟩

namespace Archive

/-- A state of play that does not fit is refused, and memory is left alone. Undoing uses it up. -/
theorem restore_of_misfit {misfit : Snapshot} {memory : Memory}
    (differs : misfit.dynamic.size ≠ memory.header.staticBase) (saved : Option Snapshot)
    (history : List Snapshot) (depth : Nat) :
    ∃ fault, Memory.restoreSnapshot misfit memory = .error fault memory ∧
      (snapshots (some misfit) history depth).restore memory = .error fault memory ∧
      restoreUndo (.snapshots saved (misfit :: history) depth, memory) =
        .error fault (.snapshots saved history depth, memory) := by
  have refused : Memory.restoreSnapshot misfit memory = .error (.invalidText (.snapshotSize
      misfit.dynamic.size memory.header.staticBase)) memory := by
    rw [Memory.restoreSnapshot, if_pos differs]
  refine ⟨_, refused, bind_of_error refused, ?_⟩
  simp only [restoreUndo, takeUndo, refused]

/-- Undoing goes by a stack of memories of limited depth. Throughout a session, the history for
undoing consists of the pending memories that have always been among the newest ones, and the saved
game is the memory that was saved last; neither depends on the other. Noting is refused exactly if the
history has no room at all. Undoing succeeds exactly if the history is not empty, and gives back the
newest pending memory, which alone is used up. -/
theorem undo_goes_by_stack {depth : Nat} {story memory : Memory} {archive : Archive}
    {ledger : Ledger} (mapped : story.Mapped)
    (session : Session depth story archive memory ledger) :
    archive = ledger.archive depth ∧
    archive.undoCount ≤ depth ∧
    archive.save memory = .ok (true, { ledger with saved := some memory }.archive depth) ∧
    archive.restore memory =
      (match ledger.saved with
      | none => .ok false memory
      | some state => .ok true state) ∧
    archive.saveUndo memory = (decide (depth ≠ 0), (ledger.note memory).archive depth) ∧
    (depth = 0 → (archive.saveUndo memory).2 = archive) ∧
    (kept ledger.pending depth = [] →
      restoreUndo (archive, memory) = .ok false (archive, memory)) ∧
    (∀ newest older, kept ledger.pending depth = newest :: older →
      ledger.pending.head?.map (·.state) = some newest ∧
      restoreUndo (archive, memory) = .ok true
        (.snapshots (ledger.saved.map (·.snapshot)) (older.map (·.snapshot)) depth, newest)) ∧
    ∀ misfit other, misfit.dynamic.size ≠ other.header.staticBase → ∀ saved history,
      ∃ fault, Memory.restoreSnapshot misfit other = .error fault other ∧
        (snapshots (some misfit) history depth).restore other = .error fault other ∧
        restoreUndo (.snapshots saved (misfit :: history) depth, other) =
          .error fault (.snapshots saved history depth, other) := by
  have accounts := session.accounts mapped
  refine ⟨accounts.archive, ?_, ?_, accounts.restore_eq mapped, accounts.saveUndo_eq, ?_,
    accounts.restoreUndo_of_none, ?_, ?_⟩
  · have few : (kept ledger.pending depth).length ≤ depth - 0 :=
      length_kept_le accounts.stacked fun _ _ => Nat.zero_le _
    rw [accounts.archive]
    simpa [undoCount, Ledger.archive] using few
  · rw [accounts.archive]
    rfl
  · rintro rfl
    apply saveUndo_of_refused
    rw [accounts.saveUndo_eq]
    rfl
  · intro newest older left
    rcases accounts.restoreUndo_of_kept mapped left with ⟨first, shape, undone⟩
    exact ⟨first, shape ▸ undone⟩
  · intro misfit other differs saved history
    exact restore_of_misfit differs saved history depth

/-- A small story that has stored a byte in its dynamic memory. -/
def marked (value : UInt8) : Memory :=
  let story := (Machine.sample 5 [] .absent).memory
  { story with bytes := story.bytes.setByte 64 value }

theorem staticBase_marked (value : UInt8) : (marked value).header.staticBase = 80 := rfl

theorem size_marked (value : UInt8) : (marked value).bytes.size = 80 :=
  Image.size_setByte _ 64 value

theorem mapped_marked (value : UInt8) : (marked value).Mapped := by
  refine ⟨?_, ?_, ?_⟩
  · simp [staticBase_marked, Header.size]
  · simp [staticBase_marked, size_marked]
  · rw [size_marked]
    rfl

theorem protects_marked (first second : UInt8) : (marked first).Protects (marked second) := by
  refine ⟨rfl, rfl, by simp [size_marked], ?_⟩
  intro address static
  rw [staticBase_marked] at static
  simp only [marked]
  rw [Image.byteAt_setByte_of_ne (by omega), Image.byteAt_setByte_of_ne (by omega)]

/-- With room for two, three memories are noted and the newest one is undone. -/
theorem session_marked :
    Session 2 (marked 0) (.snapshots none [(marked 2).snapshot] 2) (marked 3)
      { pending := [⟨marked 2, 1⟩, ⟨marked 1, 2⟩] } := by
  have begins : Session 2 (marked 0) (.empty 2) (marked 0) {} := .start
  have first := (begins.play (protects_marked 0 1)).saveUndo
  have second := (first.play (protects_marked 1 2)).saveUndo
  have third := (second.play (protects_marked 2 3)).saveUndo
  have went := Memory.restoreSnapshot_snapshot (mapped_marked 3) (.refl (marked 3))
  exact third.restoreUndo (restoreUndo_of_taken rfl went)

/-- The history does not always consist of the newest pending memories: one that has dropped out does
not come back when newer ones are undone. -/
theorem history_lacks_dropped :
    ¬ ∀ {archive : Archive} {memory : Memory} {ledger : Ledger},
      Session 2 (marked 0) archive memory ledger →
        archive = .snapshots (ledger.saved.map (·.snapshot))
          ((ledger.pending.take 2).map (·.state.snapshot)) 2 := by
  intro newest
  have count := congrArg undoCount (newest session_marked)
  simp [undoCount] at count

/-- The one that is left is undone next, and then there is none. -/
theorem undo_goes_by_stack_marked :
    (marked 0).Mapped ∧
    restoreUndo (.snapshots none [(marked 2).snapshot] 2, marked 3) =
      .ok true (.snapshots none [] 2, marked 2) ∧
    restoreUndo (.snapshots none [] 2, marked 2) = .ok false (.snapshots none [] 2, marked 2) := by
  have mapped := mapped_marked 0
  rcases undo_goes_by_stack mapped session_marked with ⟨_, _, _, _, _, _, _, undoes, _⟩
  rcases undoes (marked 2) [] rfl with ⟨_, undone⟩
  rcases undo_goes_by_stack mapped (session_marked.restoreUndo undone) with
    ⟨_, _, _, _, _, _, exhausted, _, _⟩
  exact ⟨mapped, undone, exhausted rfl⟩

end Archive

end ZMachine
