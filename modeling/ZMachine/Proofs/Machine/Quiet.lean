import ZMachine.Proofs.Memory.Touch

/-!
# Quiet actions of the machine

Most of what an instruction does leaves the course of play alone: it computes, prints, reads input
or changes data. Such an action touches memory in the sense of `Memory.Touches`, asks the host for
something, diverts output or remembers a looked-up word. `Machine.Quiet` says that it does nothing
else. The program counter, the suspended routines, the archive and the views of the story's tables
stay as they are. An action that uses no variable is moreover `Machine.Calm`: of memory it changes
bytes only, and the locals and the evaluation stack stay as well.

The building blocks of the machine come first, then output and input, and last the operations that
are made of them.
-/

namespace ZMachine

namespace Dictionary

/-- The dictionary without the word that was looked up last. -/
def forget (dictionary : Dictionary) : Dictionary :=
  { dictionary with memo := none }

/-- At most, words have been looked up: the second dictionary is the first one, or it remembers the
answer that the memory gives for a word. -/
def Consults (memory : Memory) (codec : Codec) (before after : Dictionary) : Prop :=
  after = before ∨ ∃ word address, before.search memory codec word = .ok address ∧
    after = { before with memo := some (word, address) }

namespace Consults

variable {earlier later memory : Memory} {codec : Codec} {first second third : Dictionary}

/-- Only the last word counts, and the memory that it was looked up in. -/
theorem append (before : first.Consults earlier codec second)
    (after : second.Consults later codec third) :
    first.Consults earlier codec third ∨ first.Consults later codec third := by
  rcases after with rfl | ⟨word, address, found, rfl⟩
  · exact Or.inl before
  · refine Or.inr (Or.inr ⟨word, address, ?_⟩)
    rcases before with rfl | ⟨_, _, _, rfl⟩
    · exact ⟨found, rfl⟩
    · exact ⟨found, rfl⟩

instance : IsPreorder Dictionary (Consults memory codec) where
  refl := fun _ => Or.inl rfl
  trans := fun _ _ _ before after => (before.append after).elim id id

theorem forget (consults : first.Consults memory codec second) :
    second.forget = first.forget := by
  rcases consults with rfl | ⟨_, _, _, rfl⟩
  · rfl
  · rfl

end Consults

theorem consults_lookup (memory : Memory) (codec : Codec) (word : String) :
    Keeps (Consults memory codec) (lookup memory codec word) := by
  intro dictionary
  unfold stateAfter lookup
  cases dictionary.remembered? word with
  | some address => exact Or.inl rfl
  | none =>
      cases found : dictionary.search memory codec word with
      | error fault => exact Or.inl rfl
      | ok address => exact Or.inr ⟨word, address, found, rfl⟩

theorem consults_parse (memory : Memory) (codec : Codec) (tokens : List Token) :
    Keeps (Consults memory codec) (parse memory codec tokens) := by
  induction tokens with
  | nil => exact Keeps.pure []
  | cons token tokens ih =>
      refine (consults_lookup memory codec token.text).bind fun address => ?_
      exact ih.bind fun words => Keeps.pure _

/-- Filling a parse buffer looks words up and writes bytes, even if it fails half way. All words are
looked up before a byte is written. -/
theorem keeps_tokeniseInto (codec : Codec) (line : String) (buffer : Nat) (skipUnknown : Bool) :
    Keeps (fun before after : Dictionary × Memory =>
      before.1.Consults before.2 codec after.1 ∧ before.2.Writes after.2)
      (tokeniseInto codec line buffer skipUnknown) := by
  rintro ⟨dictionary, memory⟩
  have parsed := consults_parse memory codec (dictionary.tokenize line) dictionary
  unfold stateAfter tokeniseInto
  unfold stateAfter at parsed
  simp only
  cases run : parse memory codec (dictionary.tokenize line) dictionary with
  | error fault dictionary =>
      rw [run] at parsed
      exact ⟨parsed, Memory.Writes.refl memory⟩
  | ok words dictionary =>
      rw [run] at parsed
      have filled := ParseBuffer.writes_fill buffer skipUnknown words memory
      unfold stateAfter at filled
      simp only
      cases fill : ParseBuffer.fill buffer skipUnknown words memory with
      | error fault memory =>
          rw [fill] at filled
          exact ⟨parsed, filled⟩
      | ok count memory =>
          rw [fill] at filled
          exact ⟨parsed, filled⟩

end Dictionary

namespace Machine

variable {η : Type}

/-- Tables that output can be diverted to at the same time: there are not too many of them, and
their addresses are words. -/
structure FitTables (tables : List Nat) : Prop where
  count : tables.length ≤ maxTables
  words : ∀ table ∈ tables, table < 65536

/-- At most, words have been looked up in the dictionary, while memory was being touched. -/
def Consults (before after : Machine η) : Prop :=
  after.dictionary = before.dictionary ∨
    ∃ dictionary later memory, before.dictionary = some dictionary ∧
      after.dictionary = some later ∧ before.memory.Touches memory ∧
      dictionary.Consults memory before.codec later

theorem Consults.forget {before after : Machine η} (consults : before.Consults after) :
    after.dictionary.map (·.forget) = before.dictionary.map (·.forget) := by
  rcases consults with same | ⟨dictionary, later, memory, present, kept, _, words⟩
  · rw [same]
  · rw [present, kept, Option.map_some, Option.map_some, words.forget]

/-- Apart from memory, host and the choice of output streams, the machines are the same, except that
a dictionary may remember another word. -/
structure Alike (before after : Machine η) : Prop where
  decoder : after.decoder = before.decoder
  codec : after.codec = before.codec
  abbreviations : after.abbreviations = before.abbreviations
  objects : after.objects = before.objects
  dictionary : before.Consults after
  archive : after.archive = before.archive
  settings : after.settings = before.settings
  instructionCount : after.instructionCount = before.instructionCount
  tables : FitTables before.streams.tables → FitTables after.streams.tables

namespace Alike

theorem refl (machine : Machine η) : machine.Alike machine :=
  ⟨rfl, rfl, rfl, rfl, Or.inl rfl, rfl, rfl, rfl, id⟩

theorem trans {first second third : Machine η} (earlier : first.Alike second)
    (later : second.Alike third) (touches : first.memory.Touches second.memory) :
    first.Alike third where
  decoder := later.decoder.trans earlier.decoder
  codec := later.codec.trans earlier.codec
  abbreviations := later.abbreviations.trans earlier.abbreviations
  objects := later.objects.trans earlier.objects
  dictionary := by
    rcases later.dictionary with same | ⟨words, last, memory, present, kept, between, looked⟩
    · rcases earlier.dictionary with before | ⟨words, last, memory, present, kept, rest⟩
      · exact Or.inl (same.trans before)
      · exact Or.inr ⟨words, last, memory, present, same.trans kept, rest⟩
    · have whole := touches.trans between
      rw [earlier.codec] at looked
      rcases earlier.dictionary with before | ⟨first, middle, early, had, has, before, already⟩
      · exact Or.inr ⟨words, last, memory, before ▸ present, kept, whole, looked⟩
      · have same : middle = words := Option.some.inj (has.symm.trans present)
        subst same
        rcases already.append looked with consults | consults
        · exact Or.inr ⟨first, last, early, had, kept, before, consults⟩
        · exact Or.inr ⟨first, last, memory, had, kept, whole, consults⟩
  archive := later.archive.trans earlier.archive
  settings := later.settings.trans earlier.settings
  instructionCount := later.instructionCount.trans earlier.instructionCount
  tables := later.tables ∘ earlier.tables

end Alike

/-- The second machine is at the same point of play as the first: only data, the host and the choice
of output streams differ. -/
structure Quiet (before after : Machine η) : Prop where
  memory : before.memory.Touches after.memory
  alike : before.Alike after

namespace Quiet

theorem refl (machine : Machine η) : machine.Quiet machine :=
  ⟨Memory.Touches.refl _, Alike.refl _⟩

theorem trans {first second third : Machine η} (earlier : first.Quiet second)
    (later : second.Quiet third) : first.Quiet third :=
  ⟨earlier.memory.trans later.memory, earlier.alike.trans later.alike earlier.memory⟩

instance : IsPreorder (Machine η) Quiet where
  refl := refl
  trans := fun _ _ _ => trans

theorem of_memory {machine : Machine η} {memory : Memory}
    (touches : machine.memory.Touches memory) : machine.Quiet { machine with memory } :=
  ⟨touches, rfl, rfl, rfl, rfl, Or.inl rfl, rfl, rfl, rfl, id⟩

end Quiet

/-- The second machine is at the same point of play, and of its memory at most bytes differ. -/
structure Calm (before after : Machine η) : Prop where
  memory : before.memory.Writes after.memory
  alike : before.Alike after

namespace Calm

theorem refl (machine : Machine η) : machine.Calm machine :=
  ⟨Memory.Writes.refl _, Alike.refl _⟩

theorem trans {first second third : Machine η} (earlier : first.Calm second)
    (later : second.Calm third) : first.Calm third :=
  ⟨earlier.memory.trans later.memory, earlier.alike.trans later.alike earlier.memory.touches⟩

instance : IsPreorder (Machine η) Calm where
  refl := refl
  trans := fun _ _ _ => trans

theorem quiet {before after : Machine η} (calm : before.Calm after) : before.Quiet after :=
  ⟨calm.memory.touches, calm.alike⟩

theorem of_memory {machine : Machine η} {memory : Memory}
    (writes : machine.memory.Writes memory) : machine.Calm { machine with memory } :=
  ⟨writes, rfl, rfl, rfl, rfl, Or.inl rfl, rfl, rfl, rfl, id⟩

theorem of_host (machine : Machine η) (host : η) : machine.Calm { machine with host } :=
  ⟨Memory.Writes.refl _, rfl, rfl, rfl, rfl, Or.inl rfl, rfl, rfl, rfl, id⟩

theorem of_streams {machine : Machine η} {streams : Streams}
    (fits : FitTables machine.streams.tables → FitTables streams.tables) :
    machine.Calm { machine with streams } :=
  ⟨Memory.Writes.refl _, rfl, rfl, rfl, rfl, Or.inl rfl, rfl, rfl, rfl, fits⟩

end Calm

end Machine

theorem Keeps.quiet {η α : Type} {action : MachineM η α} (calm : Keeps Machine.Calm action) :
    Keeps Machine.Quiet action :=
  calm.mono Machine.Calm.quiet

namespace Machine

variable {η : Type}

theorem onMemory_apply {α : Type} (action : MemoryM α) (machine : Machine η) :
    onMemory action machine =
      match action machine.memory with
      | .ok value memory => .ok value { machine with memory }
      | .error fault memory => .error fault { machine with memory } := by
  cases machine
  rfl

section Results

variable {α : Type} {machine : Machine η} {value : α} {fault : Fault}

theorem onMemory_of_ok {action : MemoryM α} {memory : Memory}
    (success : action machine.memory = .ok value memory) :
    onMemory action machine = .ok value { machine with memory } := by
  rw [onMemory_apply, success]

theorem onMemory_of_error {action : MemoryM α} {memory : Memory}
    (failure : action machine.memory = .error fault memory) :
    onMemory action machine = .error fault { machine with memory } := by
  rw [onMemory_apply, failure]

theorem onMemory_eq_ok {action : MemoryM α} {after : Machine η} :
    onMemory action machine = .ok value after ↔
      ∃ memory, action machine.memory = .ok value memory ∧ after = { machine with memory } := by
  rw [onMemory_apply]
  cases action machine.memory with
  | ok result memory =>
      constructor
      · intro success
        cases success
        exact ⟨memory, rfl, rfl⟩
      · rintro ⟨_, same, rfl⟩
        cases same
        rfl
  | error fault memory =>
      constructor
      · intro success
        cases success
      · rintro ⟨_, impossible, _⟩
        cases impossible

theorem onMemory_eq_error {action : MemoryM α} {after : Machine η}
    (failed : onMemory action machine = .error fault after) :
    ∃ memory, action machine.memory = .error fault memory ∧ after = { machine with memory } := by
  rw [onMemory_apply] at failed
  cases run : action machine.memory with
  | ok result memory =>
      rw [run] at failed
      cases failed
  | error reason memory =>
      rw [run] at failed
      cases failed
      exact ⟨memory, rfl, rfl⟩

theorem inspect_of_ok {query : Machine η → Except Fault α} (success : query machine = .ok value) :
    inspect query machine = .ok value machine := by
  rw [inspect, success]

theorem inspect_of_error {query : Machine η → Except Fault α}
    (failure : query machine = .error fault) : inspect query machine = .error fault machine := by
  rw [inspect, failure]

/-- A view of the machine cannot fail and changes nothing. -/
theorem bind_view {β : Type} (view : Machine η → β) (next : β → MachineM η α)
    (machine : Machine η) :
    ((inspect fun machine => .ok (view machine)) >>= next) machine = next (view machine) machine :=
  rfl

end Results

theorem stateAfter_onMemory {α : Type} (action : MemoryM α) (machine : Machine η) :
    stateAfter (onMemory action) machine =
      { machine with memory := stateAfter action machine.memory } := by
  unfold stateAfter
  rw [onMemory_apply]
  cases action machine.memory with
  | ok value memory => rfl
  | error fault memory => rfl

theorem quiet_onMemory {α : Type} {action : MemoryM α} (touches : Keeps Memory.Touches action) :
    Keeps Quiet (onMemory action : MachineM η α) := by
  intro machine
  rw [stateAfter_onMemory]
  exact Quiet.of_memory (touches machine.memory)

theorem calm_onMemory {α : Type} {action : MemoryM α} (writes : Keeps Memory.Writes action) :
    Keeps Calm (onMemory action : MachineM η α) := by
  intro machine
  rw [stateAfter_onMemory]
  exact Calm.of_memory (writes machine.memory)

theorem calm_inspect {α : Type} (query : Machine η → Except Fault α) :
    Keeps Calm (inspect query) := by
  intro machine
  unfold stateAfter inspect
  cases query machine with
  | ok value => exact Calm.refl machine
  | error fault => exact Calm.refl machine

theorem calm_get : Keeps Calm (get : MachineM η (Machine η)) :=
  fun machine => Calm.refl machine

theorem calm_answer {α : Type} (blame : String → Fault) (request : η → Except String α × η) :
    Keeps Calm (answer blame request) := by
  intro machine
  unfold stateAfter answer
  rcases request machine.host with ⟨result, host⟩
  cases result with
  | ok value => exact Calm.of_host machine host
  | error reason => exact Calm.of_host machine host

theorem calm_display [Host η] (request : Request) : Keeps Calm (display request : MachineM η Unit)
    :=
  calm_answer _ _

theorem quiet_storeResult (instruction : Instruction) (value : UInt16) :
    Keeps Quiet (storeResult instruction value : MachineM η Unit) := by
  unfold storeResult
  cases instruction.store with
  | none => exact Keeps.pure ()
  | some name => exact quiet_onMemory (Memory.touches_writeVariable name value)

theorem calm_need (instruction : Instruction) (values : List UInt16) (index : Nat) :
    Keeps Calm (need instruction values index : MachineM η UInt16) := by
  unfold need
  cases values[index]? with
  | none => exact Keeps.throw _
  | some value => exact Keeps.pure value

theorem calm_unsupported {α : Type} (instruction : Instruction) :
    Keeps Calm (unsupported instruction : MachineM η α) :=
  Keeps.throw _

theorem calm_setStreams {change : Streams → Streams}
    (fits : ∀ streams, FitTables streams.tables → FitTables (change streams).tables) :
    Keeps Calm (setStreams change : MachineM η Unit) :=
  fun machine => Calm.of_streams (fits machine.streams)

theorem calm_outputText [Host η] (text : String) :
    Keeps Calm (outputText text : MachineM η Unit) := by
  refine calm_get.bind fun machine => ?_
  cases machine.streams.tables with
  | nil => exact Keeps.ite (Keeps.pure ()) (calm_display _)
  | cons table _ => exact calm_onMemory (writes_writeTable _ _ _)

theorem calm_outputNewLine [Host η] : Keeps Calm (outputNewLine : MachineM η Unit) :=
  (calm_inspect _).bind fun _ => Keeps.ite (calm_outputText _) (calm_display _)

theorem calm_setTranscript [Host η] (enabled : Bool) :
    Keeps Calm (setTranscript enabled : MachineM η Unit) := by
  unfold setTranscript
  have switched : Keeps Calm
      (setStreams ({ · with transcript := enabled }) : MachineM η Unit) :=
    calm_setStreams fun _ => id
  refine switched.bind fun _ => ?_
  refine (calm_inspect _).bind fun flags => ?_
  refine (calm_onMemory (Memory.writes_writeWord _ _)).bind fun _ => ?_
  exact calm_display _

/-- Opening a table is the one action that adds to the diversions; it makes sure that there is room
for one more. -/
theorem calm_openTable {table : Nat} (word : table < 65536) :
    Keeps Calm (openTable table : MachineM η Unit) := by
  intro machine
  rw [stateAfter, openTable, bind_view]
  by_cases full : maxTables ≤ machine.streams.tables.length
  · rw [if_pos full]
    exact Calm.refl machine
  · rw [if_neg full]
    have writes := Memory.writes_writeWord table 0
    cases run : Memory.writeWord table 0 machine.memory with
    | ok value memory =>
        rw [bind_of_ok (onMemory_of_ok run)]
        refine (Calm.of_memory (writes.of_ok run)).trans (Calm.of_streams ?_)
        intro fits
        refine ⟨?_, ?_⟩
        · simp only [List.length_cons]
          omega
        · intro other member
          rcases List.mem_cons.mp member with rfl | older
          · exact word
          · exact fits.words other older
    | error fault memory =>
        rw [bind_of_error (onMemory_of_error run)]
        exact Calm.of_memory (writes.of_error run)

theorem calm_selectStream [Host η] (stream : Int) (table : Option UInt16) :
    Keeps Calm (selectStream stream table : MachineM η Unit) := by
  unfold selectStream
  refine Keeps.ite (calm_setStreams fun _ => id) ?_
  refine Keeps.ite (calm_setStreams fun _ => id) ?_
  refine Keeps.ite (calm_setTranscript true) ?_
  refine Keeps.ite (calm_setTranscript false) ?_
  refine Keeps.ite ?_ ?_
  · cases table with
    | none => exact Keeps.throw _
    | some table => exact calm_openTable (UInt16.toNat_lt table)
  · refine Keeps.ite (calm_setStreams ?_) (Keeps.pure ())
    intro streams fits
    refine ⟨?_, ?_⟩
    · have := fits.count
      simp only [List.length_tail]
      omega
    · intro table member
      exact fits.words table (List.mem_of_mem_tail member)

theorem calm_printString [Host η] (address : Nat) :
    Keeps Calm (printString address : MachineM η Unit) :=
  (calm_inspect _).bind fun _ => calm_outputText _

theorem calm_printRows [Host η] (width stride count address : Nat) (first : Bool) :
    Keeps Calm (printRows width stride count address first : MachineM η Unit) := by
  induction count generalizing address first with
  | zero => exact Keeps.pure ()
  | succ count ih =>
      have rest : ∀ _ : Unit, Keeps Calm (do
          let row ← inspect fun machine : Machine η =>
            machine.memory.readText machine.codec width address ""
          outputText row
          printRows width stride count (address + stride) false) := by
        intro _
        refine (calm_inspect _).bind fun row => ?_
        exact (calm_outputText row).bind fun _ => ih (address + stride) false
      exact Keeps.ite (calm_outputNewLine.bind rest) ((Keeps.pure ()).bind rest)

theorem calm_showStatus [Host η] : Keeps Calm (showStatus : MachineM η Unit) := by
  refine calm_get.bind fun machine => Keeps.ite (Keeps.pure ()) ?_
  refine (calm_inspect _).bind fun location => ?_
  refine (calm_inspect _).bind fun first => ?_
  refine (calm_inspect _).bind fun second => ?_
  refine Keeps.ite ?_ ?_
  · exact (Keeps.pure "").bind fun name => calm_display _
  · exact (calm_inspect _).bind fun name => calm_display _

theorem calm_tokeniseLine (line : String) (parse : Nat) (skipUnknown : Bool)
    {otherwise : MachineM η Unit} (calm : Keeps Calm otherwise) :
    Keeps Calm (tokeniseLine line parse skipUnknown otherwise) := by
  intro machine
  unfold stateAfter tokeniseLine
  cases present : machine.dictionary with
  | none => exact calm machine
  | some dictionary =>
      have kept := Dictionary.keeps_tokeniseInto machine.codec line parse skipUnknown
        (dictionary, machine.memory)
      unfold stateAfter at kept
      have alike : ∀ {later : Dictionary} {memory : Memory},
          dictionary.Consults machine.memory machine.codec later → machine.memory.Writes memory →
          machine.Calm { machine with memory, dictionary := some later } := by
        intro later memory words writes
        refine ⟨writes, rfl, rfl, rfl, rfl, Or.inr ?_, rfl, rfl, rfl, id⟩
        exact ⟨dictionary, later, machine.memory, present, rfl, .refl _, words⟩
      simp only
      cases run : Dictionary.tokeniseInto machine.codec line parse skipUnknown
          (dictionary, machine.memory) with
      | ok count later =>
          rw [run] at kept
          exact alike kept.1 kept.2
      | error fault later =>
          rw [run] at kept
          exact alike kept.1 kept.2

theorem calm_readLine [Host η] (text parse : Nat) :
    Keeps Calm (readLine text parse : MachineM η Unit) := by
  refine (calm_inspect _).bind fun version => ?_
  have rest : ∀ _ : Unit, Keeps Calm (do
      let size ← inspect fun machine : Machine η => machine.memory.readByte text
      let capacity := bufferCapacity version size.toNat
      let line ← answer .input (Host.readLine capacity)
      let codec ← inspect fun machine => .ok machine.codec
      let codes := bufferCodes codec capacity line
      onMemory (writeBuffer version text codes)
      if parse ≠ 0 then
        tokeniseLine (bufferText codec codes) parse false
          (onMemory (Memory.writeByte (parse + 1) 0))) := by
    intro _
    refine (calm_inspect _).bind fun size => ?_
    refine (calm_answer _ _).bind fun line => ?_
    refine (calm_inspect _).bind fun codec => ?_
    refine (calm_onMemory (writes_writeBuffer _ _ _)).bind fun _ => ?_
    refine Keeps.ite (calm_tokeniseLine _ _ _ ?_) (Keeps.pure ())
    exact calm_onMemory (Memory.writes_writeByte _ _)
  exact Keeps.ite (calm_showStatus.bind rest) (rest ())

theorem calm_readKey [Host η] : Keeps Calm (readKey : MachineM η UInt16) := by
  refine (calm_answer _ _).bind fun key => ?_
  exact (calm_inspect _).bind fun codec => Keeps.ite (Keeps.pure _) (Keeps.pure _)

theorem calm_tokenise (text parse dictionary : Nat) (skipUnknown : Bool) :
    Keeps Calm (tokenise text parse dictionary skipUnknown : MachineM η Unit) := by
  refine (calm_inspect _).bind fun length => ?_
  refine (calm_inspect _).bind fun line => ?_
  refine Keeps.ite (calm_tokeniseLine _ _ _ (Keeps.pure ())) ?_
  refine (calm_inspect _).bind fun words => ?_
  refine (calm_inspect _).bind fun codec => ?_
  apply calm_onMemory
  intro memory
  have kept := Dictionary.keeps_tokeniseInto codec line parse skipUnknown (words, memory)
  unfold stateAfter at kept ⊢
  simp only
  cases run : Dictionary.tokeniseInto codec line parse skipUnknown (words, memory) with
  | ok count later =>
      rw [run] at kept
      exact kept.2
  | error fault later =>
      rw [run] at kept
      exact kept.2

theorem calm_encodeText (text length start target : Nat) :
    Keeps Calm (encodeText text length start target : MachineM η Unit) := by
  refine (calm_inspect _).bind fun word => ?_
  refine (calm_inspect _).bind fun codec => ?_
  exact calm_onMemory (writes_writeWords _ _)

theorem quiet_updateVariable (name : UInt8) (change : UInt16 → UInt16) :
    Keeps Quiet (updateVariable name change : MachineM η UInt16) := by
  refine (calm_inspect _).quiet.bind fun value => ?_
  exact (quiet_onMemory (Memory.touches_pokeVariable _ _)).bind fun _ => Keeps.pure _

theorem calm_randomNumber [Host η] (range : Int) :
    Keeps Calm (randomNumber range : MachineM η UInt16) := by
  intro machine
  unfold stateAfter randomNumber
  by_cases positive : 0 < range
  · rw [if_pos positive]
    exact Calm.of_host machine _
  · rw [if_neg positive]
    by_cases negative : range < 0
    · rw [if_pos negative]
      exact Calm.of_host machine _
    · rw [if_neg negative]
      exact Calm.of_host machine _

theorem calm_askObject {α : Type} (object : UInt16) (nothing : α)
    (question : ObjectTable → Memory → Nat → Except Fault α) :
    Keeps Calm (askObject object nothing question : MachineM η α) :=
  Keeps.ite (Keeps.pure nothing) (calm_inspect _)

theorem calm_needProperty (instruction : Instruction) (values : List UInt16) :
    Keeps Calm (needProperty instruction values : MachineM η Nat) :=
  (calm_need _ _ _).bind fun _ => Keeps.pure _

theorem calm_printing [Host η] (instruction : Instruction) (opcode : Opcode)
    (values : List UInt16) : Keeps Calm (printing instruction opcode values : MachineM η Unit) := by
  unfold printing
  split
  · cases instruction.text with
    | none => exact Keeps.pure ()
    | some text => exact calm_outputText text
  · exact (calm_need _ _ _).bind fun address => calm_printString _
  · refine (calm_need _ _ _).bind fun packed => ?_
    exact (calm_inspect _).bind fun address => calm_printString _
  · refine (calm_need _ _ _).bind fun zscii => ?_
    refine (calm_inspect _).bind fun codec => ?_
    cases codec.charOfZscii zscii.toNat with
    | none => exact Keeps.pure ()
    | some c => exact calm_outputText _
  · exact (calm_need _ _ _).bind fun number => calm_outputText _
  · exact (calm_need _ _ _).bind fun code => calm_outputText _
  · refine (calm_need _ _ _).bind fun start => ?_
    exact (calm_need _ _ _).bind fun width => calm_printRows _ _ _ _ _
  · exact calm_outputNewLine
  · exact calm_showStatus
  · exact calm_unsupported instruction

theorem calm_screenModel [Host η] (instruction : Instruction) (opcode : Opcode)
    (values : List UInt16) :
    Keeps Calm (screenModel instruction opcode values : MachineM η Unit) := by
  unfold screenModel
  split
  · exact (calm_need _ _ _).bind fun lines => calm_display _
  · exact (calm_need _ _ _).bind fun window => calm_display _
  · exact (calm_need _ _ _).bind fun window => calm_display _
  · exact (calm_need _ _ _).bind fun value => calm_display _
  · refine (calm_need _ _ _).bind fun line => ?_
    exact (calm_need _ _ _).bind fun column => calm_display _
  · refine (calm_need _ _ _).bind fun table => ?_
    refine (calm_answer _ _).bind fun cursor => ?_
    refine (calm_onMemory (Memory.writes_writeWord _ _)).bind fun _ => ?_
    exact calm_onMemory (Memory.writes_writeWord _ _)
  · exact (calm_need _ _ _).bind fun style => calm_display _
  · exact (calm_need _ _ _).bind fun flag => calm_display _
  · refine (calm_need _ _ _).bind fun foreground => ?_
    exact (calm_need _ _ _).bind fun background => calm_display _
  · exact Keeps.pure ()
  · exact calm_display _
  · exact calm_unsupported instruction

end Machine

end ZMachine
