import ZMachine.Proofs.Machine.Addressing
import ZMachine.Proofs.Machine.Isolation
import ZMachine.Proofs.Machine.Saving

/-!
# Sound machines

Every limit of the machine is checked at one place only: the memory map when a story is loaded, the
number of locals when a routine is called, the height of the evaluation stack when a value is pushed,
the nesting of diverted output when a table is opened. `Machine.Sound` collects what follows for the
running routine, for those that wait for it and for those in saved states of play. It is built up
from frames to memory, to states of play and to the whole machine. It holds when a story is started,
and every step keeps it.
-/

namespace ZMachine

/-- A frame keeps to the limits of its routine, and the locals that the routine does not have are
zero. -/
structure Frame.Sound (frame : Frame) : Prop where
  returnPc : frame.returnPc < addressCount
  localCount : frame.localCount ≤ Memory.maxLocals
  argCount : frame.argCount < Operand.maxCount
  stack : frame.stack.length ≤ Memory.stackLimit
  unused : ∀ number, frame.localCount < number → frame.getLocal number = 0

namespace Frame

theorem sound_called {returnPc localCount : Nat} {returnStore : Option UInt8}
    (fits : returnPc < addressCount) (few : localCount ≤ Memory.maxLocals) :
    ({ returnPc, localCount, returnStore } : Frame).Sound := by
  refine ⟨fits, few, by simp [Operand.maxCount], Nat.zero_le _, ?_⟩
  intro number _
  simp only [getLocal, Vector.getElem?_replicate]
  split
  · rfl
  · rfl

theorem Sound.of_touches {before after : Frame} (sound : before.Sound)
    (touches : before.Touches after) : after.Sound where
  returnPc := by
    rw [touches.returnPc]
    exact sound.returnPc
  localCount := by
    rw [touches.localCount]
    exact sound.localCount
  argCount := by
    rw [touches.argCount]
    exact sound.argCount
  stack := touches.stack sound.stack
  unused := by
    intro number above
    rw [touches.localCount] at above
    rw [touches.unused number above]
    exact sound.unused number above

end Frame

namespace Memory

/-- The memory map makes sense, the program counter is an address, and so are the places to return to.
-/
structure Sound (memory : Memory) : Prop where
  mapped : memory.Mapped
  high : memory.header.staticBase ≤ memory.header.highBase
  bounded : memory.Bounded
  initialPc : memory.header.initialPc < addressCount
  pc : memory.pc < addressCount
  frames : ∀ frame ∈ memory.calls, frame.Sound

theorem Protects.bounded {before after : Memory} (protects : before.Protects after)
    (bounded : before.Bounded) : after.Bounded :=
  bounded.of_same protects.header protects.size

namespace Sound

theorem of_protects {before after : Memory} (sound : before.Sound)
    (protects : before.Protects after) (pc : after.pc < addressCount)
    (frames : ∀ frame ∈ after.calls, frame.Sound) : after.Sound where
  mapped := protects.mapped sound.mapped
  high := by
    rw [protects.header]
    exact sound.high
  bounded := protects.bounded sound.bounded
  initialPc := by
    rw [protects.header]
    exact sound.initialPc
  pc := pc
  frames := frames

theorem withPc {memory : Memory} (sound : memory.Sound) {pc : Nat} (fits : pc < addressCount) :
    (memory.withPc pc).Sound :=
  sound.of_protects ⟨rfl, rfl, rfl, fun _ _ => rfl⟩ fits sound.frames

theorem of_touches {before after : Memory} (sound : before.Sound) (touches : before.Touches after) :
    after.Sound := by
  refine sound.of_protects (.of_touches touches) (touches.pc ▸ sound.pc) ?_
  intro frame member
  rcases List.mem_cons.mp member with rfl | caller
  · exact (sound.frames _ (List.mem_cons_self ..)).of_touches touches.frame
  · rw [touches.frames] at caller
    exact sound.frames frame (List.mem_cons_of_mem _ caller)

/-- Leaving routines moves nothing but the stack of frames. -/
theorem dropFrames {memory : Memory} (sound : memory.Sound) (count : Nat) :
    (memory.dropFrames count).Sound := by
  induction count generalizing memory with
  | zero => exact sound
  | succ count ih =>
      unfold Memory.dropFrames
      split
      · exact sound
      · rename_i caller frames present
        apply ih
        refine sound.of_protects ⟨rfl, rfl, rfl, fun _ _ => rfl⟩ sound.pc ?_
        intro frame member
        apply sound.frames frame
        rw [calls, present]
        exact List.mem_cons_of_mem _ member

theorem returned {memory : Memory} {caller : Frame} {frames : List Frame} (sound : memory.Sound)
    (callers : memory.frames = caller :: frames) (store : Option UInt8) (value : UInt16) :
    (stateAfter (storeIn store value) (memory.backIn caller frames)).Sound := by
  have back : (memory.backIn caller frames).Sound := by
    refine sound.of_protects ⟨rfl, rfl, rfl, fun _ _ => rfl⟩ ?_ ?_
    · exact (sound.frames memory.frame (List.mem_cons_self ..)).returnPc
    · intro frame member
      apply sound.frames frame
      rw [calls, callers]
      exact List.mem_cons_of_mem _ member
  exact back.of_touches (touches_storeIn store value _)

theorem of_continues {before after : Memory} {result : Option Outcome} (sound : before.Sound)
    (continues : before.Continues result after) : after.Sound := by
  cases continues with
  | fails touches => exact sound.of_touches touches
  | advances touches => exact sound.of_touches touches
  | quits touches => exact sound.of_touches touches
  | jumps touches fits => exact (sound.of_touches touches).withPc fits
  | strands count touches => exact (sound.of_touches touches).dropFrames count
  | returns count touches callers stored =>
      rw [← stateAfter_of_ok stored]
      exact ((sound.of_touches touches).dropFrames count).returned callers _ _
  | loses count touches callers refused =>
      rw [← stateAfter_of_error refused]
      exact ((sound.of_touches touches).dropFrames count).returned callers _ _

theorem inRoutine {memory : Memory} (sound : memory.Sound) {localCount : Nat}
    (few : localCount ≤ maxLocals) (returnStore : Option UInt8) :
    (memory.inRoutine localCount returnStore).Sound := by
  refine sound.of_protects ⟨rfl, rfl, rfl, fun _ _ => rfl⟩ sound.pc ?_
  intro frame member
  rcases List.mem_cons.mp member with rfl | caller
  · exact Frame.sound_called sound.pc few
  · exact sound.frames frame caller

/-- A call hands over at most seven arguments, since the first of eight operands is the routine. -/
theorem of_enters {before after : Memory} {packed : UInt16} {arguments : Nat}
    {returnStore : Option UInt8} {result : Option Outcome} (sound : before.Sound)
    (given : arguments < Operand.maxCount)
    (enters : before.Enters packed arguments returnStore result after) : after.Sound := by
  cases enters with
  | @completes middle localCount start few touches near =>
      have called := (sound.inRoutine few returnStore).of_touches touches
      have routine := Machine.unpack_lt before.version packed.toNat packed.toNat_lt
        sound.bounded.routines
      have fits : start < addressCount := by
        apply lt_addressCount
        have start : start ≤ unpack before.version packed.toNat before.header.routinesOffset + 31 :=
          near
        omega
      refine called.of_protects ⟨rfl, rfl, rfl, fun _ _ => rfl⟩ fits ?_
      intro frame member
      rcases List.mem_cons.mp member with rfl | caller
      · have inner := called.frames _ (List.mem_cons_self ..)
        exact ⟨inner.returnPc, inner.localCount, given, inner.stack, inner.unused⟩
      · exact called.frames frame (List.mem_cons_of_mem _ caller)
  | stumbles few touches => exact (sound.inRoutine few returnStore).of_touches touches

end Sound

end Memory

/-- A state of play has dynamic memory of the right size and sound frames. From version 4 on its
program counter stands just after an instruction, so that it is not zero. -/
structure Snapshot.Sound (header : Header) (snapshot : Snapshot) : Prop where
  dynamic : snapshot.dynamic.size = header.staticBase
  pc : snapshot.pc < addressCount
  past : 4 ≤ header.version → 0 < snapshot.pc
  frames : ∀ frame ∈ snapshot.frame :: snapshot.frames, frame.Sound

namespace Memory

theorem Sound.snapshot {memory : Memory} (sound : memory.Sound)
    (past : 4 ≤ memory.header.version → 0 < memory.pc) :
    memory.snapshot.Sound memory.header :=
  ⟨size_snapshot sound.mapped, sound.pc, past, sound.frames⟩

theorem Sound.restoreSnapshot {before after : Memory} {snapshot : Snapshot} (sound : before.Sound)
    (saved : snapshot.Sound before.header)
    (restored : Memory.restoreSnapshot snapshot before = .ok () after) : after.Sound := by
  have protects := protects_restoreSnapshot sound.mapped restored
  rw [restoreSnapshot_of_size saved.dynamic] at restored
  cases restored
  exact sound.of_protects protects saved.pc saved.frames

theorem Sound.restart {memory : Memory} (sound : memory.Sound) : memory.restart.Sound := by
  refine sound.of_protects (protects_restart sound.mapped) sound.initialPc ?_
  intro frame member
  cases member with
  | head => exact Frame.sound_called (by decide) (by decide)
  | tail _ none => cases none

theorem sound_of_load {settings : Settings} {image : Image} {memory : Memory}
    (loaded : load settings image = .ok memory) : memory.Sound := by
  rcases load_eq_ok loaded with ⟨checked, pristine, header, pc, frame, frames⟩
  have map := Header.map_of_check checked
  have word : ∀ address, (memory.bytes.wordAt address).toNat < 65536 := fun address =>
    (memory.bytes.wordAt address).toNat_lt
  have initialPc : memory.header.initialPc < addressCount := by
    rw [header]
    exact Nat.lt_trans (word 0x06) (by decide)
  refine ⟨mapped_of_load loaded, ?_, ?_, initialPc, pc ▸ initialPc, ?_⟩
  · rw [header]
    exact map.high
  · have field : ∀ entry : Header → Nat, entry (Header.read memory.bytes) < 65536 →
        entry memory.header < 65536 := fun _ small => header ▸ small
    exact ⟨map.small, field (·.highBase) (word _), field (·.staticBase) (word _),
      field (·.globals) (word _), field (·.routinesOffset) (word _),
      field (·.stringsOffset) (word _), field (·.dictionary) (word _)⟩
  · intro other member
    rw [calls, frame, frames, List.mem_singleton] at member
    subst member
    exact Frame.sound_called (by decide) (by decide)

end Memory

namespace Machine

variable {η : Type}

/-- The memory of the machine and all states of play that its archive holds are sound, and so are the
places that the machine knows. -/
structure Sound (machine : Machine η) : Prop where
  memory : machine.memory.Sound
  version : machine.decoder.version = machine.version
  abbreviations : machine.abbreviations.address < 65536
  objects : machine.objects.address < 65536
  dictionary : ∀ dictionary ∈ machine.dictionary, dictionary.Fits
  tables : FitTables machine.streams.tables
  archive : ∀ snapshot, machine.archive.Holds snapshot → snapshot.Sound machine.memory.header

theorem Sound.bounded {machine : Machine η} (sound : machine.Sound) : machine.Bounded :=
  ⟨sound.memory.bounded, sound.abbreviations, sound.objects, sound.dictionary, sound.tables.words⟩

theorem Sound.consistent {machine : Machine η} (sound : machine.Sound) : machine.Consistent :=
  ⟨sound.memory.mapped, sound.version⟩

/-- What is remembered of earlier lookups has no part in the bounds of a dictionary. -/
theorem fits_of_forget {before after : Option Dictionary}
    (same : after.map (·.forget) = before.map (·.forget))
    (fits : ∀ dictionary ∈ before, dictionary.Fits) : ∀ dictionary ∈ after, dictionary.Fits := by
  intro dictionary member
  rw [Option.mem_def] at member
  subst member
  cases before with
  | none => cases same
  | some earlier =>
      have forgotten : dictionary.forget = earlier.forget := Option.some.inj same
      have bounds := fits earlier rfl
      have kept : earlier.forget.Fits := ⟨bounds.entries, bounds.entryLength, bounds.size⟩
      rw [← forgotten] at kept
      exact ⟨kept.entries, kept.entryLength, kept.size⟩

/-- A machine that differs in its memory only, within the same story. -/
theorem Sound.of_alike {before after : Machine η} (sound : before.Sound) (alike : before.Alike after)
    (memory : after.memory.Sound) (header : after.memory.header = before.memory.header) :
    after.Sound where
  memory := memory
  version := by
    rw [alike.decoder, sound.version]
    exact congrArg Header.version header.symm
  abbreviations := by
    rw [alike.abbreviations]
    exact sound.abbreviations
  objects := by
    rw [alike.objects]
    exact sound.objects
  dictionary := fits_of_forget alike.dictionary.forget sound.dictionary
  tables := alike.tables sound.tables
  archive := by
    rw [alike.archive, header]
    exact sound.archive

theorem Sound.of_quiet {before after : Machine η} (sound : before.Sound)
    (quiet : before.Quiet after) : after.Sound :=
  sound.of_alike quiet.alike (sound.memory.of_touches quiet.memory) quiet.memory.header

theorem Sound.of_continues {before after : Machine η} {result : Option Outcome}
    (sound : before.Sound) (continues : before.Continues result after) : after.Sound :=
  sound.of_alike continues.alike (sound.memory.of_continues continues.memory)
    continues.memory.protects.header

theorem Sound.advance {machine : Machine η} {instruction : Instruction} {decoder : Decoder}
    (sound : machine.Sound) (decoded : machine.nextInstruction = .ok (instruction, decoder)) :
    (machine.advance instruction decoder).Sound := by
  have bounds := Decoder.bounds_of_decode decoded
  have size := sound.memory.bounded.size
  have fits : machine.memory.pc + instruction.size < addressCount := lt_addressCount (by omega)
  exact ⟨sound.memory.withPc fits, (Decoder.version_of_decode decoded).trans sound.version,
    sound.abbreviations, sound.objects, sound.dictionary, sound.tables, sound.archive⟩

theorem Sound.performs {machine ready : Machine η} {instruction : Instruction} {opcode : Opcode}
    {values : List UInt16} (sound : machine.Sound)
    (performs : machine.Performs instruction opcode values ready) : ready.Sound := by
  rcases performs with ⟨_, decoder, memory, decoded, fetched, rfl⟩
  have touched := (touches_operandValues opcode.takesVariable instruction.operands).of_ok fetched
  exact (sound.advance decoded).of_quiet (.of_memory touched)

/-- Once its operands are fetched, an instruction is behind the program counter. -/
theorem Performs.past {machine ready : Machine η} {instruction : Instruction} {opcode : Opcode}
    {values : List UInt16} (performs : machine.Performs instruction opcode values ready) :
    0 < ready.memory.pc := by
  rcases performs.prepared with ⟨decoder, _, decoded, _⟩
  have bounds := Decoder.bounds_of_decode decoded
  have moved : ready.memory.pc = machine.memory.pc + instruction.size := performs.touches.pc
  omega

theorem length_operandValues {named : Bool} {operands : List Operand} {memory after : Memory}
    {values : List UInt16} (fetched : operandValues named operands memory = .ok values after) :
    values.length = operands.length := by
  induction operands generalizing named memory values after with
  | nil =>
      cases fetched
      rfl
  | cons operand operands ih =>
      rcases bind_eq_ok.mp fetched with ⟨value, middle, _, rest⟩
      rcases bind_eq_ok.mp rest with ⟨others, last, fetched, same⟩
      cases same
      rw [List.length_cons, List.length_cons, ih fetched]

/-- There are at most eight operands, and so at most eight values. -/
theorem Performs.few {machine ready : Machine η} {instruction : Instruction} {opcode : Opcode}
    {values : List UInt16} (performs : machine.Performs instruction opcode values ready) :
    values.length ≤ Operand.maxCount := by
  rcases performs.prepared with ⟨decoder, memory, decoded, fetched, _⟩
  rw [length_operandValues fetched]
  exact Decoder.operands_of_decode decoded

/-- What the archive holds after an operation is sound. Saved states of play come from the machine
itself, once its program counter is past the saving instruction. -/
theorem Sound.archiveAfter {machine ready : Machine η} {instruction : Instruction} {opcode : Opcode}
    {values : List UInt16} (sound : machine.Sound)
    (performs : machine.Performs instruction opcode values ready) {snapshot : Snapshot}
    (held : (ready.archiveAfter instruction opcode).Holds snapshot) :
    snapshot.Sound ready.memory.header := by
  have prepared := sound.performs performs
  rcases holds_archiveAfter held with older | rfl | ⟨early, rfl⟩
  · exact prepared.archive snapshot older
  · exact prepared.memory.snapshot fun _ => performs.past
  · rcases performs.prepared with ⟨decoder, _, decoded, _⟩
    have same := (Decoder.bounds_of_decode decoded).1
    have placed : instruction.address < addressCount := same ▸ sound.memory.pc
    rw [stateToSave, if_pos early]
    refine (prepared.memory.withPc placed).snapshot fun late => ?_
    have version : ready.version = (ready.memory.withPc instruction.address).header.version := rfl
    omega

theorem fits_ofMemory {memory : Memory} {dictionary : Option Dictionary} (sound : memory.Sound)
    (read : Dictionary.ofMemory? memory = .ok dictionary) : ∀ found ∈ dictionary, found.Fits := by
  have answers := Dictionary.answers_ofMemory sound.bounded
  rw [read] at answers
  exact answers

theorem Sound.manages {machine ready after : Machine η} {instruction : Instruction}
    {opcode : Opcode} {values : List UInt16} {result : Option Outcome} (sound : machine.Sound)
    (performs : machine.Performs instruction opcode values ready)
    (manages : Manages instruction opcode ready result after) : after.Sound := by
  have prepared := sound.performs performs
  have kept : { ready with archive := ready.archiveAfter instruction opcode }.Sound :=
    ⟨prepared.memory, prepared.version, prepared.abbreviations, prepared.objects,
      prepared.dictionary, prepared.tables, fun _ held => sound.archiveAfter performs held⟩
  cases manages with
  | continues continues => exact kept.of_continues continues
  | @resumes snapshot memory decoder pc _ _ _ replaces held restored sameVersion near continues _ =>
      have protects := Memory.protects_restoreSnapshot prepared.memory.mapped restored
      have restoredSound := prepared.memory.restoreSnapshot (prepared.archive snapshot held) restored
      have placed : pc < addressCount := by
        rcases near with rfl | inside
        · exact restoredSound.pc
        · have size := restoredSound.bounded.size
          exact lt_addressCount (by omega)
      have resumed : { ready with
          memory := { memory with pc }
          decoder
          archive := ready.archiveAfter instruction opcode }.Sound := by
        refine ⟨restoredSound.withPc placed, ?_, prepared.abbreviations, prepared.objects,
          prepared.dictionary, prepared.tables, ?_⟩
        · rw [sameVersion, prepared.version]
          exact congrArg Header.version protects.header.symm
        · intro other older
          have saved := sound.archiveAfter performs older
          rw [← protects.header] at saved
          exact saved
      exact resumed.of_continues continues
  | @restarts dictionary _ restarting fresh _ =>
      have restarted := prepared.memory.restart
      have fits : ∀ found ∈ dictionary, found.Fits := by
        rcases fresh with rfl | read
        · exact prepared.dictionary
        · exact fits_ofMemory restarted read
      have header := (Memory.protects_restart prepared.memory.mapped).header
      have version : ready.decoder.reset.version = ready.memory.restart.header.version := by
        rw [header]
        exact prepared.version
      have archive : ∀ snapshot, ready.archive.Holds snapshot →
          snapshot.Sound ready.memory.restart.header := by
        rw [header]
        exact prepared.archive
      exact ⟨restarted, version, prepared.abbreviations, prepared.objects, fits,
        ⟨Nat.zero_le _, fun _ none => by cases none⟩, archive⟩

/-- Every step keeps a machine sound. -/
theorem sound_next [Host η] {machine : Machine η} (sound : machine.Sound) : machine.next.Sound := by
  cases machine.steps with
  | undecoded same _ =>
      rw [same]
      exact sound
  | unfetched decoded quiet _ => exact (sound.advance decoded).of_quiet quiet
  | @performed instruction opcode values ready performs =>
      have prepared := sound.performs performs
      rcases performs.leads with ⟨_, managed⟩ | ⟨_, proceeds⟩
      · exact sound.manages performs managed
      · rcases proceeds.memory with continues | ⟨packed, enters⟩
        · exact prepared.of_continues ⟨continues, proceeds.alike⟩
        · have given : values.tail.length < Operand.maxCount := by
            have few := performs.few
            simp only [List.length_tail, Operand.maxCount] at *
            omega
          exact prepared.of_alike proceeds.alike (prepared.memory.of_enters given enters)
            enters.protects.header

/-- A story that has just been started is sound, unless its archive brings states of play along. -/
theorem sound_of_start {settings : Settings} {image : Image} {host : η} {archive : Archive}
    {machine : Machine η} (started : start settings image host archive = .ok machine)
    (fresh : ∀ snapshot, ¬ archive.Holds snapshot) : machine.Sound := by
  have starts := starts_of_start started
  have memory := Memory.sound_of_load starts.memory
  rcases Memory.load_eq_ok starts.memory with ⟨_, _, header, _⟩
  have word : ∀ address, (machine.memory.bytes.wordAt address).toNat < 65536 := fun address =>
    (machine.memory.bytes.wordAt address).toNat_lt
  refine ⟨memory, congrArg Decoder.version starts.decoder, ?_, ?_,
    fits_ofMemory memory starts.dictionary, ?_, ?_⟩
  · rw [starts.abbreviations, AbbreviationTable.ofMemory, header]
    exact word 0x18
  · rw [starts.objects, ObjectTable.ofMemory, header]
    exact word 0x0A
  · rw [starts.streams]
    exact ⟨Nat.zero_le _, fun _ none => by cases none⟩
  · intro snapshot held
    rw [starts.archive] at held
    exact absurd held (fresh snapshot)

theorem sound_of_run [Host η] {allowed : Machine η → Prop} {machine last : Machine η}
    (sound : machine.Sound) (run : Run allowed machine last) : last.Sound :=
  run.keeps Sound sound fun _ _ middle => sound_next middle

end Machine

end ZMachine
