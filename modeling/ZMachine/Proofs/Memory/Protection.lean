import ZMachine.Proofs.Machine.Run

/-!
# Memory protection

Whatever a story does, it changes dynamic memory only. Ordinary operations check the boundary at
every store. Restoring a state of play and restarting replace dynamic memory as a whole, and stay
inside it because the memory map of a loaded story makes sense.
-/

namespace ZMachine

/-- What the checks of a header establish about the memory map of an image. -/
structure Header.Map (image : Image) : Prop where
  static : Header.size ≤ (image.wordAt 0x0E).toNat
  inside : (image.wordAt 0x0E).toNat ≤ image.size
  high : (image.wordAt 0x0E).toNat ≤ (image.wordAt 0x04).toNat
  small : image.size ≤ 512 * 1024

theorem Header.map_of_check {image : Image} (checked : Header.check image = .ok ()) :
    Header.Map image := by
  unfold Header.check at checked
  dsimp only at checked
  have largest : Header.maxStorySize (image.byteAt 0x00).toNat ≤ 512 * 1024 := by
    unfold Header.maxStorySize
    split
    · omega
    · split <;> omega
  split at checked
  · cases checked
  · split at checked
    · cases checked
    · split at checked
      · cases checked
      · split at checked
        · cases checked
        · split at checked
          · cases checked
          · exact ⟨by omega, by omega, by omega, by omega⟩

namespace Memory

/-- The memory map makes sense: dynamic memory holds the header and lies inside the file, of which
there is a loaded copy of the same size. -/
structure Mapped (memory : Memory) : Prop where
  header : Header.size ≤ memory.header.staticBase
  static : memory.header.staticBase ≤ memory.bytes.size
  pristine : memory.pristine.size = memory.bytes.size

/-- The second memory belongs to the same story as the first and has the same static and high
memory. -/
structure Protects (before after : Memory) : Prop where
  header : after.header = before.header
  pristine : after.pristine = before.pristine
  size : after.bytes.size = before.bytes.size
  fixed : ∀ address, before.header.staticBase ≤ address →
    after.bytes.byteAt address = before.bytes.byteAt address

namespace Protects

theorem refl (memory : Memory) : memory.Protects memory :=
  ⟨rfl, rfl, rfl, fun _ _ => rfl⟩

theorem trans {first second third : Memory} (earlier : first.Protects second)
    (later : second.Protects third) : first.Protects third where
  header := later.header.trans earlier.header
  pristine := later.pristine.trans earlier.pristine
  size := later.size.trans earlier.size
  fixed := by
    intro address static
    rw [later.fixed address (earlier.header ▸ static), earlier.fixed address static]

theorem symm {before after : Memory} (protects : before.Protects after) : after.Protects before where
  header := protects.header.symm
  pristine := protects.pristine.symm
  size := protects.size.symm
  fixed := fun address static => (protects.fixed address (protects.header ▸ static)).symm

theorem of_touches {before after : Memory} (touches : before.Touches after) :
    before.Protects after :=
  ⟨touches.header, touches.pristine, touches.size, touches.fixed⟩

theorem mapped {before after : Memory} (protects : before.Protects after) (mapped : before.Mapped) :
    after.Mapped where
  header := by
    rw [protects.header]
    exact mapped.header
  static := by
    rw [protects.header, protects.size]
    exact mapped.static
  pristine := by
    rw [protects.pristine, protects.size]
    exact mapped.pristine

end Protects

/-- Dropping frames leaves everything but the frames alone. -/
theorem protects_dropFrames (count : Nat) (memory : Memory) :
    memory.Protects (memory.dropFrames count) := by
  induction count generalizing memory with
  | zero => exact .refl memory
  | succ count ih =>
      unfold dropFrames
      split
      · exact .refl memory
      · rename_i caller frames _
        have left : memory.Protects { memory with frame := caller, frames } :=
          ⟨rfl, rfl, rfl, fun _ _ => rfl⟩
        exact left.trans (ih _)

theorem Continues.protects {before after : Memory} {result : Option Outcome}
    (continues : before.Continues result after) : before.Protects after := by
  have left : ∀ {middle : Memory} {caller : Frame} {frames : List Frame} {value : UInt16}
      (count : Nat), before.Touches middle →
      before.Protects (stateAfter (storeIn (middle.dropFrames count).frame.returnStore value)
        ((middle.dropFrames count).backIn caller frames)) := by
    intro middle caller frames value count touches
    have dropped := (Protects.of_touches touches).trans (protects_dropFrames count middle)
    have back : before.Protects ((middle.dropFrames count).backIn caller frames) :=
      dropped.trans ⟨rfl, rfl, rfl, fun _ _ => rfl⟩
    exact back.trans (.of_touches (touches_storeIn _ value _))
  cases continues with
  | fails touches => exact .of_touches touches
  | advances touches => exact .of_touches touches
  | quits touches => exact .of_touches touches
  | jumps touches _ =>
      exact (Protects.of_touches touches).trans ⟨rfl, rfl, rfl, fun _ _ => rfl⟩
  | strands count touches =>
      exact (Protects.of_touches touches).trans (protects_dropFrames count _)
  | returns count touches _ stored =>
      rw [← stateAfter_of_ok stored]
      exact left count touches
  | loses count touches _ refused =>
      rw [← stateAfter_of_error refused]
      exact left count touches

theorem Enters.protects {before after : Memory} {packed : UInt16} {arguments : Nat}
    {returnStore : Option UInt8} {result : Option Outcome}
    (enters : before.Enters packed arguments returnStore result after) : before.Protects after := by
  have called : ∀ localCount, before.Protects (before.inRoutine localCount returnStore) :=
    fun _ => ⟨rfl, rfl, rfl, fun _ _ => rfl⟩
  cases enters with
  | completes _ touches _ =>
      exact ((called _).trans (.of_touches touches)).trans ⟨rfl, rfl, rfl, fun _ _ => rfl⟩
  | stumbles _ touches => exact (called _).trans (.of_touches touches)

/-- A state of play that fits replaces dynamic memory and nothing else. -/
theorem protects_restoreSnapshot {snapshot : Snapshot} {before after : Memory}
    (mapped : before.Mapped) (restored : restoreSnapshot snapshot before = .ok () after) :
    before.Protects after := by
  unfold restoreSnapshot at restored
  split at restored
  · cases restored
  · rename_i fits
    rw [Decidable.not_not] at fits
    cases restored
    have inside : snapshot.dynamic.size ≤ before.bytes.size := fits ▸ mapped.static
    refine ⟨rfl, rfl, Image.size_withStart inside, ?_⟩
    intro address static
    exact Image.byteAt_withStart_of_le inside (fits ▸ static)

theorem protects_restart {memory : Memory} (mapped : memory.Mapped) :
    memory.Protects memory.restart := by
  have dynamicSize : (memory.pristine.extract 0 memory.header.staticBase).size =
      memory.header.staticBase := by
    have := mapped.static
    have := mapped.pristine
    simp only [Array.size_extract]
    omega
  have inside : (memory.pristine.extract 0 memory.header.staticBase).size ≤ memory.bytes.size := by
    rw [dynamicSize]
    exact mapped.static
  refine ⟨by simp only [restart], by simp only [restart], ?_, ?_⟩
  · simp only [restart, Image.size_setByte, Image.size_withStart inside]
  · intro address static
    have surviving : survivingAddress ≠ address := by
      have := mapped.header
      simp only [survivingAddress, Header.flags2Address, Header.size] at *
      omega
    simp only [restart, Image.byteAt_setByte_of_ne surviving]
    exact Image.byteAt_withStart_of_le inside (by omega)

/-- A loaded story is an image that passes all checks, and its own pristine copy. No routine is
running in it yet. -/
theorem load_eq_ok {settings : Settings} {image : Image} {memory : Memory}
    (loaded : load settings image = .ok memory) :
    Header.check memory.bytes = .ok () ∧ memory.pristine = memory.bytes ∧
      memory.header = Header.read memory.bytes ∧ memory.pc = memory.header.initialPc ∧
      memory.frame = {} ∧ memory.frames = [] := by
  unfold load Header.parse at loaded
  cases first : Header.check image with
  | error fault => simp [first, bind, Except.bind] at loaded
  | ok _ =>
      generalize Header.normalize settings image = story at loaded
      cases second : Header.check story with
      | error fault => simp [first, second, bind, Except.bind] at loaded
      | ok _ =>
          simp only [first, second, bind, Except.bind, pure, Except.pure, Except.ok.injEq] at loaded
          subst loaded
          exact ⟨second, rfl, rfl, rfl, rfl, rfl⟩

/-- The memory map of a loaded story makes sense. -/
theorem mapped_of_load {settings : Settings} {image : Image} {memory : Memory}
    (loaded : load settings image = .ok memory) : memory.Mapped := by
  rcases load_eq_ok loaded with ⟨checked, pristine, header, _⟩
  have map := Header.map_of_check checked
  have static : memory.header.staticBase = (memory.bytes.wordAt 0x0E).toNat := by
    rw [header, Header.read]
  exact ⟨static ▸ map.static, static ▸ map.inside, by rw [pristine]⟩

end Memory

namespace Machine

variable {η : Type}

theorem protects_manages {instruction : Instruction} {opcode : Opcode} {before after : Machine η}
    {result : Option Outcome} (mapped : before.memory.Mapped)
    (manages : Manages instruction opcode before result after) :
    before.memory.Protects after.memory := by
  cases manages with
  | continues continues => exact continues.memory.protects
  | @resumes _ memory _ pc _ _ _ _ _ restored _ _ continues _ =>
      have restored := Memory.protects_restoreSnapshot mapped restored
      have moved : memory.Protects { memory with pc } := ⟨rfl, rfl, rfl, fun _ _ => rfl⟩
      exact (restored.trans moved).trans continues.memory.protects
  | restarts _ _ _ => exact Memory.protects_restart mapped

/-- No step changes static memory, high memory or what is known of the loaded story. -/
theorem protects_next [Host η] {machine : Machine η} (mapped : machine.memory.Mapped) :
    machine.memory.Protects machine.next.memory := by
  have advanced : ∀ pc, machine.memory.Protects (machine.memory.withPc pc) := fun _ =>
    ⟨rfl, rfl, rfl, fun _ _ => rfl⟩
  cases machine.steps with
  | undecoded same _ =>
      rw [same]
      exact .refl machine.memory
  | unfetched _ quiet _ => exact (advanced _).trans (.of_touches quiet.memory)
  | @performed instruction opcode values ready performs =>
      have prepared := (advanced _).trans (.of_touches performs.touches)
      rcases performs.leads with ⟨_, managed⟩ | ⟨_, proceeds⟩
      · exact prepared.trans (protects_manages (prepared.mapped mapped) managed)
      · rcases proceeds.memory with continues | ⟨packed, enters⟩
        · exact prepared.trans continues.protects
        · exact prepared.trans enters.protects

/-- How a machine is put together when a story is loaded. -/
structure Starts (settings : Settings) (image : Image) (archive : Archive) (machine : Machine η) :
    Prop where
  memory : Memory.load settings image = .ok machine.memory
  codec : Codec.ofMemory machine.memory = .ok machine.codec
  decoder : machine.decoder = { version := machine.version }
  abbreviations : machine.abbreviations = .ofMemory machine.memory
  objects : machine.objects = .ofMemory machine.memory
  dictionary : Dictionary.ofMemory? machine.memory = .ok machine.dictionary
  archive : machine.archive = archive
  streams : machine.streams = {}

theorem starts_of_start {settings : Settings} {image : Image} {host : η} {archive : Archive}
    {machine : Machine η} (started : start settings image host archive = .ok machine) :
    machine.Starts settings image archive := by
  unfold start at started
  cases loaded : Memory.load settings image with
  | error fault => simp [loaded, bind, Except.bind] at started
  | ok memory =>
      cases coded : Codec.ofMemory memory with
      | error fault => simp [loaded, coded, bind, Except.bind] at started
      | ok codec =>
          cases read : Dictionary.ofMemory? memory with
          | error fault => simp [loaded, coded, read, bind, Except.bind] at started
          | ok dictionary =>
              simp only [loaded, coded, read, bind, Except.bind, pure, Except.pure,
                Except.ok.injEq] at started
              subst started
              exact ⟨loaded, coded, rfl, rfl, rfl, read, rfl, rfl⟩

/-- Whatever a story is told and however its steps end, its static and high memory stay as they were
loaded, and so do the length of its image, its header and its pristine copy. -/
theorem static_memory_unchanged [Host η] {settings : Settings} {image : Image} {host : η}
    {archive : Archive} {machine last : Machine η}
    (started : start settings image host archive = .ok machine)
    (run : Run (fun _ => True) machine last) :
    (∀ address, machine.memory.header.staticBase ≤ address →
      last.memory.bytes.byteAt address = machine.memory.bytes.byteAt address) ∧
    last.memory.bytes.size = machine.memory.bytes.size ∧
    last.memory.header = machine.memory.header ∧
    last.memory.pristine = machine.memory.pristine := by
  have mapped := Memory.mapped_of_load (starts_of_start started).memory
  have protects : machine.memory.Protects last.memory := by
    refine run.keeps (fun middle => machine.memory.Protects middle.memory) (.refl _) ?_
    intro middle _ earlier
    exact earlier.trans (protects_next (earlier.mapped mapped))
  exact ⟨protects.fixed, protects.size, protects.header, protects.pristine⟩

/-- A story stores 7 in its last byte of dynamic memory, and tries the same with the byte after. -/
theorem static_memory_unchanged_sample :
    let machine := sample 3 [0xE2, 0x57, 79, 0, 7, 0xE2, 0x57, 80, 0, 7] (.empty 8)
    start {} (.sample 3 [0xE2, 0x57, 79, 0, 7, 0xE2, 0x57, 80, 0, 7]) .silent (.empty 8) =
        .ok machine ∧
      machine.next.memory.bytes.byteAt 79 = 7 ∧
      machine.next.next.memory.bytes.byteAt 79 = 7 ∧
      machine.next.next.memory.bytes.byteAt 80 = machine.memory.bytes.byteAt 80 := by
  intro machine
  have started : start {} (.sample 3 [0xE2, 0x57, 79, 0, 7, 0xE2, 0x57, 80, 0, 7]) .silent
      (.empty 8) = .ok machine := rfl
  refine ⟨started, by decide +kernel, by decide +kernel, ?_⟩
  exact (static_memory_unchanged started (.step (.step .refl trivial) trivial)).1 80 (by decide)

end Machine

end ZMachine
